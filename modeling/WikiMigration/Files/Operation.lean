/-
Operations on trees of files.

Each gives the changed tree, or the fault with the path it is about; where an operation has parts, the
tree is given in both cases.
-/
import WikiMigration.Files.Walk

namespace WikiMigration.Files

/-- What an operation gives. -/
abbrev Result := Except FileError

/-- A fault about a path. -/
def about {α : Type} (path : Path) (result : Except Fault α) : Result α :=
  result.mapError fun fault => ⟨fault, path, none⟩

/-- The path one name further up; the root is its own parent. -/
def parent (path : Path) : Path := { path with names := path.names.dropLast }

namespace Tree

/-! ### Looking -/

/-- Whether there is anything at the path. -/
def isThere (tree : Tree) (path : Path) : Result Bool :=
  about path ((tree.find? path).map Option.isSome)

/-- Whether there is a directory at the path. -/
def isDirectory (tree : Tree) (path : Path) : Result Bool :=
  about path ((tree.find? path).map (· == some .directory))

/-- Whether there is a file at the path. -/
def isFile (tree : Tree) (path : Path) : Result Bool :=
  about path ((tree.find? path).map fun entry => match entry with
    | some (.file _) => true
    | _ => false)

/-- The names within the directory at the path, in order. -/
def list (tree : Tree) (path : Path) : Result (List Name) := about path do
  let place ← tree.locate path
  match tree.at? place with
  | some .directory => return tree.names place
  | some _ => throw .notDirectory
  | none => throw .missing

/-- The bytes of the file at the path. -/
def read (tree : Tree) (path : Path) : Result Bytes := about path do
  match ← tree.find path with
  | .file bytes => return bytes
  | _ => throw .isDirectory

/-- The size that the system gives for a directory. -/
def directorySize : Nat := 4096

/-- The size of what is at the path; nothing has no size. -/
def size (tree : Tree) (path : Path) : Nat :=
  match tree.find path with
  | .ok (.file bytes) => bytes.length
  | .ok _ => directorySize
  | .error _ => 0

/-! ### Changing -/

/-- Makes a directory, where nothing may be yet. -/
def makeDirectory (tree : Tree) (path : Path) : Result Tree := about path do
  let place ← tree.locateSelf path
  match tree.at? place with
  | some _ => throw .alreadyThere
  | none => return tree.put place .directory

/-- The tree as it is if there is a directory at the path, and the error if there is not. -/
def unlessDirectory (tree : Tree) (path : Path) (e : FileError) : Option FileError × Tree :=
  match tree.isDirectory path with
  | .ok true => (none, tree)
  | .ok false => (some e, tree)
  | .error e => (some e, tree)

/-- Makes a directory and those it stands in; those that are there already are left alone, and those
that were made before a fault stay.  `depth` bounds the number of directories. -/
def makeDirectoriesTo (depth : Nat) (tree : Tree) (path : Path) : Option FileError × Tree :=
  match tree.makeDirectory path with
  | .ok tree => (none, tree)
  | .error e =>
    if e.fault == .missing then
      match depth with
      | 0 => (some e, tree)
      | depth + 1 =>
        match makeDirectoriesTo depth tree (parent path) with
        | (some e, tree) => (some e, tree)
        | (none, tree) =>
          match tree.makeDirectory path with
          | .ok tree => (none, tree)
          | .error e =>
            if e.fault == .missing then (some e, tree) else tree.unlessDirectory path e
    else tree.unlessDirectory path e

/-- Makes a directory and those it stands in, as far as they are not there. -/
def makeDirectories (tree : Tree) (path : Path) : Option FileError × Tree :=
  makeDirectoriesTo path.names.length tree path

/-- Writes a file anew: the bytes take the place of those it has. -/
def write (tree : Tree) (path : Path) (bytes : Bytes) : Result Tree := about path do
  let place ← tree.locate path
  match tree.at? place with
  | some .directory => throw .isDirectory
  | _ => return tree.put place (.file bytes)

/-- Writes bytes at the end of a file, which is made if need be. -/
def append (tree : Tree) (path : Path) (bytes : Bytes) : Result Tree := about path do
  let place ← tree.locate path
  match tree.at? place with
  | some .directory => throw .isDirectory
  | some (.file old) => return tree.put place (.file (old ++ bytes))
  | _ => return tree.put place (.file bytes)

/-- Puts a file in the place of another path. -/
def replace (tree : Tree) (source target : Path) : Result Tree :=
  let both {α : Type} (result : Except Fault α) : Result α :=
    result.mapError fun fault => ⟨fault, source, some target⟩
  both do
    let here ← tree.locateSelf source
    match tree.at? here with
    | none => throw .missing
    | some entry =>
      let there ← tree.locateSelf target
      if here = there then return tree
      else if tree.at? there = some .directory then throw .isDirectory
      else return (tree.cut here).put there entry

/-- Removes the file or the link at the path. -/
def remove (tree : Tree) (path : Path) : Result Tree := about path do
  let place ← tree.locateSelf path
  match tree.at? place with
  | none => throw .missing
  | some .directory => throw .isDirectory
  | some _ => return tree.cut place

/-- Removes what is at the path with everything in it; links in it are not followed. -/
def removeAll (tree : Tree) (path : Path) : Result Tree := about path do
  let place ← tree.locateSelf path
  match tree.at? place with
  | none => throw .missing
  | some _ => return tree.cut place

end Tree

end WikiMigration.Files
