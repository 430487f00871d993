/-
Where a path leads.

A path is walked name by name, and every name but the last must be that of a directory, or of a link
that leads to one.  The name that is last may be that of nothing.  A link is followed by walking its
target from where it stands; forty links are followed at most.
-/
import WikiMigration.Files.Fault
import WikiMigration.Files.Tree
import WikiMigration.Text.Utf8

namespace WikiMigration.Files

/-- The number of bytes that a name may have. -/
def longestName : Nat := 255

/-- Whether a name is too long. -/
def isTooLong (name : Name) : Bool := longestName < (Text.Utf8.encode name).length

/-- The number of links that a walk may follow. -/
def mostLinks : Nat := 40

/-- How a walk without links ends. -/
inductive Walk where
  /-- At a place, where there may be nothing. -/
  | arrived (place : Location)
  /-- At a link that stands within a directory, with names still to go. -/
  | diverted (directory : Location) (target : List Char) (rest : List Name)
  | blocked (fault : Fault)

namespace Tree

/-- Walks from a directory up to the first link to be followed. -/
def walk (tree : Tree) (followLast : Bool) (here : Location) : List Name → Walk
  | [] => .arrived here
  | name :: rest =>
    if name = [] ∨ name = ['.'] then tree.walk followLast here rest
    else if name = ['.', '.'] then tree.walk followLast here.dropLast rest
    else if isTooLong name then .blocked .nameTooLong
    else
      let place := here ++ [name]
      match tree.at? place with
      | none => if rest.isEmpty then .arrived place else .blocked .missing
      | some .directory => tree.walk followLast place rest
      | some (.file _) => if rest.isEmpty then .arrived place else .blocked .notDirectory
      | some (.link target) =>
        if rest.isEmpty && !followLast then .arrived place else .diverted here target rest

/-- Walks from a directory, following as many links as given. -/
def follow (tree : Tree) (followLast : Bool) (links : Nat) (here : Location)
    (names : List Name) : Except Fault Location :=
  match tree.walk followLast here names with
  | .arrived place => .ok place
  | .blocked fault => .error fault
  | .diverted directory target rest =>
    match links with
    | 0 => .error .tooManyLinks
    | links + 1 =>
      let start := if target.head? == some '/' then [] else directory
      tree.follow followLast links start (Text.splitAt '/' target ++ rest)

/-- The place that a path leads to, over a link at its end. -/
def locate (tree : Tree) (path : Path) : Except Fault Location :=
  tree.follow true mostLinks [] path.names

/-- The place that a path leads to, be there a link at its end. -/
def locateSelf (tree : Tree) (path : Path) : Except Fault Location :=
  tree.follow false mostLinks [] path.names

/-- What a path leads to; there is a fault if it leads to nothing. -/
def find (tree : Tree) (path : Path) : Except Fault Entry := do
  match tree.at? (← tree.locate path) with
  | some entry => return entry
  | none => throw .missing

/-- What a path leads to, if it leads to anything.  A name that is too long is a fault all the
same. -/
def find? (tree : Tree) (path : Path) : Except Fault (Option Entry) :=
  match tree.find path with
  | .ok entry => .ok (some entry)
  | .error .nameTooLong => .error .nameTooLong
  | .error _ => .ok none

end Tree

end WikiMigration.Files
