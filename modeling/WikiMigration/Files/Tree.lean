/-
Trees of files.

A tree says what stands at which place: a file with its bytes, a directory, or a link with the text of
its target.  A place is the list of the names that lead to it from the root, which is a directory.  The
tree is kept as the list of what stands where; what stands within a directory is what stands at the
places one name further on.
-/
namespace WikiMigration.Files

/-- The name of a file or a directory. -/
abbrev Name := List Char

/-- Names are in the order of their characters. -/
instance : LE Name := List.instLE

/-- A place: the names from the root. -/
abbrev Location := List Name

/-- The bytes of a file. -/
abbrev Bytes := List UInt8

/-- What stands at a place. -/
inductive Entry where
  | file (bytes : Bytes)
  | directory
  | link (target : List Char)
  deriving DecidableEq, Repr

/-- A tree of files. -/
structure Tree where
  entries : List (Location × Entry) := []
  deriving DecidableEq, Repr

/-- Whether a place is a directory's own or lies within it. -/
def isWithin (directory place : Location) : Bool := directory.isPrefixOf place

namespace Tree

/-- What stands at a place. -/
def at? (tree : Tree) : Location → Option Entry
  | [] => some .directory
  | place => tree.entries.lookup place

/-- The entries with what stands at a place set. -/
def putIn (place : Location) (entry : Entry) : List (Location × Entry) → List (Location × Entry)
  | [] => [(place, entry)]
  | (other, old) :: rest =>
    if other = place then (place, entry) :: rest else (other, old) :: putIn place entry rest

/-- The tree with what stands at a place set. -/
def put (tree : Tree) (place : Location) (entry : Entry) : Tree :=
  ⟨putIn place entry tree.entries⟩

/-- The tree with what stands at a place set, and with directories on the way there where there was
nothing. -/
def plant (tree : Tree) (place : Location) (entry : Entry) : Tree :=
  let way := (List.range place.length).map fun n => place.take n
  let bare := way.filter fun directory => (tree.at? directory).isNone
  (bare.foldl (fun tree directory => tree.put directory .directory) tree).put place entry

/-- The tree without what stands at a place and within it. -/
def cut (tree : Tree) (place : Location) : Tree :=
  ⟨tree.entries.filter fun e => !isWithin place e.1⟩

/-- The name of a place within a directory, if the place is one name further on. -/
def nameWithin? : Location → Location → Option Name
  | [], [name] => some name
  | d :: directory, p :: place => if d = p then nameWithin? directory place else none
  | _, _ => none

/-- The names of what stands within a directory, in the order of their characters. -/
def names (tree : Tree) (directory : Location) : List Name :=
  (tree.entries.filterMap fun e => nameWithin? directory e.1).mergeSort fun a b => decide (a ≤ b)

end Tree

/-! ### What leads from one tree to another

What is gone is removed from the innermost place outwards, and what is new or different is made from
the outermost place inwards, so that each patch finds the directory it needs.
-/

/-- A step from one tree to another. -/
inductive Patch where
  | remove (place : Location) (old : Entry)
  | make (place : Location) (entry : Entry)
  deriving DecidableEq, Repr

/-- The entries with the outermost places first. -/
def outermostFirst (entries : List (Location × Entry)) : List (Location × Entry) :=
  entries.mergeSort fun a b => decide (a.1.length ≤ b.1.length)

/-- Whether something takes the place of another thing that has to be removed first: a file may be
written over a file and nothing else over anything. -/
def mustGo (old : Entry) : Option Entry → Bool
  | none => true
  | some entry =>
    match old, entry with
    | .file _, .file _ => false
    | .directory, .directory => false
    | old, entry => old != entry

/-- The patches that lead from one tree to another. -/
def difference (before after : Tree) : List Patch :=
  let gone := before.entries.filter fun (place, old) => mustGo old (after.at? place)
  let new := after.entries.filter fun (place, entry) => before.at? place != some entry
  (outermostFirst gone).reverse.map (fun (place, old) => .remove place old)
    ++ (outermostFirst new).map fun (place, entry) => .make place entry

end WikiMigration.Files
