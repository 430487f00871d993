/-
Finding the matches of a pattern in a list, from left to right.

A pattern looks at the front of a list and answers with a value and the number of items it covers.
Matches do not overlap: after one, the scan goes on behind it; where there is none, one item is
passed over.  The count of items still to be passed over makes the scan structural.
-/
namespace WikiMigration.Text

/-- A pattern: what it reads at the front of a list, and how many items that covers. -/
abbrev Pattern (ι α : Type) := List ι → Option (α × Nat)

/-- A part of a scanned list: an item that no match covers, or a match. -/
inductive Part (ι α : Type) where
  | item (x : ι)
  | found (a : α)

/-- The parts of the list behind the next `skip` items. -/
def partsFrom {ι α : Type} (pattern : Pattern ι α) : Nat → List ι → List (Part ι α)
  | _, [] => []
  | skip + 1, _ :: rest => partsFrom pattern skip rest
  | 0, x :: rest =>
    match pattern (x :: rest) with
    | some (a, covered) => .found a :: partsFrom pattern (covered - 1) rest
    | none => .item x :: partsFrom pattern 0 rest

/-- The parts of a list: its matches, from left to right, and the items between them. -/
def parts {ι α : Type} (pattern : Pattern ι α) (items : List ι) : List (Part ι α) :=
  partsFrom pattern 0 items

/-- The list with every match replaced. -/
def substitute {ι α : Type} (pattern : Pattern ι α) (replacement : α → List ι)
    (items : List ι) : List ι :=
  (parts pattern items).flatMap fun part =>
    match part with
    | .item x => [x]
    | .found a => replacement a

/-- The value of the first match, if there is one. -/
def firstMatch? {ι α : Type} (pattern : Pattern ι α) (items : List ι) : Option α :=
  (parts pattern items).findSome? fun part =>
    match part with
    | .item _ => none
    | .found a => some a

end WikiMigration.Text
