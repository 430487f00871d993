/-
The cells of a table row.

One bar starts a data cell, two bars a header cell.  A bar inside a link, or behind a tilde, is
part of its cell.  What stands before the first bar is no cell, and a last cell of blanks is none
either: it is the bar that closes the row.
-/
import WikiMigration.Text.Lines

namespace WikiMigration.Wiki

open Text

/-- A cell of a table row. -/
structure Cell where
  /-- Whether two bars start the cell. -/
  isHeader : Bool
  content : List Char
  deriving DecidableEq, Repr

/-- The last cell of a row, unless it holds blanks only.  `cell` is its kind and `read` its content,
last character first. -/
def lastCell (cell : Option Bool) (read : List Char) : List Cell :=
  match cell with
  | none => []
  | some isHeader => if isBlankText read then [] else [⟨isHeader, read.reverse⟩]

/-- The cell that a bar ends, if one was open. -/
def endedCell (cell : Option Bool) (read : List Char) : List Cell :=
  match cell with
  | none => []
  | some isHeader => [⟨isHeader, read.reverse⟩]

/-- The cells of the rest of a row.  `depth` counts the open brackets, `cell` is the kind of the
open cell, and `read` what it holds so far, last character first. -/
def cellsFrom (depth : Nat) (cell : Option Bool) (read : List Char) : List Char → List Cell
  | [] => lastCell cell read
  | '~' :: '|' :: rest => cellsFrom depth cell ('|' :: '~' :: read) rest
  | '|' :: '|' :: rest =>
    if depth == 0 then endedCell cell read ++ cellsFrom 0 (some true) [] rest
    else cellsFrom depth cell ('|' :: '|' :: read) rest
  | '|' :: rest =>
    if depth == 0 then endedCell cell read ++ cellsFrom 0 (some false) [] rest
    else cellsFrom depth cell ('|' :: read) rest
  | c :: rest =>
    let depth := if c == '[' then depth + 1 else if c == ']' then depth - 1 else depth
    cellsFrom depth cell (c :: read) rest

/-- The cells of a table row. -/
def splitRow (row : List Char) : List Cell :=
  cellsFrom 0 none [] row

end WikiMigration.Wiki
