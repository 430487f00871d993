/-
Tables, put together from the texts of their cells.

A Markdown table is rectangular: every row is filled up to the width of the widest one, and a line of
dashes stands below the first.  A wiki table marks each cell as a heading's or not and leaves its
rows as long as they are.
-/
import WikiMigration.Text.Lines

namespace WikiMigration.Writing

open Text

/-- A cell that has been written: whether it is a heading's, and its text on one line. -/
structure WrittenCell where
  isHeader : Bool
  text : List Char
  deriving DecidableEq, Repr

/-- A row of cells. -/
abbrev WrittenRow := List WrittenCell

/-- The text of a cell: on one line, with a backslash before every bar. -/
def cellText (text : List Char) : List Char :=
  replaceAll ['|'] "\\|".toList (trim (collapseBlanks text))

/-- The rows of a table that have cells. -/
def filledRows (rows : List WrittenRow) : List WrittenRow :=
  rows.filter fun row => !row.isEmpty

/-- The number of cells in the widest row. -/
def tableWidth (rows : List WrittenRow) : Nat :=
  rows.foldr (fun row width => max row.length width) 0

/-- A line of a Markdown table. -/
def markdownRow (cells : List (List Char)) : List Char :=
  "| ".toList ++ joinWith " | ".toList cells ++ " |".toList

/-- The texts of a row, filled up to a width. -/
def paddedRow (width : Nat) (row : WrittenRow) : List (List Char) :=
  row.map WrittenCell.text ++ List.replicate (width - row.length) []

/-- The lines of a Markdown table. -/
def markdownTableLines (rows : List WrittenRow) : List (List Char) :=
  let width := tableWidth rows
  match rows with
  | [] => []
  | first :: rest =>
    markdownRow (paddedRow width first) :: markdownRow (List.replicate width "---".toList)
      :: rest.map fun row => markdownRow (paddedRow width row)

/-- A Markdown table; nothing without cells. -/
def markdownTable (rows : List WrittenRow) : List Char :=
  let lines := markdownTableLines (filledRows rows)
  if lines.isEmpty then [] else "\n\n".toList ++ unlines lines ++ "\n\n".toList

/-- A cell of a wiki table: its bars are made literal by a tilde. -/
def wikiCell (cell : WrittenCell) : List Char :=
  (if cell.isHeader then "||".toList else ['|']) ++ ' '
    :: replaceAll "\\|".toList "~|".toList cell.text ++ [' ']

/-- A line of a wiki table. -/
def wikiRow (row : WrittenRow) : List Char := trimRight (row.flatMap wikiCell)

/-- A wiki table; nothing without cells. -/
def wikiTable (rows : List WrittenRow) : List Char :=
  let lines := (filledRows rows).map wikiRow
  if lines.isEmpty then [] else "\n\n".toList ++ unlines lines ++ "\n\n".toList

end WikiMigration.Writing
