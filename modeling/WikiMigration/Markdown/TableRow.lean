/-
The rows of a Markdown table.

Bars divide a row into cells, except a bar behind a backslash and one within a run of code; a bar at
either end of the row is its border.  The line under the head tells how each column is aligned.
-/
import WikiMigration.Text.Lines

namespace WikiMigration.Markdown

open Text

/-- What matters in a row for where its cells end; positions count from the start of the row. -/
inductive RowSign where
  | bar (position : Nat)
  /-- A run of backticks: its ends, its length, and whether a backslash stands before it. -/
  | ticks (first last length : Nat) (isEscaped : Bool)
  deriving DecidableEq, Repr

/-- The signs of a row from a position on.  `skip` counts the characters still to be passed over. -/
def rowSignsFrom (position : Nat) : Nat → List Char → List RowSign
  | _, [] => []
  | skip + 1, _ :: rest => rowSignsFrom (position + 1) skip rest
  | 0, '\\' :: rest =>
    match rest with
    | '\\' :: _ => rowSignsFrom (position + 1) 1 rest
    | '|' :: _ => rowSignsFrom (position + 1) 1 rest
    | _ =>
      let n := (rest.takeWhile (· == '`')).length
      if n == 0 then rowSignsFrom (position + 1) 0 rest
      else .ticks position (position + n) n true :: rowSignsFrom (position + 1) n rest
  | 0, '`' :: rest =>
    let n := (rest.takeWhile (· == '`')).length
    .ticks position (position + n) (n + 1) false :: rowSignsFrom (position + 1) n rest
  | 0, '|' :: rest => .bar position :: rowSignsFrom (position + 1) 0 rest
  | 0, _ :: rest => rowSignsFrom (position + 1) 0 rest

/-- The runs of backticks of a row: ends, length, and whether a backslash stands before. -/
def tickRuns (signs : List RowSign) : List (Nat × Nat × Nat × Bool) :=
  signs.filterMap fun
    | .ticks first last length isEscaped => some (first, last, length, isEscaped)
    | .bar _ => none

/-- Where the run that closes code of the given length ends, and the runs behind it. -/
def closingRun? (length : Nat) :
    List (Nat × Nat × Nat × Bool) → Option (Nat × List (Nat × Nat × Nat × Bool))
  | [] => none
  | (_, last, n, _) :: rest => if n == length then some (last, rest) else closingRun? length rest

/-- The stretches of code in a row.  `fuel` bounds the number of runs. -/
def codeStretches (fuel : Nat) (runs : List (Nat × Nat × Nat × Bool)) : List (Nat × Nat) :=
  match fuel, runs with
  | 0, _ => []
  | _, [] => []
  | fuel + 1, (first, _, n, isEscaped) :: rest =>
    let length := if isEscaped then n - 1 else n
    if length == 0 then codeStretches fuel rest
    else
      match closingRun? length rest with
      | some (last, behind) => (first, last) :: codeStretches fuel behind
      | none => codeStretches fuel rest

/-- The pieces of a text between the given positions, which grow. -/
def piecesAt (start : Nat) : List Nat → List Char → List (List Char)
  | [], text => [text]
  | p :: rest, text => text.take (p - start) :: piecesAt (p + 1) rest (text.drop (p + 1 - start))

/-- The cells of a row without its border. -/
def bareCells (row : List Char) : List (List Char) :=
  let signs := rowSignsFrom 0 0 row
  let code := codeStretches signs.length (tickRuns signs)
  let bars := signs.filterMap fun
    | .bar p => if code.any fun (first, last) => first ≤ p && p ≤ last then none else some p
    | .ticks _ _ _ _ => none
  piecesAt 0 bars row

/-- Whether a row ends with a bar that no backslash takes away. -/
def endsWithBar (row : List Char) : Bool :=
  match row.reverse with
  | '|' :: rest => (rest.takeWhile (· == '\\')).length % 2 == 0
  | _ => false

/-- The cells of a row; a border is only taken off where the table has one. -/
def tableCells (hasBorder : Bool) (row : List Char) : List (List Char) :=
  if hasBorder then
    let row := match row with
      | '|' :: rest => rest
      | row => row
    bareCells (if endsWithBar row then row.dropLast else row)
  else bareCells row

/-- How a column is aligned. -/
inductive Alignment where
  | left
  | center
  | right
  deriving DecidableEq, Repr

/-- The name of the alignment. -/
def Alignment.name : Alignment → String
  | .left => "left"
  | .center => "center"
  | .right => "right"

/-- The alignment that a cell of the line under the head asks for. -/
def alignment? (cell : List Char) : Option Alignment :=
  let cell := trimWith (· == ' ') cell
  match startsWith [':'] cell, endsWith [':'] cell with
  | true, true => some .center
  | true, false => some .left
  | false, true => some .right
  | false, false => none

/-- The head of a table: whether it has a border, and the alignment of its columns. -/
structure TableHead where
  hasBorder : Bool
  columns : List (Option Alignment)

/-- The head of the table that the lines begin, if they begin one. -/
def tableHead? (ls : List (List Char)) : Option TableHead :=
  let rows := ls.map (trimWith (· == ' '))
  match rows with
  | head :: second :: rest =>
    let isBordered (row : List Char) : Bool := startsWith ['|'] row || endsWithBar row
    let hasBorder := isBordered head
    let width := (tableCells hasBorder head).length
    let isTable := 1 < width || (width == 1 && hasBorder && (second :: rest).all isBordered)
    let separator := tableCells hasBorder second
    let isSeparator := separator.length == width
      && separator.flatten.all fun c => c == '|' || c == ':' || c == '-' || c == ' '
    if isTable && isSeparator then some ⟨hasBorder, separator.map alignment?⟩ else none
  | _ => none

end WikiMigration.Markdown
