/-
Elements that both dialects write alike.

What an element becomes is a function of its text, which is already written, and of where it stands.
-/
import WikiMigration.Text.Lines
import WikiMigration.Writing.Escape
import WikiMigration.Writing.Place

namespace WikiMigration.Writing

open Text Html

/-! ### Markup around text within a line

Blanks at the ends of a marked text go outside its marks, one at each side, and a text of blanks
only gets no marks at all.
-/

/-- A text without the blanks at its ends, and what remains of them outside. -/
structure Chomped where
  before : List Char
  text : List Char
  after : List Char
  deriving DecidableEq, Repr

/-- A space for the end of a text, if it has one there. -/
def endSpace (c : Option Char) : List Char := if c == some ' ' then [' '] else []

/-- Takes the blanks off the ends of a text; of those, a space at an end is kept outside. -/
def chomp (text : List Char) : Chomped :=
  ⟨endSpace text.head?, trim text, endSpace text.getLast?⟩

/-- The text put between its outer blanks. -/
def Chomped.around (chomped : Chomped) (text : List Char) : List Char :=
  chomped.before ++ text ++ chomped.after

/-- The text between two marks, inside its outer blanks; nothing for a text of blanks. -/
def enclose (opening closing : List Char) (text : List Char) : List Char :=
  let chomped := chomp text
  if chomped.text.isEmpty then []
  else chomped.around (opening ++ chomped.text ++ closing)

/-- The text between two equal marks. -/
def mark (sign : String) (text : List Char) : List Char := enclose sign.toList sign.toList text

/-! ### Joining blocks -/

/-- The line feeds at the front of a text. -/
def leadingNewlines (text : List Char) : Nat := (text.takeWhile (· == '\n')).length

/-- The texts one after the other.  Where one ends and the next starts with line feeds, the larger
number of them is written, but no more than two.  `pending` counts the line feeds still to be
written. -/
def joinBlocksFrom (pending : Nat) : List (List Char) → List Char
  | [] => List.replicate pending '\n'
  | text :: rest =>
    let lead := leadingNewlines text
    let content := trimNewlines text
    let trail := text.length - lead - content.length
    let between := if pending != 0 && lead != 0 then min 2 (max pending lead) else pending + lead
    List.replicate between '\n' ++ content ++ joinBlocksFrom trail rest

/-- The texts one after the other, with the line feeds between them merged. -/
def joinBlocks (texts : List (List Char)) : List Char := joinBlocksFrom 0 texts

/-! ### Elements -/

/-- The value of an attribute; empty if there is none. -/
def valueOf (name : String) (e : Element) : List Char :=
  (attributeValue? name e.attributes).getD []

/-- A block: an empty line before and behind; nothing for an empty text. -/
def block (text : List Char) : List Char :=
  if text.isEmpty then [] else "\n\n".toList ++ text ++ "\n\n".toList

/-- A text with a space at each side. -/
def spaced (text : List Char) : List Char := ' ' :: text ++ [' ']

/-- The lines of a text with an indent before each that is not empty. -/
def indentLines (indent : List Char) (text : List Char) : List Char :=
  unlines ((lines text).map fun line => if line.isEmpty then [] else indent ++ line)

/-- The lines of a text with the first one marked and the others indented by as much. -/
def hang (marker : List Char) (text : List Char) : List Char :=
  marker ++ (indentLines (List.replicate marker.length ' ') text).drop marker.length

/-- A paragraph. -/
def writeParagraph (dialect : Dialect) (place : Place) (text : List Char) : List Char :=
  if place.inline then spaced (trimWith isRunBlank text)
  else block (trimWith isRunBlank (escapeLineStarts dialect text))

/-- A division of the page. -/
def writeDivision (place : Place) (text : List Char) : List Char :=
  if place.inline then spaced (trim text) else block (trim text)

/-- The term of a definition. -/
def writeTerm (place : Place) (text : List Char) : List Char :=
  let text := spaceRuns (trim text)
  if place.inline then spaced text
  else if text.isEmpty then ['\n']
  else "\n\n".toList ++ text ++ ['\n']

/-- The meaning of a definition. -/
def writeMeaning (place : Place) (text : List Char) : List Char :=
  let text := trim text
  if place.inline then spaced text
  else if text.isEmpty then ['\n']
  else ':' :: (indentLines "    ".toList text).drop 1 ++ ['\n']

/-- Whether the node counts as content among blocks. -/
def isContent : Node → Bool
  | .element _ _ _ => true
  | .text content => !isBlankText content
  | .aside content => !isBlankText content
  | .comment _ => false
  | .doctype _ => false

/-- Whether the node is a list. -/
def isList (node : Node) : Bool :=
  node.name? == some "ul" || node.name? == some "ol"

/-- A list, with the nodes behind it. -/
def writeList (place : Place) (behind : List Node) (text : List Char) : List Char :=
  if place.inItem then '\n' :: trimRight text
  else
    let followed := ((behind.find? isContent).map fun node => !isList node).getD false
    "\n\n".toList ++ text ++ (if followed then ['\n'] else [])

/-- The number of columns that a cell covers. -/
def columnsOf (e : Element) : Nat :=
  match attributeValue? "colspan" e.attributes with
  | some value =>
    match decimalNumber? value with
    | some n => max 1 (min 1000 n)
    | none => 1
  | none => 1

/-- A cell that stands outside a table. -/
def writeLooseCell (e : Element) (text : List Char) : List Char :=
  ' ' :: (trim text).map (fun c => if c == '\n' then ' ' else c)
    ++ (List.replicate (columnsOf e) " |".toList).flatten

/-- A line of a table with the same text in each column. -/
def uniformRow (columns : Nat) (text : List Char) : List Char :=
  "| ".toList ++ joinWith " | ".toList (List.replicate columns text) ++ " |\n".toList

/-- A row that stands outside a table: a heading gets a line below, the first row of data an empty
heading above. -/
def writeLooseRow (place : Place) (before : List Node) (e : Element) (text : List Char) :
    List Char :=
  let cells := elementsNamed ["td", "th"] e.children
  let columns := (cells.map columnsOf).foldr (· + ·) 0
  let isFirst := !before.any Node.isElement
  let parent := place.parents.head?
  let parentRows := (parent.map fun p => (elementsNamed ["tr"] p.children).length).getD 0
  let isHeading := cells.all (fun c => c.name == "th")
    || (place.parentName == "thead" && parentRows == 1)
  let headless :=
    match place.parents with
    | p :: q :: _ => p.name != "tbody" || (elementsNamed ["thead"] q.children).isEmpty
    | _ => true
  let below := uniformRow columns "---".toList
  let above := uniformRow columns [] ++ below
  if isHeading && isFirst then '|' :: text ++ '\n' :: below
  else if isFirst && (headless || place.parentName == "table") then above ++ '|' :: text ++ ['\n']
  else '|' :: text ++ ['\n']

/-- A moving picture: a link to it, and its still picture if it has one. -/
def writeVideo (place : Place) (e : Element) (text : List Char) : List Char :=
  if place.inline then text
  else
    let own := valueOf "src" e
    let sources := (elementsNamed ["source"] e.children).filterMap fun s =>
      attributeValue? "src" s.attributes
    let source := if own.isEmpty then sources.head?.getD [] else own
    let poster := valueOf "poster" e
    let picture := '!' :: '[' :: text ++ "](".toList ++ poster ++ [')']
    if !source.isEmpty && !poster.isEmpty then
      '[' :: picture ++ "](".toList ++ source ++ [')']
    else if !source.isEmpty then '[' :: text ++ "](".toList ++ source ++ [')']
    else if !poster.isEmpty then picture
    else text

/-- An element that both dialects write alike. -/
def writeShared (dialect : Dialect) (place : Place) (before behind : List Node) (e : Element)
    (text : List Char) : List Char :=
  match e.name with
  | "p" => writeParagraph dialect place text
  | "article" => writeDivision place text
  | "section" => writeDivision place text
  | "dt" => writeTerm place text
  | "dd" => writeMeaning place text
  | "ul" => writeList place behind text
  | "ol" => writeList place behind text
  | "list" => writeList place behind text
  | "q" => '"' :: text ++ ['"']
  | "script" => []
  | "style" => []
  | "caption" => trim text ++ "\n\n".toList
  | "figcaption" => "\n\n".toList ++ trim text ++ "\n\n".toList
  | "td" => writeLooseCell e text
  | "th" => writeLooseCell e text
  | "tr" => writeLooseRow place before e text
  | "video" => writeVideo place e text
  | _ => text

end WikiMigration.Writing
