/-
A page as markup.

The tree of a page is written from the inside out: the texts of an element's children are joined,
with the empty lines between blocks merged, and the element makes its own text of the result.  The
cells of a table are written apart, each on one line, because a table is put together from them and
not from the text between its tags.
-/
import WikiMigration.Html.Clean
import WikiMigration.Html.Tree
import WikiMigration.Text.Lines
import WikiMigration.Writing.Markdown
import WikiMigration.Writing.Wiki

namespace WikiMigration.Writing

open Text Html

/-! ### The normal form of a page

No line has blanks at its end, no two neighbouring lines are both blank, and the text starts with
no empty line and ends with exactly one line feed.  A line that holds nothing but a quotation mark
counts as blank.
-/

/-- Whether the line is blank, or a lone quotation mark. -/
def isBlankLine (line : List Char) : Bool :=
  let stripped := trim line
  stripped.isEmpty || stripped == ['>']

/-- The lines without those blank ones that follow a blank one. -/
def collapseBlankLines (afterBlank : Bool) : List (List Char) → List (List Char)
  | [] => []
  | line :: rest =>
    let blank := isBlankLine line
    if blank && afterBlank then collapseBlankLines true rest
    else line :: collapseBlankLines blank rest

/-- A page's text in its normal form. -/
def tidy (text : List Char) : List Char :=
  let kept := collapseBlankLines false ((lines text).map trimRight)
  let text := trimNewlines (unlines kept)
  if text.isEmpty then [] else text ++ ['\n']

/-! ### Writing from the inside out -/

/-- What a node becomes: its text, the cells within it, and the rows within it. -/
structure Written where
  text : List Char
  cells : List WrittenCell
  rows : List WrittenRow

/-- A text of the page, with the nodes beside it. -/
def writeText (dialect : Dialect) (place : Place) (before after : Option Node)
    (content : List Char) : List Char :=
  let text := if place.preformatted then content else collapseRuns content
  let text := if place.verbatim then text else escape dialect text
  let text :=
    if trimsAt place.parentName before then trimLeftWith isRunBlank text else text
  if trimsAt place.parentName after then trimRight text else text

/-- An element of the page in a dialect. -/
def writeElement (dialect : Dialect) (place : Place) (before behind : List Node) (e : Element)
    (text : List Char) (rows : List WrittenRow) : List Char :=
  match dialect with
  | .markdown => Markdown.writeElement place before behind e text rows
  | .jspwiki => Wiki.writeElement place before behind e text rows

/-- The texts of the nodes that are not left out; `before` is the node before them. -/
def keptTexts (parent : String) (before : Option Node) :
    List Node → List Written → List (List Char)
  | node :: nodes, written :: rest =>
    (if isLeftOut parent before nodes.head? node || written.text.isEmpty then []
      else [written.text]) ++ keptTexts parent (some node) nodes rest
  | _, _ => []

/-- The texts of a cell's nodes: blank text is a space, and comments are left out. -/
def cellTexts : List Node → List Written → List (List Char)
  | node :: nodes, written :: rest =>
    (match node with
      | .comment _ => []
      | .text content => if isBlankText content then [[' ']] else [written.text]
      | .aside content => if isBlankText content then [[' ']] else [written.text]
      | _ => [written.text]) ++ cellTexts nodes rest
  | _, _ => []

/-- The texts of an element's children as one; inside preformatted text nothing is merged. -/
def joinTexts (place : Place) (name : String) (texts : List (List Char)) : List Char :=
  if name == "pre" || place.isWithin "pre" then texts.flatten else joinBlocks texts

mutual

/-- What a node becomes; `before` are the nodes before it, the nearest first, and `behind` those
behind it. -/
def writeNode (dialect : Dialect) (place : Place) (before behind : List Node) : Node → Written
  | .text content => ⟨writeText dialect place before.head? behind.head? content, [], []⟩
  | .aside content => ⟨writeText dialect place before.head? behind.head? content, [], []⟩
  | .comment _ => ⟨[], [], []⟩
  | .doctype _ => ⟨[], [], []⟩
  | .element name attributes children =>
    let e : Element := ⟨name, attributes, children⟩
    let written := writeNodes dialect (place.inside e) [] children
    let text := joinTexts place name (keptTexts name none children written)
    let rows := written.flatMap Written.rows
    let cells := written.flatMap Written.cells
    let cells :=
      if Place.isCell name then
        let inner := writeNodes dialect (place.insideCell e) [] children
        ⟨name == "th", cellText (cellTexts children inner).flatten⟩ :: cells
      else cells
    let rows := if name == "tr" then cells :: rows else rows
    ⟨writeElement dialect place before behind e text rows, cells, rows⟩

/-- What some nodes become; `before` are the nodes before them, the nearest first. -/
def writeNodes (dialect : Dialect) (place : Place) (before : List Node) : List Node → List Written
  | [] => []
  | node :: rest =>
    writeNode dialect place before rest node :: writeNodes dialect place (node :: before) rest

end

/-- A document in a dialect, not yet tidied. -/
def writeDocument (dialect : Dialect) (nodes : List Node) : List Char :=
  let written := writeNodes dialect .outside [] nodes
  trimNewlines (joinBlocks (keptTexts "" none nodes written))

/-- The page that HTML holds, in a dialect. -/
def writePage (dialect : Dialect) (html : List Char) : List Char :=
  if isBlankText html then [] else tidy (writeDocument dialect (clean (parse html)))

end WikiMigration.Writing
