/-
Where a node stands when it is written.

What an element looks like depends on what is around it: inside headings and cells everything goes
on one line, inside code nothing is markup, and a list within an item is indented.
-/
import WikiMigration.Html.Node

namespace WikiMigration.Writing

open Text Html

/-- The surroundings of a node. -/
structure Place where
  /-- The elements around the node, innermost first. -/
  parents : List Element
  /-- Whether all goes on one line. -/
  inline : Bool
  /-- Whether nothing is markup. -/
  verbatim : Bool
  /-- Whether blanks are kept. -/
  preformatted : Bool
  /-- Whether the node is part of a list item. -/
  inItem : Bool

namespace Place

/-- The outside of the document. -/
def outside : Place := ⟨[], false, false, false, false⟩

/-- Whether the name is a heading's: `h` and a digit. -/
def isHeading (name : String) : Bool :=
  match name.toList with
  | 'h' :: c :: _ => isDecimal c
  | _ => false

/-- Whether the element is a cell of a table. -/
def isCell (name : String) : Bool := name == "td" || name == "th"

/-- The elements inside which nothing is markup. -/
def isCode (name : String) : Bool := ["pre", "code", "kbd", "samp"].contains name

/-- The place inside an element. -/
def inside (place : Place) (e : Element) : Place where
  parents := e :: place.parents
  inline := place.inline || isHeading e.name || isCell e.name
  verbatim := place.verbatim || isCode e.name
  preformatted := place.preformatted || e.name == "pre"
  inItem := place.inItem || e.name == "li"

/-- The place inside a cell that is written as part of its table. -/
def insideCell (place : Place) (e : Element) : Place where
  parents := e :: place.parents
  inline := true
  verbatim := false
  preformatted := false
  inItem := false

/-- The name of the element around the node. -/
def parentName (place : Place) : String :=
  (place.parents.head?.map Element.name).getD ""

/-- Whether an element of the name is around the node. -/
def isWithin (place : Place) (name : String) : Bool :=
  place.parents.any fun e => e.name == name

end Place

/-- Whether blanks directly inside the element mean nothing. -/
def trimsInside (name : String) : Bool :=
  Place.isHeading name
    || ["p", "blockquote", "article", "div", "section", "ol", "ul", "li", "dl", "dt", "dd", "table",
      "thead", "tbody", "tfoot", "tr", "td", "th"].contains name

/-- Whether blanks directly around the node mean nothing. -/
def trimsAround (node : Option Node) : Bool :=
  match node with
  | some (.element name _ _) => trimsInside name || name == "pre"
  | _ => false

/-- Whether there is a sibling; a text without characters is none. -/
def isSibling (node : Option Node) : Bool :=
  match node with
  | none => false
  | some (.text content) => !content.isEmpty
  | some (.aside content) => !content.isEmpty
  | some (.comment content) => !content.isEmpty
  | some _ => true

/-- Whether blanks at the side of a sibling mean nothing. -/
def trimsAt (parent : String) (sibling : Option Node) : Bool :=
  trimsAround sibling || (trimsInside parent && !isSibling sibling)

/-- Whether the node is left out: a comment, or blank text where blanks mean nothing. -/
def isLeftOut (parent : String) (before after : Option Node) : Node → Bool
  | .element _ _ _ => false
  | .comment _ => true
  | .doctype _ => true
  | .text content =>
    isBlankText content && (trimsAt parent before || trimsAt parent after)
  | .aside content =>
    isBlankText content && (trimsAt parent before || trimsAt parent after)

/-! ### Text -/

/-- Whether the character is one of the blanks that run together. -/
def isRunBlank (c : Char) : Bool := c == ' ' || c == '\t' || c == '\n' || c == '\r'

/-- The blank that a run stands for: a line feed if the run holds one, a space if not. -/
def runBlank (broken : Bool) : Char := if broken then '\n' else ' '

/-- The text with every run of blanks written as one; `pending` is the run that is still to be
written, if there is one. -/
def collapseRunsFrom (pending : Option Bool) : List Char → List Char
  | [] => (pending.map runBlank).toList
  | c :: rest =>
    if isRunBlank c then
      collapseRunsFrom (some (pending.getD false || c == '\n' || c == '\r')) rest
    else (pending.map runBlank).toList ++ c :: collapseRunsFrom none rest

/-- The text with every run of blanks written as one. -/
def collapseRuns (text : List Char) : List Char := collapseRunsFrom none text

/-- The text with every run of blanks written as one space. -/
def spaceRuns (text : List Char) : List Char :=
  (collapseRuns text).map fun c => if c == '\n' then ' ' else c

end WikiMigration.Writing
