/-
The tree of a rendered page.

A node is an element with attributes and children, or a text; a literal text is one in which nothing
is markup any more.  Elements are of the level of blocks or within lines.  The tree is written out
with the attributes in the order of their names; an ampersand that already begins a reference stays
as it is.
-/
import WikiMigration.Html.Escape
import WikiMigration.Markdown.Mark

namespace WikiMigration.Markdown

open Text

/-- A node of the tree. -/
inductive Node where
  | text (isLiteral : Bool) (content : List Char)
  | element (tag : String) (attributes : List (String × List Char)) (children : List Node)

/-- The elements of the level of blocks. -/
def blockTags : List String :=
  ["address", "article", "aside", "blockquote", "details", "div", "dl", "fieldset", "figcaption",
    "figure", "footer", "form", "h1", "h2", "h3", "h4", "h5", "h6", "header", "hgroup", "hr", "main",
    "menu", "nav", "ol", "p", "pre", "section", "table", "ul", "canvas", "colgroup", "dd", "body",
    "dt", "group", "html", "iframe", "li", "legend", "math", "map", "noscript", "output", "object",
    "option", "progress", "script", "style", "summary", "tbody", "td", "textarea", "tfoot", "th",
    "thead", "tr", "video"]

/-- Whether elements of the name are of the level of blocks. -/
def isBlockTag (tag : String) : Bool := blockTags.contains tag

/-- The elements that have no content. -/
def emptyTags : List String :=
  ["area", "base", "basefont", "br", "col", "frame", "hr", "img", "input", "isindex", "link", "meta",
    "param"]

namespace Node

/-- A text in which markup is still to be read. -/
def plain (content : List Char) : Node := .text false content

/-- An element without attributes. -/
def plainElement (tag : String) (children : List Node) : Node := .element tag [] children

/-- The name of an element. -/
def tag? : Node → Option String
  | .text _ _ => none
  | .element tag _ _ => some tag

/-- Whether the node is an element of the name. -/
def isTag (tag : String) (node : Node) : Bool := node.tag? == some tag

/-- Whether the node is an element. -/
def isElement (node : Node) : Bool := node.tag?.isSome

/-- Whether the node is an element of the level of blocks. -/
def isBlock (node : Node) : Bool := (node.tag?.map isBlockTag).getD false

/-- The attribute of a name. -/
def attribute? (name : String) : Node → Option (List Char)
  | .text _ _ => none
  | .element _ attributes _ => attributes.lookup name

end Node

/-- The attributes with the given one set. -/
def setAttribute (name : String) (value : List Char) :
    List (String × List Char) → List (String × List Char)
  | [] => [(name, value)]
  | (n, v) :: rest => if n == name then (n, value) :: rest else (n, v) :: setAttribute name value rest

/-! ### Writing -/

/-- Whether the text, which follows an ampersand, makes it the start of a reference. -/
def continuesReference (text : List Char) : Bool :=
  let isHex (c : Char) : Bool := c.isDigit || ('a' ≤ c.toLower && c.toLower ≤ 'f')
  let closes (p : Char → Bool) (cs : List Char) : Bool :=
    let name := cs.takeWhile p
    !name.isEmpty && (cs.drop name.length).head? == some ';'
  match text with
  | '#' :: 'x' :: rest => closes isHex rest
  | '#' :: 'X' :: rest => closes isHex rest
  | '#' :: rest => closes Char.isDigit rest
  | rest => closes (fun c => c.isAlphanum) rest

/-- Running text as HTML. -/
def writeText : List Char → List Char
  | [] => []
  | '&' :: rest =>
    (if continuesReference rest then ['&'] else "&amp;".toList) ++ writeText rest
  | c :: rest => Html.escapeChar c ++ writeText rest

/-- The value of an attribute as HTML. -/
def writeValue : List Char → List Char
  | [] => []
  | '&' :: rest =>
    (if continuesReference rest then ['&'] else "&amp;".toList) ++ writeValue rest
  | '"' :: rest => "&quot;".toList ++ writeValue rest
  | c :: rest => Html.escapeChar c ++ writeValue rest

/-- An attribute in front of others, those of lesser names before it. -/
def insertAttribute (a : String × List Char) :
    List (String × List Char) → List (String × List Char)
  | [] => [a]
  | b :: rest => if b.1 < a.1 then b :: insertAttribute a rest else a :: b :: rest

/-- The attributes in the order of their names, as HTML. -/
def writeAttributes (attributes : List (String × List Char)) : List Char :=
  (attributes.foldr insertAttribute []).flatMap fun (name, value) =>
    ' ' :: name.toList ++ "=\"".toList ++ writeValue value ++ ['"']

mutual

/-- A node as HTML. -/
def Node.write : Node → List Char
  | .text _ content => writeText content
  | .element tag attributes children =>
    let opening := '<' :: tag.toList ++ writeAttributes attributes
    if emptyTags.contains tag then opening ++ " />".toList
    else opening ++ '>' :: writeNodes children ++ "</".toList ++ tag.toList ++ ['>']

/-- Nodes as HTML. -/
def writeNodes : List Node → List Char
  | [] => []
  | node :: rest => node.write ++ writeNodes rest

end

mutual

/-- The text within a node. -/
def Node.innerText : Node → List Char
  | .text _ content => content
  | .element _ _ children => innerTexts children

/-- The text within nodes. -/
def innerTexts : List Node → List Char
  | [] => []
  | node :: rest => node.innerText ++ innerTexts rest

end

end WikiMigration.Markdown
