/-
The tree of a document.

Tokens are put together under rules that forgive much.  The elements `html` and `body` are supplied
where they are missing, also around text.  A start tag closes the open element when the two do not
nest; a list of pairs says which.  An end tag closes all elements up to
its own, unless an element of higher rank stands between, and is passed over when nothing open has
its name.

Text between two tags is one node; text of blanks only becomes a single blank, except inside
preformatted elements.
-/
import WikiMigration.Html.Node

namespace WikiMigration.Html

open Text

/-! ### Which elements nest -/

/-- The tags that close an open element of a name. -/
def closingTags : List (String × List String) :=
  let heading := ["fieldset", "form", "li", "p", "table"]
  let verbatim := ["dd", "dl", "dt", "fieldset", "form", "li", "table", "ul"]
  [("a", ["a", "fieldset", "table", "td", "th"]),
    ("address", ["dd", "dl", "dt", "form", "li", "ul"]),
    ("b", ["center", "p", "td", "th"]),
    ("big", ["p"]),
    ("caption", ["col", "colgroup", "tbody", "tfoot", "thead", "tr"]),
    ("col", ["col", "colgroup", "tbody", "tfoot", "thead", "tr"]),
    ("colgroup", ["colgroup", "tbody", "tfoot", "thead", "tr"]),
    ("dd", ["dt"]),
    ("dir", ["dd", "dl", "dt", "form", "ul"]),
    ("dl", ["form", "li"]),
    ("dt", ["dd", "dl"]),
    ("font", ["center", "td", "th"]),
    ("form", ["form"]),
    ("h1", heading), ("h2", heading), ("h3", heading),
    ("h4", heading), ("h5", heading), ("h6", heading),
    ("head", ["a", "abbr", "acronym", "address", "b", "bdo", "big", "blockquote", "body", "br",
      "center", "cite", "code", "dd", "dfn", "dir", "div", "dl", "dt", "em", "fieldset", "font",
      "form", "frameset", "h1", "h2", "h3", "h4", "h5", "h6", "hr", "i", "iframe", "img", "kbd",
      "li", "listing", "map", "menu", "ol", "p", "pre", "q", "s", "samp", "small", "span", "strike",
      "strong", "sub", "sup", "table", "tt", "u", "ul", "var", "xmp"]),
    ("hr", ["form"]),
    ("i", ["center"]),
    ("li", ["li"]),
    ("legend", ["fieldset"]),
    ("link", ["body", "frameset"]),
    ("listing", verbatim),
    ("menu", ["dd", "dl", "dt", "form", "ul"]),
    ("ol", ["form"]),
    ("option", ["optgroup", "option"]),
    ("p", ["address", "blockquote", "body", "caption", "center", "col", "colgroup", "dd", "dir",
      "div", "dl", "dt", "fieldset", "form", "frameset", "h1", "h2", "h3", "h4", "h5", "h6", "head",
      "hr", "li", "listing", "menu", "multicol", "ol", "p", "pre", "table", "tbody", "td", "tfoot",
      "th", "title", "tr", "ul", "xmp"]),
    ("pre", verbatim),
    ("s", ["p"]),
    ("script", ["noscript"]),
    ("small", ["p"]),
    ("span", ["td", "th"]),
    ("strike", ["p"]),
    ("style", ["body", "frameset"]),
    ("tbody", ["tbody", "tfoot"]),
    ("td", ["tbody", "td", "tfoot", "th", "tr"]),
    ("tfoot", ["tbody"]),
    ("th", ["tbody", "td", "tfoot", "th", "tr"]),
    ("thead", ["tbody", "tfoot"]),
    ("title", ["body", "frameset"]),
    ("tr", ["tbody", "tfoot", "tr"]),
    ("tt", ["p"]),
    ("u", ["p", "td", "th"]),
    ("ul", ["address", "form", "menu", "pre"]),
    ("xmp", verbatim)]

/-- Whether the start tag closes an open element. -/
def closes (tag openName : String) : Bool :=
  ((closingTags.lookup openName).getD []).contains tag

/-- The rank of an element: an end tag of lower rank does not reach beyond it. -/
def rank (name : String) : Nat :=
  if name == "div" then 150
  else if name == "td" || name == "th" then 160
  else if name == "tr" then 170
  else if name == "thead" || name == "tbody" || name == "tfoot" then 180
  else if name == "table" then 190
  else if name == "head" || name == "body" then 200
  else if name == "html" then 220
  else 100

/-- The elements that have no content. -/
def isVoid (name : String) : Bool :=
  ["area", "base", "basefont", "br", "col", "frame", "hr", "img", "input", "isindex", "link",
    "meta", "param"].contains name

/-- The elements that belong into the head. -/
def isHeadElement (name : String) : Bool :=
  ["script", "style", "meta", "link", "title", "base"].contains name

/-- The elements whose blanks are kept. -/
def keepsBlanks (name : String) : Bool := name == "pre" || name == "textarea"

/-- The elements whose text is no text of the page: those for programs, templates, and the readings
that stand beside the words of a ruby text. -/
def holdsAsides (name : String) : Bool := ["script", "style", "template", "rt", "rp"].contains name

/-! ### Attributes that are lists -/

/-- Whether the attribute of an element is a list of words. -/
def isWordList (element name : String) : Bool :=
  ["class", "accesskey", "dropzone"].contains name
    || (["a", "link"].contains element && ["rel", "rev"].contains name)
    || (["td", "th"].contains element && name == "headers")
    || (element == "form" && name == "accept-charset")
    || (element == "object" && name == "archive")
    || (element == "area" && name == "rel")
    || (element == "icon" && name == "sizes")
    || (element == "iframe" && name == "sandbox")
    || (element == "output" && name == "for")

/-- The attribute with its words separated by single spaces, if it is a list. -/
def normalizeAttribute (element : String) (a : Attribute) : Attribute :=
  if isWordList element a.name then ⟨a.name, unwords (words a.value)⟩ else a

/-! ### Building -/

/-- An element that is still open; its children are held last first. -/
structure OpenElement where
  name : String
  attributes : List Attribute
  children : List Node

/-- A tree in work. -/
structure Builder where
  /-- The open elements, innermost first. -/
  stack : List OpenElement
  /-- The nodes outside all elements, last first. -/
  roots : List Node
  /-- The text read since the last tag. -/
  text : List Char
  /-- Whether anything but comments and blanks has been read. -/
  started : Bool
  /-- Whether there has been a head. -/
  sawHead : Bool
  /-- Whether there has been a body. -/
  sawBody : Bool
  /-- How many tags of the page's frame were passed over and wait for their end tags. -/
  skipped : Nat

namespace Builder

/-- Nothing has been read. -/
def empty : Builder := ⟨[], [], [], false, false, false, 0⟩

/-- The name of the innermost open element. -/
def top? (b : Builder) : Option String := b.stack.head?.map OpenElement.name

/-- Whether an element of the name is open. -/
def isOpen (b : Builder) (name : String) : Bool := b.stack.any fun e => e.name == name

/-- Adds a node at the current place. -/
def add (b : Builder) (node : Node) : Builder :=
  match b.stack with
  | [] => { b with roots := node :: b.roots }
  | e :: rest => { b with stack := { e with children := node :: e.children } :: rest }

/-- A text as it is kept: blanks only become one, unless an open element keeps its blanks. -/
def keptText (b : Builder) (content : List Char) : List Char :=
  if !(b.stack.any fun e => keepsBlanks e.name) && content.all isTagBlank then
    if content.contains '\n' then ['\n'] else [' ']
  else content

/-- A text at the current place as a node. -/
def textNode (b : Builder) (content : List Char) : Node :=
  if b.stack.any fun e => holdsAsides e.name then .aside (b.keptText content)
  else .text (b.keptText content)

/-- Adds the text read since the last tag as a node. -/
def flush (b : Builder) : Builder :=
  if b.text.isEmpty then b else ({ b with text := [] } : Builder).add (b.textNode b.text)

/-- Opens an element. -/
def push (b : Builder) (name : String) (attributes : List Attribute) : Builder :=
  let b := b.flush
  { b with
    stack := ⟨name, attributes.map (normalizeAttribute name), []⟩ :: b.stack
    sawHead := b.sawHead || name == "head"
    sawBody := b.sawBody || name == "body" }

/-- Closes the innermost open element. -/
def pop (b : Builder) : Builder :=
  let b := b.flush
  match b.stack with
  | [] => b
  | e :: rest =>
    ({ b with stack := rest } : Builder).add (.element e.name e.attributes e.children.reverse)

/-- Closes the innermost open elements of a given number. -/
def popMany (b : Builder) : Nat → Builder
  | 0 => b
  | n + 1 => b.pop.popMany n

/-- How many open elements, innermost first, the start tag closes. -/
def closedBy (tag : String) : List OpenElement → Nat
  | [] => 0
  | e :: rest => if closes tag e.name then closedBy tag rest + 1 else 0

/-- Closes the open elements that a start tag closes. -/
def autoClose (b : Builder) (tag : String) : Builder :=
  b.popMany (closedBy tag b.stack)

/-- Opens the elements of the page's frame that a start tag needs around it. -/
def supplyFrame (b : Builder) (tag : String) : Builder :=
  if tag == "html" then b
  else
    let b := if b.stack.isEmpty then b.push "html" [] else b
    if tag == "body" || tag == "frameset" then b
    else if b.stack.length ≤ 1 && isHeadElement tag then
      if b.sawHead then b else b.push "head" []
    else if tag != "noframes" && tag != "frame" && tag != "head" then
      if b.sawBody || b.isOpen "body" || b.isOpen "head" then b else b.push "body" []
    else b

/-- Whether a tag of the page's frame stands where there is none. -/
def isMisplaced (b : Builder) (tag : String) : Bool :=
  (tag == "html" && !b.stack.isEmpty)
    || (tag == "head" && b.stack.length != 1)
    || (tag == "body" && b.isOpen "body")

/-- Reads a start tag. -/
def startTag (b : Builder) (name : String) (attributes : List Attribute) (selfClosing : Bool) :
    Builder :=
  let b := ({ b with started := true } : Builder).autoClose name
  let b := b.supplyFrame name
  if b.isMisplaced name then { b with skipped := b.skipped + 1 }
  else
    let b := b.push name attributes
    if selfClosing || isVoid name then b.pop else b

/-- How many open elements an end tag closes: those up to the one of its name, unless one of a
higher rank comes first; none if there is none of its name. -/
def closedByEnd (name : String) : List OpenElement → Nat
  | [] => 0
  | e :: rest =>
    if e.name == name then 1
    else if rank name < rank e.name then 0
    else match closedByEnd name rest with
      | 0 => 0
      | n + 1 => n + 2

/-- Reads an end tag. -/
def endTag (b : Builder) (name : String) : Builder :=
  let b := { b with started := true }
  if b.skipped != 0 && (name == "html" || name == "body" || name == "head") then
    { b with skipped := b.skipped - 1 }
  else b.popMany (closedByEnd name b.stack)

/-- Whether the current place is outside the body. -/
def isOutside (b : Builder) : Bool :=
  match b.top? with
  | none => true
  | some name => name == "html" || name == "head"

/-- Reads text. -/
def addText (b : Builder) (content : List Char) : Builder :=
  let content := if b.started then content else content.dropWhile isTagBlank
  if content.isEmpty then b
  else
    let b := { b with started := true }
    if b.isOutside then
      let blanks := content.takeWhile isTagBlank
      let rest := content.drop blanks.length
      let b := { b with text := b.text ++ blanks }
      if rest.isEmpty then b
      else
        let b := if b.top? == some "head" then b.autoClose "p" else b
        let b := b.supplyFrame "p"
        { b with text := b.text ++ rest }
    else { b with text := b.text ++ content }

/-- Reads a token. -/
def step (b : Builder) : Token → Builder
  | .startTag name attributes selfClosing => b.startTag name attributes selfClosing
  | .endTag name => b.endTag name
  | .text content => b.addText content
  | .comment content =>
    let b := b.flush
    b.add (.comment (b.keptText content))
  | .doctype content => if b.started then b else b.flush.add (.doctype content)

/-- The nodes of the document, with everything closed. -/
def finish (b : Builder) : List Node :=
  let b := b.flush
  (b.popMany b.stack.length).roots.reverse

end Builder

/-- The tree of a text. -/
def parse (text : List Char) : List Node :=
  ((tokens text).foldl Builder.step .empty).finish

end WikiMigration.Html
