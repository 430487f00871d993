/-
The layout of a page's HTML.

Each block stands on a line of its own, a line break ends its line, and code ends with a line feed.
Attribute lists at the end of a block, or behind an element within a line, are turned into
attributes.
-/
import WikiMigration.Markdown.AttributeList
import WikiMigration.Markdown.Node

namespace WikiMigration.Markdown

open Text

/-! ### Line ends -/

/-- A line feed. -/
def lineEnd : Node := .plain ['\n']

/-- The nodes with a line feed in place of a blank text at their front, or in front. -/
def lineEndFirst : List Node → List Node
  | .text isLiteral content :: rest =>
    if isBlankText content then lineEnd :: rest else .text isLiteral content :: rest
  | nodes => lineEnd :: nodes

/-- The content of a block with a line feed at its front, if its first element is a block that no
text stands before. -/
def openBlock (children : List Node) : List Node :=
  match children with
  | .text isLiteral content :: .element tag attributes inner :: rest =>
    if isBlockTag tag && isBlankText content then lineEnd :: .element tag attributes inner :: rest
    else .text isLiteral content :: .element tag attributes inner :: rest
  | .element tag attributes inner :: rest =>
    if isBlockTag tag then lineEnd :: .element tag attributes inner :: rest
    else .element tag attributes inner :: rest
  | children => children

mutual

/-- The node with its blocks on lines of their own. -/
def layOut : Node → Node
  | .text isLiteral content => .text isLiteral content
  | .element tag attributes children =>
    if isBlockTag tag && tag != "pre" then .element tag attributes (openBlock (layOutAll children))
    else .element tag attributes children

/-- The nodes with a line feed behind each block. -/
def layOutAll : List Node → List Node
  | [] => []
  | .text isLiteral content :: rest => .text isLiteral content :: layOutAll rest
  | .element tag attributes children :: rest =>
    if isBlockTag tag then
      layOut (.element tag attributes children) :: lineEndFirst (layOutAll rest)
    else .element tag attributes children :: layOutAll rest

end

/-- The nodes behind a line break, which start with a line feed. -/
def afterBreak : List Node → List Node
  | .text isLiteral content :: rest =>
    if isBlankText content then lineEnd :: rest else .text isLiteral ('\n' :: content) :: rest
  | nodes => lineEnd :: nodes

/-- The content of a `pre` element: code that holds nothing but text ends with a line feed. -/
def endCode (children : List Node) : List Node :=
  match children with
  | .element "code" attributes [.text _ content] :: rest =>
    .element "code" attributes [.text true (trimRight content ++ ['\n'])] :: rest
  | children => children

mutual

/-- The node with line feeds behind its line breaks and at the end of its code. -/
def endLines : Node → Node
  | .text isLiteral content => .text isLiteral content
  | .element tag attributes children =>
    let children := endAllLines children
    .element tag attributes (if tag == "pre" then endCode children else children)

/-- The nodes with line feeds behind their line breaks and at the end of their code. -/
def endAllLines : List Node → List Node
  | [] => []
  | node :: rest =>
    let done := endLines node
    if node.isTag "br" then done :: afterBreak (endAllLines rest) else done :: endAllLines rest

end

/-! ### Attribute lists -/

/-- The attributes with an entry of a list. -/
def addEntry (attributes : List (String × List Char)) (entry : AttributeEntry) :
    List (String × List Char) :=
  match entry with
  | .className name =>
    match attributes.lookup "class" with
    | some (c :: classes) => setAttribute "class" (c :: classes ++ ' ' :: name) attributes
    | _ => setAttribute "class" name attributes
  | .pair key value => setAttribute (String.ofList (plainKeyFrom false key)) value attributes

/-- The list at the end of a text, and the text before it.  The list stands behind blanks of the
given sort: spaces, or a line feed and spaces. -/
def listAtEnd? (ownLine : Bool) (before : List Char) (text : List Char) :
    Option (List Char × List Char) :=
  match text with
  | [] => none
  | c :: rest =>
    let opens := if ownLine then c == '\n' else c == ' '
    let found : Option (List Char × List Char) :=
      if opens then
        match bracedList? (rest.dropWhile (· == ' ')) with
        | some (inner, behind) =>
          if behind.all (· == ' ') then some (before.reverse, inner) else none
        | none => none
      else none
    found.orElse fun _ => listAtEnd? ownLine (c :: before) rest

/-- Whether the list of an element stands behind spaces on the line of its text. -/
def listOnLine (tag : String) : Bool :=
  ["h1", "h2", "h3", "h4", "h5", "h6", "dt", "td", "th"].contains tag

/-- The attributes that the end of a text gives to an element, and the text without them.  A list
with more behind its brace is no list. -/
def takeList? (tag : String) (attributes : List (String × List Char)) (text : List Char) :
    Option (List (String × List Char) × List Char) :=
  match listAtEnd? (!listOnLine tag) [] text with
  | none => none
  | some (before, inner) =>
    let (entries, remainder) := attributeEntries inner
    if remainder.isEmpty then
      let isHeading := tag.length == 2 && tag.startsWith "h" && listOnLine tag
      let text := if isHeading then trimRight (trimRightWith (· == '#') before) else before
      some (entries.foldl addEntry attributes, text)
    else none

/-- The attributes and the content of an element, with the list at the end of its last text taken
off. -/
def takeLastList (tag : String) (attributes : List (String × List Char)) (children : List Node) :
    List (String × List Char) × List Node :=
  match children.reverse with
  | .text isLiteral content :: before =>
    match takeList? tag attributes content with
    | some (attributes, content) => (attributes, (Node.text isLiteral content :: before).reverse)
    | none => (attributes, children)
  | _ => (attributes, children)

/-- As `takeLastList` for an item of a list: a list within it stands behind its text. -/
def takeItemList (attributes : List (String × List Char)) (children : List Node) :
    List (String × List Char) × List Node :=
  let isList (node : Node) : Bool := node.isTag "ul" || node.isTag "ol"
  let own := children.takeWhile fun node => !isList node
  let (attributes, own') := takeLastList "li" attributes own
  (attributes, own' ++ children.drop own.length)

/-- A list at the front of a text: its entries, and the text behind it with what stood behind a
brace. -/
def listAtFront? (text : List Char) : Option (List AttributeEntry × List Char) :=
  (bracedList? text).map fun (inner, behind) =>
    let (entries, remainder) := attributeEntries inner
    (entries, behind ++ remainder)

/-- The attributes of an element within a line, and the nodes behind it, with the list there taken
off. -/
def takeNextList (attributes : List (String × List Char)) (behind : List Node) :
    List (String × List Char) × List Node :=
  match behind with
  | .text isLiteral content :: rest =>
    match listAtFront? content with
    | some (entries, content) =>
      (entries.foldl addEntry attributes, .text isLiteral content :: rest)
    | none => (attributes, behind)
  | _ => (attributes, behind)

mutual

/-- The node with its attribute lists read. -/
def readLists : Node → Node
  | .text isLiteral content => .text isLiteral content
  | .element tag attributes children =>
    let (attributes, children) :=
      if isBlockTag tag then
        if tag == "li" then takeItemList attributes (readAllLists children)
        else takeLastList tag attributes (readAllLists children)
      else (attributes, readAllLists children)
    .element tag attributes children

/-- The nodes with their attribute lists read. -/
def readAllLists : List Node → List Node
  | [] => []
  | .text isLiteral content :: rest => .text isLiteral content :: readAllLists rest
  | .element tag attributes children :: rest =>
    let done := readLists (.element tag attributes children)
    match done with
    | .element tag attributes children =>
      if isBlockTag tag then .element tag attributes children :: readAllLists rest
      else
        let (attributes, rest) := takeNextList attributes (readAllLists rest)
        .element tag attributes children :: rest
    | done => done :: readAllLists rest

end

/-! ### Literal characters -/

mutual

/-- The node with literal characters in place of their marks, except in code. -/
def showLiterals : Node → Node
  | .text isLiteral content => .text isLiteral (readLiterals content)
  | .element tag attributes children =>
    let attributes := attributes.map fun (name, value) => (name, readLiterals value)
    match tag == "code", children with
    | true, .text isLiteral content :: rest =>
      .element tag attributes (.text isLiteral content :: showAllLiterals rest)
    | _, children => .element tag attributes (showAllLiterals children)

/-- The nodes with literal characters in place of their marks, except in code. -/
def showAllLiterals : List Node → List Node
  | [] => []
  | node :: rest => showLiterals node :: showAllLiterals rest

end

end WikiMigration.Markdown
