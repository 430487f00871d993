/-
HTML trees.

A document is a list of nodes.  A node is an element with attributes and children, a text, a comment
or a document type.  Text that stands beside the page and not in it, as the reading of a word does, is
an aside.  An attribute that holds a list of words has them with single spaces between.
-/
import WikiMigration.Html.Token

namespace WikiMigration.Html

open Text

/-- A node of a document. -/
inductive Node where
  | element (name : String) (attributes : List Attribute) (children : List Node)
  | text (content : List Char)
  /-- Text that is no text of the page: it stands in a program, a template or a reading. -/
  | aside (content : List Char)
  | comment (content : List Char)
  | doctype (content : List Char)
  deriving Repr

/-- The value of the attribute of a name. -/
def attributeValue? (name : String) (attributes : List Attribute) : Option (List Char) :=
  (attributes.find? fun a => a.name == name).map Attribute.value

/-- The attributes with one of them set. -/
def setAttribute (name : String) (value : List Char) : List Attribute → List Attribute
  | [] => [⟨name, value⟩]
  | a :: rest =>
    if a.name == name then ⟨name, value⟩ :: rest else a :: setAttribute name value rest

/-- The attributes without one of them. -/
def dropAttribute (name : String) (attributes : List Attribute) : List Attribute :=
  attributes.filter fun a => a.name != name

/-- The words of a text, with blanks between them. -/
def wordsFrom (word : List Char) : List Char → List (List Char)
  | [] => if word.isEmpty then [] else [word.reverse]
  | c :: rest =>
    if isBlank c then (if word.isEmpty then [] else [word.reverse]) ++ wordsFrom [] rest
    else wordsFrom (c :: word) rest

/-- The words of a text, with blanks between them. -/
def words (text : List Char) : List (List Char) := wordsFrom [] text

/-- The words with single spaces between them. -/
def unwords (pieces : List (List Char)) : List Char := joinWith [' '] pieces

/-- The classes of an element. -/
def classesOf (attributes : List Attribute) : List String :=
  ((attributeValue? "class" attributes).map words).getD [] |>.map String.ofList

/-- Whether the node is an element. -/
def Node.isElement : Node → Bool
  | .element _ _ _ => true
  | _ => false

/-- The name of an element. -/
def Node.name? : Node → Option String
  | .element name _ _ => some name
  | _ => none

mutual

/-- The texts of a node, in document order; an aside is none of them. -/
def Node.texts : Node → List (List Char)
  | .element _ _ children => textsOf children
  | .text content => [content]
  | .aside _ => []
  | .comment _ => []
  | .doctype _ => []

/-- The texts of some nodes, in document order. -/
def textsOf : List Node → List (List Char)
  | [] => []
  | node :: rest => node.texts ++ textsOf rest

end

/-- The text of some nodes. -/
def innerText (children : List Node) : List Char := (textsOf children).flatten

/-- An element: its name, its attributes and its children. -/
structure Element where
  name : String
  attributes : List Attribute
  children : List Node
  deriving Repr

mutual

/-- The elements with one of the names within a node, in document order. -/
def Node.elementsNamed (names : List String) : Node → List Element
  | .element name attributes children =>
    (if names.contains name then [⟨name, attributes, children⟩] else [])
      ++ elementsNamed names children
  | .text _ => []
  | .aside _ => []
  | .comment _ => []
  | .doctype _ => []

/-- The elements with one of the names within some nodes, in document order. -/
def elementsNamed (names : List String) : List Node → List Element
  | [] => []
  | node :: rest => node.elementsNamed names ++ elementsNamed names rest

end

/-- The elements with one of the names among some nodes. -/
def childrenNamed (names : List String) (nodes : List Node) : List Element :=
  nodes.filterMap fun node =>
    match node with
    | .element name attributes children =>
      if names.contains name then some ⟨name, attributes, children⟩ else none
    | _ => none

end WikiMigration.Html
