/-
Trees as HTML text.

In text the ampersand and the angle brackets are written as entities.  The attributes of an element
stand in the order of their names, each between double quotes, or between single ones when the value
holds a double quote and no single one.  Elements that never have content are closed by a slash.
-/
import WikiMigration.Html.Escape
import WikiMigration.Html.Node

namespace WikiMigration.Html

open Text

/-- The elements that are written with a slash when they are empty. -/
def isWrittenVoid (name : String) : Bool :=
  ["area", "base", "br", "col", "embed", "hr", "img", "input", "keygen", "link", "menuitem", "meta",
    "param", "source", "track", "wbr", "basefont", "bgsound", "command", "frame", "image",
    "isindex", "nextid", "spacer"].contains name

/-- The value of an attribute with the quotes around it. -/
def quoteValue (value : List Char) : List Char :=
  let value := escape value
  if value.contains '"' then
    if value.contains '\'' then '"' :: replaceAll ['"'] "&quot;".toList value ++ ['"']
    else '\'' :: value ++ ['\'']
  else '"' :: value ++ ['"']

/-- An attribute, with the blank before it. -/
def Attribute.print (a : Attribute) : List Char :=
  ' ' :: a.name.toList ++ '=' :: quoteValue a.value

/-- Puts an attribute at its place in the order of the names. -/
def insertAttribute (a : Attribute) : List Attribute → List Attribute
  | [] => [a]
  | b :: rest => if b.name < a.name then b :: insertAttribute a rest else a :: b :: rest

/-- The attributes in the order of their names. -/
def sortAttributes (attributes : List Attribute) : List Attribute :=
  attributes.foldr insertAttribute []

/-- The elements whose text is written as it is. -/
def isVerbatim (name : String) : Bool := name == "script" || name == "style"

mutual

/-- A node as text; `verbatim` says that text is written as it is. -/
def Node.print (verbatim : Bool) : Node → List Char
  | .element name attributes children =>
    let tag := name.toList
    let opening := '<' :: tag ++ (sortAttributes attributes).flatMap Attribute.print
    if children.isEmpty && isWrittenVoid name then opening ++ "/>".toList
    else
      opening ++ '>' :: printNodes (isVerbatim name) children ++ "</".toList ++ tag ++ ['>']
  | .text content => if verbatim then content else escape content
  | .aside content => if verbatim then content else escape content
  | .comment content => "<!--".toList ++ content ++ "-->".toList
  | .doctype content => "<!DOCTYPE ".toList ++ content ++ ">\n".toList

/-- Some nodes as text. -/
def printNodes (verbatim : Bool) : List Node → List Char
  | [] => []
  | node :: rest => node.print verbatim ++ printNodes verbatim rest

end

/-- A document as text. -/
def print (nodes : List Node) : List Char := printNodes false nodes

end WikiMigration.Html
