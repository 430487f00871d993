/-
Cleaning a rendered page.

Four steps take out what belongs to the wiki engine and not to the page: the decoration of the
editor, the anchors of sections, the engine's addresses and link classes, and wrappers that hold
nothing.  None of them touches the text of the page.  An aside is no such text, so a wrapper that
holds nothing else goes with it.
-/
import WikiMigration.Html.Node
import WikiMigration.Text.Lines
import WikiMigration.Url.Percent

namespace WikiMigration.Html

open Text

/-! ### Addresses of the wiki engine, read back as names

A page served by the engine has an address with its name in a query; the name of the page and the
section behind it are what a migrated page links to.  The address of an attachment holds its path.
Any other address stays as it is.
-/

/-- What precedes the name of a page in an address. -/
def pageMarks : List (List Char) :=
  ["Wiki.jsp?page=".toList, "Edit.jsp?page=".toList, "PageInfo.jsp?page=".toList]

/-- The name and the section in the rest of a page's address: the name goes up to the next
parameter, and what stands between it and the section is no part of either. -/
def pageRest? (rest : List Char) : Option (List Char × List Char) :=
  let name := rest.takeWhile fun c => c != '&' && c != '#'
  let section_ := (rest.drop name.length).dropWhile (· != '#')
  if name.isEmpty then none
  else if (section_.dropLast).contains '\n' then none
  else some (name, if section_.getLast? == some '\n' then section_.dropLast else section_)

/-- The name and the section of a page's address that starts at the front of the text. -/
def pageAtFront? (text : List Char) : Option (List Char × List Char) :=
  pageMarks.findSome? fun mark => (after? mark text).bind pageRest?

/-- The path of an attachment's address that starts at the front of the text. -/
def attachmentAtFront? (text : List Char) : Option (List Char) :=
  match after? "attach/".toList text with
  | none => none
  | some rest =>
    let path := rest.takeWhile fun c => c != '?' && c != '#'
    if path.isEmpty then none else some path

/-- The value read behind the last slash of the first line at which one can be read; failing that,
at the front of the text. -/
def behindLastSlash? {α : Type} (read : List Char → Option α) : List Char → Option α
  | [] => none
  | c :: rest =>
    if c == '\n' then none
    else match behindLastSlash? read rest with
      | some a => some a
      | none => if c == '/' then read rest else none

/-- The value read behind the last slash, or at the front of the text. -/
def readAddress? {α : Type} (read : List Char → Option α) (text : List Char) : Option α :=
  (behindLastSlash? read text).orElse fun _ => read text

/-- The name that an address of the wiki engine stands for; any other address is returned as it
is. -/
def plainName (address : List Char) : List Char :=
  match readAddress? pageAtFront? address with
  | some (name, section_) => Url.decodeQuery name ++ section_
  | none =>
    match readAddress? attachmentAtFront? address with
    | some path => Url.decode path
    | none => address

/-! ### Changes of trees -/

mutual

/-- The node with the attributes of every element changed. -/
def Node.mapAttributes (f : String → List Attribute → List Attribute) : Node → Node
  | .element name attributes children =>
    .element name (f name attributes) (mapAttributes f children)
  | .text content => .text content
  | .aside content => .aside content
  | .comment content => .comment content
  | .doctype content => .doctype content

/-- The nodes with the attributes of every element changed. -/
def mapAttributes (f : String → List Attribute → List Attribute) : List Node → List Node
  | [] => []
  | node :: rest => node.mapAttributes f :: mapAttributes f rest

end

mutual

/-- The node without the elements of a sort; nothing if it is one itself. -/
def Node.dropElements (p : Element → Bool) : Node → List Node
  | .element name attributes children =>
    if p ⟨name, attributes, children⟩ then []
    else [.element name attributes (dropElements p children)]
  | .text content => [.text content]
  | .aside content => [.aside content]
  | .comment content => [.comment content]
  | .doctype content => [.doctype content]

/-- The nodes without the elements of a sort. -/
def dropElements (p : Element → Bool) : List Node → List Node
  | [] => []
  | node :: rest => node.dropElements p ++ dropElements p rest

end

/-! ### The steps -/

/-- The classes of the editor's decoration. -/
def decorationClasses : List String := ["hashlink", "editsection", "createpage-marker"]

/-- Whether the element is decoration of the editor. -/
def isDecoration (e : Element) : Bool :=
  (classesOf e.attributes).any decorationClasses.contains

/-- The attributes without the anchor of a section. -/
def dropSectionId (_ : String) (attributes : List Attribute) : List Attribute :=
  if ((attributeValue? "id" attributes).map (startsWith "section-".toList)).getD false then
    dropAttribute "id" attributes
  else attributes

/-- The classes that links of the engine have. -/
def linkClasses : List String := ["wikipage", "external", "attachment", "createpage"]

/-- The attributes with the address of the name read back, if there is one. -/
def readBack (name : String) (attributes : List Attribute) : List Attribute :=
  match attributeValue? name attributes with
  | some address =>
    if address.isEmpty then attributes else setAttribute name (plainName address) attributes
  | none => attributes

/-- The attributes of an image: its address is read back, and its title stands in for a missing
description. -/
def cleanImage (attributes : List Attribute) : List Attribute :=
  let attributes := readBack "src" attributes
  let description := (attributeValue? "alt" attributes).getD []
  let title := (attributeValue? "title" attributes).getD []
  if description.isEmpty && !title.isEmpty then setAttribute "alt" title attributes
  else attributes

/-- The attributes of a link: its address is read back, and the classes of the engine go. -/
def cleanLink (attributes : List Attribute) : List Attribute :=
  let attributes := readBack "href" attributes
  match attributeValue? "class" attributes with
  | none => attributes
  | some classes =>
    let kept := (words classes).filter fun c => !linkClasses.contains (String.ofList c)
    if kept.isEmpty then dropAttribute "class" attributes
    else setAttribute "class" (unwords kept) attributes

/-- The attributes of an image or a link, cleaned. -/
def cleanAddresses (name : String) (attributes : List Attribute) : List Attribute :=
  if name == "img" then cleanImage attributes
  else if name == "a" then cleanLink attributes
  else attributes

/-- Whether the element is a wrapper that holds nothing: no attribute, no element, and only blank
text. -/
def isEmptyWrapper (e : Element) : Bool :=
  ["div", "span", "p"].contains e.name && e.attributes.isEmpty
    && !(e.children.any Node.isElement) && (textsOf e.children).all isBlankText

/-- The nodes before the empty wrappers are dropped. -/
def undecorated (nodes : List Node) : List Node :=
  mapAttributes cleanAddresses (mapAttributes dropSectionId (dropElements isDecoration nodes))

/-- The nodes of a rendered page, cleaned. -/
def clean (nodes : List Node) : List Node :=
  dropElements isEmptyWrapper (undecorated nodes)

/-- How many empty wrappers the cleaning drops. -/
def emptyWrapperCount (nodes : List Node) : Nat :=
  ((elementsNamed ["div", "span", "p"] (undecorated nodes)).filter isEmptyWrapper).length

end WikiMigration.Html
