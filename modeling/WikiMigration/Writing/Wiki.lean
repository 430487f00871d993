/-
Elements in the wiki dialect.
-/
import WikiMigration.Writing.Element
import WikiMigration.Writing.Markdown
import WikiMigration.Writing.Table

namespace WikiMigration.Writing.Wiki

open Text Html Writing

/-- The mark of a heading's level. -/
def headingMark (level : Nat) : String :=
  if level == 1 || level == 2 then "!!!" else if level == 3 then "!!" else "!"

/-- A heading. -/
def writeHeading (place : Place) (level : Nat) (text : List Char) : List Char :=
  if place.inline then text
  else
    "\n\n".toList ++ (headingMark level).toList ++ ' ' :: collapseBlanks (trim text)
      ++ "\n\n".toList

/-- A text between marks, unless nothing is markup here. -/
def writeMarked (place : Place) (opening closing : String) (text : List Char) : List Char :=
  if place.verbatim then text else enclose opening.toList closing.toList text

/-- A text in a style. -/
def writeStyled (style : String) (text : List Char) : List Char :=
  enclose ("%%" ++ style ++ " ").toList "/%".toList text

/-- Preformatted text. -/
def writePreformatted (e : Element) : List Char :=
  let content :=
    match (elementsNamed ["code"] e.children).head? with
    | some code => innerText code.children
    | none => innerText e.children
  let content := trimNewlines content
  if content.isEmpty then []
  else "\n\n\x7b\x7b\x7b\n".toList ++ content ++ "\n\x7d\x7d\x7d\n\n".toList

/-- A quotation, as a style block. -/
def writeQuotation (text : List Char) : List Char :=
  let text := trim text
  if text.isEmpty then [] else "\n\n%%quote\n".toList ++ text ++ "\n/%\n\n".toList

/-- The markers of an item: one for each list around it, the outermost first. -/
def itemMarkers (place : Place) : List Char :=
  let markers := place.parents.reverse.filterMap fun e =>
    if e.name == "ul" then some '*' else if e.name == "ol" then some '#' else none
  if markers.isEmpty then ['*'] else markers

/-- Whether the line is an item: markers and a space. -/
def isItemLine (line : List Char) : Bool :=
  let markers := line.takeWhile fun c => c == '*' || c == '#'
  !markers.isEmpty && (line.drop markers.length).head? == some ' '

/-- The lines of an item.  Items within it keep their lines, and every other line goes onto the line
before it. -/
def itemLines (current : List Char) : List (List Char) → List (List Char)
  | [] => [current]
  | line :: rest =>
    if isItemLine line then current :: itemLines line rest
    else itemLines (current ++ ' ' :: trim line) rest

/-- An item of a list. -/
def writeItem (place : Place) (text : List Char) : List Char :=
  let text := trim text
  match (lines text).filter fun line => !isBlankText line with
  | [] => ['\n']
  | first :: rest =>
    itemMarkers place ++ ' ' :: unlines (itemLines first rest) ++ ['\n']

/-- What stands behind the last dash of a text, or the whole text. -/
def behindLastDash (text : List Char) : List Char :=
  (text.reverse.takeWhile (· != '-')).reverse

/-- A link. -/
def writeLink (place : Place) (e : Element) (text : List Char) : List Char :=
  if place.verbatim then text
  else
    let chomped := chomp text
    let classes := classesOf e.attributes
    let name := valueOf "name" e
    let address := valueOf "href" e
    if classes.contains "footnote" && !name.isEmpty then
      chomped.around ("[#".toList ++ behindLastDash name ++ [']'])
    else if address.isEmpty then chomped.around chomped.text
    else if classes.contains "footnoteref" then
      chomped.around ('[' :: behindLastDash address ++ [']'])
    else
      let plain := replaceAll "~~".toList ['~'] (replaceAll "[[".toList ['['] chomped.text)
      if plain.isEmpty || plain == address then chomped.around ('[' :: address ++ [']'])
      else chomped.around ('[' :: chomped.text ++ '|' :: address ++ [']'])

/-- An image; its title stands in for a missing description. -/
def writeImage (e : Element) : List Char :=
  let source := valueOf "src" e
  let description := valueOf "alt" e
  let description := if description.isEmpty then valueOf "title" e else description
  if source.isEmpty then description
  else if description.isEmpty || description == source then '[' :: source ++ [']']
  else '[' :: description ++ '|' :: source ++ [']']

/-- A plugin, kept as markup; any other span is its text. -/
def writeSpan (e : Element) (text : List Char) : List Char :=
  if (classesOf e.attributes).contains "wikiplugin" then
    "[\x7b".toList ++ innerText e.children ++ "\x7d]".toList
  else text

/-- A division of the page; one with a class is a style block. -/
def writeStyleBlock (place : Place) (e : Element) (text : List Char) : List Char :=
  let text := trim text
  if place.inline then spaced text
  else if text.isEmpty then []
  else match classesOf e.attributes with
    | style :: _ => "\n\n%%".toList ++ style.toList ++ '\n' :: text ++ "\n/%\n\n".toList
    | [] => block text

/-- A line of a definition. -/
def definitionLine (term meaning : List Char) : List Char := ';' :: term ++ ':' :: meaning

/-- The lines of a list of definitions.  A term goes with the next meaning; `term` is the one that
still waits for its meaning. -/
def definitionLines (term : List Char) : List Element → List (List Char)
  | [] => if term.isEmpty then [] else [definitionLine term []]
  | e :: rest =>
    let content := trim (collapseBlanks (innerText e.children))
    if e.name == "dt" then
      (if term.isEmpty then [] else [definitionLine term []]) ++ definitionLines content rest
    else definitionLine term content :: definitionLines [] rest

/-- A list of definitions. -/
def writeDefinitions (e : Element) : List Char :=
  let lines := definitionLines [] (childrenNamed ["dt", "dd"] e.children)
  if lines.isEmpty then [] else "\n\n".toList ++ unlines lines ++ "\n\n".toList

/-- An element of a page, for the text that is in it and the rows of its cells. -/
def writeElement (place : Place) (before behind : List Node) (e : Element) (text : List Char)
    (rows : List WrittenRow) : List Char :=
  match e.name with
  | "a" => writeLink place e text
  | "img" => writeImage e
  | "span" => writeSpan e text
  | "b" => writeMarked place "__" "__" text
  | "strong" => writeMarked place "__" "__" text
  | "i" => writeMarked place "''" "''" text
  | "em" => writeMarked place "''" "''" text
  | "code" => writeMarked place "\x7b\x7b" "\x7d\x7d" text
  | "tt" => writeMarked place "\x7b\x7b" "\x7d\x7d" text
  | "kbd" => writeMarked place "\x7b\x7b" "\x7d\x7d" text
  | "samp" => writeMarked place "\x7b\x7b" "\x7d\x7d" text
  | "sup" => writeStyled "sup" text
  | "sub" => writeStyled "sub" text
  | "del" => writeStyled "strike" text
  | "s" => writeStyled "strike" text
  | "pre" => writePreformatted e
  | "br" => if place.inline then [' '] else "\\\\\n".toList
  | "hr" => "\n\n----\n\n".toList
  | "blockquote" => writeQuotation text
  | "div" => writeStyleBlock place e text
  | "dl" => writeDefinitions e
  | "li" => writeItem place text
  | "table" => wikiTable rows
  | name =>
    match Markdown.headingLevel? name with
    | some level => writeHeading place level text
    | none => writeShared .jspwiki place before behind e text

end WikiMigration.Writing.Wiki
