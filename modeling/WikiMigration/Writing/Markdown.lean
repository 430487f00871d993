/-
Elements in Markdown.
-/
import WikiMigration.Writing.Element
import WikiMigration.Writing.Table

namespace WikiMigration.Writing.Markdown

open Text Html Writing

/-- A heading: as many number signs as its level, six at most. -/
def writeHeading (place : Place) (level : Nat) (text : List Char) : List Char :=
  if place.inline then text
  else
    "\n\n".toList ++ List.replicate (max 1 (min 6 level)) '#' ++ ' ' :: spaceRuns (trim text)
      ++ "\n\n".toList

/-- The level of a heading element. -/
def headingLevel? (name : String) : Option Nat :=
  match name.toList with
  | 'h' :: rest => decimalNumber? (rest.takeWhile isDecimal)
  | _ => none

/-- The greatest number of backquotes in a row; `run` counts those of the current row. -/
def longestRun (run : Nat) : List Char → Nat
  | [] => run
  | c :: rest => if c == '`' then longestRun (run + 1) rest else max run (longestRun 0 rest)

/-- Code within a line, between more backquotes than it holds in a row. -/
def writeCode (place : Place) (text : List Char) : List Char :=
  if place.verbatim then text
  else
    let chomped := chomp text
    let longest := longestRun 0 chomped.text
    let marks := List.replicate (longest + 1) '`'
    if chomped.text.isEmpty then []
    else chomped.around
      (marks ++ (if longest == 0 then chomped.text else spaced chomped.text) ++ marks)

/-- The text of preformatted text without the empty lines at its ends. -/
def withoutOuterLines (text : List Char) : List Char :=
  let isEdge (c : Char) := c == ' ' || c == '\n'
  let edge := text.takeWhile isEdge
  let firstLine := (edge.reverse.takeWhile (· != '\n')).reverse
  let text := if edge.contains '\n' then firstLine ++ text.drop edge.length else text
  trimRightWith isEdge text

/-- Preformatted text. -/
def writePreformatted (text : List Char) : List Char :=
  if text.isEmpty then []
  else "\n\n```\n".toList ++ withoutOuterLines text ++ "\n```\n\n".toList

/-- A quotation: every line gets a mark. -/
def writeQuotation (place : Place) (text : List Char) : List Char :=
  let text := trimWith isRunBlank text
  if place.inline then spaced text
  else if text.isEmpty then ['\n']
  else
    '\n' :: unlines ((lines text).map fun line => if line.isEmpty then ['>'] else '>' :: ' ' :: line)
      ++ "\n\n".toList

/-- The number of an ordered list's first item. -/
def firstNumber (e : Element) : Nat :=
  ((attributeValue? "start" e.attributes).bind decimalNumber?).getD 1

/-- The mark of an item: its number in an ordered list, a dash in any other. -/
def itemMark (place : Place) (before : List Node) : List Char :=
  match place.parents.head? with
  | some parent =>
    if parent.name == "ol" then
      let earlier := (childrenNamed ["li"] before).length
      (Nat.repr (firstNumber parent + earlier)).toList ++ ". ".toList
    else "- ".toList
  | none => "- ".toList

/-- An item of a list. -/
def writeItem (place : Place) (before : List Node) (text : List Char) : List Char :=
  let text := trim text
  if text.isEmpty then ['\n'] else hang (itemMark place before) text ++ ['\n']

/-- An address as the target of a link: one with blanks stands between angle brackets. -/
def destination (address : List Char) : List Char :=
  if address.any isBlank then '<' :: address ++ ['>'] else address

/-- The title of a link. -/
def linkTitle (title : List Char) : List Char :=
  if title.isEmpty then []
  else ' ' :: '"' :: replaceAll ['"'] "\\\"".toList title ++ ['"']

/-- A link. -/
def writeLink (place : Place) (e : Element) (text : List Char) : List Char :=
  if place.verbatim then text
  else
    let chomped := chomp text
    let address := valueOf "href" e
    if chomped.text.isEmpty then []
    else if address.isEmpty then chomped.around chomped.text
    else chomped.around ('[' :: chomped.text ++ "](".toList ++ destination address
      ++ linkTitle (valueOf "title" e) ++ [')'])

/-- An image; its title stands in for a missing description. -/
def writeImage (e : Element) : List Char :=
  let description := valueOf "alt" e
  let description := if description.isEmpty then valueOf "title" e else description
  "![".toList ++ description ++ "](".toList ++ destination (valueOf "src" e) ++ [')']

/-- A plugin, kept as markup; any other span is its text. -/
def writeSpan (e : Element) (text : List Char) : List Char :=
  if (classesOf e.attributes).contains "wikiplugin" then
    "[\x7b".toList ++ innerText e.children ++ "\x7d]()".toList
  else text

/-- A text between two equal marks, unless nothing is markup here. -/
def writeMarked (place : Place) (sign : String) (text : List Char) : List Char :=
  if place.verbatim then text else mark sign text

/-- An element of a page, for the text that is in it and the rows of its cells. -/
def writeElement (place : Place) (before behind : List Node) (e : Element) (text : List Char)
    (rows : List WrittenRow) : List Char :=
  match e.name with
  | "a" => writeLink place e text
  | "img" => writeImage e
  | "span" => writeSpan e text
  | "b" => writeMarked place "**" text
  | "strong" => writeMarked place "**" text
  | "i" => writeMarked place "*" text
  | "em" => writeMarked place "*" text
  | "del" => writeMarked place "~~" text
  | "s" => writeMarked place "~~" text
  | "sup" => writeMarked place "^" text
  | "sub" => writeMarked place "~" text
  | "code" => writeCode place text
  | "kbd" => writeCode place text
  | "samp" => writeCode place text
  | "pre" => writePreformatted text
  | "br" => if place.inline then [' '] else "\\\n".toList
  | "hr" => "\n\n---\n\n".toList
  | "blockquote" => writeQuotation place text
  | "div" => writeDivision place text
  | "dl" => writeDivision place text
  | "li" => writeItem place before text
  | "table" => markdownTable rows
  | name =>
    match headingLevel? name with
    | some level => writeHeading place level text
    | none => writeShared .markdown place before behind e text

end WikiMigration.Writing.Markdown
