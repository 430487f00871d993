/-
Links of the wiki dialect.

A link holds a label and a target, or one text that is both.  The target decides what the link is:
a footnote or a reference to one, an address elsewhere, a section, an attachment (told by its file
extension) or a page.  In the editor mode a target is kept as the name it is; in the view mode it
becomes the address under which the wiki engine serves it.
-/
import WikiMigration.Html.Escape
import WikiMigration.Url.Percent

namespace WikiMigration.Wiki

open Text

/-- What a page is rendered under. -/
structure Context where
  /-- The name of the page. -/
  page : List Char
  /-- Whether links keep the names of pages and attachments. -/
  editorMode : Bool
  /-- Whether plugins may run. -/
  pluginsEnabled : Bool
  deriving DecidableEq, Repr

/-- The file extensions of images. -/
def imageExtensions : List String :=
  ["png", "jpg", "jpeg", "gif", "svg", "webp", "bmp"]

/-- The file extensions of attachments. -/
def attachmentExtensions : List String :=
  imageExtensions ++
    ["pdf", "zip", "gz", "tgz", "tar", "7z", "jar", "war",
      "doc", "docx", "xls", "xlsx", "ppt", "pptx", "odt", "ods", "odp",
      "txt", "csv", "xml", "json", "log", "sql", "html", "htm",
      "mp3", "mp4", "avi", "mov", "wav", "ogg"]

/-- Whether the text starts with a scheme and `://`. -/
def hasScheme (target : List Char) : Bool :=
  match target with
  | [] => false
  | c :: rest =>
    isLatin c &&
      startsWith "://".toList
        (rest.dropWhile fun d => isLatin d || isDigit d || d == '+' || d == '.' || d == '-')

/-- Whether the target leads out of the wiki. -/
def isExternal (target : List Char) : Bool :=
  hasScheme target || startsWith "mailto:".toList target || startsWith "news:".toList target

/-- The number of a footnote whose text the link stands at. -/
def footnoteMark? (target : List Char) : Option (List Char) :=
  match target with
  | '#' :: number => if !number.isEmpty && number.all isDecimal then some number else none
  | _ => none

/-- Whether the target is the number of a footnote. -/
def isFootnoteNumber (target : List Char) : Bool :=
  !target.isEmpty && target.all isDecimal

/-- The file extension of the target, in lower case: one to five letters or digits behind the last
dot before a section or a query. -/
def extension? (target : List Char) : Option String :=
  let path := target.takeWhile fun c => c != '#' && c != '?'
  let ending := (path.reverse.takeWhile fun c => isLatin c || isDigit c).reverse
  match path.reverse.drop ending.length with
  | '.' :: _ =>
    if 1 ≤ ending.length && ending.length ≤ 5 then
      some (String.ofList (ending.map Char.toLower))
    else none
  | _ => none

/-- The address of a page, with the section if there is one. -/
def pageAddress (context : Context) (target : List Char) : List Char :=
  if context.editorMode then target
  else
    let name := target.takeWhile (· != '#')
    let section_ := (target.dropWhile (· != '#')).drop 1
    "Wiki.jsp?page=".toList ++ Url.encodeQuery name
      ++ (if section_.isEmpty then [] else '#' :: section_)

/-- The address of an attachment; one without a page belongs to the page rendered. -/
def attachmentAddress (context : Context) (target : List Char) : List Char :=
  if context.editorMode then target
  else
    let path := if target.contains '/' then target else context.page ++ '/' :: target
    "attach/".toList ++ Url.encodePath path

/-- An anchor of a class with an address. -/
def anchor (kind : String) (address label : List Char) : List Char :=
  "<a class=\"".toList ++ kind.toList ++ "\" href=\"".toList ++ Html.escapeAttribute address
    ++ "\">".toList ++ label ++ "</a>".toList

/-- An image shown in the text. -/
def inlineImage (address description : List Char) : List Char :=
  "<img class=\"inline\" src=\"".toList ++ Html.escapeAttribute address
    ++ "\" alt=\"".toList ++ Html.escapeAttribute description ++ "\" />".toList

/-- The name under which a footnote of the page is reached. -/
def footnoteName (context : Context) (number : List Char) : List Char :=
  "ref-".toList ++ Html.escapeAttribute context.page ++ '-' :: number

/-- The label and the target of a link's text. -/
def linkParts (body : List Char) : List Char × List Char :=
  match splitAt '|' body with
  | label :: target :: _ =>
    let label := trim label
    let target := trim target
    (if label.isEmpty then target else label, target)
  | _ => (trim body, trim body)

/-- A link, for the text between its brackets. -/
def renderLink (context : Context) (body : List Char) : List Char :=
  let (text, target) := linkParts body
  let label := Html.escape text
  match footnoteMark? target with
  | some number =>
    "<a class=\"footnote\" name=\"".toList ++ footnoteName context number ++ "\">[#".toList
      ++ number ++ "]</a>".toList
  | none =>
    if isFootnoteNumber target then
      "<a class=\"footnoteref\" href=\"#".toList ++ footnoteName context target ++ "\">[".toList
        ++ label ++ "]</a>".toList
    else
      let extension := extension? target
      let isImage := extension.any imageExtensions.contains && text == target
      if isExternal target then
        if isImage then inlineImage target target else anchor "external" target label
      else if target.head? == some '#' then anchor "wikipage" target label
      else if extension.any attachmentExtensions.contains then
        let address := attachmentAddress context target
        if isImage then inlineImage address target else anchor "attachment" address label
      else anchor "wikipage" (pageAddress context target) label

end WikiMigration.Wiki
