/-
Pages of the wiki dialect as HTML.

Each fragment of a page is written on lines of its own.  Besides the HTML a page gives notices: of
plugins that would have to run, and of preformatted text that never ends.
-/
import WikiMigration.Wiki.Block
import WikiMigration.Wiki.Inline
import WikiMigration.Wiki.TableRow

namespace WikiMigration.Wiki

open Text

/-- What rendering a page has to say beside its HTML. -/
inductive Notice where
  | pluginKept (body : List Char)
  | preformattedUnclosed
  deriving DecidableEq, Repr

/-- The element of a list. -/
def ListKind.tag : ListKind → String
  | .bulleted => "ul"
  | .numbered => "ol"

/-- The anchor of a heading: the page and the title, each with its word characters only. -/
def sectionId (context : Context) (title : List Char) : List Char :=
  Html.escapeAttribute ("section-".toList ++ context.page.filter isWordChar ++ '-'
    :: title.filter isWordChar)

/-- A cell of a table. -/
def Cell.render (context : Context) (cell : Cell) : List Char :=
  let tag := if cell.isHeader then "th" else "td"
  ("<" ++ tag ++ ">").toList ++ renderInline context (trim cell.content)
    ++ ("</" ++ tag ++ ">").toList

/-- A row of a table. -/
def renderRow (context : Context) (row : List Char) : List Char :=
  "<tr>".toList ++ (splitRow row).flatMap (Cell.render context) ++ "</tr>".toList

/-- A fragment as HTML. -/
def Fragment.render (context : Context) : Fragment → List Char
  | .paragraph lines =>
    "<p>".toList ++ unlines (lines.map (renderInline context)) ++ "</p>".toList
  | .table rows =>
    "<table class=\"wikitable\" border=\"1\">".toList ++ rows.flatMap (renderRow context)
      ++ "</table>".toList
  | .listOpening kind => ("<" ++ kind.tag ++ ">").toList
  | .listClosing kind => ("</li></" ++ kind.tag ++ ">").toList
  | .itemClosing => "</li>".toList
  | .itemOpening => "<li>".toList
  | .item content => "<li>".toList ++ renderInline context content
  | .preformatted lines _ => "<pre>".toList ++ Html.escape (unlines lines) ++ "</pre>".toList
  | .rule => "<hr />".toList
  | .heading level title =>
    let level := (Nat.repr level).toList
    let anchor := sectionId context title
    "<h".toList ++ level ++ " id=\"".toList ++ anchor ++ "\">".toList
      ++ renderInline context title
      ++ "<a class=\"hashlink\" href=\"#".toList ++ anchor ++ "\">#</a></h".toList ++ level
      ++ ['>']
  | .definition term meaning =>
    "<dl>".toList
      ++ (if term.isEmpty then []
          else "<dt>".toList ++ renderInline context term ++ "</dt>".toList)
      ++ "<dd>".toList ++ renderInline context meaning ++ "</dd></dl>".toList
  | .styleOpening style =>
    (openStyle "div" (Piece.ofText style)).flatMap Piece.text
  | .styleClosing => "</div>".toList

/-- The texts of a fragment that hold inline markup, in the order of the page. -/
def Fragment.inlineTexts : Fragment → List (List Char)
  | .paragraph lines => lines
  | .table rows => rows.flatMap fun row => (splitRow row).map fun cell => trim cell.content
  | .item content => [content]
  | .heading _ title => [title]
  | .definition term meaning => [term, meaning]
  | _ => []

/-- What a fragment has to say. -/
def Fragment.notices : Fragment → List Notice
  | .preformatted _ false => [.preformattedUnclosed]
  | fragment => fragment.inlineTexts.flatMap fun text => (pluginsOf text).map .pluginKept

/-- A page as HTML. -/
def renderPage (context : Context) (text : List Char) : List Char :=
  unlines ((fragmentsOf text).map (Fragment.render context))

/-- What rendering a page has to say. -/
def pageNotices (text : List Char) : List Notice :=
  (fragmentsOf text).flatMap Fragment.notices

end WikiMigration.Wiki
