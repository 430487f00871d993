/-
Conversion of a page from one dialect to another.

A page is rendered to HTML under the rules of its own dialect, or of another renderer that is asked
for, and the HTML is written in the other dialect.  A page without text is a failure; nothing else
is.  Each step leaves records in the log.
-/
import WikiMigration.Engine
import WikiMigration.Log
import WikiMigration.Markdown.Page
import WikiMigration.Wiki.Page
import WikiMigration.Writing.Page

namespace WikiMigration.Conversion

open Rendering

/-- The failure of a page that has no text. -/
def noMarkup (page : List Char) : MigrationError :=
  ⟨.conversion, "No markup to render for page '" ++ String.ofList page ++ "'",
    some (String.ofList page)⟩

/-- The failure of a page that was not rendered. -/
def noHtml : MigrationError := ⟨.conversion, "No HTML to translate", none⟩

/-- What a step gives, with its records. -/
abbrev Logged := Except MigrationError (List Char × List Log.Record)

/-- The logger of the renderer of the wiki's own dialect. -/
def rendererLogger : Renderer → String
  | .wiki => Log.loggerName "converters.jspwikirenderer"
  | .markdown => Log.loggerName "converters.markdownrenderer"

/-- The records of a renderer that is made ready. -/
def readyRecords (logger : String) : Renderer → List Log.Record
  | .wiki => []
  | .markdown =>
    [{ level := .debug, logger, message := "Initialized MarkdownRenderer with markdown extensions" }]

/-- The record of what rendering a page has to say. -/
def noticeRecord (logger : String) (context : Wiki.Context) : Wiki.Notice → List Log.Record
  | .pluginKept body =>
    if context.pluginsEnabled then
      [{ level := .warning, logger,
         message := "Plugin execution is not supported, keeping '[\x7b" ++ String.ofList body
           ++ "\x7d]' as markup on page '" ++ String.ofList context.page ++ "'" }]
    else []
  | .preformattedUnclosed =>
    [{ level := .debug, logger,
       message := "Unterminated preformatted block on page '" ++ String.ofList context.page ++ "'" }]

/-- Renders a text in the wiki's dialect. -/
def renderWiki (logger : String) (context : Wiki.Context) (text : List Char) :
    List Char × List Log.Record :=
  let html := Wiki.renderPage context text
  let rendered : Log.Record :=
    { level := .debug, logger,
      message := "Rendered " ++ Nat.repr text.length ++ " chars of markup to "
        ++ Nat.repr html.length ++ " chars of HTML" }
  (html, (Wiki.pageNotices text).flatMap (noticeRecord logger context) ++ [rendered])

/-- Renders a text in the Markdown dialect. -/
def renderMarkdown (logger : String) (context : Wiki.Context) (text : List Char) :
    List Char × List Log.Record :=
  let note (level : Log.Level) (message : String) : Log.Record := { level, logger, message }
  if text.isEmpty then ([], [note .debug "Empty markdown content provided"])
  else
    let html := Markdown.renderPage text
    let kept := if context.pluginsEnabled then
        [note .warning "Plugin execution is not supported, plugins are kept as markup"]
      else []
    (html, kept ++ [note .debug ("Converted " ++ Nat.repr text.length ++ " chars of markdown to "
      ++ Nat.repr html.length ++ " chars of HTML")])

/-- Renders a page to HTML. -/
def render (renderer : Renderer) (logger : String) (context : Wiki.Context)
    (text : Option (List Char)) : Logged :=
  match text with
  | none => .error (noMarkup context.page)
  | some text =>
    .ok (match renderer with
      | .wiki => renderWiki logger context text
      | .markdown => renderMarkdown logger context text)

/-- The logger of the writer of a dialect. -/
def writerLogger : Dialect → String
  | .markdown => Log.loggerName "converters.markdowntranslator"
  | .jspwiki => Log.loggerName "converters.jspwikitranslator"

/-- Writes rendered HTML in a dialect. -/
def writePage (dialect : Dialect) (logger : String) (html : Option (List Char)) : Logged :=
  match html with
  | none => .error noHtml
  | some html =>
    if Text.isBlankText html then .ok ([], [])
    else
      let text := Writing.writePage dialect html
      let note (message : String) : Log.Record := { level := .debug, logger, message }
      let dropped := Html.emptyWrapperCount (Html.parse html)
      .ok (text,
        [note "Cleaning rendered HTML",
          note ("HTML cleaned (" ++ Nat.repr dropped ++ " empty wrappers dropped)"),
          note ("Translated " ++ Nat.repr html.length ++ " chars of HTML to "
            ++ Nat.repr text.length ++ " chars")])

/-- The logger of conversions outside a migration. -/
def logger : String := Log.loggerName "converters"

/-- Converts the text of a page from the dialect of one engine to that of another, without plugins
and with links to page names. -/
def convert (page : List Char) (source target : Engine) (text : Option (List Char)) :
    Except MigrationError (List Char) := do
  let renderer ← Rendering.choose source.dialect source.override
  let (html, _) ← render renderer logger
    { page, editorMode := true, pluginsEnabled := false } text
  let (markup, _) ← writePage target.dialect logger (some html)
  return markup

end WikiMigration.Conversion
