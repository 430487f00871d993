/-
The markup dialects.
-/
namespace WikiMigration

/-- A markup dialect that pages are written in. -/
inductive Dialect where
  | jspwiki
  | markdown
  deriving DecidableEq, Repr

namespace Dialect

/-- The name of the dialect. -/
def name : Dialect → String
  | .jspwiki => "jspwiki"
  | .markdown => "markdown"

/-- The dialects, in the order in which messages list them. -/
def all : List Dialect := [.jspwiki, .markdown]

/-- The dialect of a name. -/
def ofName? (name : String) : Option Dialect := all.find? fun d => d.name == name

/-- The ending of a page's file name. -/
def fileExtension : Dialect → String
  | .jspwiki => ".txt"
  | .markdown => ".md"

/-- What the dialect is called when the program speaks to its user. -/
def label : Dialect → String
  | .jspwiki => "JSPWiki"
  | .markdown => "Markdown"

end Dialect

end WikiMigration
