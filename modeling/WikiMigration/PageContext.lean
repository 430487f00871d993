/-
What an operation on a page is about.

The context of an operation names the page and its version, what the operation was asked for, and the
values that it hands on to whoever works on the page.
-/
import WikiMigration.Config.Defaults

namespace WikiMigration

open Data

/-- A page with a version of it. -/
structure PageVersion where
  name : List Char
  version : Int
  deriving DecidableEq, Repr

/-- What an operation may be asked for. -/
inductive Request where
  | view
  | edit
  | preview
  | none
  deriving DecidableEq, Repr

/-- The name of a request. -/
def Request.name : Request → String
  | .view => "view"
  | .edit => "edit"
  | .preview => "preview"
  | .none => "none"

/-- The request of a name. -/
def Request.ofName? (name : String) : Option Request :=
  [Request.view, .edit, .preview, .none].find? fun request => request.name == name

/-- The context of an operation on a page. -/
structure PageContext where
  page : PageVersion
  request : Request := .view
  /-- Values by name. -/
  «variables» : Value := .mapping []

namespace PageContext

/-- The name of the value that asks for links to page names instead of addresses. -/
def editorMode : String := "WYSIWYG_EDITOR_MODE"

/-- The context in which a page is rendered to be migrated. -/
def forRendering (page : PageVersion) : PageContext :=
  { page, request := .none, «variables» := Config.mappingOf [(editorMode, .bool true)] }

/-- The context in which a page is saved. -/
def forSaving (page : PageVersion) : PageContext := { page, request := .edit }

/-- The value of a name; the fallback if there is none. -/
def valueOr (context : PageContext) (name : String) (fallback : Value) : Value :=
  (context.«variables».get? name).getD fallback

/-- Whether links are to page names instead of addresses. -/
def isEditorMode (context : PageContext) : Bool := (context.valueOr editorMode .null).isGiven

end PageContext

end WikiMigration
