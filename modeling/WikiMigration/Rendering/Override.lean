/-
The choice of a renderer.

A page is rendered under the rules of its dialect unless an override names another renderer.  An
override is the path of a module and the name of a member of it, with a dot or a colon between the
two.  It is well formed or not whatever modules there are; whether it names a renderer depends on a
library of modules.
-/
import WikiMigration.Dialect
import WikiMigration.Error
import WikiMigration.Text.Lines
import WikiMigration.Text.WordChar

namespace WikiMigration.Rendering

open Text

/-! ### Override paths -/

/-- Whether a text is a name: a Latin letter or an underscore, then word characters. -/
def isName : List Char → Bool
  | [] => false
  | c :: rest => (isLatin c || c == '_') && rest.all isWordChar

/-- The names of a path with dots, if it is one. -/
def dottedNames? (text : List Char) : Option (List (List Char)) :=
  let names := splitAt '.' text
  if names.all isName then some names else none

/-- Whether a text is well formed as an override: names with dots, at least two, of which the last
may follow a colon instead. -/
def isOverridePath (text : List Char) : Bool :=
  match cut? [':'] text with
  | some (moduleName, member) => (dottedNames? moduleName).isSome && isName member
  | none =>
    match dottedNames? text with
    | some names => decide (2 ≤ names.length)
    | none => false

/-- Whether a text is well formed as an override; a line feed at its end is passed over. -/
def isOverride (text : List Char) : Bool :=
  isOverridePath text || match text.reverse with
    | '\n' :: rest => isOverridePath rest.reverse
    | _ => false

/-- The module and the member that an override names. -/
def overrideParts (text : List Char) : List Char × List Char :=
  match cut? [':'] text with
  | some parts => parts
  | none =>
    let member := (text.reverse.takeWhile (· != '.')).reverse
    (text.take (text.length - member.length - 1), member)

/-! ### Renderers -/

/-- The rules a page can be rendered under. -/
inductive Renderer where
  | wiki
  | markdown
  deriving DecidableEq, Repr

/-- The renderer of a dialect. -/
def Renderer.ofDialect : Dialect → Renderer
  | .jspwiki => .wiki
  | .markdown => .markdown

/-- What a member of a module is, as far as rendering is concerned. -/
inductive Member where
  | renderer (r : Renderer)
  /-- The interface that all renderers share, which cannot itself render. -/
  | interface
  deriving DecidableEq, Repr

/-- A module that overrides may name. -/
structure Module where
  name : String
  /-- Whether it can hold further modules. -/
  isPackage : Bool
  /-- The members that have to do with rendering. -/
  members : List (String × Member)

/-- The modules that hold renderers or their interface. -/
def renderingModules : List Module :=
  let interface : String × Member := ("Renderer", .interface)
  let wiki : String × Member := ("JSPWikiRenderer", .renderer .wiki)
  let markdown : String × Member := ("MarkdownRenderer", .renderer .markdown)
  [⟨"converters", true, [interface, wiki, markdown]⟩,
    ⟨"converters.base_converter", false, [interface]⟩,
    ⟨"converters.jspwiki_renderer", false, [interface, wiki]⟩,
    ⟨"converters.markdown_renderer", false, [interface, markdown]⟩,
    ⟨"orchestrator.page_translator", false, [interface]⟩,
    ⟨"orchestrator.migration_runner", false, [interface]⟩]

/-- The packages without members that have to do with rendering. -/
def otherPackages : List String :=
  ["orchestrator", "providers", "logging", "json", "collections", "html", "xml", "email", "urllib",
    "importlib", "concurrent", "unittest", "http", "asyncio", "yaml", "lxml", "bs4", "markdown",
    "markdownify", "colorlog", "tqdm"]

/-- The modules, not packages, without members that have to do with rendering. -/
def otherModules : List String :=
  ["config_loader", "errors", "logger", "migrate", "models", "converters.html_cleaner",
    "converters.jspwiki_translator", "converters.markdown_translator",
    "orchestrator.attachment_migrator", "orchestrator.migration_report",
    "orchestrator.page_enumerator", "providers.attachment_provider", "providers.base_provider",
    "providers.file_system_provider", "os", "os.path", "sys", "re", "io", "abc", "enum", "typing",
    "pathlib", "builtins", "string", "datetime", "math", "time", "random", "functools",
    "itertools", "argparse", "copy", "shutil", "tempfile", "hashlib", "contextlib", "dataclasses",
    "types", "subprocess", "threading", "html.parser", "collections.abc", "logging.handlers",
    "json.decoder", "json.encoder", "urllib.parse"]

/-- The library of modules. -/
def library : List Module :=
  renderingModules ++ otherPackages.map (⟨·, true, []⟩) ++ otherModules.map (⟨·, false, []⟩)

/-- The module of a name. -/
def module? (name : List Char) : Option Module :=
  library.find? fun m => m.name == String.ofList name

/-- Looks a module up name by name from the outside in; `outer` is the module found last.  The error
says what is missing. -/
def findModule (outer : Option Module) (done : List (List Char)) :
    List (List Char) → Except String (Option Module)
  | [] => .ok outer
  | name :: rest =>
    let path := joinWith ['.'] (done ++ [name])
    match module? path with
    | some found => findModule (some found) (done ++ [name]) rest
    | none =>
      let missing := "No module named '" ++ String.ofList path ++ "'"
      match outer with
      | some m =>
        if m.isPackage then .error missing
        else .error (missing ++ "; '" ++ m.name ++ "' is not a package")
      | none => .error missing

/-- The failure to create the renderer of an interface. -/
def interfaceMessage (dialect : Dialect) : String :=
  "Cannot create Renderer for dialect '" ++ dialect.name
    ++ "': Can't instantiate abstract class Renderer with abstract method render"

/-- The renderer that a well-formed override names for a dialect. -/
def ofOverride (dialect : Dialect) (path : List Char) : Except MigrationError Renderer :=
  let (moduleName, member) := overrideParts path
  match findModule none [] (splitAt '.' moduleName) with
  | .error missing =>
    .error (.ofConfiguration ("Cannot import parser module '" ++ String.ofList moduleName ++ "': "
      ++ missing))
  | .ok found =>
    match (found.map Module.members).getD [] |>.lookup (String.ofList member) with
    | some (.renderer r) => .ok r
    | some .interface => .error (.ofConfiguration (interfaceMessage dialect))
    | none =>
      .error (.ofConfiguration ("'" ++ String.ofList path ++ "' is not a Renderer class"))

/-- The renderer for a dialect with an override, if one is given. -/
def choose (dialect : Dialect) (override : Option String) : Except MigrationError Renderer :=
  match override with
  | none => .ok (.ofDialect dialect)
  | some path => if path.isEmpty then .ok (.ofDialect dialect) else ofOverride dialect path.toList

end WikiMigration.Rendering
