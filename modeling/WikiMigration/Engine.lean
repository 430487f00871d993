/-
The configuration of the engine of one dialect.

An engine has a directory of pages, a directory to work in and a file for its log, all absolute, and
may name a renderer of its own.  It is built from values that a configuration may hold, so each of
them is checked; nothing on the disk is looked at.
-/
import WikiMigration.Data.Text
import WikiMigration.Path
import WikiMigration.Rendering.Override
import WikiMigration.Text.Case

namespace WikiMigration

open Data

/-- The configuration of the engine of one dialect. -/
structure Engine where
  dialect : Dialect
  pageDirectory : Path
  workDirectory : Path
  logFile : Path
  isCached : Bool := false
  override : Option String := none
  deriving DecidableEq, Repr

namespace Engine

/-- The names of the dialects as messages list them. -/
def dialectNames : String := (Value.list (Dialect.all.map fun d => .text d.name)).quoted

/-- The dialect that a value names, in any case and with blanks around it. -/
def readDialect (value : Value) : Except MigrationError Dialect :=
  match Dialect.ofName? (String.ofList (Text.lower (Text.trim value.toText.toList))) with
  | some dialect => .ok dialect
  | none =>
    .error (.ofConfiguration ("Unrecognized dialect '" ++ value.toText ++ "'. Must be one of: "
      ++ dialectNames))

/-- The path that a value stands for; the label names it in messages. -/
def readPath (place : Place) (label : String) (value : Value) : Except MigrationError Path :=
  match value with
  | .null => .error (.ofConfiguration ("Missing " ++ label))
  | .text s =>
    if Text.isBlankText s.toList then .error (.ofConfiguration ("Missing " ++ label))
    else .ok (place.pathOf s.toList)
  | value =>
    .error (.ofConfiguration ("Cannot resolve " ++ label ++ " '" ++ value.toText
      ++ "': expected str, bytes or os.PathLike object, not " ++ value.kindName))

/-- The override that a value stands for. -/
def readOverride (value : Value) : Except MigrationError (Option String) :=
  let refused : MigrationError :=
    .ofConfiguration ("Invalid parser override '" ++ value.toText
      ++ "': expected 'package.module.Class' or 'package.module:Class'")
  match value with
  | .null => .ok none
  | .text s => if Rendering.isOverride s.toList then .ok (some s) else .error refused
  | _ => .error refused

/-- The engine of the given values.  The dialect is checked first, then the override, then the
paths. -/
def build (place : Place) (dialect pageDirectory workDirectory logFile cache override : Value) :
    Except MigrationError Engine := do
  let dialect ← readDialect dialect
  let override ← readOverride override
  let pageDirectory ← readPath place "page directory" pageDirectory
  let workDirectory ← readPath place "work directory" workDirectory
  let logFile ← readPath place "log path" logFile
  return { dialect, pageDirectory, workDirectory, logFile, isCached := cache.isGiven, override }

/-- The name of an engine's directory to work in. -/
def workDirectoryName (dialect : Dialect) : List Char := "workDir-".toList ++ dialect.name.toList

/-- The name of an engine's log. -/
def logName (dialect : Dialect) : List Char :=
  "wiki-".toList ++ dialect.name.toList ++ ".log".toList

/-- The engine of a dialect that works within a root of the given path. -/
def ofRoot (place : Place) (dialect pageDirectory root cache override : Value) :
    Except MigrationError Engine := do
  let dialect ← readDialect dialect
  let root ← readPath place "work root" root
  let override ← readOverride override
  let pageDirectory ← readPath place "page directory" pageDirectory
  return { dialect, pageDirectory, workDirectory := root.child (workDirectoryName dialect),
           logFile := root.child (logName dialect), isCached := cache.isGiven, override }

/-- The engine as the properties of a wiki server. -/
def properties (engine : Engine) : List (String × String) :=
  [("jspwiki.fileSystemProvider.pageDir", String.ofList engine.pageDirectory.text),
    ("jspwiki.basicAttachmentProvider.storageDir", String.ofList engine.pageDirectory.text),
    ("jspwiki.workDir", String.ofList engine.workDirectory.text),
    ("appender.rolling.fileName", String.ofList engine.logFile.text),
    ("jspwiki.cache.enable", if engine.isCached then "true" else "false"),
    ("jspwiki.syntax", engine.dialect.name)]
  ++ match engine.override with
    | some path => if path.isEmpty then [] else [("jspwiki.renderingManager.markupParser", path)]
    | none => []

end Engine

end WikiMigration
