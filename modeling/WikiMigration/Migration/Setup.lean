/-
The preparation of a run over files.

The engines are built, the source must be there, the target is made ready, and each engine gets its
directory to work in and its log.  Cleaning the target is refused if the source lies in it.
-/
import WikiMigration.Config.Defaults
import WikiMigration.Conversion
import WikiMigration.Data.Text
import WikiMigration.Engine
import WikiMigration.Error
import WikiMigration.Log
import WikiMigration.Migration.Run
import WikiMigration.Store.Attachment
import WikiMigration.Store.Page
import WikiMigration.Text.Quoted

namespace WikiMigration.Migration

open Text Data Files Store

/-! ### The settings of a run

A configuration need not be valid to be read: a setting that is not there has its usual value, and a
part that should be a mapping and is none is a failure.
-/

/-- What a key of a mapping gives, or the fallback if it is not there. -/
def entryOr (key : String) (fallback : Value) (value : Value) : Except Failure Value :=
  match value with
  | .mapping entries => .ok ((lookup (.text key) entries).getD fallback)
  | value =>
    .error (.other "AttributeError"
      (Text.quoted value.fullKindName ++ " object has no attribute 'get'"))

/-- A part of a configuration; a part that is not there has no settings. -/
def part (name : String) (config : Value) : Except Failure Value :=
  entryOr name (.mapping []) config

/-- The settings of a run. -/
structure Settings where
  config : Value
  source : Value
  target : Value
  language : Value
  reportPath : Value
  isDry : Bool
  cleans : Bool
  verifies : Bool
  deriving Repr

/-- The settings that a configuration gives. -/
def Settings.ofConfig (config : Value) : Except Failure Settings := do
  let migration ← part "migration" config
  let source ← entryOr "source_directory" .null migration
  let target ← entryOr "target_directory" .null migration
  let language ← entryOr "language" .null migration
  let reportPath ← entryOr "report_path" .null migration
  let isDry ← entryOr "dry_run" (.bool false) migration
  let cleans ← entryOr "clean_target" (.bool false) migration
  let verifies ← entryOr "verify_attachments" (.bool true) migration
  return { config, source, target, language, reportPath, isDry := isDry.isGiven,
           cleans := cleans.isGiven, verifies := verifies.isGiven }

/-- The directory that engines work in if none is given. -/
def usualWorkRoot : Value := .text "./target"

/-- The engines that the settings ask for: of the source and of the target. -/
def Settings.engines (place : Place) (settings : Settings) : Except Failure (Engine × Engine) := do
  let engine ← part "engine" settings.config
  let migration ← part "migration" settings.config
  if !settings.source.isGiven || !settings.target.isGiven || !settings.language.isGiven then
    throw (.classified
      (.ofConfiguration "Source directory, target directory and language are required"))
  let workRoot ← entryOr "work_directory" .null engine
  let workRoot := if workRoot.isGiven then workRoot else usualWorkRoot
  let cache ← entryOr "cache_enabled" (.bool false) engine
  let sourceDialect ← entryOr "source_dialect" (.text "jspwiki") migration
  let override ← entryOr "parser_override" .null engine
  let source ← (Engine.ofRoot place sourceDialect settings.source workRoot cache override).mapError
    .classified
  let targetDialect ← entryOr "target_dialect" (.text "markdown") migration
  let target ← (Engine.ofRoot place targetDialect settings.target workRoot cache .null).mapError
    .classified
  return (source, target)

/-! ### Who works for a run -/

/-- What a run depends on besides the world it changes. -/
structure Site where
  place : Place
  /-- What tells staging files from all others. -/
  mark : Name
  clock : Log.Clock

/-- Who is there to work for engines. -/
structure Staff where
  pages : Engine → PageStore World
  files : Engine → AttachmentStore World Nat
  renderer : Engine → Task World (PageContext → List Char → Task World (List Char))
  writer : Engine → Except Failure (List Char → Task World (List Char))
  hooks : List (List Char → Task World (List Char)) := []

/-- The logger of those who are not engines. -/
def runLogger : String := "orchestrator.runner"

/-! ### The logs of the engines -/

/-- The name of an engine's logger. -/
def engineLogger (engine : Engine) : String := Log.loggerName ("engine." ++ engine.dialect.name)

/-- The tree with records at the end of a log; a log that is gone stays gone. -/
def logTo (site : Site) (file : Path) (records : List Log.Record) (tree : Tree) : Tree :=
  match tree.isFile file with
  | .ok true =>
    match tree.append file (Utf8.encode (Log.lines site.clock.stamp records).toList) with
    | .ok tree => tree
    | .error _ => tree
  | _ => tree

/-- What a conversion gives, with its records in the log of an engine. -/
def engineTask {α : Type} (site : Site) (engine : Engine)
    (logged : Except MigrationError (α × List Log.Record)) : Task World α := fun world =>
  match logged with
  | .error e => ⟨.error (.classified e), world, []⟩
  | .ok (result, records) =>
    ⟨.ok result, world.setTree (logTo site engine.logFile records world.tree), records⟩

/-- Those who work for engines unless others are asked for. -/
def Staff.usual (site : Site) : Staff :=
  { pages := fun engine => FilePages.interface ⟨engine, site.mark⟩
    files := fun engine => FileAttachments.interface ⟨engine, site.mark⟩
    renderer := fun engine => do
      let renderer ← engineTask site engine do
        let renderer ← Rendering.choose engine.dialect engine.override
        return (renderer, Conversion.readyRecords (engineLogger engine) renderer)
      return fun context text =>
        engineTask site engine (Conversion.render renderer (engineLogger engine)
          { page := context.page.name, editorMode := context.isEditorMode, pluginsEnabled := false }
          (some text))
    writer := fun engine =>
      .ok fun html =>
        engineTask site engine
          (Conversion.writePage engine.dialect (engineLogger engine) (some html)) }

/-! ### The target -/

/-- A record of the log of the run. -/
def tell (level : Log.Level) (message : String) : Task World Unit :=
  .emit { level, logger := Log.loggerName runLogger, message }

/-- The failure of a configuration. -/
def refuse {α : Type} (message : String) : Task World α :=
  .fail (.classified (.ofConfiguration message))

/-- Whether a path leads to a directory or to something in it, as far as the names tell. -/
def leadsInto (directory path : Path) : Bool :=
  directory.doubled == path.doubled && directory.names.isPrefixOf path.names

/-- Makes a directory and those it stands in. -/
def makeDirectories (path : Path) : Task World Unit := makeSteps none [.makeDirectories path]

/-- Removes all that stands within a directory; links are removed and not followed. -/
def empty (directory : Path) : Task World Unit := do
  for name in ← inspect fun tree => tree.list directory do
    let tree ← inspect fun tree => tree.removeAll (directory.child name)
    .change fun world => world.setTree tree

/-- Makes the target ready: it is made if it is not there, and emptied if that is asked for. -/
def prepareTarget (settings : Settings) (source target : Path) : Task World Unit := do
  if settings.cleans && leadsInto target source then
    refuse ("Refusing to clean target directory " ++ shown target
      ++ ": it contains the source directory")
  else if !(← inspect fun tree => tree.isThere target) then
    if settings.isDry then
      tell .info ("[dry-run] Would create target directory " ++ shown target)
    else
      makeDirectories target
      tell .info ("Created target directory " ++ shown target)
  else if !(← inspect fun tree => tree.isDirectory target) then
    refuse ("Target path is not a directory: " ++ shown target)
  else if !settings.cleans then
    tell .info ("Target directory exists, existing content is left in place: " ++ shown target)
  else if settings.isDry then
    tell .info ("[dry-run] Would delete existing content of " ++ shown target)
  else
    empty target
    tell .info ("Deleted existing content of target directory " ++ shown target)

/-! ### The engines -/

/-- Makes an engine's directory to work in, and its log unless that is open already. -/
def prepareEngine (opened : Option Path) (engine : Engine) : Task World Unit := do
  makeDirectories engine.workDirectory
  makeDirectories (parent engine.logFile)
  if opened != some engine.logFile then
    let tree ← inspect fun tree => tree.append engine.logFile []
    .change fun world => world.setTree tree

/-- Says in the log how an engine is configured. -/
def describeEngine (role : String) (engine : Engine) : Task World Unit :=
  engine.properties.forM fun (key, value) =>
    .emit { level := .debug, logger := Log.rootName
            message := "[" ++ role ++ "] " ++ key ++ " = " ++ value }

/-! ### The plan -/

/-- Writes a report to the file that the settings name, if they name one. -/
def exportTo (site : Site) (settings : Settings) (report : Report) : Task World Unit := fun world =>
  if settings.reportPath.isGiven then
    match report.writeTo runLogger site.place.workingDirectory settings.reportPath
        site.clock.seconds world.tree with
    | .ok (tree, record) => ⟨.ok (), world.setTree tree, [record]⟩
    | .error failure => ⟨.error failure, world, []⟩
  else ⟨.ok (), world, []⟩

/-- Prepares a run. -/
def prepare (site : Site) (staff : Staff) (settings : Settings) :
    Task World (Plan World Nat Nat) := do
  let (source, target) ← .ofResult (settings.engines site.place)
  if !(← inspect fun tree => tree.isDirectory source.pageDirectory) then
    refuse ("Source directory does not exist: " ++ shown source.pageDirectory)
  else
    prepareTarget settings source.pageDirectory target.pageDirectory
    prepareEngine none source
    prepareEngine (if target.dialect = source.dialect then some source.logFile else none) target
    describeEngine "source" source
    describeEngine "target" target
    let render ← staff.renderer source
    let write ← .ofResult (staff.writer target)
    tell .info ("Migrating " ++ source.dialect.name ++ " -> " ++ target.dialect.name
      ++ " for language '" ++ settings.language.toText ++ "'")
    return {
      crew := {
        source := staff.pages source
        target := staff.pages target
        sourceFiles := staff.files source
        targetFiles := staff.files target
        render, write, hooks := staff.hooks }
      options := { isDry := settings.isDry, verifies := settings.verifies, logger := runLogger }
      origin := shown source.pageDirectory
      report := {
        language := settings.language
        source := source.dialect.name
        target := target.dialect.name
        date := site.clock.date
        start := site.clock.seconds }
      clock := fun _ => site.clock.seconds
      exportReport := exportTo site settings }

end WikiMigration.Migration
