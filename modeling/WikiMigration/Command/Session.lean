/-
A session: a run that the arguments of a command line ask for.

The configuration is loaded, the arguments are laid over it, and it is checked before anything else
is done.  Then the log is set up, the run begins, and what it gives is shown.  Failures that a user
can mend end the session with a complaint; others leave it.
-/
import WikiMigration.Command.Help
import WikiMigration.Command.Parse
import WikiMigration.Config.Arguments
import WikiMigration.Config.Check
import WikiMigration.Config.Load
import WikiMigration.Log
import WikiMigration.Migration.Export
import WikiMigration.Migration.Run
import WikiMigration.Migration.Setup

namespace WikiMigration.Command

open Data Files Migration Store

/-! ### What a session shows

Lines go to the output.  Records of the log go to the error output, each in the colour of its level,
as far as the level is urgent enough.
-/

/-- The sign that ends a colour. -/
def plainSign : String := "\x1b[0m"

/-- The sign that begins the colour of a level. -/
def colourSign : Log.Level → String
  | .debug => "\x1b[36m"
  | .info => "\x1b[32m"
  | .warning => "\x1b[33m"
  | .error => "\x1b[31m"
  | .critical => "\x1b[31m\x1b[47m"

/-- The text with the colour ended, unless it ends the colour itself. -/
def endColour (text : String) : String := if text.endsWith plainSign then text else text ++ plainSign

/-- A record as it is shown; where its failure came from stands behind the colour. -/
def colouredLine (stamp : String) (record : Log.Record) : String :=
  endColour (colourSign record.level ++ { record with traced := false }.line stamp)
    ++ (if record.traced then "\n" ++ Log.traceLine else "") ++ "\n"

/-- The records among some events. -/
def recordsOf (events : List Event) : List Log.Record :=
  events.filterMap fun event => match event with
    | .record record => some record
    | .line _ => none

/-- The lines among some events, as a text. -/
def linesOf (events : List Event) : String :=
  String.join (events.filterMap fun event => match event with
    | .record _ => none
    | .line text => some (text ++ "\n"))

/-- Records as they are shown. -/
def colouredLines (stamp : String) (records : List Log.Record) : String :=
  String.join (records.map (colouredLine stamp))

/-! ### Arguments -/

/-- The value of an argument; one that is not there is null. -/
def argument (arguments : Arguments) : Config.Given := fun name =>
  (lookup (.text name) arguments).getD .null

/-! ### The configuration -/

/-- What there is at the path that names a configuration. -/
def sourceAt (workingDirectory : Path) (tree : Tree) (path : String) : Config.Source :=
  if path.isEmpty then .nothing
  else
    match tree.find (rawPath workingDirectory path.toList) with
    | .ok (.file bytes) => .file bytes
    | .ok _ => .directory
    | .error _ => .nothing

/-- The configuration that the arguments name. -/
def loadConfig (environment : Config.Environment) (site : Site) (arguments : Arguments)
    (tree : Tree) : Except Failure Value :=
  match argument arguments "config" with
  | .text path =>
    (Config.load environment (sourceAt site.place.workingDirectory tree path)).mapError
      (·.failure path)
  | _ => .ok Config.defaults

/-- The configuration of a session, which is valid. -/
def configure (environment : Config.Environment) (site : Site) (arguments : Arguments)
    (tree : Tree) : Except Failure Value := do
  let config ← loadConfig environment site arguments tree
  let config := Value.mapping
    (Config.withArguments (argument arguments) (Config.entriesOf (some config)))
  (Config.check config).mapError fun fault => .classified fault.error
  return config

/-- The places that a session with the configuration looks at and changes. -/
def places (site : Site) (config : Value) : List Path :=
  let value (group key : String) : List Char :=
    match (Config.valueAt? [group, key] config).getD .null with
    | .text s => s.toList
    | _ => []
  let workRoot := value "engine" "work_directory"
  let directories := [value "migration" "source_directory", value "migration" "target_directory",
    if workRoot.isEmpty then usualWorkRoot.toText.toList else workRoot]
  let files := [value "migration" "report_path", value "logging" "file"].filter (!·.isEmpty)
  directories.map site.place.pathOf ++ files.map (Path.resolve site.place.workingDirectory)

/-! ### The log -/

/-- What the log of a session goes by: the least urgent level, and the file it goes to as well. -/
structure LogSettings where
  level : Log.Level
  file : Value

/-- The settings of the log. -/
def LogSettings.ofConfig (config : Value) : Except Failure LogSettings := do
  let logging ← part "logging" config
  let verbosity ← entryOr "verbosity" (.int 0) logging
  let file ← entryOr "file" .null logging
  let name ← entryOr "level" .null logging
  return { level := ← Log.resolveLevel verbosity name, file }

/-- A record of the root of the log. -/
def say (level : Log.Level) (message : String) : Task World Unit :=
  .emit { level, logger := Log.rootName, message }

/-- The file that the log goes to as well. -/
def logPath (site : Site) (file : Value) : Except Failure (Option Path) :=
  if file.isGiven then
    (fileName file).map fun text => some (Path.resolve site.place.workingDirectory text)
  else .ok none

/-- Makes the file of the log if it is not there; gives the file if it can be written. -/
def openLog (site : Site) (file : Value) : Task World (Option Path) := do
  match ← .ofResult (logPath site file) with
  | none => return none
  | some path =>
    match ← (inspect fun tree => tree.append path []).attempt with
    | .ok tree =>
      .change fun world => world.setTree tree
      say .info ("Logging to file: " ++ file.toText)
      return some path
    | .error failure =>
      say .warning ("Cannot log to " ++ file.toText ++ ": " ++ failure.message)
      return none

/-- Begins the log; gives the file that it goes to. -/
def startLog (site : Site) (settings : LogSettings) : Task World (Option Path) := do
  let file ← openLog site settings.file
  say .debug ("Log level: " ++ settings.level.name)
  return file

/-- What the log says of a configuration. -/
def configLines (config : Value) : List String :=
  let value (group key : String) (fallback : Value) : String :=
    ((Config.valueAt? [group, key] config).getD fallback).toText
  let override := (Config.valueAt? ["engine", "parser_override"] config).getD .null
  ["Source Directory: " ++ value "migration" "source_directory" (.text "Not Set"),
    "Target Directory: " ++ value "migration" "target_directory" (.text "Not Set"),
    "Language: " ++ value "migration" "language" (.text "Not Set"),
    "Source Dialect: " ++ value "migration" "source_dialect" (.text "jspwiki"),
    "Target Dialect: " ++ value "migration" "target_dialect" (.text "markdown"),
    "Clean Target: " ++ value "migration" "clean_target" (.bool false),
    "Dry Run: " ++ value "migration" "dry_run" (.bool false),
    "Verify Attachments: " ++ value "migration" "verify_attachments" (.bool true),
    "",
    "Work Directory: " ++ value "engine" "work_directory" (.text "./target"),
    "Cache Enabled: " ++ value "engine" "cache_enabled" (.bool false),
    "Parser Override: " ++ (if override.isGiven then override.toText else "Not Set")]

/-! ### The session -/

/-- The path of a directory that the configuration names, as it is shown. -/
def shownDirectory (site : Site) (config : Value) (key : String) : String :=
  shown (site.place.pathOf
    ((Config.valueAt? ["migration", key] config).getD .null).toText.toList)

/-- Says what the session is about, and then runs the migration. -/
def migrate (site : Site) (staff : Staff) (arguments : Arguments) (config : Value) :
    RunStep World Report := do
  begin "JSPWiki Migration Tool"
  let tell (message : String) : RunStep World Unit :=
    .emit (.record { level := .info, logger := Log.loggerName "cli", message })
  tell ("Version: " ++ programVersion)
  let path := argument arguments "config"
  if path.isGiven then tell ("Loaded configuration from " ++ path.toText)
  begin "Configuration"
  (configLines config).forM fun message => perform (say .info message)
  .emit (.line ("Source directory: " ++ shownDirectory site config "source_directory"))
  .emit (.line ("Target directory: " ++ shownDirectory site config "target_directory"))
  let settings ← .ofResult (Settings.ofConfig config)
  run (prepare site staff settings)

/-- The name under which a dialect is known. -/
def dialectLabel (name : String) : String :=
  match Dialect.ofName? name with
  | some .jspwiki => "JSPWiki"
  | some .markdown => "Markdown"
  | none => name

/-- What is shown at the end of a run. -/
def farewell (config : Value) : String :=
  let text (key : String) : String := ((Config.valueAt? ["migration", key] config).getD .null).toText
  block ["Successfully converted " ++ dialectLabel (text "source_dialect") ++ " to "
      ++ dialectLabel (text "target_dialect") ++ " for language: " ++ text "language",
    "Conversion process completed."]

/-- The sorts of failure that are about a value. -/
def valueSorts : List String := ["ValueError", "UnicodeDecodeError", "UnicodeEncodeError", "YAMLError"]

/-- The complaint about a failure that a user can mend. -/
def complaint? : Failure → Option String
  | .classified e => some e.message
  | .system sort message => if sort == "FileNotFoundError" then some message else none
  | .other sort message =>
    if valueSorts.contains sort then some ("Configuration error: " ++ message) else none

/-- What a session leaves: the code it ends with or the failure that leaves it, what it showed, and
the tree of files. -/
structure Ended where
  code : Except Failure Nat
  output : String
  errors : String
  tree : Tree

/-- The end of a session that came to a result: a failure that can be mended is complained about. -/
def conclude (result : Except Failure String) (output errors : String) (tree : Tree) : Ended :=
  match result with
  | .ok farewell => ⟨.ok 0, output ++ farewell, errors, tree⟩
  | .error failure =>
    match complaint? failure with
    | some message => ⟨.ok 2, output, errors ++ "Error processing: " ++ message ++ "\n", tree⟩
    | none => ⟨.error failure, output, errors, tree⟩

/-- A session with a configuration. -/
def sessionWith (site : Site) (staff : Staff) (arguments : Arguments) (config : Value)
    (settings : LogSettings) (tree : Tree) : Ended :=
  let start := startLog site settings { tree }
  match start.result with
  | .error failure => conclude (.error failure) "" "" start.world.tree
  | .ok file =>
    let outcome := migrate site staff arguments config { world := start.world }
    let records := Log.atLeast settings.level (start.output ++ recordsOf outcome.output)
    let tree := outcome.world.world.tree
    let logged := match file with
      | some path => logTo site path records tree
      | none => tree
    conclude (outcome.result.map fun _ => farewell config) (linesOf outcome.output)
      (colouredLines site.clock.stamp records) logged

/-- The session that the arguments ask for. -/
def session (environment : Config.Environment) (site : Site) (staff : Staff)
    (arguments : Arguments) (tree : Tree) : Ended :=
  if operands.any fun operand => !(argument arguments operand.key).isGiven then
    ⟨.ok 1, usage, "", tree⟩
  else
    let prepared : Except Failure (Value × LogSettings) := do
      let config ← configure environment site arguments tree
      return (config, ← LogSettings.ofConfig config)
    match prepared with
    | .error failure => conclude (.error failure) "" "" tree
    | .ok (config, settings) => sessionWith site staff arguments config settings tree

end WikiMigration.Command
