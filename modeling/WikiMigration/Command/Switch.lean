/-
What a command line may hold: switches, and names that stand by their place.

Each of them sets one argument.  A switch is a flag, is counted, or takes a value; two more end the
program with a text.
-/
import WikiMigration.Data.Value

namespace WikiMigration.Command

open Data

/-- The name of the program. -/
def programName : String := "jspwiki-migrate"

/-- The version of the program. -/
def programVersion : String := "1.0.0"

/-- What a switch does. -/
inductive Effect where
  | help
  | version
  /-- Takes the word after it; the placeholder stands for that word. -/
  | value (placeholder : String)
  | flag
  | count
  deriving DecidableEq, Repr

/-- A switch: its names, the argument that it sets, what it does, and what is said of it. -/
structure Switch where
  names : List String
  key : String
  effect : Effect
  about : String
  deriving DecidableEq, Repr

/-- The switches, in the order in which they are shown. -/
def switches : List Switch := [
  ⟨["-h", "--help"], "help", .help, "show this help message and exit"⟩,
  ⟨["--version"], "version", .version, "show program's version number and exit"⟩,
  ⟨["--config"], "config", .value "CONFIG", "Path to configuration YAML file (optional)"⟩,
  ⟨["--source-dialect"], "source_dialect", .value "SOURCE_DIALECT",
    "Markup dialect of the source pages (default: jspwiki)"⟩,
  ⟨["--target-dialect"], "target_dialect", .value "TARGET_DIALECT",
    "Markup dialect of the target pages (default: markdown)"⟩,
  ⟨["--work-dir"], "work_dir", .value "WORK_DIR",
    "Scratch root for engine work directories and logs (default: ./target)"⟩,
  ⟨["--parser"], "parser", .value "PARSER",
    "Renderer class overriding the source dialect parser (package.module.Class)"⟩,
  ⟨["--clean-target"], "clean_target", .flag,
    "Delete existing target directory content before the run"⟩,
  ⟨["--dry-run"], "dry_run", .flag, "Render and translate without writing anything"⟩,
  ⟨["--no-verify"], "no_verify", .flag, "Skip attachment checksum verification"⟩,
  ⟨["--report"], "report", .value "REPORT", "Write the JSON migration report to this file"⟩,
  ⟨["--log-file"], "log_file", .value "LOG_FILE", "Also log to this rotating log file"⟩,
  ⟨["-v", "--verbose"], "verbose", .count, "Increase verbosity (-v for INFO, -vv for DEBUG)"⟩]

/-- A name that stands by its place, with what is said of it. -/
structure Operand where
  key : String
  about : String
  deriving DecidableEq, Repr

/-- The names that stand by their place; each may be left out with those after it. -/
def operands : List Operand := [
  ⟨"source_dir", "JSPWiki page directory to read from"⟩,
  ⟨"target_dir", "Page directory to write to"⟩,
  ⟨"language", "Language code of the edition (e.g. de, en, pt_BR)"⟩]

/-- The switch of a name. -/
def Switch.named? (name : List Char) : Option Switch :=
  switches.find? fun s => s.names.contains (String.ofList name)

/-- The value of the switch's argument when the switch is not there. -/
def Switch.absent (s : Switch) : Option Value :=
  match s.effect with
  | .help => none
  | .version => none
  | .value _ => some .null
  | .flag => some (.bool false)
  | .count => some (.int 0)

/-- The arguments of an empty command line. -/
def noArguments : List (Scalar × Value) :=
  operands.map (fun operand => (.text operand.key, .null))
    ++ switches.filterMap fun s => s.absent.map fun value => (.text s.key, value)

end WikiMigration.Command
