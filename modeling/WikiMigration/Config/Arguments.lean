/-
Arguments of the command line as settings.

Each argument belongs to one setting.  An argument that counts as given wins over the configuration;
the argument that is a flag stands for a truth value of its own.  A section that is no mapping gives
way to one that holds just what is given.
-/
import WikiMigration.Config.Defaults

namespace WikiMigration.Config

open Data

/-- An argument: its name, its setting, and what it stands for if it is a flag. -/
structure Argument where
  name : String
  setting : Setting
  flag : Option Bool := none
  deriving DecidableEq, Repr

/-- The arguments, in the order in which they are looked at. -/
def argumentTable : List Argument := [
  ⟨"source_dir", .sourceDirectory, none⟩,
  ⟨"target_dir", .targetDirectory, none⟩,
  ⟨"language", .language, none⟩,
  ⟨"source_dialect", .sourceDialect, none⟩,
  ⟨"target_dialect", .targetDialect, none⟩,
  ⟨"clean_target", .cleanTarget, some true⟩,
  ⟨"dry_run", .dryRun, some true⟩,
  ⟨"no_verify", .verifyAttachments, some false⟩,
  ⟨"report", .reportPath, none⟩,
  ⟨"work_dir", .workDirectory, none⟩,
  ⟨"parser", .parserOverride, none⟩,
  ⟨"log_file", .logFile, none⟩,
  ⟨"verbose", .verbosity, none⟩]

/-- The values of arguments by name; one that is not there is null. -/
abbrev Given := String → Value

/-- The value that an argument gives its setting, if it counts as given. -/
def Argument.value? (given : Given) (argument : Argument) : Option Value :=
  let value := given argument.name
  if value.isGiven then some ((argument.flag.map Value.bool).getD value) else none

/-- The entries of a value that is a mapping; every other one has none. -/
def entriesOf : Option Value → List (Scalar × Value)
  | some (.mapping entries) => entries
  | _ => []

/-- The configuration with a setting set. -/
def Setting.assign (setting : Setting) (value : Value) (config : List (Scalar × Value)) :
    List (Scalar × Value) :=
  let group := entriesOf (lookup (.text setting.group) config)
  Data.assign (.text setting.group) (.mapping (Data.assign (.text setting.key) value group)) config

/-- The configuration with one argument. -/
def Argument.apply (given : Given) (config : List (Scalar × Value)) (argument : Argument) :
    List (Scalar × Value) :=
  match argument.value? given with
  | some value => argument.setting.assign value config
  | none => config

/-- The configuration with the arguments that are given. -/
def withArguments (given : Given) (config : List (Scalar × Value)) : List (Scalar × Value) :=
  argumentTable.foldl (Argument.apply given) config

end WikiMigration.Config
