/-
Configurations: their settings, their defaults, and how one is laid over another.

A setting is named by its section and its key.  Laid over another, a configuration wins setting by
setting: mappings are joined, everything else replaces what was there.
-/
import WikiMigration.Data.Value

namespace WikiMigration.Config

open Data

/-- A setting. -/
structure Setting where
  group : String
  key : String
  deriving DecidableEq, Repr

/-- The setting as messages name it. -/
def Setting.text (setting : Setting) : String := setting.group ++ "." ++ setting.key

/-- The value at a path of keys, each looked up in the mapping under the one before. -/
def valueAt? (path : List String) (value : Value) : Option Value :=
  match path with
  | [] => some value
  | key :: rest => (value.get? key).bind (valueAt? rest)

/-- The value of a setting; null where there is none. -/
def Setting.value (setting : Setting) (config : Value) : Value :=
  (valueAt? [setting.group, setting.key] config).getD .null

namespace Setting

def sourceDirectory : Setting := ⟨"migration", "source_directory"⟩
def targetDirectory : Setting := ⟨"migration", "target_directory"⟩
def language : Setting := ⟨"migration", "language"⟩
def sourceDialect : Setting := ⟨"migration", "source_dialect"⟩
def targetDialect : Setting := ⟨"migration", "target_dialect"⟩
def cleanTarget : Setting := ⟨"migration", "clean_target"⟩
def dryRun : Setting := ⟨"migration", "dry_run"⟩
def verifyAttachments : Setting := ⟨"migration", "verify_attachments"⟩
def reportPath : Setting := ⟨"migration", "report_path"⟩
def progressBars : Setting := ⟨"migration", "progress_bars"⟩
def workDirectory : Setting := ⟨"engine", "work_directory"⟩
def cacheEnabled : Setting := ⟨"engine", "cache_enabled"⟩
def parserOverride : Setting := ⟨"engine", "parser_override"⟩
def logLevel : Setting := ⟨"logging", "level"⟩
def logFile : Setting := ⟨"logging", "file"⟩
def verbosity : Setting := ⟨"logging", "verbosity"⟩

end Setting

/-- A mapping with texts as keys. -/
def mappingOf (entries : List (String × Value)) : Value :=
  .mapping (entries.map fun (key, value) => (.text key, value))

/-- The configuration of which nothing is given. -/
def defaults : Value :=
  mappingOf [
    ("migration", mappingOf [
      ("source_directory", .null),
      ("target_directory", .null),
      ("language", .null),
      ("source_dialect", .text "jspwiki"),
      ("target_dialect", .text "markdown"),
      ("clean_target", .bool false),
      ("dry_run", .bool false),
      ("verify_attachments", .bool true),
      ("report_path", .null),
      ("progress_bars", .bool true)]),
    ("engine", mappingOf [
      ("work_directory", .text "./target"),
      ("cache_enabled", .bool false),
      ("parser_override", .null)]),
    ("logging", mappingOf [
      ("level", .null),
      ("file", .null),
      ("verbosity", .int 0)])]

mutual

/-- A value laid over the one that is there. -/
def overlay (old : Option Value) : Value → Value
  | .mapping own =>
    match old with
    | some (.mapping entries) => .mapping (overlayEntries entries own)
    | _ => .mapping own
  | value => value

/-- Entries laid over those that are there, one after the other. -/
def overlayEntries (old : List (Scalar × Value)) :
    List (Scalar × Value) → List (Scalar × Value)
  | [] => old
  | (key, value) :: rest =>
    overlayEntries (assign key (overlay (lookup key old) value) old) rest

end

end WikiMigration.Config
