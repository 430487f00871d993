/-
Which configurations are valid.

The settings are looked at one after the other, and the first that is wrong is the error.  A setting
that must be given must not hold a reference to the environment that nothing resolved.
-/
import WikiMigration.Config.Defaults
import WikiMigration.Config.Reference
import WikiMigration.Data.Text
import WikiMigration.Log
import WikiMigration.Rendering.Override

namespace WikiMigration.Config

open Text Data

/-- What is wrong with a configuration. -/
inductive Fault where
  | missing (setting : Setting)
  /-- A reference to the environment is left in the setting's text. -/
  | unresolved (setting : Setting) (text : String)
  | notLanguage (value : Value)
  | notDialect (setting : Setting)
  | notBoolean (setting : Setting)
  | notOverride (value : Value)
  | notLevel

/-- Some names as a list in quoted form. -/
def quotedNames (names : List String) : String := (Value.list (names.map .text)).quoted

/-- The message about what is wrong. -/
def Fault.message : Fault → String
  | .missing setting => "Missing required configuration: " ++ setting.text
  | .unresolved setting text =>
    "Configuration field '" ++ setting.text ++ "' contains unsubstituted environment variable: "
      ++ text ++ ". Please set the " ++ String.ofList (firstReference text.toList)
      ++ " environment variable or provide a value in config file."
  | .notLanguage value =>
    "migration.language must be a language code like 'de', 'en' or 'pt_BR': " ++ value.quoted
  | .notDialect setting =>
    setting.text ++ " must be one of: " ++ quotedNames (Dialect.all.map Dialect.name)
  | .notBoolean setting => setting.text ++ " must be a boolean"
  | .notOverride value =>
    "engine.parser_override must be a class path like 'package.module.Class': " ++ value.quoted
  | .notLevel => "logging.level must be one of: " ++ quotedNames (Log.Level.all.map Log.Level.name)

/-- The error that the program reports. -/
def Fault.error (fault : Fault) : MigrationError := .ofConfiguration fault.message

/-- What a check gives. -/
abbrev Check := Except Fault Unit

/-- Whether a text is two or three small letters and no more, or with a line and two capitals
behind them. -/
def isLanguageName (text : List Char) : Bool :=
  let letters := text.takeWhile Char.isLower
  let region := text.drop letters.length
  (letters.length == 2 || letters.length == 3)
    && (region.isEmpty || match region with
      | ['_', a, b] => a.isUpper && b.isUpper
      | _ => false)

/-- Whether a text is a language; a line feed at its end is passed over. -/
def isLanguage (text : List Char) : Bool :=
  isLanguageName text || match text.reverse with
    | '\n' :: rest => isLanguageName rest.reverse
    | _ => false

/-- A setting that must be given. -/
def checkGiven (config : Value) (setting : Setting) : Check :=
  match setting.value config with
  | .null => .error (.missing setting)
  | .text s =>
    if s.isEmpty then .error (.missing setting)
    else if mayRefer s.toList then .error (.unresolved setting s)
    else .ok ()
  | _ => .ok ()

/-- The language. -/
def checkLanguage (config : Value) : Check :=
  match Setting.language.value config with
  | .text s => if isLanguage s.toList then .ok () else .error (.notLanguage (.text s))
  | value => .error (.notLanguage value)

/-- A dialect. -/
def checkDialect (config : Value) (setting : Setting) : Check :=
  match setting.value config with
  | .text s => if (Dialect.ofName? s).isSome then .ok () else .error (.notDialect setting)
  | _ => .error (.notDialect setting)

/-- A truth value. -/
def checkBoolean (config : Value) (setting : Setting) : Check :=
  match setting.value config with
  | .bool _ => .ok ()
  | _ => .error (.notBoolean setting)

/-- The override of the renderer, which may be left out. -/
def checkOverride (config : Value) : Check :=
  match Setting.parserOverride.value config with
  | .null => .ok ()
  | .text s =>
    if Rendering.isOverride s.toList then .ok () else .error (.notOverride (.text s))
  | value => .error (.notOverride value)

/-- The level of the log, which may be left out. -/
def checkLevel (config : Value) : Check :=
  match Setting.logLevel.value config with
  | .null => .ok ()
  | value => if (Log.Level.ofAnyCase? value.toText).isSome then .ok () else .error .notLevel

/-- Whether the configuration is valid, or the first thing that is wrong with it. -/
def check (config : Value) : Check := do
  [Setting.sourceDirectory, .targetDirectory, .language].forM (checkGiven config)
  checkLanguage config
  [Setting.sourceDialect, .targetDialect].forM (checkDialect config)
  [Setting.cleanTarget, .dryRun, .verifyAttachments, .progressBars, .cacheEnabled].forM
    (checkBoolean config)
  checkGiven config .workDirectory
  checkOverride config
  checkLevel config

end WikiMigration.Config
