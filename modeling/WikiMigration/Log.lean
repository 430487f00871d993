/-
The log.

A record has a level, the name of the logger that wrote it and a message.  Loggers are named by a
path with dots; all of the program's have one root.  What becomes of a record depends only on its
level and its logger.
-/
import WikiMigration.Data.Text
import WikiMigration.Decimal.Binary64
import WikiMigration.Error
import WikiMigration.Text.Case

namespace WikiMigration.Log

open Data

/-- The levels of the log. -/
inductive Level where
  | debug
  | info
  | warning
  | error
  | critical
  deriving DecidableEq, Repr

/-- The name of the level. -/
def Level.name : Level → String
  | .debug => "DEBUG"
  | .info => "INFO"
  | .warning => "WARNING"
  | .error => "ERROR"
  | .critical => "CRITICAL"

/-- The rank of the level. -/
def Level.rank : Level → Nat
  | .debug => 10
  | .info => 20
  | .warning => 30
  | .error => 40
  | .critical => 50

/-- The levels, least urgent first. -/
def Level.all : List Level := [.debug, .info, .warning, .error, .critical]

/-- The level of a name in upper case. -/
def Level.ofName? (name : String) : Option Level :=
  Level.all.find? fun level => level.name == name

/-- The level of a name in any case. -/
def Level.ofAnyCase? (name : String) : Option Level :=
  Level.ofName? (String.ofList (Text.upper name.toList))

/-- A record of the log. -/
structure Record where
  level : Level
  logger : String
  message : String
  /-- Whether the record shows where its failure came from. -/
  traced : Bool := false
  deriving DecidableEq, Repr

/-- The root of the loggers' names. -/
def rootName : String := "jspwiki_migrator"

/-- The name of a logger under the root. -/
def loggerName (path : String) : String := rootName ++ "." ++ path

/-- Records that a threshold lets pass. -/
def atLeast (threshold : Level) (records : List Record) : List Record :=
  records.filter fun record => threshold.rank ≤ record.level.rank

/-- The record with its level and its logger. -/
def Record.text (record : Record) : String :=
  record.level.name ++ " " ++ record.logger ++ ": " ++ record.message

/-- The level that the number of verbosity flags asks for: every value but zero and one asks for
all. -/
def Level.ofVerbosity : Value → Except Failure Level
  | .scalar verbosity =>
    .ok (if verbosity.sameKey (.int 0) then .warning
      else if verbosity.sameKey (.int 1) then .info
      else .debug)
  | value => .error (.other "TypeError" ("unhashable type: " ++ Text.quoted value.kindName))

/-- The message for a name that is no level. -/
def unknownLevelMessage (name : String) : String :=
  "Invalid log level '" ++ name
    ++ "'. Must be one of: ['CRITICAL', 'DEBUG', 'ERROR', 'INFO', 'WARNING']"

/-- The level to log at: a name that is given wins over the number of flags. -/
def resolveLevel (verbosity name : Value) : Except Failure Level :=
  if !name.isGiven then Level.ofVerbosity verbosity
  else
    match name with
    | .text s =>
      match Level.ofAnyCase? s with
      | some level => .ok level
      | none => .error (.other "ValueError" (unknownLevelMessage s))
    | value =>
      .error (.other "AttributeError"
        (Text.quoted value.fullKindName ++ " object has no attribute 'upper'"))

/-! ### Records as lines of a file -/

/-- What a clock shows: the date and the time as they stand in the log, the same as they stand in a
report, and the seconds that have gone by. -/
structure Clock where
  stamp : String
  date : String
  seconds : Decimal.Binary64
  deriving Repr

/-- The line that stands for where a failure came from. -/
def traceLine : String := "<traceback>"

/-- A record as it stands in a log. -/
def Record.line (stamp : String) (record : Record) : String :=
  stamp ++ " - " ++ record.logger ++ " - " ++ record.level.name ++ " - " ++ record.message
    ++ (if record.traced then "\n" ++ traceLine else "")

/-- Records as the text of a log. -/
def lines (stamp : String) (records : List Record) : String :=
  String.join (records.map fun record => record.line stamp ++ "\n")

end WikiMigration.Log
