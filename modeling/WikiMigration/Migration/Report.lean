/-
The report of a migration.

A report is the list of what became of the pages, with what the run is called and when it began and
ended.  Everything that is counted is counted from that list.
-/
import WikiMigration.Config.Defaults
import WikiMigration.Data.Json
import WikiMigration.Decimal.Text
import WikiMigration.Error

namespace WikiMigration.Migration

open Data Decimal

/-- What became of a page. -/
inductive PageOutcome where
  /-- The page was migrated, and so many of its attachments. -/
  | migrated (page : String) (attachments : Int)
  | failed (page : String) (kind : Option ErrorKind) (message : String)
  deriving DecidableEq, Repr

/-- A page that failed with an error. -/
def PageOutcome.ofError (page : String) (e : MigrationError) : PageOutcome :=
  .failed page (some e.kind) e.message

/-- Whether the page was migrated. -/
def PageOutcome.isMigrated : PageOutcome → Bool
  | .migrated _ _ => true
  | .failed _ _ _ => false

/-- The number of attachments that came with a page. -/
def PageOutcome.attachments : PageOutcome → Int
  | .migrated _ attachments => attachments
  | .failed _ _ _ => 0

/-- The outcome with the kind and the message of a failure as a value. -/
def PageOutcome.valueWith (page : String) (outcome : PageOutcome) (kind message : Value) : Value :=
  Config.mappingOf [
    ("page", .text page),
    ("success", .bool outcome.isMigrated),
    ("attachments_copied", .int outcome.attachments),
    ("error_kind", kind),
    ("message", message)]

/-- The outcome as a value. -/
def PageOutcome.value (outcome : PageOutcome) : Value :=
  match outcome with
  | .migrated page _ => outcome.valueWith page .null .null
  | .failed page (some kind) message => outcome.valueWith page (.text kind.name) (.text message)
  | .failed page none message => outcome.valueWith page .null (.text message)

/-- A report. -/
structure Report where
  language : Value
  source : String
  target : String
  /-- The date and the time at which the run began. -/
  date : String
  outcomes : List PageOutcome := []
  /-- The time at which the run began, in seconds. -/
  start : Binary64
  /-- The time at which it ended, once it has. -/
  finish : Option Binary64 := none
  /-- Whether the summary has been shown. -/
  isShown : Bool := false
  deriving Repr

namespace Report

/-- The report with what became of one more page. -/
def record (report : Report) (outcome : PageOutcome) : Report :=
  { report with outcomes := report.outcomes ++ [outcome] }

/-- The number of pages. -/
def total (report : Report) : Nat := report.outcomes.length

/-- The number of pages that were migrated. -/
def migrated (report : Report) : Nat := report.outcomes.countP PageOutcome.isMigrated

/-- What became of the pages that failed. -/
def failures (report : Report) : List PageOutcome :=
  report.outcomes.filter fun outcome => !outcome.isMigrated

/-- The number of pages that failed. -/
def failed (report : Report) : Nat := report.failures.length

/-- The number of attachments that came with the pages. -/
def attachments (report : Report) : Int :=
  (report.outcomes.map PageOutcome.attachments).foldr (· + ·) 0

/-- The report once the run has ended; only the first end counts. -/
def finishAt (now : Binary64) (report : Report) : Report :=
  { report with finish := report.finish.orElse fun _ => some now }

/-- The time that the run took, or has taken so far. -/
def duration (now : Binary64) (report : Report) : Binary64 :=
  Binary64.sub (report.finish.getD now) report.start

/-- The report as a value. -/
def value (now : Binary64) (report : Report) : Value :=
  let duration := report.duration now
  Config.mappingOf [
    ("summary", Config.mappingOf [
      ("language", report.language),
      ("source_dialect", .text report.source),
      ("target_dialect", .text report.target),
      ("total", .int report.total),
      ("success", .int report.migrated),
      ("failed", .int report.failed),
      ("attachments_copied", .int report.attachments),
      ("duration_seconds", .float (duration.roundTo 3)),
      ("duration_formatted", .text duration.durationText)]),
    ("failures", .list (report.failures.map PageOutcome.value)),
    ("timestamp", .text report.date)]

/-- The line that separates the parts of a text. -/
def ruleLine : String := String.ofList (List.replicate 60 '=')

/-- The line about a page that failed. -/
def failureLine : PageOutcome → String
  | .migrated page _ => "  - " ++ page
  | .failed page kind message =>
    "  - " ++ page ++ " [" ++ (kind.map ErrorKind.name).getD "unknown" ++ "]: " ++ message

/-- The report as text. -/
def text (now : Binary64) (report : Report) : String :=
  let failures := report.failures
  "\n".intercalate (
    [ruleLine, "MIGRATION REPORT", ruleLine, "",
      "Language:                " ++ report.language.toText,
      "Dialects:                " ++ report.source ++ " -> " ++ report.target,
      "Total pages:             " ++ Nat.repr report.total,
      "Successfully translated: " ++ Nat.repr report.migrated,
      "Failed:                  " ++ Nat.repr report.failed,
      "Attachments copied:      " ++ toString report.attachments,
      "Duration:                " ++ (report.duration now).durationText]
    ++ (if failures.isEmpty then [] else ["", "Failed pages:"] ++ failures.map failureLine)
    ++ ["", ruleLine])

end Report

end WikiMigration.Migration
