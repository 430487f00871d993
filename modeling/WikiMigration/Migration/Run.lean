/-
A migration run.

A run is prepared, which may fail and then ends it; the pages are listed, migrated one after the other,
and reported.  Whatever happens to a page is the page's own outcome and no end of the run.
-/
import WikiMigration.Log
import WikiMigration.Migration.Attachments
import WikiMigration.Migration.Export
import WikiMigration.Migration.Page
import WikiMigration.Migration.Report

namespace WikiMigration.Migration.Report

open Data Decimal Files

/-! ### How a report is handed on

A report that cannot be written is no failure of the run; only a name that is none fails.
-/

/-- A record about a report. -/
def note (logger : String) (level : Log.Level) (message : String) : Log.Record :=
  { level, logger := Log.loggerName logger, message }

/-- The text that shows the report, or, if it has been shown, the record that says so. -/
def summary (logger : String) (now : Binary64) (report : Report) : Except Log.Record String :=
  if report.isShown then .error (note logger .debug "Summary already printed")
  else .ok (report.text now)

/-- Writes the report to the file that a value names: the tree and the record about it. -/
def writeTo (logger : String) (workingDirectory : Path) (name : Value) (now : Binary64)
    (report : Report) (tree : Tree) : Except Failure (Tree × Log.Record) :=
  match writeFile workingDirectory name (report.value now).json tree with
  | .ok tree => .ok (tree, note logger .info ("JSON report exported to " ++ name.toText))
  | .error (.system _ message) =>
    .ok (tree, note logger .error ("Failed to export JSON report: " ++ message))
  | .error failure => .error failure

end WikiMigration.Migration.Report

namespace WikiMigration.Migration

open Decimal Store

/-- What a run puts out. -/
inductive Event where
  | record (record : Log.Record)
  /-- A line that is shown to the user. -/
  | line (text : String)
  deriving DecidableEq, Repr

/-- The stages of a run. -/
inductive Stage where
  | initializing
  | enumerating
  | processingPage
  | reporting
  | done
  | aborted
  deriving DecidableEq, Repr

/-- The name of a stage. -/
def Stage.name : Stage → String
  | .initializing => "initializing"
  | .enumerating => "enumerating"
  | .processingPage => "processing_page"
  | .reporting => "reporting"
  | .done => "done"
  | .aborted => "aborted"

/-- A world with the stage that a run on it is in, and the number of the page it is at. -/
structure Runner (σ : Type) where
  world : σ
  stage : Stage := .initializing
  index : Option Nat := none
  deriving Repr

/-- A step of a run. -/
abbrev RunStep (σ α : Type) := Action Event (Runner σ) α

/-- What a prepared run goes by. -/
structure Plan (σ ρ τ : Type) where
  crew : Crew σ ρ τ
  options : Options
  /-- Where the pages are listed from. -/
  origin : String
  /-- The report, on no page yet. -/
  report : Report
  /-- The time that a world shows. -/
  clock : σ → Binary64
  /-- Writes the report to a file, if one is asked for. -/
  exportReport : Report → Task σ Unit

variable {σ ρ τ : Type}

/-! ### Steps -/

/-- A task as a step of a run. -/
def perform {α : Type} (task : Task σ α) : RunStep σ α :=
  task.within (·.world) (fun world runner => { runner with world }) .record

/-- The records that begin a part of the log. -/
def headline (title : String) : List Log.Record :=
  let rule := String.ofList (List.replicate 60 '=')
  ["", rule, "  " ++ String.ofList (Text.upper title.toList), rule, ""].map fun message =>
    { level := .info, logger := Log.rootName, message }

/-- Begins a part of the log. -/
def begin (title : String) : RunStep σ Unit := fun runner =>
  ⟨.ok (), runner, (headline title).map .record⟩

/-- Enters a stage. -/
def enter (stage : Stage) : RunStep σ Unit := .change fun runner => { runner with stage }

/-- Goes to a page, or away from all. -/
def goTo (index : Option Nat) : RunStep σ Unit := .change fun runner => { runner with index }

/-- Lists the pages; a failure is noted and leaves none. -/
def listPages (plan : Plan σ ρ τ) : RunStep σ (List PageVersion) := do
  enter .enumerating
  begin "Enumerating pages"
  let listed ← ((perform plan.crew.source.list).boundary .storage none "Listing pages").attempt
  match listed with
  | .ok pages =>
    perform (note plan.options .info
      ("Found " ++ Nat.repr pages.length ++ " pages in " ++ plan.origin))
    return pages
  | .error failure =>
    perform (note plan.options .error ("Cannot enumerate pages: " ++ failure.message))
    return []

/-- What migrating a page and its attachments gives. -/
def migrateAll (plan : Plan σ ρ τ) (page : PageVersion) : Task σ Nat := do
  let _ ← migrateText plan.crew plan.options page
  migrateAttachments plan.crew plan.options page.name

/-- Migrates a page; a failure is the page's outcome. -/
def migratePage (plan : Plan σ ρ τ) (page : PageVersion) : Task σ PageOutcome := do
  let name := String.ofList page.name
  match ← (migrateAll plan page).attempt with
  | .ok attachments => return .migrated name attachments
  | .error failure =>
    let e := failure.classify (some name)
    .emit { level := .error, logger := Log.loggerName plan.options.logger
            message := "Failed to migrate page '" ++ name ++ "' [" ++ e.kind.name ++ "]: " ++ e.message
            traced := true }
    return .ofError name e

/-- Migrates pages from the one of the given number on: gives what became of each. -/
def migratePages (plan : Plan σ ρ τ) (index : Nat) : List PageVersion → RunStep σ (List PageOutcome)
  | [] => pure []
  | page :: rest => do
    enter .processingPage
    goTo (some index)
    .emit (.line ("Processing page: " ++ String.ofList page.name))
    let outcome ← perform (migratePage plan page)
    return outcome :: (← migratePages plan (index + 1) rest)

/-- Migrates the pages that were listed. -/
def processPages (plan : Plan σ ρ τ) (pages : List PageVersion) : RunStep σ (List PageOutcome) := do
  begin "Migrating pages"
  if pages.isEmpty then
    perform (note plan.options .warning "No pages to migrate")
    return []
  else
    let outcomes ← migratePages plan 0 pages
    goTo none
    return outcomes

/-- Shows the report and writes it to a file. -/
def conclude (plan : Plan σ ρ τ) (outcomes : List PageOutcome) : RunStep σ Report := do
  enter .reporting
  let now := plan.clock (← Action.world).world
  let report := (outcomes.foldl Report.record plan.report).finishAt now
  perform (note plan.options .info
    ("Migration complete: " ++ Nat.repr report.total ++ " pages, " ++ Nat.repr report.migrated
      ++ " succeeded, " ++ Nat.repr report.failed ++ " failed"))
  match report.summary plan.options.logger now with
  | .ok text => .emit (.line text)
  | .error record => .emit (.record record)
  let report := { report with isShown := true }
  perform (plan.exportReport report)
  return report

/-- A run that has been prepared. -/
def runPlan (plan : Plan σ ρ τ) : RunStep σ Report := do
  let pages ← listPages plan
  let outcomes ← processPages plan pages
  let report ← conclude plan outcomes
  enter .done
  return report

/-- What leaves a run that cannot be prepared. -/
def preparationFailure : Failure → Failure
  | .classified e => .classified e
  | failure => .classified (.ofConfiguration ("Initialization failed: " ++ failure.message))

/-- A run: it is prepared, and then it goes by its plan. -/
def run (prepare : Task σ (Plan σ ρ τ)) : RunStep σ Report := do
  begin "Initializing"
  match ← (perform prepare).attempt with
  | .ok plan => runPlan plan
  | .error failure =>
    enter .aborted
    .fail (preparationFailure failure)

end WikiMigration.Migration
