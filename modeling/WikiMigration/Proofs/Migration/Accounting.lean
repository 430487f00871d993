/-
What a run that has been prepared accounts for.

Whoever works on the migration may fail at any step, and may do to the world what it likes.  A
prepared run ends all the same: a listing that fails stands for no pages, every page that is listed is
attempted once and in order, and the report counts the outcomes.  The induction is over the pages, and
what it carries along is that each outcome tells how the attempt at its own page ended.
-/
import WikiMigration.Proofs.Migration.Attempt
import Mathlib.Data.List.Forall2

namespace WikiMigration.Migration

open Decimal Store

variable {σ ρ τ : Type}

/-! ### Steps that show lines -/

/-- The line that an event shows to the user, if it is one. -/
def Event.line? : Event → Option String
  | .record _ => none
  | .line text => some text

/-- The step gives the value, leaves the runner `after` and shows the lines. -/
structure Shows {α : Type} (step : RunStep σ α) (before : Runner σ) (a : α) (after : Runner σ)
    (lines : List String) : Prop where
  gives : step.Gives before a after
  shown : (step before).output.filterMap Event.line? = lines

theorem Shows.bind {α β : Type} {x : RunStep σ α} {f : α → RunStep σ β} {r r₁ r' : Runner σ}
    {a : α} {b : β} {first last : List String} (hx : Shows x r a r₁ first)
    (hf : Shows (f a) r₁ b r' last) : Shows (x >>= f) r b r' (first ++ last) := by
  refine ⟨Action.gives_bind.mpr ⟨a, r₁, hx.gives, hf.gives⟩, ?_⟩
  rw [Action.bind_apply_of_gives hx.gives, List.filterMap_append, hx.shown, hf.shown]

theorem Shows.pure {α : Type} (a : α) (r : Runner σ) : Shows (pure a : RunStep σ α) r a r [] :=
  ⟨Action.gives_pure.mpr ⟨rfl, rfl⟩, rfl⟩

theorem Shows.perform {α : Type} {task : Task σ α} {r : Runner σ} {a : α} {w' : σ}
    (h : task.Gives r.world a w') :
    Shows (Migration.perform task) r a { r with world := w' } [] := by
  refine ⟨⟨h.1, ?_⟩, ?_⟩
  · show { r with world := (task r.world).world } = _
    rw [h.2]
  · show ((task r.world).output.map Event.record).filterMap Event.line? = []
    simp [List.filterMap_map, Event.line?, Function.comp_def]

theorem Shows.begin (title : String) (r : Runner σ) : Shows (Migration.begin title) r () r [] := by
  refine ⟨⟨rfl, rfl⟩, ?_⟩
  show ((headline title).map Event.record).filterMap Event.line? = []
  simp [List.filterMap_map, Event.line?, Function.comp_def]

theorem Shows.enter (stage : Stage) (r : Runner σ) :
    Shows (Migration.enter stage) r () { r with stage } [] := ⟨⟨rfl, rfl⟩, rfl⟩

theorem Shows.goTo (index : Option Nat) (r : Runner σ) :
    Shows (Migration.goTo index) r () { r with index } [] := ⟨⟨rfl, rfl⟩, rfl⟩

theorem Shows.line (text : String) (r : Runner σ) :
    Shows (Action.emit (Event.line text)) r () r [text] := ⟨⟨rfl, rfl⟩, rfl⟩

theorem Shows.note (options : Options) (level : Log.Level) (message : String) (r : Runner σ) :
    Shows (Migration.perform (Migration.note options level message)) r () r [] :=
  Shows.perform (Action.gives_emit.mpr rfl)

/-! ### Listing -/

/-- How listing the pages may end: a failure stands for no pages. -/
inductive ListingEnds (plan : Plan σ ρ τ) : σ → List PageVersion → σ → Prop
  | notListed {w w' : σ} {e : Failure} (failed : plan.crew.source.list.Fails w e w') :
      ListingEnds plan w [] w'
  | listed {w w' : σ} {pages : List PageVersion}
      (listed : plan.crew.source.list.Gives w pages w') : ListingEnds plan w pages w'

theorem perform_fails {α : Type} {task : Task σ α} {r : Runner σ} {e : Failure} {w' : σ}
    (h : task.Fails r.world e w') : (perform task).Fails r e { r with world := w' } := by
  refine ⟨h.1, ?_⟩
  show { r with world := (task r.world).world } = _
  rw [h.2]

theorem perform_shown {α : Type} (task : Task σ α) (r : Runner σ) :
    (perform task r).output.filterMap Event.line? = [] := by
  show ((task r.world).output.map Event.record).filterMap Event.line? = []
  simp [List.filterMap_map, Event.line?, Function.comp_def]

theorem listPages_ends (plan : Plan σ ρ τ) (r : Runner σ) :
    ∃ pages w', ListingEnds plan r.world pages w' ∧
      Shows (listPages plan) r pages { r with world := w', stage := .enumerating } [] := by
  let listing := (perform plan.crew.source.list).boundary .storage none "Listing pages"
  let start : Runner σ := { r with stage := .enumerating }
  rcases Action.gives_or_fails plan.crew.source.list r.world with
    ⟨pages, w', h⟩ | ⟨e, w', h⟩
  · have attempted : Shows listing.attempt start (.ok pages) { start with world := w' } [] :=
      ⟨Action.gives_attempt.mpr (Action.gives_boundary.mpr (Shows.perform (r := start) h).gives),
        perform_shown _ _⟩
    refine ⟨pages, w', .listed h, ?_⟩
    refine (Shows.enter .enumerating r).bind ((Shows.begin _ _).bind (attempted.bind ?_))
    exact (Shows.note _ _ _ _).bind (Shows.pure pages _)
  · have failed : listing.Fails start (.classified (e.atBoundary .storage none "Listing pages"))
        { start with world := w' } :=
      Action.fails_boundary.mpr ⟨e, perform_fails (r := start) h, rfl⟩
    have attempted : Shows listing.attempt start (.error _) { start with world := w' } [] :=
      ⟨Action.gives_attempt.mpr failed, perform_shown _ _⟩
    refine ⟨[], w', .notListed h, ?_⟩
    refine (Shows.enter .enumerating r).bind ((Shows.begin _ _).bind (attempted.bind ?_))
    exact (Shows.note _ _ _ _).bind (Shows.pure [] _)

/-! ### The pages -/

/-- The line that is shown when the attempt at a page begins. -/
def pageLine (page : PageVersion) : String := "Processing page: " ++ String.ofList page.name

/-- The outcomes tell, one by one, how the attempts at the pages ended. -/
abbrev TellOf (pages : List PageVersion) (results : List (Except ErrorKind Nat))
    (outcomes : List PageOutcome) : Prop :=
  List.Forall₂ (fun attempt outcome => TellsOf attempt.1 attempt.2 outcome) (pages.zip results)
    outcomes

theorem migratePages_ends (plan : Plan σ ρ τ) (pages : List PageVersion) :
    ∀ (index : Nat) (r : Runner σ), ∃ outcomes r' results,
      PagesEnd plan.crew plan.options pages r.world results r'.world ∧
      TellOf pages results outcomes ∧
      Shows (migratePages plan index pages) r outcomes r' (pages.map pageLine) := by
  induction pages with
  | nil =>
    intro index r
    exact ⟨[], r, [], .none, List.Forall₂.nil, Shows.pure [] r⟩
  | cons page rest ih =>
    intro index r
    obtain ⟨outcome, w₁, result, given, first, told⟩ := migratePage_ends plan page r.world
    let r₁ : Runner σ := { world := w₁, stage := .processingPage, index := some index }
    obtain ⟨outcomes, r', results, others, tells, shows'⟩ := ih (index + 1) r₁
    refine ⟨outcome :: outcomes, r', result :: results, .next first others,
      List.Forall₂.cons told tells, ?_⟩
    have last := Shows.bind (f := fun outcomes => pure (outcome :: outcomes)) shows'
      (Shows.pure (outcome :: outcomes) r')
    rw [List.append_nil] at last
    refine (Shows.enter .processingPage r).bind ((Shows.goTo (some index) _).bind ?_)
    have attempted := Shows.perform (r := ⟨r.world, .processingPage, some index⟩) given
    exact (Shows.line (pageLine page) _).bind (Shows.bind
      (f := fun outcome => do return outcome :: (← migratePages plan (index + 1) rest))
      attempted last)

theorem processPages_ends (plan : Plan σ ρ τ) (pages : List PageVersion) (r : Runner σ) :
    ∃ outcomes r' results,
      PagesEnd plan.crew plan.options pages r.world results r'.world ∧
      TellOf pages results outcomes ∧
      Shows (processPages plan pages) r outcomes r' (pages.map pageLine) := by
  cases pages with
  | nil =>
    refine ⟨[], r, [], .none, List.Forall₂.nil, (Shows.begin _ r).bind ?_⟩
    exact (Shows.note _ _ _ _).bind (Shows.pure [] r)
  | cons page rest =>
    obtain ⟨outcomes, r', results, ends, tells, shows'⟩ :=
      migratePages_ends plan (page :: rest) 0 r
    refine ⟨outcomes, { r' with index := none }, results, ends, tells,
      (Shows.begin _ r).bind ?_⟩
    have last := Shows.bind (f := fun outcomes => goTo none >>= fun _ => pure outcomes) shows'
      ((Shows.goTo none r').bind (Shows.pure outcomes _))
    rw [List.nil_append, List.append_nil] at last
    exact last

/-! ### The report -/

/-- What follows once a run is prepared, or is not. -/
def proceed (prepared : Except Failure (Plan σ ρ τ)) : RunStep σ Report :=
  match prepared with
  | .ok plan => runPlan plan
  | .error failure => do
    enter .aborted
    .fail (preparationFailure failure)

/-- A run that could not be prepared ends there. -/
theorem run_aborts {prepare : Task σ (Plan σ ρ τ)} {r : Runner σ} {failure : Failure} {w' : σ}
    (failed : prepare.Fails r.world failure w') :
    (run prepare).Fails r (preparationFailure failure) { r with world := w', stage := .aborted } := by
  refine Action.fails_bind.mpr (Or.inr ⟨(), r, ⟨rfl, rfl⟩, ?_⟩)
  refine Action.fails_bind.mpr (Or.inr ⟨.error failure, _, Action.gives_attempt.mpr
    ⟨(perform_fails failed).1, (perform_fails failed).2⟩, ?_⟩)
  exact Action.fails_bind.mpr (Or.inr ⟨(), _, ⟨rfl, rfl⟩, Action.fails_fail.mpr ⟨rfl, rfl⟩⟩)

/-- The attempts that failed, with the kinds of their failures. -/
def failedAttempts (pages : List PageVersion) (results : List (Except ErrorKind Nat)) :
    List (PageVersion × ErrorKind) :=
  (pages.zip results).filterMap fun attempt =>
    match attempt.2 with
    | .ok _ => none
    | .error kind => some (attempt.1, kind)

/-- Whether an attempt was a success. -/
def isSuccess : Except ErrorKind Nat → Bool
  | .ok _ => true
  | .error _ => false

/-- The number of attachments that an attempt copied. -/
def copiedCount : Except ErrorKind Nat → Nat
  | .ok count => count
  | .error _ => 0

/-- The number of attachments that attempts copied. -/
def copiedInAll (results : List (Except ErrorKind Nat)) : Nat :=
  (results.map copiedCount).foldr (· + ·) 0

/-- The report accounts for the attempts at the pages. -/
structure Accounts (pages : List PageVersion) (results : List (Except ErrorKind Nat))
    (report : Report) : Prop where
  /-- Each page has one result, and one outcome that tells of it. -/
  attempted : results.length = pages.length
  tells : TellOf pages results report.outcomes
  total : report.total = pages.length
  split : report.total = report.migrated + report.failed
  migrated : report.migrated = results.countP isSuccess
  /-- The failures are those of the pages that failed, in order and with their kinds. -/
  failures : List.Forall₂ (fun attempt outcome => ∃ message,
      outcome = .failed (String.ofList attempt.1.name) (some attempt.2) message)
    (failedAttempts pages results) report.failures
  attachments : report.attachments = copiedInAll results

theorem countP_isMigrated_add (outcomes : List PageOutcome) :
    outcomes.length = outcomes.countP PageOutcome.isMigrated
      + (outcomes.filter fun outcome => !outcome.isMigrated).length := by
  rw [← List.countP_eq_length_filter,
    List.length_eq_countP_add_countP (p := PageOutcome.isMigrated)]
  congr 2
  funext outcome
  cases outcome.isMigrated <;> rfl

/-- The outcomes of attempts, counted: each tells of its own attempt only, so the counts of the
outcomes are those of the results. -/
theorem TellOf.counts {pages : List PageVersion} {results : List (Except ErrorKind Nat)}
    {outcomes : List PageOutcome} (hlength : results.length = pages.length)
    (h : TellOf pages results outcomes) :
    outcomes.countP PageOutcome.isMigrated = results.countP isSuccess ∧
      (outcomes.map PageOutcome.attachments).foldr (· + ·) (0 : Int) = (copiedInAll results : Nat) ∧
      List.Forall₂ (fun attempt outcome => ∃ message,
          outcome = .failed (String.ofList attempt.1.name) (some attempt.2) message)
        (failedAttempts pages results) (outcomes.filter fun outcome => !outcome.isMigrated) := by
  induction pages generalizing results outcomes with
  | nil =>
    obtain rfl := List.length_eq_zero_iff.mp hlength
    cases h
    exact ⟨rfl, rfl, List.Forall₂.nil⟩
  | cons page rest ih =>
    cases results with
    | nil => simp at hlength
    | cons result results =>
      cases h with
      | @cons _ outcome _ outcomes told tells =>
        obtain ⟨hcount, hsum, hfailed⟩ := ih (by simpa using hlength) tells
        cases result with
        | ok count =>
          obtain rfl : outcome = .migrated (String.ofList page.name) count := told
          refine ⟨?_, ?_, hfailed⟩
          · simp [List.countP_cons, PageOutcome.isMigrated, isSuccess, hcount]
          · simp [PageOutcome.attachments, copiedInAll, copiedCount, hsum]
        | error kind =>
          obtain ⟨message, rfl⟩ := told
          refine ⟨?_, ?_, List.Forall₂.cons ⟨message, rfl⟩ hfailed⟩
          · simp [PageOutcome.isMigrated, isSuccess, hcount]
          · simp [PageOutcome.attachments, copiedInAll, copiedCount, hsum]

theorem TellOf.accounts {pages : List PageVersion} {results : List (Except ErrorKind Nat)}
    {report : Report} (hlength : results.length = pages.length)
    (h : TellOf pages results report.outcomes) : Accounts pages results report := by
  obtain ⟨hcount, hsum, hfailed⟩ := h.counts hlength
  refine ⟨hlength, h, ?_, countP_isMigrated_add report.outcomes, hcount, hfailed, hsum⟩
  have hzip := h.length_eq
  rw [List.length_zip, hlength, Nat.min_self] at hzip
  exact hzip.symm

end WikiMigration.Migration
