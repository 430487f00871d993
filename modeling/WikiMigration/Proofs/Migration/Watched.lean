/-
What is asked of those who work on a migration.

A crew can be watched: each call of it is written down, with what came of it, and nothing else changes.
What the migration of a page asks of its crew is then told by the calls that are written down while it
works on the watched crew.  They are all there is: made one after the other, they lead from the world
before to the world after.  What holds of the calls of an action made of parts is read off its parts.
-/
import WikiMigration.Proofs.Migration.Attempt

namespace WikiMigration.Migration

open Store

variable {σ ρ τ α β : Type}

/-! ### Calls -/

/-- A call of those who work on a migration, with what came of it. -/
inductive CrewCall (σ ρ τ : Type) where
  /-- The attachments of a page were listed. -/
  | listed (page : List Char) (result : Except Failure (List Attachment))
  /-- An attachment of the source was opened. -/
  | opened (page : List Char) (attachment : Attachment) (result : Except Failure ρ)
  /-- What a reader gives was stored in the target. -/
  | stored (copy : Attachment) (reader : StreamReader σ)
      (result : Except Failure (Option Int × Files.Bytes))
  /-- A stream of the source was closed. -/
  | closed (stream : ρ) (result : Except Failure Unit)
  /-- A stored attachment of the target was opened. -/
  | copyOpened (page : List Char) (stored : Attachment) (result : Except Failure τ)
  /-- A stream of the target was read. -/
  | copyRead (stream : τ) (size : Option Nat) (result : Except Failure Files.Bytes)
  /-- A stream of the target was closed. -/
  | copyClosed (stream : τ) (result : Except Failure Unit)
  /-- The text of a page of the source was read. -/
  | read (page : List Char) (version : Int) (result : Except Failure (List Char))
  /-- A text was rendered. -/
  | rendered (context : PageContext) (text : List Char) (result : Except Failure (List Char))
  /-- What was rendered was written in the target's markup. -/
  | written (html : List Char) (result : Except Failure (List Char))
  /-- The hook at an index was given a text. -/
  | hooked (index : Nat) (text : List Char) (result : Except Failure (List Char))
  /-- A text was saved in the target. -/
  | saved (context : PageContext) (text : List Char) (result : Except Failure Unit)

/-- What a call failed with, if it failed. -/
def CrewCall.failure? : CrewCall σ ρ τ → Option Failure
  | .listed _ result => failureOf result
  | .opened _ _ result => failureOf result
  | .stored _ _ result => failureOf result
  | .closed _ result => failureOf result
  | .copyOpened _ _ result => failureOf result
  | .copyRead _ _ result => failureOf result
  | .copyClosed _ result => failureOf result
  | .read _ _ result => failureOf result
  | .rendered _ _ result => failureOf result
  | .written _ result => failureOf result
  | .hooked _ _ result => failureOf result
  | .saved _ _ result => failureOf result

/-- The kind of the step that a call belongs to. -/
def CrewCall.kind : CrewCall σ ρ τ → ErrorKind
  | .opened .. | .closed .. => .resource
  | .rendered .. | .written .. | .hooked .. => .conversion
  | _ => .storage

/-- The name of the step that a call belongs to; `file` is the attachment that it is about. -/
def CrewCall.step (file : List Char) : CrewCall σ ρ τ → String
  | .listed .. => "Listing attachments"
  | .opened .. => "Opening attachment '" ++ String.ofList file ++ "'"
  | .stored .. => "Storing attachment '" ++ String.ofList file ++ "'"
  | .closed .. => "Closing attachment '" ++ String.ofList file ++ "'"
  | .copyOpened .. | .copyRead .. | .copyClosed .. =>
    "Verifying attachment '" ++ String.ofList file ++ "'"
  | .read .. => "Reading page"
  | .rendered .. => "Rendering"
  | .written .. => "Translating"
  | .hooked .. => "Post-processing"
  | .saved .. => "Saving page"

/-- What leaves the migration of a page if a call fails: the failure itself if it is classified, and if
not a failure of the page whose kind is that of the step. -/
def CrewCall.raised (page file : List Char) (call : CrewCall σ ρ τ) (e : Failure) : Failure :=
  .classified (e.atBoundary call.kind (some (String.ofList page)) (call.step file))

/-- In the world `w` the call was made of the crew, and it left the world `w'`. -/
def Made (crew : Crew σ ρ τ) (w : σ) (w' : σ) : CrewCall σ ρ τ → Prop
  | .listed page result => (crew.sourceFiles.list page).attempt.Gives w result w'
  | .opened page attachment result =>
    (crew.sourceFiles.openStream page attachment).attempt.Gives w result w'
  | .stored copy reader result => (crew.targetFiles.store copy reader).attempt.Gives w result w'
  | .closed stream result => (crew.sourceFiles.close stream).attempt.Gives w result w'
  | .copyOpened page stored result =>
    (crew.targetFiles.openStream page stored).attempt.Gives w result w'
  | .copyRead stream size result => (crew.targetFiles.read stream size).attempt.Gives w result w'
  | .copyClosed stream result => (crew.targetFiles.close stream).attempt.Gives w result w'
  | .read page version result => (crew.source.read page version).attempt.Gives w result w'
  | .rendered context text result => (crew.render context text).attempt.Gives w result w'
  | .written html result => (crew.write html).attempt.Gives w result w'
  | .hooked index text result =>
    ∃ hook, crew.hooks[index]? = some hook ∧ (hook text).attempt.Gives w result w'
  | .saved context text result => (crew.target.save context text).attempt.Gives w result w'

/-- The calls, made one after the other, lead from the world `w` to the world `w'`. -/
inductive Through (crew : Crew σ ρ τ) : σ → List (CrewCall σ ρ τ) → σ → Prop
  | none {w : σ} : Through crew w [] w
  | next {w w₁ w' : σ} {call : CrewCall σ ρ τ} {rest : List (CrewCall σ ρ τ)}
      (made : Made crew w w₁ call) (others : Through crew w₁ rest w') :
      Through crew w (call :: rest) w'

theorem Through.append {crew : Crew σ ρ τ} {w w₁ w' : σ} {front back : List (CrewCall σ ρ τ)}
    (h : Through crew w front w₁) (h' : Through crew w₁ back w') :
    Through crew w (front ++ back) w' := by
  induction h with
  | none => exact h'
  | next made _ ih => exact .next made (ih h')

theorem Through.split {crew : Crew σ ρ τ} {w w' : σ} {front back : List (CrewCall σ ρ τ)}
    (h : Through crew w (front ++ back) w') :
    ∃ w₁, Through crew w front w₁ ∧ Through crew w₁ back w' := by
  induction front generalizing w with
  | nil => exact ⟨w, .none, h⟩
  | cons call rest ih =>
    cases h with
    | next made others =>
      obtain ⟨w₁, hfront, hback⟩ := ih others
      exact ⟨w₁, .next made hfront, hback⟩

/-- What no call undoes holds after the calls if it held before. -/
theorem Through.keeps {crew : Crew σ ρ τ} {w w' : σ} {calls : List (CrewCall σ ρ τ)} {Holds : σ → Prop}
    (h : Through crew w calls w')
    (hkept : ∀ {call w w'}, Made crew w w' call → Holds w → Holds w') (hw : Holds w) : Holds w' := by
  induction h with
  | none => exact hw
  | next made _ ih => exact ih (hkept made hw)

/-! ### Watching a crew -/

/-- The task, with a call written down that tells what it came to. -/
def watch {κ : Type} (told : Except Failure α → κ) (task : Task σ α) : Task (σ × List κ) α := fun w =>
  let outcome := task w.1
  ⟨outcome.result, (outcome.world, w.2 ++ [told outcome.result]), outcome.output⟩

/-- The task, with nothing written down. -/
def unseen {κ : Type} (task : Task σ α) : Task (σ × List κ) α := fun w =>
  let outcome := task w.1
  ⟨outcome.result, (outcome.world, w.2), outcome.output⟩

/-- The reader, used where nobody watches. -/
def unwatched {κ : Type} (reader : StreamReader (σ × List κ)) : StreamReader σ := fun size w =>
  let outcome := reader size (w, [])
  ⟨outcome.result, outcome.world.1, outcome.output⟩

/-- The crew, with its calls written down: those of the source's texts and attachments, of the copies in
the target, of renderer, writer and hooks, and those that save a text. -/
def Crew.watched (crew : Crew σ ρ τ) : Crew (σ × List (CrewCall σ ρ τ)) ρ τ where
  source :=
    { list := unseen crew.source.list
      read := fun page version => watch (.read page version) (crew.source.read page version)
      save := fun context text => unseen (crew.source.save context text) }
  target :=
    { list := unseen crew.target.list
      read := fun page version => unseen (crew.target.read page version)
      save := fun context text => watch (.saved context text) (crew.target.save context text) }
  sourceFiles :=
    { list := fun page => watch (.listed page) (crew.sourceFiles.list page)
      openStream := fun page attachment =>
        watch (.opened page attachment) (crew.sourceFiles.openStream page attachment)
      read := fun stream size => unseen (crew.sourceFiles.read stream size)
      close := fun stream => watch (.closed stream) (crew.sourceFiles.close stream)
      store := fun copy reader => unseen (crew.sourceFiles.store copy (unwatched reader)) }
  targetFiles :=
    { list := fun page => unseen (crew.targetFiles.list page)
      openStream := fun page stored =>
        watch (.copyOpened page stored) (crew.targetFiles.openStream page stored)
      read := fun stream size => watch (.copyRead stream size) (crew.targetFiles.read stream size)
      close := fun stream => watch (.copyClosed stream) (crew.targetFiles.close stream)
      store := fun copy reader =>
        watch (.stored copy (unwatched reader)) (crew.targetFiles.store copy (unwatched reader)) }
  render := fun context text => watch (.rendered context text) (crew.render context text)
  write := fun html => watch (.written html) (crew.write html)
  hooks := crew.hooks.mapIdx fun index hook text => watch (.hooked index text) (hook text)

/-! ### What the calls of a task tell -/

/-- The watched task comes to what the task comes to, and the calls that are written down on the way tell
`Told` of it and account for the world it leaves. -/
def Tells (crew : Crew σ ρ τ) (Told : List (CrewCall σ ρ τ) → Except Failure α → Prop)
    (watched : Task (σ × List (CrewCall σ ρ τ)) α) (task : Task σ α) : Prop :=
  ∀ w log, ∃ calls,
    watched (w, log) = ⟨(task w).result, ((task w).world, log ++ calls), (task w).output⟩ ∧
    Through crew w calls (task w).world ∧ Told calls (task w).result

variable {crew : Crew σ ρ τ} {Told : List (CrewCall σ ρ τ) → Except Failure α → Prop}
  {watched : Task (σ × List (CrewCall σ ρ τ)) α} {task : Task σ α}

theorem Tells.mono {Told' : List (CrewCall σ ρ τ) → Except Failure α → Prop}
    (h : Tells crew Told watched task) (hmono : ∀ calls result, Told calls result → Told' calls result) :
    Tells crew Told' watched task := by
  intro w log
  obtain ⟨calls, heq, hthrough, htold⟩ := h w log
  exact ⟨calls, heq, hthrough, hmono _ _ htold⟩

/-- A call that is watched is written down. -/
theorem tells_watch {told : Except Failure α → CrewCall σ ρ τ}
    (hmade : ∀ w result w', task.attempt.Gives w result w' → Made crew w w' (told result)) :
    Tells crew (fun calls result => calls = [told result]) (watch told task) task := by
  intro w log
  refine ⟨[told (task w).result], rfl, .next (hmade w _ _ ?_) .none, rfl⟩
  exact Action.gives_attempt.mpr ⟨rfl, rfl⟩

theorem tells_ofResult (result : Except Failure α) :
    Tells crew (fun calls result' => calls = [] ∧ result' = result) (.ofResult result)
      (.ofResult result) := by
  intro w log
  exact ⟨[], by simp [Action.ofResult], .none, rfl, rfl⟩

theorem tells_pure (a : α) :
    Tells crew (fun calls result => calls = [] ∧ result = .ok a) (pure a) (pure a) :=
  tells_ofResult (.ok a)

theorem tells_fail (e : Failure) :
    Tells crew (fun calls (result : Except Failure α) => calls = [] ∧ result = .error e) (.fail e)
      (.fail e) :=
  tells_ofResult (.error e)

theorem tells_note (options : Options) (level : Log.Level) (message : String) :
    Tells crew (fun calls result => calls = [] ∧ result = .ok ()) (note options level message)
      (note options level message) := by
  intro w log
  exact ⟨[], by simp [note, Action.emit], .none, rfl, rfl⟩

/-- The calls of two tasks, one after the other; what follows a failure is not called. -/
theorem Tells.bind {N : α → List (CrewCall σ ρ τ) → Except Failure β → Prop}
    {watchedNext : α → Task (σ × List (CrewCall σ ρ τ)) β} {next : α → Task σ β}
    (h : Tells crew Told watched task) (h' : ∀ a, Tells crew (N a) (watchedNext a) (next a)) :
    Tells crew
      (fun calls result => (∃ e, Told calls (.error e) ∧ result = .error e) ∨
        ∃ a front back, calls = front ++ back ∧ Told front (.ok a) ∧ N a back result)
      (watched >>= watchedNext) (task >>= next) := by
  intro w log
  obtain ⟨front, heq, hthrough, htold⟩ := h w log
  rcases Action.gives_or_fails task w with ⟨a, w₁, hgives⟩ | ⟨e, w₁, hfails⟩
  · obtain ⟨back, heq', hthrough', htold'⟩ := h' a w₁ (log ++ front)
    have hwatched : watched.Gives (w, log) a (w₁, log ++ front) := by
      rw [Action.Gives, heq, hgives.1, hgives.2]
      exact ⟨rfl, rfl⟩
    rw [Action.bind_apply_of_gives hwatched, Action.bind_apply_of_gives hgives, heq', heq]
    rw [hgives.1] at htold
    rw [hgives.2] at hthrough
    refine ⟨front ++ back, by rw [List.append_assoc], hthrough.append hthrough',
      .inr ⟨a, front, back, rfl, htold, htold'⟩⟩
  · have hwatched : watched.Fails (w, log) e (w₁, log ++ front) := by
      rw [Action.Fails, heq, hfails.1, hfails.2]
      exact ⟨rfl, rfl⟩
    rw [Action.bind_apply_of_fails hwatched, Action.bind_apply_of_fails hfails, heq]
    rw [hfails.1] at htold
    rw [hfails.2] at hthrough
    exact ⟨front, rfl, hthrough, .inl ⟨e, htold, rfl⟩⟩

/-- The calls of a task that may fail and of what follows it in either case. -/
theorem Tells.attempt {N : Except Failure α → List (CrewCall σ ρ τ) → Except Failure β → Prop}
    {watchedNext : Except Failure α → Task (σ × List (CrewCall σ ρ τ)) β}
    {next : Except Failure α → Task σ β} (h : Tells crew Told watched task)
    (h' : ∀ inner, Tells crew (N inner) (watchedNext inner) (next inner)) :
    Tells crew
      (fun calls result =>
        ∃ inner front back, calls = front ++ back ∧ Told front inner ∧ N inner back result)
      (watched.attempt >>= watchedNext) (task.attempt >>= next) := by
  have hattempt : Tells crew (fun calls result => ∃ inner, result = .ok inner ∧ Told calls inner)
      watched.attempt task.attempt := by
    intro w log
    obtain ⟨calls, heq, hthrough, htold⟩ := h w log
    refine ⟨calls, ?_, hthrough, _, rfl, htold⟩
    simp only [Action.attempt, heq]
  refine (hattempt.bind h').mono ?_
  rintro calls result (⟨e, ⟨_, he, -⟩, -⟩ | ⟨_, front, back, rfl, ⟨inner, hinner, htold⟩, hnext⟩)
  · exact absurd he (by simp)
  · obtain rfl := Except.ok.inj hinner
    exact ⟨_, front, back, rfl, htold, hnext⟩

/-- The calls of a step; a failure of it leaves as a failure of its kind. -/
theorem Tells.boundary (h : Tells crew Told watched task) (kind : ErrorKind) (page : Option String)
    (name : String) :
    Tells crew
      (fun calls result => (∃ a, Told calls (.ok a) ∧ result = .ok a) ∨
        ∃ e, Told calls (.error e) ∧ result = .error (.classified (e.atBoundary kind page name)))
      (watched.boundary kind page name) (task.boundary kind page name) := by
  intro w log
  obtain ⟨calls, heq, hthrough, htold⟩ := h w log
  refine ⟨calls, ?_, hthrough, ?_⟩
  · simp only [Action.boundary, Action.mapFailure, heq]
  · simp only [Action.boundary, Action.mapFailure]
    cases hresult : (task w).result with
    | ok a => exact .inl ⟨a, hresult ▸ htold, rfl⟩
    | error e => exact .inr ⟨e, hresult ▸ htold, rfl⟩

/-- The calls of a step and of what follows it. -/
theorem Tells.step {N : α → List (CrewCall σ ρ τ) → Except Failure β → Prop}
    {watchedNext : α → Task (σ × List (CrewCall σ ρ τ)) β} {next : α → Task σ β}
    (h : Tells crew Told watched task) (kind : ErrorKind) (page : Option String) (name : String)
    (h' : ∀ a, Tells crew (N a) (watchedNext a) (next a)) :
    Tells crew
      (fun calls result =>
        (∃ e, Told calls (.error e) ∧ result = .error (.classified (e.atBoundary kind page name))) ∨
        ∃ a front back, calls = front ++ back ∧ Told front (.ok a) ∧ N a back result)
      (watched.boundary kind page name >>= watchedNext) (task.boundary kind page name >>= next) := by
  refine ((h.boundary kind page name).bind h').mono ?_
  rintro calls result (⟨e, h, rfl⟩ | ⟨a, front, back, rfl, h, hnext⟩)
  · rcases h with ⟨a, -, he⟩ | ⟨e', htold, he⟩
    · exact absurd he (by simp)
    · obtain rfl := Except.error.inj he
      exact .inl ⟨e', htold, rfl⟩
  · rcases h with ⟨a', htold, ha⟩ | ⟨e, -, ha⟩
    · obtain rfl := Except.ok.inj ha
      exact .inr ⟨a, front, back, rfl, htold, hnext⟩
    · exact absurd ha (by simp)

/-! ### The calls of the crew -/

section Crew

variable (crew)

theorem tells_listed (page : List Char) :
    Tells crew (fun calls result => calls = [.listed page result])
      (crew.watched.sourceFiles.list page) (crew.sourceFiles.list page) :=
  tells_watch fun _ _ _ h => h

theorem tells_opened (page : List Char) (attachment : Attachment) :
    Tells crew (fun calls result => calls = [.opened page attachment result])
      (crew.watched.sourceFiles.openStream page attachment)
      (crew.sourceFiles.openStream page attachment) :=
  tells_watch fun _ _ _ h => h

/-- The store gets the same reader as the one that is not watched. -/
theorem tells_stored (copy : Attachment) (stream : ρ) :
    Tells crew
      (fun calls result => calls = [.stored copy (crew.sourceFiles.read stream) result])
      (crew.watched.targetFiles.store copy (crew.watched.sourceFiles.read stream))
      (crew.targetFiles.store copy (crew.sourceFiles.read stream)) :=
  tells_watch fun _ _ _ h => h

theorem tells_closed (stream : ρ) :
    Tells crew (fun calls result => calls = [.closed stream result])
      (crew.watched.sourceFiles.close stream) (crew.sourceFiles.close stream) :=
  tells_watch fun _ _ _ h => h

theorem tells_copyOpened (page : List Char) (stored : Attachment) :
    Tells crew (fun calls result => calls = [.copyOpened page stored result])
      (crew.watched.targetFiles.openStream page stored)
      (crew.targetFiles.openStream page stored) :=
  tells_watch fun _ _ _ h => h

theorem tells_copyRead (stream : τ) (size : Option Nat) :
    Tells crew (fun calls result => calls = [.copyRead stream size result])
      (crew.watched.targetFiles.read stream size) (crew.targetFiles.read stream size) :=
  tells_watch fun _ _ _ h => h

theorem tells_copyClosed (stream : τ) :
    Tells crew (fun calls result => calls = [.copyClosed stream result])
      (crew.watched.targetFiles.close stream) (crew.targetFiles.close stream) :=
  tells_watch fun _ _ _ h => h

theorem tells_read (page : List Char) (version : Int) :
    Tells crew (fun calls result => calls = [.read page version result])
      (crew.watched.source.read page version) (crew.source.read page version) :=
  tells_watch fun _ _ _ h => h

theorem tells_rendered (context : PageContext) (text : List Char) :
    Tells crew (fun calls result => calls = [.rendered context text result])
      (crew.watched.render context text) (crew.render context text) :=
  tells_watch fun _ _ _ h => h

theorem tells_written (html : List Char) :
    Tells crew (fun calls result => calls = [.written html result]) (crew.watched.write html)
      (crew.write html) :=
  tells_watch fun _ _ _ h => h

theorem tells_hooked {index : Nat} {hook : List Char → Task σ (List Char)}
    (h : crew.hooks[index]? = some hook) (text : List Char) :
    Tells crew (fun calls result => calls = [.hooked index text result])
      (watch (.hooked index text) (hook text)) (hook text) :=
  tells_watch fun _ _ _ h' => ⟨hook, h, h'⟩

theorem tells_saved (context : PageContext) (text : List Char) :
    Tells crew (fun calls result => calls = [.saved context text result])
      (crew.watched.target.save context text) (crew.target.save context text) :=
  tells_watch fun _ _ _ h => h

end Crew

end WikiMigration.Migration
