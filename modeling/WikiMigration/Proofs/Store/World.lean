/-
What the actions of the stores over files come to.

Looking at the tree changes nothing, and steps leave the tree that they make, with the staging file
discarded if one of them fails.  How failures are reported makes no difference to either.
-/
import WikiMigration.Proofs.Action
import WikiMigration.Store.World

namespace WikiMigration.Store

open Files Action

variable {α : Type} {w w' : World}

@[simp] theorem setTree_tree (t : Tree) (w : World) : (w.setTree t).tree = t := rfl

@[simp] theorem gives_inspect {look : Tree → Result α} {a : α} :
    (inspect look).Gives w a w' ↔ look w.tree = .ok a ∧ w = w' := by
  simp only [Gives, inspect]
  cases look w.tree <;> simp

theorem fails_inspect {look : Tree → Result α} {failure : Failure} :
    (inspect look).Fails w failure w' ↔
      ∃ e, look w.tree = .error e ∧ e.failure = failure ∧ w = w' := by
  simp only [Fails, inspect]
  cases look w.tree <;> simp

theorem gives_makeSteps {staged : Option Path} {steps : List FileStep} {u : Unit} :
    (makeSteps staged steps).Gives w u w' ↔
      ∃ t', applySteps w.tree steps = (none, t') ∧ w.setTree t' = w' := by
  simp only [Gives, makeSteps]
  cases applySteps w.tree steps with
  | mk fault t' => cases fault <;> simp

theorem fails_makeSteps {staged : Option Path} {steps : List FileStep} {failure : Failure} :
    (makeSteps staged steps).Fails w failure w' ↔
      ∃ e t', applySteps w.tree steps = (some e, t') ∧ e.failure = failure ∧
        w.setTree ((staged.map (discard t')).getD t') = w' := by
  simp only [Fails, makeSteps]
  cases applySteps w.tree steps with
  | mk fault t' => cases fault <;> simp [and_assoc]

@[simp] theorem gives_classified {kind : ErrorKind} {page : Option (List Char)}
    {message : String → String} {action : Task World α} {a : α} :
    (classified kind page message action).Gives w a w' ↔ action.Gives w a w' := gives_mapFailure

/-- A failure that is reported in another way leaves the same world. -/
theorem fails_classified {kind : ErrorKind} {page : Option (List Char)}
    {message : String → String} {action : Task World α} {failure : Failure}
    (h : (classified kind page message action).Fails w failure w') :
    ∃ failure', action.Fails w failure' w' := by
  obtain ⟨failure', hfails, -⟩ := fails_mapFailure.mp h
  exact ⟨failure', hfails⟩

@[simp] theorem gives_log {level : Log.Level} {logger message : String} {u : Unit} :
    (log level logger message).Gives w u w' ↔ w = w' := gives_emit

@[simp] theorem not_fails_log {level : Log.Level} {logger message : String} {failure : Failure} :
    ¬ (log level logger message).Fails w failure w' := not_fails_emit

/-! ### Looking -/

/-- The action leaves the world as it is and gives what it sees in the tree. -/
def Looks (action : Task World α) (look : Tree → Result α) : Prop :=
  ∀ w a w', action.Gives w a w' ↔ w' = w ∧ look w.tree = .ok a

variable {β : Type} {look : Tree → Result α}

theorem Looks.congr {look' : Tree → Result α} {action : Task World α} (h : Looks action look)
    (hlook : ∀ t, look t = look' t) : Looks action look' := by
  intro w a w'
  rw [← hlook]
  exact h w a w'

theorem looks_inspect (look : Tree → Result α) : Looks (inspect look) look := by
  intro w a w'
  rw [gives_inspect, and_comm, eq_comm]

theorem looks_pure (a : α) : Looks (pure a) fun _ => .ok a := by
  intro w b w'
  rw [gives_pure, Except.ok.injEq, and_comm, eq_comm (a := w)]

theorem Looks.bind {action : Task World α} {next : α → Task World β} {then' : α → Tree → Result β}
    (h : Looks action look) (hnext : ∀ a, Looks (next a) (then' a)) :
    Looks (action >>= next) fun t => look t >>= fun a => then' a t := by
  intro w b w'
  rw [gives_bind]
  constructor
  · rintro ⟨a, w₁, hfirst, hthen⟩
    obtain ⟨rfl, ha⟩ := (h w a w₁).mp hfirst
    obtain ⟨hw, hb⟩ := (hnext a _ b w').mp hthen
    refine ⟨hw, ?_⟩
    dsimp only
    rw [ha]
    exact hb
  · rintro ⟨rfl, hb⟩
    dsimp only at hb
    cases ha : look w'.tree with
    | error e =>
      rw [ha] at hb
      cases hb
    | ok a =>
      rw [ha] at hb
      exact ⟨a, w', (h w' a w').mpr ⟨rfl, ha⟩, (hnext a w' b w').mpr ⟨rfl, hb⟩⟩

theorem Looks.log {action : Task World α} (h : Looks action look) (level : Log.Level)
    (logger message : String) : Looks (do log level logger message; action) look := by
  intro w a w'
  rw [gives_bind]
  constructor
  · rintro ⟨u, w₁, hlog, hgives⟩
    obtain rfl := gives_log.mp hlog
    exact (h w a w').mp hgives
  · exact fun hlook => ⟨(), w, gives_log.mpr rfl, (h w a w').mpr hlook⟩

theorem Looks.classified {action : Task World α} (h : Looks action look) (kind : ErrorKind)
    (page : Option (List Char)) (message : String → String) :
    Looks (classified kind page message action) look := by
  intro w a w'
  rw [gives_classified]
  exact h w a w'

theorem looks_foldlM {f : β → α → Task World β} {g : Tree → β → α → Result β}
    (h : ∀ b a, Looks (f b a) fun t => g t b a) (xs : List α) (b : β) :
    Looks (xs.foldlM f b) fun t => xs.foldlM (g t) b := by
  induction xs generalizing b with
  | nil => exact looks_pure b
  | cons x xs ih =>
    simp only [List.foldlM_cons]
    exact (h b x).bind ih

end WikiMigration.Store
