/-
What an action comes to.

An action either gives a value or fails, and leaves a world in both cases.  What a sequence of
actions comes to is read off its parts: it gives a value exactly if every part does, and fails
exactly if one part fails and those before it do not.  These are the only facts about actions that
the proofs about migrations unfold.
-/
import WikiMigration.Action

namespace WikiMigration

/-! ### Results and failures -/

@[simp] theorem mapError_ok {ε δ α : Type} (f : ε → δ) (a : α) :
    (Except.ok a : Except ε α).mapError f = .ok a := rfl

@[simp] theorem mapError_error {ε δ α : Type} (f : ε → δ) (e : ε) :
    (Except.error e : Except ε α).mapError f = .error (f e) := rfl

theorem mapError_eq_ok {ε δ α : Type} {f : ε → δ} {x : Except ε α} {a : α} :
    x.mapError f = .ok a ↔ x = .ok a := by
  cases x <;> simp

theorem mapError_eq_error {ε δ α : Type} {f : ε → δ} {x : Except ε α} {e : δ} :
    x.mapError f = .error e ↔ ∃ e', x = .error e' ∧ f e' = e := by
  cases x <;> simp

theorem toOption_eq_some {ε α : Type} {result : Except ε α} {a : α} :
    result.toOption = some a ↔ result = .ok a := by
  cases result <;> simp [Except.toOption]

/-- What a result failed with, if it is a failure. -/
def failureOf {α : Type} : Except Failure α → Option Failure
  | .ok _ => none
  | .error e => some e

@[simp] theorem failureOf_ok {α : Type} (a : α) : failureOf (.ok a) = none := rfl

@[simp] theorem failureOf_error {α : Type} (e : Failure) :
    failureOf (.error e : Except Failure α) = some e := rfl

theorem failureOf_eq_some {α : Type} {result : Except Failure α} {e : Failure} :
    failureOf result = some e ↔ result = .error e := by
  cases result <;> simp

theorem bind_eq_ok {ε α β : Type} {x : Except ε α} {f : α → Except ε β} {b : β} :
    (x >>= f) = .ok b ↔ ∃ a, x = .ok a ∧ f a = .ok b := by
  cases x with
  | error e => simp [bind, Except.bind]
  | ok a => simp [bind, Except.bind]

theorem bind_eq_error {ε α β : Type} {x : Except ε α} {f : α → Except ε β} {e : ε} :
    (x >>= f) = .error e ↔ x = .error e ∨ ∃ a, x = .ok a ∧ f a = .error e := by
  cases x with
  | error e => simp [bind, Except.bind]
  | ok a => simp [bind, Except.bind]

theorem forM_eq_ok {ε α : Type} {check : α → Except ε Unit} {items : List α} :
    items.forM check = .ok () ↔ ∀ item ∈ items, check item = .ok () := by
  induction items with
  | nil => simp [pure, Except.pure]
  | cons item rest ih =>
    change (check item >>= fun _ => rest.forM check) = _ ↔ _
    rw [bind_eq_ok, List.forall_mem_cons, ← ih]
    exact ⟨fun ⟨_, hfirst, hrest⟩ => ⟨hfirst, hrest⟩, fun ⟨hfirst, hrest⟩ => ⟨_, hfirst, hrest⟩⟩

theorem mem_of_forM_eq_error {ε α : Type} {check : α → Except ε Unit} {items : List α} {e : ε}
    (h : items.forM check = .error e) : ∃ item ∈ items, check item = .error e := by
  induction items with
  | nil => cases h
  | cons item rest ih =>
    change (check item >>= fun _ => rest.forM check) = _ at h
    rw [bind_eq_error] at h
    rcases h with hfirst | ⟨_, -, hrest⟩
    · exact ⟨item, List.mem_cons_self, hfirst⟩
    · obtain ⟨other, hmem, hother⟩ := ih hrest
      exact ⟨other, List.mem_cons_of_mem _ hmem, hother⟩

namespace Action

variable {ω ψ σ τ α β : Type}

/-- In the world `before` the action gives the value and leaves the world `after`. -/
def Gives (action : Action ω σ α) (before : σ) (a : α) (after : σ) : Prop :=
  (action before).result = .ok a ∧ (action before).world = after

/-- In the world `before` the action fails and leaves the world `after`. -/
def Fails (action : Action ω σ α) (before : σ) (failure : Failure) (after : σ) : Prop :=
  (action before).result = .error failure ∧ (action before).world = after

/-- Whatever it results in, the action leaves the world `after`. -/
def Leaves (action : Action ω σ α) (before after : σ) : Prop := (action before).world = after

theorem gives_or_fails (action : Action ω σ α) (before : σ) :
    (∃ a after, action.Gives before a after) ∨ ∃ e after, action.Fails before e after := by
  cases h : (action before).result with
  | ok a => exact Or.inl ⟨a, _, h, rfl⟩
  | error e => exact Or.inr ⟨e, _, h, rfl⟩

theorem Gives.leaves {action : Action ω σ α} {w w' : σ} {a : α} (h : action.Gives w a w') :
    action.Leaves w w' := h.2

theorem Fails.leaves {action : Action ω σ α} {w w' : σ} {e : Failure}
    (h : action.Fails w e w') : action.Leaves w w' := h.2

theorem Gives.unique {action : Action ω σ α} {w w₁ w₂ : σ} {a b : α}
    (h₁ : action.Gives w a w₁) (h₂ : action.Gives w b w₂) : a = b ∧ w₁ = w₂ := by
  refine ⟨?_, h₁.2.symm.trans h₂.2⟩
  exact Except.ok.inj (h₁.1.symm.trans h₂.1)

theorem Gives.not_fails {action : Action ω σ α} {w w₁ w₂ : σ} {a : α} {e : Failure}
    (h₁ : action.Gives w a w₁) : ¬ action.Fails w e w₂ := by
  intro h₂
  have h := h₁.1.symm.trans h₂.1
  simp at h

theorem Fails.unique {action : Action ω σ α} {w w₁ w₂ : σ} {e₁ e₂ : Failure}
    (h₁ : action.Fails w e₁ w₁) (h₂ : action.Fails w e₂ w₂) : e₁ = e₂ ∧ w₁ = w₂ := by
  refine ⟨?_, h₁.2.symm.trans h₂.2⟩
  exact Except.error.inj (h₁.1.symm.trans h₂.1)

/-! ### Sequences -/

theorem bind_apply_of_gives {x : Action ω σ α} {w w₁ : σ} {a : α} (h : x.Gives w a w₁)
    (f : α → Action ω σ β) :
    (x >>= f) w = { f a w₁ with output := (x w).output ++ (f a w₁).output } := by
  show andThen x f w = _
  simp only [andThen, h.1, h.2]

theorem bind_apply_of_fails {x : Action ω σ α} {w w₁ : σ} {e : Failure} (h : x.Fails w e w₁)
    (f : α → Action ω σ β) : (x >>= f) w = ⟨.error e, w₁, (x w).output⟩ := by
  show andThen x f w = _
  simp only [andThen, h.1, h.2]

theorem gives_bind {x : Action ω σ α} {f : α → Action ω σ β} {w w' : σ} {b : β} :
    (x >>= f).Gives w b w' ↔ ∃ a w₁, x.Gives w a w₁ ∧ (f a).Gives w₁ b w' := by
  rcases gives_or_fails x w with ⟨a, w₁, h⟩ | ⟨e, w₁, h⟩
  · rw [Gives, bind_apply_of_gives h]
    constructor
    · intro hb
      exact ⟨a, w₁, h, hb⟩
    · rintro ⟨a', w₁', h', hb⟩
      obtain ⟨rfl, rfl⟩ := h.unique h'
      exact hb
  · rw [Gives, bind_apply_of_fails h]
    constructor
    · rintro ⟨hb, -⟩
      simp at hb
    · rintro ⟨a, w₁', h', -⟩
      exact absurd h h'.not_fails

theorem fails_bind {x : Action ω σ α} {f : α → Action ω σ β} {w w' : σ} {e : Failure} :
    (x >>= f).Fails w e w' ↔
      x.Fails w e w' ∨ ∃ a w₁, x.Gives w a w₁ ∧ (f a).Fails w₁ e w' := by
  rcases gives_or_fails x w with ⟨a, w₁, h⟩ | ⟨e', w₁, h⟩
  · rw [Fails, bind_apply_of_gives h]
    constructor
    · intro hb
      exact Or.inr ⟨a, w₁, h, hb⟩
    · rintro (hx | ⟨a', w₁', h', hb⟩)
      · exact absurd hx h.not_fails
      · obtain ⟨rfl, rfl⟩ := h.unique h'
        exact hb
  · rw [Fails, bind_apply_of_fails h]
    constructor
    · rintro ⟨he, hw⟩
      obtain rfl := Except.error.inj he
      obtain rfl := hw
      exact Or.inl h
    · rintro (hx | ⟨a, w₁', h', -⟩)
      · obtain ⟨rfl, rfl⟩ := h.unique hx
        exact ⟨rfl, rfl⟩
      · exact absurd h h'.not_fails

/-- Where the first action gives something, what fails is what follows. -/
theorem fails_of_gives {x : Action ω σ α} {f : α → Action ω σ β} {w w₁ w' : σ} {a : α} {e : Failure}
    (hx : x.Gives w a w₁) (h : (x >>= f).Fails w e w') : (f a).Fails w₁ e w' := by
  rcases fails_bind.mp h with hfails | ⟨b, w₂, hgives, hfails⟩
  · exact absurd hfails hx.not_fails
  · obtain ⟨rfl, rfl⟩ := hx.unique hgives
    exact hfails

theorem leaves_bind {x : Action ω σ α} {f : α → Action ω σ β} {w w' : σ} :
    (x >>= f).Leaves w w' ↔
      (∃ e, x.Fails w e w') ∨ ∃ a w₁, x.Gives w a w₁ ∧ (f a).Leaves w₁ w' := by
  rcases gives_or_fails x w with ⟨a, w₁, h⟩ | ⟨e, w₁, h⟩
  · rw [Leaves, bind_apply_of_gives h]
    constructor
    · intro hb
      exact Or.inr ⟨a, w₁, h, hb⟩
    · rintro (⟨e, h'⟩ | ⟨a', w₁', h', hb⟩)
      · exact absurd h' h.not_fails
      · obtain ⟨rfl, rfl⟩ := h.unique h'
        exact hb
  · rw [Leaves, bind_apply_of_fails h]
    constructor
    · rintro rfl
      exact Or.inl ⟨e, h⟩
    · rintro (⟨e', h'⟩ | ⟨a, w₁', h', -⟩)
      · exact (h.unique h').2
      · exact absurd h h'.not_fails

/-! ### Single actions -/

@[simp] theorem gives_pure {w w' : σ} {a b : α} :
    (pure a : Action ω σ α).Gives w b w' ↔ a = b ∧ w = w' := by
  simp [Gives, pure, ofResult]

@[simp] theorem not_fails_pure {w w' : σ} {a : α} {e : Failure} :
    ¬ (pure a : Action ω σ α).Fails w e w' := by
  simp [Fails, pure, ofResult]

@[simp] theorem gives_fail {w w' : σ} {a : α} {e : Failure} :
    ¬ (fail e : Action ω σ α).Gives w a w' := by
  simp [Gives, fail, ofResult]

@[simp] theorem fails_fail {w w' : σ} {e e' : Failure} :
    (fail e : Action ω σ α).Fails w e' w' ↔ e = e' ∧ w = w' := by
  simp [Fails, fail, ofResult]

@[simp] theorem gives_emit {w w' : σ} {x : ω} {u : Unit} :
    (emit x : Action ω σ Unit).Gives w u w' ↔ w = w' := by
  simp [Gives, emit]

@[simp] theorem not_fails_emit {w w' : σ} {x : ω} {e : Failure} :
    ¬ (emit x : Action ω σ Unit).Fails w e w' := by
  simp [Fails, emit]

@[simp] theorem gives_world {w w' v : σ} :
    (world : Action ω σ σ).Gives w v w' ↔ w = v ∧ w = w' := by
  simp [Gives, world]

@[simp] theorem not_fails_world {w w' : σ} {e : Failure} :
    ¬ (world : Action ω σ σ).Fails w e w' := by
  simp [Fails, world]

@[simp] theorem gives_change {f : σ → σ} {w w' : σ} {u : Unit} :
    (change f : Action ω σ Unit).Gives w u w' ↔ f w = w' := by
  simp [Gives, change]

@[simp] theorem not_fails_change {f : σ → σ} {w w' : σ} {e : Failure} :
    ¬ (change f : Action ω σ Unit).Fails w e w' := by
  simp [Fails, change]

@[simp] theorem gives_ofResult {w w' : σ} {r : Except Failure α} {a : α} :
    (ofResult r : Action ω σ α).Gives w a w' ↔ r = .ok a ∧ w = w' := by
  simp [Gives, ofResult]

@[simp] theorem fails_ofResult {w w' : σ} {r : Except Failure α} {e : Failure} :
    (ofResult r : Action ω σ α).Fails w e w' ↔ r = .error e ∧ w = w' := by
  simp [Fails, ofResult]

/-! ### Actions within actions -/

theorem gives_attempt {x : Action ω σ α} {w w' : σ} {r : Except Failure α} :
    x.attempt.Gives w r w' ↔ (x w).result = r ∧ x.Leaves w w' := by
  simp [Gives, attempt, Leaves]

@[simp] theorem not_fails_attempt {x : Action ω σ α} {w w' : σ} {e : Failure} :
    ¬ x.attempt.Fails w e w' := by
  simp [Fails, attempt]

@[simp] theorem gives_mapFailure {f : Failure → Failure} {x : Action ω σ α} {w w' : σ} {a : α} :
    (x.mapFailure f).Gives w a w' ↔ x.Gives w a w' := by
  simp only [Gives, mapFailure]
  cases (x w).result <;> simp

theorem fails_mapFailure {f : Failure → Failure} {x : Action ω σ α} {w w' : σ} {e : Failure} :
    (x.mapFailure f).Fails w e w' ↔ ∃ e', x.Fails w e' w' ∧ f e' = e := by
  simp only [Fails, mapFailure]
  cases (x w).result with
  | ok a => simp
  | error e' =>
    simp only [mapError_error, Except.error.injEq]
    constructor
    · rintro ⟨rfl, h⟩
      exact ⟨e', ⟨rfl, h⟩, rfl⟩
    · rintro ⟨_, ⟨rfl, h⟩, he⟩
      exact ⟨he, h⟩

@[simp] theorem gives_boundary {kind : ErrorKind} {page : Option String} {name : String}
    {x : Action ω σ α} {w w' : σ} {a : α} :
    (x.boundary kind page name).Gives w a w' ↔ x.Gives w a w' := gives_mapFailure

theorem fails_boundary {kind : ErrorKind} {page : Option String} {name : String}
    {x : Action ω σ α} {w w' : σ} {e : Failure} :
    (x.boundary kind page name).Fails w e w' ↔
      ∃ e', x.Fails w e' w' ∧ .classified (e'.atBoundary kind page name) = e :=
  fails_mapFailure

/-! ### What an action leaves alone -/

variable {κ : Type} {part : σ → κ}

/-- Whatever the action comes to, a part of the world is as before. -/
def Preserves (part : σ → κ) (x : Action ω σ α) : Prop := ∀ w w', x.Leaves w w' → part w' = part w

theorem Preserves.of_same {x : Action ω σ α} (h : ∀ w, part (x w).world = part w) :
    x.Preserves part := by
  rintro w w' rfl
  exact h w

theorem Preserves.bind {x : Action ω σ α} {f : α → Action ω σ β} (h : x.Preserves part)
    (h' : ∀ a, (f a).Preserves part) : (x >>= f).Preserves part := by
  intro w w' hleaves
  rcases leaves_bind.mp hleaves with ⟨e, hfails⟩ | ⟨a, w₁, hgives, hnext⟩
  · exact h _ _ hfails.leaves
  · exact (h' a _ _ hnext).trans (h _ _ hgives.leaves)

theorem Preserves.attempt {x : Action ω σ α} (h : x.Preserves part) : x.attempt.Preserves part := h

theorem Preserves.mapFailure {x : Action ω σ α} (h : x.Preserves part) (f : Failure → Failure) :
    (x.mapFailure f).Preserves part := h

theorem Preserves.foldlM {f : β → α → Action ω σ β} (h : ∀ b a, (f b a).Preserves part)
    (xs : List α) (b : β) : (xs.foldlM f b).Preserves part := by
  induction xs generalizing b with
  | nil => exact .of_same fun _ => rfl
  | cons x rest ih => exact (h b x).bind ih

end Action

end WikiMigration
