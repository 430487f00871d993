/-
That the text of a page is saved last.

However reading, rendering, writing, the hooks and saving turn out, the store of the target is asked to
save at most once: exactly when every step before came to a value and the run is no dry one.  What it is
given is what the last hook gave, each hook having got what the one before it gave, and that is also what
the migration of the text gives.  The first call that fails is the last one, and what leaves is what it
raised.
-/
import WikiMigration.Proofs.Migration.Watched

namespace WikiMigration.Migration

open Store

variable {σ ρ τ : Type}

/-! ### Conversions that were finished -/

/-- The calls of hooks from an index on: each gets what the one before it gave. -/
def hookCalls (index : Nat) (text : List Char) : List (List Char) → List (CrewCall σ ρ τ)
  | [] => []
  | next :: rest => .hooked index text (.ok next) :: hookCalls (index + 1) next rest

/-- What the last hook gave: what was written, if there are no hooks. -/
def finishedText (markup : List Char) (outputs : List (List Char)) : List Char :=
  outputs.getLastD markup

/-- The calls that convert the text of a page if each of them comes to a value; `outputs` is what the
hooks give. -/
def conversionCalls (page : PageVersion) (text html markup : List Char)
    (outputs : List (List Char)) : List (CrewCall σ ρ τ) :=
  .read page.name page.version (.ok text) :: .rendered (.forRendering page) text (.ok html) ::
    .written html (.ok markup) :: hookCalls 0 markup outputs

/-- Among the calls the text was read, rendered and written, and each hook of the crew got it in order;
the last one gave `finished`. -/
def Converted (crew : Crew σ ρ τ) (page : PageVersion) (calls : List (CrewCall σ ρ τ))
    (finished : List Char) : Prop :=
  ∃ text html markup outputs, outputs.length = crew.hooks.length ∧
    conversionCalls page text html markup outputs <+: calls ∧
    finished = finishedText markup outputs

/-- Whether the call saves a text. -/
def CrewCall.isSaving : CrewCall σ ρ τ → Bool
  | .saved .. => true
  | _ => false

@[simp] theorem hookCalls_nil (index : Nat) (text : List Char) :
    hookCalls index text [] = ([] : List (CrewCall σ ρ τ)) := rfl

@[simp] theorem hookCalls_cons (index : Nat) (text next : List Char) (rest : List (List Char)) :
    hookCalls index text (next :: rest) =
      (.hooked index text (.ok next) :: hookCalls (index + 1) next rest : List (CrewCall σ ρ τ)) := rfl

theorem finishedText_cons (text next : List Char) (rest : List (List Char)) :
    finishedText text (next :: rest) = finishedText next rest := by
  simp only [finishedText, List.getLastD_cons]

theorem hookCalls_succeed (index : Nat) (text : List Char) (outputs : List (List Char)) :
    ∀ call ∈ (hookCalls index text outputs : List (CrewCall σ ρ τ)),
      call.failure? = none ∧ call.isSaving = false := by
  induction outputs generalizing index text with
  | nil => simp
  | cons next rest ih =>
    intro call hcall
    rcases List.mem_cons.mp hcall with rfl | hcall
    · exact ⟨rfl, rfl⟩
    · exact ih (index + 1) next call hcall

theorem conversionCalls_succeed (page : PageVersion) (text html markup : List Char)
    (outputs : List (List Char)) :
    ∀ call ∈ (conversionCalls page text html markup outputs : List (CrewCall σ ρ τ)),
      call.failure? = none ∧ call.isSaving = false := by
  intro call hcall
  simp only [conversionCalls, List.mem_cons] at hcall
  rcases hcall with rfl | rfl | rfl | hcall
  · exact ⟨rfl, rfl⟩
  · exact ⟨rfl, rfl⟩
  · exact ⟨rfl, rfl⟩
  · exact hookCalls_succeed 0 markup outputs call hcall

theorem length_hookCalls (index : Nat) (text : List Char) (outputs : List (List Char)) :
    (hookCalls index text outputs : List (CrewCall σ ρ τ)).length = outputs.length := by
  induction outputs generalizing index text with
  | nil => rfl
  | cons next rest ih => simp [ih]

/-- Hooks that were called alike gave the same. -/
theorem hookCalls_inj {index : Nat} {text : List Char} {outputs outputs' : List (List Char)}
    (h : (hookCalls index text outputs : List (CrewCall σ ρ τ)) = hookCalls index text outputs') :
    outputs = outputs' := by
  induction outputs generalizing index text outputs' with
  | nil => cases outputs' with
    | nil => rfl
    | cons _ _ => exact absurd h (by simp)
  | cons next rest ih =>
    cases outputs' with
    | nil => exact absurd h (by simp)
    | cons next' rest' =>
      simp only [hookCalls_cons, List.cons.injEq, CrewCall.hooked.injEq, Except.ok.injEq, true_and] at h
      obtain ⟨rfl, h⟩ := h
      rw [ih h]

/-- A conversion has one text as its end. -/
theorem Converted.unique {crew : Crew σ ρ τ} {page : PageVersion} {calls : List (CrewCall σ ρ τ)}
    {finished finished' : List Char} (h : Converted crew page calls finished)
    (h' : Converted crew page calls finished') : finished = finished' := by
  obtain ⟨text, html, markup, outputs, hlength, hprefix, rfl⟩ := h
  obtain ⟨text', html', markup', outputs', hlength', hprefix', rfl⟩ := h'
  have hsame : (conversionCalls page text html markup outputs : List (CrewCall σ ρ τ)) =
      conversionCalls page text' html' markup' outputs' := by
    refine List.IsPrefix.eq_of_length (List.prefix_of_prefix_length_le hprefix hprefix' ?_) ?_ <;>
    simp [conversionCalls, length_hookCalls, hlength, hlength']
  simp only [conversionCalls, List.cons.injEq, CrewCall.written.injEq, Except.ok.injEq] at hsame
  obtain ⟨-, -, ⟨-, rfl⟩, hhooks⟩ := hsame
  rw [hookCalls_inj hhooks]

/-! ### The steps of a conversion -/

/-- What the calls of a list of hooks from an index on come to. -/
inductive HooksTold (index count : Nat) (text : List Char) :
    List (CrewCall σ ρ τ) → Except Failure (List Char) → Prop
  | finished {outputs : List (List Char)} (all : outputs.length = count) :
      HooksTold index count text (hookCalls index text outputs) (.ok (finishedText text outputs))
  | failed {outputs : List (List Char)} {e : Failure} (partway : outputs.length < count) :
      HooksTold index count text
        (hookCalls index text outputs ++
          [.hooked (index + outputs.length) (finishedText text outputs) (.error e)]) (.error e)

/-- What the calls that convert a page come to. -/
inductive ConversionTold (crew : Crew σ ρ τ) (page : PageVersion) :
    List (CrewCall σ ρ τ) → Except Failure (List Char × List Char) → Prop
  | converted {text html markup : List Char} {outputs : List (List Char)}
      (all : outputs.length = crew.hooks.length) :
      ConversionTold crew page (conversionCalls page text html markup outputs)
        (.ok (text, finishedText markup outputs))
  /-- The calls end in one that failed before all hooks had been called. -/
  | failed {front : List (CrewCall σ ρ τ)} {call : CrewCall σ ρ τ} {e : Failure}
      (before : ∀ other ∈ front, other.failure? = none ∧ other.isSaving = false)
      (few : front.length < 3 + crew.hooks.length) (failed : call.failure? = some e)
      (unsaved : call.isSaving = false) :
      ConversionTold crew page (front ++ [call]) (.error (call.raised page.name [] e))

theorem HooksTold.cons {index count : Nat} {text next : List Char} {calls : List (CrewCall σ ρ τ)}
    {result : Except Failure (List Char)} (h : HooksTold (index + 1) count next calls result) :
    HooksTold index (count + 1) text (.hooked index text (.ok next) :: calls) result := by
  cases h with
  | @finished outputs all =>
    have h := @HooksTold.finished σ ρ τ index (count + 1) text (next :: outputs) (by simp [all])
    rwa [finishedText_cons] at h
  | @failed outputs e partway =>
    have h := @HooksTold.failed σ ρ τ index (count + 1) text (next :: outputs) e
      (by simpa using partway)
    rw [finishedText_cons, List.length_cons, ← Nat.add_assoc, Nat.add_right_comm] at h
    exact h

theorem tells_hooks {crew : Crew σ ρ τ} {rest : List (List Char → Task σ (List Char))} {index : Nat}
    (hrest : crew.hooks.drop index = rest) (text : List Char) :
    Tells crew (HooksTold index rest.length text)
      (applyHooks (rest.mapIdx fun i hook text => watch (.hooked (index + i) text) (hook text)) text)
      (applyHooks rest text) := by
  induction rest generalizing index text with
  | nil =>
    refine (tells_pure text).mono ?_
    rintro calls result ⟨rfl, rfl⟩
    exact @HooksTold.finished σ ρ τ index _ text [] rfl
  | cons hook rest ih =>
    have hhook : crew.hooks[index]? = some hook := by
      rw [← List.head?_drop, hrest, List.head?_cons]
    have hdrop : crew.hooks.drop (index + 1) = rest := by
      rw [← List.tail_drop, hrest, List.tail_cons]
    have hnext := ih hdrop
    simp only [Nat.add_right_comm index 1] at hnext
    rw [List.mapIdx_cons]
    refine ((tells_hooked crew hhook text).bind hnext).mono ?_
    rintro calls result (⟨e, rfl, rfl⟩ | ⟨next, _, back, rfl, rfl, h⟩)
    · exact @HooksTold.failed σ ρ τ index _ text [] e (Nat.succ_pos _)
    · exact .cons h

theorem tells_convertPage (crew : Crew σ ρ τ) (page : PageVersion) :
    Tells crew (ConversionTold crew page) (convertPage crew.watched page)
      (convertPage crew page) := by
  have hhooks (markup : List Char) :
      Tells crew (HooksTold 0 crew.hooks.length markup)
        (applyHooks crew.watched.hooks markup) (applyHooks crew.hooks markup) := by
    have h := @tells_hooks σ ρ τ crew crew.hooks 0 List.drop_zero markup
    simp only [Nat.zero_add] at h
    exact h
  refine ((tells_read crew page.name page.version).step .storage _ _ fun text =>
    (tells_rendered crew (.forRendering page) text).step .conversion _ _ fun html =>
      (tells_written crew html).step .conversion _ _ fun markup =>
        (hhooks markup).step .conversion _ _ fun finished => tells_pure (text, finished)).mono ?_
  -- Each step may be the one that fails; the calls before it came to values.
  rintro calls result (⟨e, rfl, rfl⟩ | ⟨text, _, _, rfl, rfl, h⟩)
  · refine @ConversionTold.failed σ ρ τ crew page [] _ e (by simp) ?_ rfl rfl
    simp only [List.length_nil]
    omega
  rcases h with ⟨e, rfl, rfl⟩ | ⟨html, _, _, rfl, rfl, h⟩
  · refine @ConversionTold.failed σ ρ τ crew page [.read page.name page.version (.ok text)] _ e
      (by simp [CrewCall.failure?, CrewCall.isSaving]) ?_ rfl rfl
    simp only [List.length_cons, List.length_nil]
    omega
  rcases h with ⟨e, rfl, rfl⟩ | ⟨markup, _, _, rfl, rfl, h⟩
  · refine @ConversionTold.failed σ ρ τ crew page [.read page.name page.version (.ok text),
      .rendered (.forRendering page) text (.ok html)] _ e
      (by simp [CrewCall.failure?, CrewCall.isSaving]) ?_ rfl rfl
    simp only [List.length_cons, List.length_nil]
    omega
  rcases h with ⟨e, h, rfl⟩ | ⟨finished, _, _, rfl, h, rfl, rfl⟩
  · cases h with
    | @failed outputs e partway =>
      refine @ConversionTold.failed σ ρ τ crew page
        (conversionCalls page text html markup outputs) _ e
        (conversionCalls_succeed page text html markup outputs) ?_ rfl rfl
      simp only [conversionCalls, List.length_cons, length_hookCalls]
      omega
  · cases h with
    | @finished outputs all =>
      rw [List.append_nil]
      exact .converted all

/-- Calls that end in a failed one before all hooks had been called are no conversion. -/
theorem not_converted_of_failed {crew : Crew σ ρ τ} {page : PageVersion} {front : List (CrewCall σ ρ τ)}
    {call : CrewCall σ ρ τ} {e : Failure} {finished : List Char}
    (few : front.length < 3 + crew.hooks.length) (failed : call.failure? = some e) :
    ¬ Converted crew page (front ++ [call]) finished := by
  rintro ⟨text, html, markup, outputs, hlength, hprefix, -⟩
  have hle := hprefix.length_le
  have hsize : (conversionCalls page text html markup outputs : List (CrewCall σ ρ τ)).length =
      3 + crew.hooks.length := by
    simp only [conversionCalls, List.length_cons, length_hookCalls, hlength]
    omega
  have heq := hprefix.eq_of_length (by
    simp only [List.length_append, List.length_singleton] at hle ⊢
    omega)
  have hmem : call ∈ (conversionCalls page text html markup outputs : List (CrewCall σ ρ τ)) := by
    rw [heq]
    exact List.mem_append_right _ (List.mem_singleton_self _)
  have hnone := (conversionCalls_succeed page text html markup outputs call hmem).1
  rw [failed] at hnone
  exact absurd hnone (by simp)

/-! ### The text of a page -/

/-- What the calls that migrate the text of a page tell of what it came to. -/
structure SavedLast (crew : Crew σ ρ τ) (options : Options) (page : PageVersion)
    (calls : List (CrewCall σ ρ τ)) (result : Except Failure (List Char)) : Prop where
  /-- A text is saved at most once. -/
  once : (calls.filter CrewCall.isSaving).length ≤ 1
  /-- A text is saved exactly if the conversion was finished and the run is no dry one. -/
  saved_iff : (∃ call ∈ calls, call.isSaving = true) ↔
    options.isDry = false ∧ ∃ finished, Converted crew page calls finished
  /-- What is saved, as the page, is what the conversion gave. -/
  saved : ∀ context text saving, .saved context text saving ∈ calls →
    context = .forSaving (unversioned page) ∧ Converted crew page calls text
  /-- What the migration gives is what the conversion gave, and no call failed. -/
  given : ∀ text, result = .ok text →
    Converted crew page calls text ∧ ∀ call ∈ calls, call.failure? = none
  /-- What leaves is what the last call raised, and those before it came to values. -/
  raised : ∀ e, result = .error e → ∃ front call inner, calls = front ++ [call] ∧
    (∀ other ∈ front, other.failure? = none) ∧ call.failure? = some inner ∧
    e = call.raised page.name [] inner

section Text

variable {crew : Crew σ ρ τ} {options : Options} {page : PageVersion}

theorem conversionCalls_unsaved (page : PageVersion) (text html markup : List Char)
    (outputs : List (List Char)) :
    (conversionCalls page text html markup outputs : List (CrewCall σ ρ τ)).filter CrewCall.isSaving =
      [] := by
  rw [List.filter_eq_nil_iff]
  intro call hcall
  simp [(conversionCalls_succeed page text html markup outputs call hcall).2]

/-- A conversion that was not finished, where nothing is saved. -/
theorem SavedLast.of_failed {front : List (CrewCall σ ρ τ)} {call : CrewCall σ ρ τ} {e : Failure}
    (before : ∀ other ∈ front, other.failure? = none ∧ other.isSaving = false)
    (few : front.length < 3 + crew.hooks.length) (failed : call.failure? = some e)
    (unsaved : call.isSaving = false) :
    SavedLast crew options page (front ++ [call]) (.error (call.raised page.name [] e)) := by
  have hunsaved : ∀ other ∈ front ++ [call], other.isSaving = false := by
    intro other hother
    rcases List.mem_append.mp hother with hother | hother
    · exact (before other hother).2
    · rwa [List.mem_singleton.mp hother]
  refine ⟨?_, ⟨?_, ?_⟩, ?_, ?_, ?_⟩
  · rw [List.filter_eq_nil_iff.mpr fun other hother => by simp [hunsaved other hother]]
    exact Nat.zero_le _
  · rintro ⟨other, hother, hsaving⟩
    exact absurd hsaving (by simp [hunsaved other hother])
  · rintro ⟨-, finished, h⟩
    exact absurd h (not_converted_of_failed few failed)
  · intro context text saving hsaved
    exact absurd (hunsaved _ hsaved) (by simp [CrewCall.isSaving])
  · intro text h
    exact absurd h (by simp)
  · intro e' h
    obtain rfl := Except.error.inj h
    exact ⟨front, call, e, rfl, fun other hother => (before other hother).1, failed, rfl⟩

/-- A finished conversion whose text is not to be saved. -/
theorem SavedLast.of_dry {text html markup : List Char} {outputs : List (List Char)}
    (all : outputs.length = crew.hooks.length) (dry : options.isDry = true) :
    SavedLast crew options page (conversionCalls page text html markup outputs)
      (.ok (finishedText markup outputs)) := by
  have hsucceed := @conversionCalls_succeed σ ρ τ page text html markup outputs
  have hconverted : Converted crew page (conversionCalls page text html markup outputs)
      (finishedText markup outputs) := ⟨text, html, markup, outputs, all, List.prefix_rfl, rfl⟩
  refine ⟨?_, ⟨?_, ?_⟩, ?_, ?_, ?_⟩
  · rw [conversionCalls_unsaved]
    exact Nat.zero_le _
  · rintro ⟨call, hcall, hsaving⟩
    exact absurd hsaving (by simp [(hsucceed call hcall).2])
  · rintro ⟨hreal, -⟩
    exact absurd dry (by simp [hreal])
  · intro context text saving hsaved
    exact absurd (hsucceed _ hsaved).2 (by simp [CrewCall.isSaving])
  · intro text h
    obtain rfl := Except.ok.inj h
    exact ⟨hconverted, fun call hcall => (hsucceed call hcall).1⟩
  · intro e h
    exact absurd h (by simp)

/-- A finished conversion whose text is to be saved; `saving` is what comes of that. -/
theorem SavedLast.of_saved {text html markup : List Char} {outputs : List (List Char)}
    {saving : Except Failure Unit} {result : Except Failure (List Char)}
    (all : outputs.length = crew.hooks.length) (real : options.isDry = false)
    (given : ∀ text, result = .ok text → saving = .ok () ∧ text = finishedText markup outputs)
    (raised : ∀ e, result = .error e → ∃ inner, saving = .error inner ∧
      e = CrewCall.raised page.name [] (.saved (.forSaving (unversioned page))
        (finishedText markup outputs) saving : CrewCall σ ρ τ) inner) :
    SavedLast crew options page (conversionCalls page text html markup outputs ++
      [.saved (.forSaving (unversioned page)) (finishedText markup outputs) saving]) result := by
  have hsucceed := @conversionCalls_succeed σ ρ τ page text html markup outputs
  have hconverted : Converted crew page (conversionCalls page text html markup outputs ++
      [.saved (.forSaving (unversioned page)) (finishedText markup outputs) saving])
      (finishedText markup outputs) :=
    ⟨text, html, markup, outputs, all, List.prefix_append _ _, rfl⟩
  refine ⟨?_, ⟨?_, ?_⟩, ?_, ?_, ?_⟩
  · rw [List.filter_append, conversionCalls_unsaved]
    exact Nat.le_refl 1
  · rintro -
    exact ⟨real, _, hconverted⟩
  · rintro -
    exact ⟨_, List.mem_append_right _ (List.mem_singleton_self _), rfl⟩
  · intro context saved result' hsaved
    rcases List.mem_append.mp hsaved with hsaved | hsaved
    · exact absurd (hsucceed _ hsaved).2 (by simp [CrewCall.isSaving])
    · obtain ⟨rfl, rfl, rfl⟩ := CrewCall.saved.inj (List.mem_singleton.mp hsaved)
      exact ⟨rfl, hconverted⟩
  · intro text' h
    obtain ⟨rfl, rfl⟩ := given text' h
    refine ⟨hconverted, fun call hcall => ?_⟩
    rcases List.mem_append.mp hcall with hcall | hcall
    · exact (hsucceed call hcall).1
    · rw [List.mem_singleton.mp hcall]
      rfl
  · intro e h
    obtain ⟨inner, rfl, rfl⟩ := raised e h
    exact ⟨_, _, inner, rfl, fun call hcall => (hsucceed call hcall).1, rfl, rfl⟩

end Text

/-- **The text of a page is saved last, and every failure is classified by the step it happened in.**
Whatever reading, rendering, writing, the hooks and saving come to, what the migration of the text asks of
the crew and comes to is as `SavedLast` tells; the calls account for all that happens to the world. -/
theorem migrateText_savedLast (crew : Crew σ ρ τ) (options : Options) (page : PageVersion) (w : σ) :
    ∃ calls : List (CrewCall σ ρ τ),
      migrateText crew.watched options page (w, []) =
        ⟨(migrateText crew options page w).result,
          ((migrateText crew options page w).world, calls),
          (migrateText crew options page w).output⟩ ∧
      Through crew w calls (migrateText crew options page w).world ∧
      SavedLast crew options page calls (migrateText crew options page w).result := by
  have htells : Tells crew (SavedLast crew options page)
      (migrateText crew.watched options page) (migrateText crew options page) := by
    refine ((tells_convertPage crew page).bind (N := fun converted calls result =>
      ∀ {text html markup outputs}, outputs.length = crew.hooks.length →
        converted = (text, finishedText markup outputs) → SavedLast crew options page
          (conversionCalls page text html markup outputs ++ calls) result)
      fun converted => ?_).mono ?_
    · obtain ⟨source, written⟩ := converted
      by_cases hdry : options.isDry = true
      · simp only [hdry, if_true]
        refine ((tells_note _ _ _).bind fun _ => tells_pure written).mono ?_
        rintro calls result (⟨_, ⟨-, h⟩, -⟩ | ⟨_, _, _, rfl, ⟨rfl, -⟩, rfl, rfl⟩)
        · exact absurd h (by simp)
        intro text html markup outputs all h
        obtain ⟨rfl, rfl⟩ := Prod.mk.inj h
        simpa using SavedLast.of_dry all hdry
      · have hreal : options.isDry = false := by simpa using hdry
        simp only [hreal, Bool.false_eq_true, if_false]
        refine ((tells_saved crew (.forSaving (unversioned page)) written).step .storage _ _
          fun _ => (tells_note _ _ _).bind fun _ => tells_pure written).mono ?_
        rintro calls result hsaving text html markup outputs all h
        obtain ⟨rfl, rfl⟩ := Prod.mk.inj h
        rcases hsaving with ⟨e, rfl, rfl⟩ | ⟨_, _, _, rfl, rfl, h⟩
        · refine .of_saved all hreal (fun _ h => absurd h (by simp)) fun e' h => ?_
          exact ⟨e, rfl, (Except.error.inj h).symm⟩
        · rcases h with ⟨_, ⟨-, h⟩, -⟩ | ⟨_, _, _, rfl, ⟨rfl, -⟩, rfl, rfl⟩
          · exact absurd h (by simp)
          refine .of_saved all hreal (fun text' h => ?_) fun _ h => absurd h (by simp)
          exact ⟨rfl, (Except.ok.inj h).symm⟩
    · rintro calls result (⟨e, h, rfl⟩ | ⟨converted, front, back, rfl, h, hnext⟩)
      · cases h with
        | failed before few failed unsaved => exact .of_failed before few failed unsaved
      · cases h with
        | converted all => exact hnext all rfl
  simpa using htells w []

end WikiMigration.Migration
