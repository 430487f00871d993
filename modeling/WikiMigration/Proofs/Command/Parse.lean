/-
The values that a command line gives to its arguments.

Whatever the words are, an argument gets a value of the kind that its switch or its operand asks for: a text
from one that takes a value, a truth value from a flag, a number from one that is counted.  A word is read
into a switch of the table or into none, and each step keeps all kinds.
-/
import WikiMigration.Command.Parse
import WikiMigration.Proofs.Action
import WikiMigration.Proofs.Data.Entries

namespace WikiMigration.Command

open Text Data

/-- The value is of the kind that the switch gives. -/
def Switch.Takes (s : Switch) (value : Value) : Prop :=
  match s.effect with
  | .value _ => value = .null ∨ ∃ t, value = .text t
  | .flag => ∃ b, value = .bool b
  | .count => ∃ n, value = .int n
  | .help => True
  | .version => True

/-! ### Words -/

/-- A word that is a switch is one of the table. -/
def Word.IsKnown : Word → Prop
  | .switch s _ => s ∈ switches
  | _ => True

theorem mem_of_named? {name : List Char} {s : Switch} (h : Switch.named? name = some s) : s ∈ switches :=
  List.mem_of_find?_eq_some h

theorem mem_of_completions {start : List Char} {entry : String × Switch} (h : entry ∈ completions start) :
    entry.2 ∈ switches := by
  obtain ⟨s, hs, h⟩ := List.mem_flatMap.mp h
  obtain ⟨name, -, rfl⟩ := List.mem_map.mp h
  exact hs

theorem longWord_known {text : List Char} {word : Word} (h : longWord text = .ok (some word)) :
    word.IsKnown := by
  unfold longWord at h
  dsimp only at h
  split at h
  · cases h
  · next name s hcompletions =>
    cases h
    have hmem : (name, s) ∈ completions _ := hcompletions ▸ List.mem_cons_self
    exact mem_of_completions hmem
  · cases h

theorem shortWord_known {text : List Char} {word : Word} (h : shortWord text = some word) :
    word.IsKnown := by
  obtain ⟨s, hs, rfl⟩ := Option.map_eq_some_iff.mp h
  exact mem_of_named? hs

theorem abbreviated_known {text : List Char} {word : Word}
    (h : dashedWord.abbreviated text = .ok (some word)) : word.IsKnown := by
  unfold dashedWord.abbreviated at h
  split at h
  · exact longWord_known h
  · exact shortWord_known (Except.ok.inj h)

theorem dashedWord_known {text : List Char} {word : Word} (h : dashedWord text = .ok word) :
    word.IsKnown := by
  -- A word that is no switch is a plain one or an unknown one.
  have unnamed : (if isNegativeNumber text || text.contains ' ' then pure (.plain (String.ofList text))
      else pure (.unknown (String.ofList text)) : Except Ending Word) = .ok word → word.IsKnown := by
    intro h
    split at h <;> (cases h; trivial)
  unfold dashedWord at h
  dsimp only at h
  split at h
  · split at h
    · next s hs =>
      cases h
      exact mem_of_named? hs
    · obtain ⟨found, hfound, h⟩ := bind_eq_ok.mp h
      cases found with
      | some found =>
        cases h
        exact abbreviated_known hfound
      | none => exact unnamed h
  · obtain ⟨found, hfound, h⟩ := bind_eq_ok.mp h
    cases found with
    | some found =>
      cases h
      exact abbreviated_known hfound
    | none => exact unnamed h

theorem ofText_known {text : String} {word : Word} (h : Word.ofText text = .ok word) : word.IsKnown := by
  unfold Word.ofText at h
  split at h
  · split at h
    · next s hs =>
      cases h
      exact mem_of_named? hs
    · exact dashedWord_known h
  · cases h
    trivial

theorem wordsOf_known {line : List String} {words : List Word} (h : wordsOf line = .ok words) :
    ∀ word ∈ words, word.IsKnown := by
  induction line generalizing words with
  | nil =>
    cases h
    exact fun word hmem => absurd hmem List.not_mem_nil
  | cons text rest ih =>
    unfold wordsOf at h
    split at h
    · cases h
      refine List.forall_mem_cons.mpr ⟨trivial, fun word hmem => ?_⟩
      obtain ⟨text, -, rfl⟩ := List.mem_map.mp hmem
      trivial
    · obtain ⟨word, hword, h⟩ := bind_eq_ok.mp h
      obtain ⟨others, hothers, h⟩ := bind_eq_ok.mp h
      cases h
      exact List.forall_mem_cons.mpr ⟨ofText_known hword, ih hothers⟩

/-! ### Readings -/

namespace Reading

/-- Every argument has a value of its kind, what waits for a value is a switch that takes one, and the
operands that are left are operands. -/
structure Typed (reading : Reading) : Prop where
  values : ∀ s ∈ switches, ∀ value, lookup (.text s.key) reading.arguments = some value → s.Takes value
  waits : ∀ s, reading.waiting = some s → s ∈ switches ∧ ∃ placeholder, s.effect = .value placeholder
  places : ∀ left, reading.run = .within left → ∀ operand ∈ left, operand ∈ operands

variable {reading reading' : Reading}

/-- A switch is known by its argument. -/
theorem eq_of_key : ∀ s ∈ switches, ∀ t ∈ switches, s.key = t.key → s = t := by decide

/-- No operand shares its argument with a switch. -/
theorem operand_key_ne : ∀ operand ∈ operands, ∀ s ∈ switches, s.key ≠ operand.key := by decide

theorem Typed.set (h : reading.Typed) {key : String} {value : Value}
    (hvalue : ∀ s ∈ switches, s.key = key → s.Takes value) : (reading.set key value).Typed := by
  refine ⟨fun s hs v hv => ?_, h.waits, h.places⟩
  change lookup (.text s.key) (assign (.text key) value reading.arguments) = some v at hv
  rw [lookup_assign] at hv
  by_cases hkey : s.key = key
  · rw [if_pos hkey] at hv
    obtain rfl := Option.some.inj hv
    exact hvalue s hs hkey
  · rw [if_neg hkey] at hv
    exact h.values s hs v hv

/-- A switch may be given a value of its kind. -/
theorem Typed.set_switch (h : reading.Typed) {s : Switch} (hs : s ∈ switches) {value : Value}
    (hvalue : s.Takes value) : (reading.set s.key value).Typed := by
  refine h.set fun t ht hkey => ?_
  obtain rfl := eq_of_key t ht s hs hkey
  exact hvalue

theorem Typed.leave (h : reading.Typed) (text : String) : (reading.leave text).Typed :=
  ⟨h.values, h.waits, h.places⟩

theorem Typed.endRun (h : reading.Typed) : reading.endRun.Typed := by
  unfold Reading.endRun
  split
  · exact ⟨h.values, h.waits, nofun⟩
  · exact h

theorem Typed.follow (h : reading.Typed) {s : Switch} (hs : s ∈ switches)
    (hfollow : reading.follow s = .ok reading') : reading'.Typed := by
  unfold Reading.follow at hfollow
  split at hfollow
  · cases hfollow
  · cases hfollow
  · next placeholder heffect =>
    cases hfollow
    refine ⟨h.values, fun t ht => ?_, h.places⟩
    obtain rfl := Option.some.inj ht
    exact ⟨hs, placeholder, heffect⟩
  · next heffect =>
    cases hfollow
    exact h.set_switch hs (by rw [Switch.Takes, heffect]; exact ⟨true, rfl⟩)
  · next heffect =>
    cases hfollow
    exact h.set_switch hs (by rw [Switch.Takes, heffect]; exact ⟨_, rfl⟩)

theorem bundle_known {s : Switch} {text : List Char} {all : List Switch} {left : Option String}
    (hs : s ∈ switches) (h : bundle s text = .ok (all, left)) : ∀ t ∈ all, t ∈ switches := by
  fun_induction bundle s text generalizing all left with
  | case1 s =>
    cases h
    exact List.forall_mem_singleton.mpr hs
  | case2 s value => cases h
  | case3 s rest => cases h
  | case4 s c rest hne hdash hnone =>
    cases h
    exact List.forall_mem_singleton.mpr hs
  | case5 s c rest hne hdash next hnext ih =>
    cases hrest : bundle next rest with
    | error e => rw [hrest] at h; cases h
    | ok result =>
      rw [hrest] at h
      cases h
      exact List.forall_mem_cons.mpr ⟨hs, ih (mem_of_named? hnext) hrest⟩

theorem Typed.foldlM_follow {all : List Switch} (h : reading.Typed) (hall : ∀ s ∈ all, s ∈ switches)
    (hfold : all.foldlM Reading.follow reading = .ok reading') : reading'.Typed := by
  induction all generalizing reading with
  | nil =>
    cases hfold
    exact h
  | cons s rest ih =>
    rw [List.forall_mem_cons] at hall
    rw [List.foldlM_cons] at hfold
    obtain ⟨between, hfollow, hfold⟩ := bind_eq_ok.mp hfold
    exact ih (h.follow hall.1 hfollow) hall.2 hfold

theorem Typed.readSwitch (h : reading.Typed) {s : Switch} {tail : Tail} (hs : s ∈ switches)
    (hread : reading.readSwitch s tail = .ok reading') : reading'.Typed := by
  unfold Reading.readSwitch at hread
  split at hread
  · next heffect =>
    cases hread
    exact h.set_switch hs (by rw [Switch.Takes, heffect]; exact Or.inr ⟨_, rfl⟩)
  · exact h.follow hs hread
  · cases hread
  · next text _ =>
    obtain ⟨⟨all, left⟩, hbundle, hread⟩ := bind_eq_ok.mp hread
    refine Typed.foldlM_follow ?_ (bundle_known hs hbundle) hread
    cases left with
    | none => exact h
    | some text => exact h.leave text

theorem Typed.place (h : reading.Typed) (text : String) {left : List Operand}
    (hleft : ∀ operand ∈ left, operand ∈ operands) : (readPlain.place reading text left).Typed := by
  cases left with
  | nil => exact ⟨h.values, h.waits, nofun⟩
  | cons operand left =>
    rw [List.forall_mem_cons] at hleft
    have hset : (reading.set operand.key (.text text)).Typed :=
      h.set fun s hs hkey => absurd hkey (operand_key_ne operand hleft.1 s hs)
    refine ⟨hset.values, hset.waits, fun others hothers => ?_⟩
    obtain rfl := Run.within.inj hothers
    exact hleft.2

theorem Typed.readPlain (h : reading.Typed) (text : String) : (reading.readPlain text).Typed := by
  unfold Reading.readPlain
  split
  · exact h.place text fun operand hmem => hmem
  · next left hrun =>
    have hleft := h.places left hrun
    split
    · refine ⟨h.values, h.waits, fun others hothers => ?_⟩
      obtain rfl := Run.within.inj hothers
      exact fun operand hmem => hleft operand (List.mem_of_mem_tail hmem)
    · exact h.place text hleft
  · exact h.leave text

/-- A word keeps all kinds. -/
theorem Typed.step (h : reading.Typed) {word : Word} (hword : word.IsKnown)
    (hstep : reading.step word = .ok reading') : reading'.Typed := by
  unfold Reading.step at hstep
  split at hstep
  · next s text hwaiting =>
    cases hstep
    obtain ⟨hs, placeholder, heffect⟩ := h.waits s hwaiting
    have hset : (reading.set s.key (.text text)).Typed :=
      h.set_switch hs (by rw [Switch.Takes, heffect]; exact Or.inr ⟨text, rfl⟩)
    exact ⟨hset.values, nofun, hset.places⟩
  · cases hstep
  · cases hstep
    exact h.readPlain _
  · exact h.endRun.readSwitch hword hstep
  · cases hstep
    exact h.endRun.leave _
  · cases hstep
    split
    · exact h.leave _
    · exact h

theorem Typed.steps {words : List Word} (h : reading.Typed) (hwords : ∀ word ∈ words, word.IsKnown)
    (hsteps : words.foldlM Reading.step reading = .ok reading') : reading'.Typed := by
  induction words generalizing reading with
  | nil =>
    cases hsteps
    exact h
  | cons word rest ih =>
    rw [List.forall_mem_cons] at hwords
    rw [List.foldlM_cons] at hsteps
    obtain ⟨between, hstep, hsteps⟩ := bind_eq_ok.mp hsteps
    exact ih (h.step hwords.1 hstep) hwords.2 hsteps

/-- What stands for the argument of a switch that is not there is of the kind of the switch. -/
theorem takes_absent {s : Switch} {value : Value} (h : s.absent = some value) : s.Takes value := by
  unfold Switch.absent at h
  unfold Switch.Takes
  split at h
  · cases h
  · cases h
  · next heffect =>
    rw [heffect]
    exact Or.inl (Option.some.inj h).symm
  · next heffect =>
    rw [heffect]
    exact ⟨false, (Option.some.inj h).symm⟩
  · next heffect =>
    rw [heffect]
    exact ⟨0, (Option.some.inj h).symm⟩

theorem typed_start : ({} : Reading).Typed := by
  refine ⟨fun s hs value hvalue => ?_, nofun, nofun⟩
  rcases List.mem_append.mp (mem_of_lookup hvalue) with hoperand | hswitch
  · obtain ⟨operand, hmem, heq⟩ := List.mem_map.mp hoperand
    have hkey : operand.key = s.key := Scalar.text.inj (Prod.mk.inj heq).1
    exact absurd hkey.symm (operand_key_ne operand hmem s hs)
  · obtain ⟨t, hmem, heq⟩ := List.mem_filterMap.mp hswitch
    obtain ⟨absent, habsent, heq⟩ := Option.map_eq_some_iff.mp heq
    obtain ⟨hkey, rfl⟩ := Prod.mk.inj heq
    obtain rfl := eq_of_key t hmem s hs (Scalar.text.inj hkey)
    exact takes_absent habsent

end Reading

/-- **An argument has a value of the kind of its switch.** -/
theorem takes_of_parse {line : List String} {arguments : Arguments} (h : parse line = .ok arguments) :
    ∀ s ∈ switches, ∀ value, lookup (.text s.key) arguments = some value → s.Takes value := by
  obtain ⟨words, hwords, h⟩ := bind_eq_ok.mp h
  obtain ⟨reading, hreading, h⟩ := bind_eq_ok.mp h
  have typed := Reading.typed_start.steps (wordsOf_known hwords) hreading
  unfold Reading.finish at h
  split at h
  · cases h
  · split at h
    · cases h
      exact typed.values
    · cases h

end WikiMigration.Command
