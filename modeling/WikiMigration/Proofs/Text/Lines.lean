/-
Cutting a text into lines undoes joining them, and a text that has nothing to trim is left alone.
-/
import Mathlib.Data.List.TakeWhile
import WikiMigration.Text.Lines

namespace WikiMigration.Text

variable {c separator : Char} {p : Char → Bool} {text piece rest : List Char} {pieces : List (List Char)}

/-- What holds of the characters of a text is decided along the text, not by a search among all characters. -/
instance (priority := high) decidableForallMem {p : Char → Prop} [DecidablePred p] (text : List Char) :
    Decidable (∀ c ∈ text, p c) :=
  List.decidableBAll p text

instance (priority := high) decidableForallEnd {p : Char → Prop} [DecidablePred p] (final : Option Char) :
    Decidable (∀ c ∈ final, p c) :=
  Option.decidableForallMem final

/-! ### Pieces -/

theorem splitAt_ne_nil (separator : Char) (text : List Char) : splitAt separator text ≠ [] := by
  fun_cases splitAt separator text <;> simp

theorem splitAt_of_not_mem (h : separator ∉ piece) : splitAt separator piece = [piece] := by
  induction piece with
  | nil => rfl
  | cons c rest ih =>
    rw [List.mem_cons, not_or] at h
    rw [splitAt, if_neg (by simpa using Ne.symm h.1), ih h.2]

theorem splitAt_append (h : separator ∉ piece) (rest : List Char) :
    splitAt separator (piece ++ separator :: rest) = piece :: splitAt separator rest := by
  induction piece with
  | nil => simp [splitAt]
  | cons c more ih =>
    rw [List.mem_cons, not_or] at h
    rw [List.cons_append, splitAt, if_neg (by simpa using Ne.symm h.1), ih h.2]

theorem joinWith_cons (mark piece : List Char) (h : pieces ≠ []) :
    joinWith mark (piece :: pieces) = piece ++ mark ++ joinWith mark pieces := by
  cases pieces with
  | nil => exact absurd rfl h
  | cons => rfl

theorem unlines_cons (piece : List Char) (h : pieces ≠ []) :
    unlines (piece :: pieces) = piece ++ '\n' :: unlines pieces := by
  rw [unlines, joinWith_cons _ _ h, List.append_assoc]
  rfl

theorem unlines_append {pieces' : List (List Char)} (h : pieces ≠ []) (h' : pieces' ≠ []) :
    unlines (pieces ++ pieces') = unlines pieces ++ '\n' :: unlines pieces' := by
  induction pieces with
  | nil => exact absurd rfl h
  | cons piece others ih =>
    by_cases hne : others = []
    · subst hne
      exact unlines_cons piece h'
    · rw [List.cons_append, unlines_cons piece (by simp [hne]), ih hne, unlines_cons piece hne,
        List.append_assoc, List.cons_append]

theorem unlines_concat_nil (h : pieces ≠ []) : unlines (pieces ++ [[]]) = unlines pieces ++ ['\n'] :=
  unlines_append h (by simp)

/-- Every line but the last has a line feed behind it. -/
theorem unlines_concat (pieces : List (List Char)) (last : List Char) :
    unlines (pieces ++ [last]) = pieces.flatMap (· ++ ['\n']) ++ last := by
  induction pieces with
  | nil => rfl
  | cons piece others ih =>
    rw [List.cons_append, unlines_cons piece (by simp), ih, List.flatMap_cons]
    simp

/-- Every line but the first has a line feed before it. -/
theorem unlines_cons_eq_flatMap (piece : List Char) (pieces : List (List Char)) :
    unlines (piece :: pieces) = piece ++ pieces.flatMap ('\n' :: ·) := by
  induction pieces generalizing piece with
  | nil => exact (List.append_nil piece).symm
  | cons next others ih => rw [unlines_cons piece (by simp), ih next, List.flatMap_cons, List.cons_append]

/-- Groups of lines are joined as the joined groups are. -/
theorem unlines_flatMap {α : Type} {parts : List α} {f : α → List (List Char)} (h : ∀ part ∈ parts, f part ≠ []) :
    unlines (parts.flatMap f) = unlines (parts.map fun part => unlines (f part)) := by
  induction parts with
  | nil => rfl
  | cons part others ih =>
    have hothers := ih fun other hother => h other (List.mem_cons_of_mem part hother)
    cases others with
    | nil => simp [unlines, joinWith]
    | cons next more =>
      have hnext : (next :: more).flatMap f ≠ [] := by simp [h next]
      rw [List.flatMap_cons, unlines_append (h part List.mem_cons_self) hnext, hothers]
      exact (unlines_cons _ (List.cons_ne_nil _ _)).symm

/-- Pieces that are joined are read back. -/
theorem splitAt_joinWith (hne : pieces ≠ []) (h : ∀ piece ∈ pieces, separator ∉ piece) :
    splitAt separator (joinWith [separator] pieces) = pieces := by
  induction pieces with
  | nil => exact absurd rfl hne
  | cons piece others ih =>
    have hpiece := h piece List.mem_cons_self
    by_cases hothers : others = []
    · subst hothers
      exact splitAt_of_not_mem hpiece
    · rw [joinWith_cons _ _ hothers, List.append_assoc, List.singleton_append, splitAt_append hpiece]
      exact congrArg (piece :: ·) (ih hothers fun other hother => h other (List.mem_cons_of_mem piece hother))

/-- The pieces of a text are joined to the text. -/
theorem joinWith_splitAt (separator : Char) (text : List Char) :
    joinWith [separator] (splitAt separator text) = text := by
  induction text with
  | nil => rfl
  | cons c rest ih =>
    obtain ⟨first, others, hsplit⟩ := List.exists_cons_of_ne_nil (splitAt_ne_nil separator rest)
    rw [hsplit] at ih
    rw [splitAt]
    split
    · next hc => rw [hsplit, joinWith_cons _ _ (by simp), ih, beq_iff_eq.mp hc, List.nil_append, List.singleton_append]
    · rw [hsplit]
      cases others with
      | nil => exact congrArg (c :: ·) ih
      | cons => exact congrArg (c :: ·) ih

/-- **Lines that are joined are read back.** -/
theorem lines_unlines (hne : pieces ≠ []) (h : ∀ piece ∈ pieces, '\n' ∉ piece) :
    lines (unlines pieces) = pieces := splitAt_joinWith hne h

/-- **The lines of a text are joined to the text.** -/
theorem unlines_lines (text : List Char) : unlines (lines text) = text := joinWith_splitAt '\n' text

theorem infix_unlines {xs : List (List Char)} {x : List Char} (h : x ∈ xs) : x <:+: unlines xs := by
  unfold unlines
  fun_induction joinWith ['\n'] xs with
  | case1 => cases h
  | case2 piece => exact List.mem_singleton.mp h ▸ List.infix_rfl
  | case3 piece others _ ih =>
    rcases List.mem_cons.mp h with rfl | h
    · exact ⟨[], _, by rw [List.nil_append, List.append_assoc]⟩
    · exact (ih h).trans (List.suffix_append _ _).isInfix

theorem mem_joinWith {mark : List Char} (h : c ∈ joinWith mark pieces) :
    c ∈ mark ∨ ∃ piece ∈ pieces, c ∈ piece := by
  fun_induction joinWith mark pieces with
  | case1 => cases h
  | case2 piece => exact Or.inr ⟨piece, List.mem_singleton_self piece, h⟩
  | case3 piece others _ ih =>
    rcases List.mem_append.mp h with h | h
    · rcases List.mem_append.mp h with h | h
      · exact Or.inr ⟨piece, List.mem_cons_self, h⟩
      · exact Or.inl h
    · exact (ih h).imp_right fun ⟨x, hx, hmem⟩ => ⟨x, List.mem_cons_of_mem piece hx, hmem⟩

theorem mem_unlines (hc : c ≠ '\n') (h : c ∈ unlines pieces) : ∃ piece ∈ pieces, c ∈ piece :=
  (mem_joinWith h).resolve_left (by simpa using hc)

theorem mem_of_mem_splitAt {separator : Char} {piece : List Char} (hpiece : piece ∈ splitAt separator text)
    (h : c ∈ piece) : c ∈ text := by
  induction text generalizing piece with
  | nil =>
    obtain rfl := List.mem_singleton.mp hpiece
    cases h
  | cons d rest ih =>
    rw [splitAt] at hpiece
    split at hpiece
    · rcases List.mem_cons.mp hpiece with rfl | hpiece
      · cases h
      · exact List.mem_cons_of_mem d (ih hpiece h)
    · cases hsplit : splitAt separator rest with
      | nil =>
        rw [hsplit] at hpiece
        obtain rfl := List.mem_singleton.mp hpiece
        exact List.mem_cons.mpr (Or.inl (List.mem_singleton.mp h))
      | cons first others =>
        rw [hsplit] at hpiece
        rcases List.mem_cons.mp hpiece with rfl | hpiece
        · rcases List.mem_cons.mp h with rfl | h
          · exact List.mem_cons_self
          · exact List.mem_cons_of_mem d (ih (hsplit ▸ List.mem_cons_self) h)
        · exact List.mem_cons_of_mem d (ih (hsplit ▸ List.mem_cons_of_mem first hpiece) h)

theorem not_mem_of_mem_splitAt (h : piece ∈ splitAt separator text) : separator ∉ piece := by
  induction text generalizing piece with
  | nil => simp_all [splitAt]
  | cons c rest ih =>
    rw [splitAt] at h
    split at h
    · rcases List.mem_cons.mp h with rfl | h
      · exact List.not_mem_nil
      · exact ih h
    · next hc =>
      have hc : separator ≠ c := fun heq => hc (by simp [heq])
      split at h
      · obtain rfl := List.mem_singleton.mp h
        simpa using hc
      · next first others heq =>
        rcases List.mem_cons.mp h with rfl | h
        · simpa [hc] using ih (heq ▸ List.mem_cons_self)
        · exact ih (heq ▸ List.mem_cons_of_mem first h)

/-- The lines behind a line feed are those of the text behind it. -/
theorem lines_append (text rest : List Char) : lines (text ++ '\n' :: rest) = lines text ++ lines rest := by
  induction text with
  | nil => rfl
  | cons c more ih =>
    obtain ⟨first, others, hsplit⟩ := List.exists_cons_of_ne_nil (splitAt_ne_nil '\n' more)
    have hmore : splitAt '\n' (more ++ '\n' :: rest) = first :: (others ++ splitAt '\n' rest) := by
      have hread := ih
      rwa [lines, lines, lines, hsplit] at hread
    rw [lines, List.cons_append, splitAt, hmore, lines, splitAt, hsplit]
    split <;> rfl

theorem normalizeNewlines_cons (h : c = '\r' → rest.head? ≠ some '\n') :
    normalizeNewlines (c :: rest) = (if c == '\r' then '\n' else c) :: normalizeNewlines rest := by
  rw [normalizeNewlines]
  intro more hc hrest
  exact h hc (by rw [hrest]; rfl)

/-- A text without carriage returns has its lines ended in one way only. -/
theorem normalizeNewlines_append (h : '\r' ∉ text) (rest : List Char) :
    normalizeNewlines (text ++ rest) = text ++ normalizeNewlines rest := by
  induction text with
  | nil => rfl
  | cons c more ih =>
    rw [List.mem_cons, not_or] at h
    rw [List.cons_append, normalizeNewlines_cons fun hc => absurd hc.symm h.1, ih h.2,
      if_neg (by simpa using Ne.symm h.1), List.cons_append]

theorem normalizeNewlines_eq_self (h : '\r' ∉ text) : normalizeNewlines text = text := by
  have happend := normalizeNewlines_append h []
  rwa [List.append_nil, normalizeNewlines, List.append_nil] at happend

theorem mem_of_mem_normalizeNewlines {c : Char} (hc : c ≠ '\n') (h : c ∈ normalizeNewlines text) :
    c ∈ text := by
  fun_induction normalizeNewlines text with
  | case1 => exact h
  | case2 rest ih =>
    have hrest := ih ((List.mem_cons.mp h).resolve_left hc)
    exact List.mem_cons_of_mem _ (List.mem_cons_of_mem _ hrest)
  | case3 d rest _ ih =>
    rcases List.mem_cons.mp h with heq | h
    · split at heq
      · exact absurd heq hc
      · exact heq ▸ List.mem_cons_self
    · exact List.mem_cons_of_mem d (ih h)

/-! ### Trimming -/

theorem mem_of_mem_trimRightWith (h : c ∈ trimRightWith p text) : c ∈ text :=
  List.mem_reverse.mp ((List.dropWhile_sublist _).subset (List.mem_reverse.mp h))

theorem mem_of_mem_trimRight (h : c ∈ trimRight text) : c ∈ text := mem_of_mem_trimRightWith h

theorem mem_of_mem_trimLeft (h : c ∈ trimLeft text) : c ∈ text := (List.dropWhile_sublist _).subset h

theorem mem_of_mem_trim (h : c ∈ trim text) : c ∈ text := mem_of_mem_trimLeft (mem_of_mem_trimRight h)

theorem mem_dropWhile (hc : p c = false) (h : c ∈ text) : c ∈ text.dropWhile p := by
  rw [← List.takeWhile_append_dropWhile (p := p) (l := text), List.mem_append] at h
  exact h.resolve_left fun hmem => by simp [List.mem_takeWhile_imp hmem] at hc

/-- Trimming takes only blanks away. -/
theorem mem_trim (hc : isBlank c = false) (h : c ∈ text) : c ∈ trim text :=
  List.mem_reverse.mpr (mem_dropWhile hc (List.mem_reverse.mpr (mem_dropWhile hc h)))

/-- Neither the first nor the last character of the text is of the class. -/
structure Trimmed (p : Char → Bool) (text : List Char) : Prop where
  head : ∀ c ∈ text.head?, p c = false
  last : ∀ c ∈ text.getLast?, p c = false

theorem trimmed_of_all (h : text.all (fun c => !p c) = true) : Trimmed p text := by
  have hnone : ∀ c ∈ text, p c = false := fun c hc => by simpa using List.all_eq_true.mp h c hc
  exact ⟨fun c hc => hnone c (List.mem_of_head? hc), fun c hc => hnone c (List.mem_of_getLast? hc)⟩

theorem not_mem_of_all {chars : List Char} (h : text.all (fun c => !chars.contains c) = true) (hc : c ∈ text) :
    c ∉ chars := by
  simpa using List.all_eq_true.mp h c hc

theorem trimLeftWith_eq_self (h : ∀ c ∈ text.head?, p c = false) : trimLeftWith p text = text := by
  cases text with
  | nil => rfl
  | cons c rest => exact List.dropWhile_cons_of_neg (by simp [h c rfl])

theorem trimRightWith_eq_self (h : ∀ c ∈ text.getLast?, p c = false) : trimRightWith p text = text := by
  have hreverse := @trimLeftWith_eq_self p text.reverse (by simpa using h)
  rw [trimRightWith, ← trimLeftWith, hreverse, List.reverse_reverse]

/-- A line feed behind a text goes with the blanks at its end. -/
theorem trimRight_feed (h : Trimmed isBlank text) : trimRight (text ++ ['\n']) = text := by
  have hself : trimRightWith isBlank text = text := trimRightWith_eq_self h.last
  rw [trimRightWith] at hself
  rw [trimRight, trimRightWith, List.reverse_append]
  exact (congrArg List.reverse (List.dropWhile_cons_of_pos (by decide))).trans hself

theorem Trimmed.trimWith_eq_self (h : Trimmed p text) : trimWith p text = text := by
  rw [trimWith, trimLeftWith_eq_self h.head, trimRightWith_eq_self h.last]

/-- Nothing is left of a text of blanks only. -/
theorem isEmpty_trimWith (p : Char → Bool) (text : List Char) : (trimWith p text).isEmpty = text.all p := by
  rw [Bool.eq_iff_iff, List.isEmpty_iff, trimWith, trimRightWith, List.reverse_eq_nil_iff,
    List.dropWhile_eq_nil_iff, List.all_eq_true]
  refine ⟨fun h c hc => ?_, fun h c hc => h c ((List.dropWhile_sublist _).subset (List.mem_reverse.mp hc))⟩
  have hnil : text.dropWhile p = [] := by
    cases hdrop : text.dropWhile p with
    | nil => rfl
    | cons d rest =>
      have hd : p d = true := h d (by rw [trimLeftWith, hdrop]; simp)
      have hstop := List.head?_dropWhile_not p text
      rw [hdrop, List.head?_cons] at hstop
      exact absurd hd (by simpa using hstop)
  exact List.dropWhile_eq_nil_iff.mp hnil c hc

/-- Trimming stops inside the last part that has something left. -/
theorem trimRightWith_append (h : ∃ c ∈ rest, p c = false) (text : List Char) :
    trimRightWith p (text ++ rest) = text ++ trimRightWith p rest := by
  obtain ⟨c, hc, hkept⟩ := h
  have hne : (rest.reverse.dropWhile p).isEmpty = false := by
    rw [List.isEmpty_eq_false_iff]
    intro hnil
    have hall := List.dropWhile_eq_nil_iff.mp hnil c (List.mem_reverse.mpr hc)
    exact Bool.false_ne_true (hkept.symm.trans hall)
  rw [trimRightWith, List.reverse_append, List.dropWhile_append, hne, if_neg (by decide), List.reverse_append,
    List.reverse_reverse, trimRightWith]

/-- What a smaller class takes off the end, a larger one takes off too. -/
theorem trimRightWith_trimRightWith {q : Char → Bool} (h : ∀ c, q c = true → p c = true) (text : List Char) :
    trimRightWith p (trimRightWith q text) = trimRightWith p text := by
  have hdrop : ∀ cs : List Char, (cs.dropWhile q).dropWhile p = cs.dropWhile p := by
    intro cs
    induction cs with
    | nil => rfl
    | cons c cs ih =>
      by_cases hc : q c = true
      · rw [List.dropWhile_cons_of_pos hc, List.dropWhile_cons_of_pos (h c hc), ih]
      · rw [List.dropWhile_cons_of_neg hc]
  rw [trimRightWith, trimRightWith, List.reverse_reverse, hdrop, trimRightWith]

/-- What is trimmed at its end does not end in a character of the class. -/
theorem last_trimRightWith (p : Char → Bool) (text : List Char) : ∀ c ∈ (trimRightWith p text).getLast?, p c = false := by
  intro c hc
  rw [trimRightWith, Option.mem_def, List.getLast?_reverse] at hc
  have hstop := List.head?_dropWhile_not p text.reverse
  rw [hc] at hstop
  simpa using hstop

theorem trimmed_trimWith (p : Char → Bool) (text : List Char) : Trimmed p (trimWith p text) where
  head := by
    intro c hc
    have hprefix : trimWith p text <+: text.dropWhile p := by
      rw [← List.reverse_suffix, trimWith, trimRightWith, List.reverse_reverse]
      exact List.dropWhile_suffix p
    obtain ⟨more, hmore⟩ := hprefix
    have hstop := List.head?_dropWhile_not p text
    rw [← hmore, List.head?_append, Option.mem_def.mp hc, Option.some_or] at hstop
    simpa using hstop
  last := last_trimRightWith p _

/-- Trimming at the end first makes no difference. -/
theorem trimWith_trimRightWith (p : Char → Bool) (text : List Char) :
    trimWith p (trimRightWith p text) = trimWith p text := by
  by_cases hall : text.all p = true
  · have hshort : (trimRightWith p text).all p = true :=
      List.all_eq_true.mpr fun c hc => List.all_eq_true.mp hall c (mem_of_mem_trimRightWith hc)
    rw [← isEmpty_trimWith, List.isEmpty_iff] at hall hshort
    rw [hall, hshort]
  · obtain ⟨c, hc, hkept⟩ : ∃ c ∈ text, p c = false := by simpa using hall
    have hfront : ∀ d ∈ text.takeWhile p, p d = true := fun d => List.mem_takeWhile_imp
    have hcore := trimRightWith_append ⟨c, mem_dropWhile hkept hc, hkept⟩ (text.takeWhile p)
    rw [List.takeWhile_append_dropWhile] at hcore
    -- The blanks at the front are still there, and what is behind them is the trimmed text.
    have hself : trimLeftWith p (trimRightWith p (text.dropWhile p)) = trimRightWith p (text.dropWhile p) :=
      trimLeftWith_eq_self (trimmed_trimWith p text).head
    rw [trimWith, hcore, trimLeftWith, List.dropWhile_append_of_pos hfront, ← trimLeftWith, hself,
      trimRightWith_trimRightWith fun _ h => h, trimWith, trimLeftWith]

theorem Trimmed.around {text' : List Char} (h : Trimmed p text) (h' : Trimmed p text') (hne : text ≠ [])
    (hne' : text' ≠ []) (mark : List Char) : Trimmed p (text ++ mark ++ text') := by
  refine ⟨fun c hc => h.head c ?_, fun c hc => h'.last c ?_⟩
  · obtain ⟨d, rest, rfl⟩ := List.exists_cons_of_ne_nil hne
    exact hc
  · rwa [List.getLast?_append, List.getLast?_eq_some_getLast hne', Option.some_or,
      ← List.getLast?_eq_some_getLast hne'] at hc

theorem Trimmed.mono {q : Char → Bool} (h : Trimmed p text) (himp : ∀ c, q c = true → p c = true) :
    Trimmed q text :=
  ⟨fun c hc => Bool.eq_false_iff.mpr fun hq => Bool.false_ne_true ((h.head c hc).symm.trans (himp c hq)),
    fun c hc => Bool.eq_false_iff.mpr fun hq => Bool.false_ne_true ((h.last c hc).symm.trans (himp c hq))⟩

/-- Pieces that need no trimming are joined to a text that needs none. -/
theorem trimmed_joinWith (mark : List Char) (hne : pieces ≠ [])
    (h : ∀ piece ∈ pieces, piece ≠ [] ∧ Trimmed p piece) :
    joinWith mark pieces ≠ [] ∧ Trimmed p (joinWith mark pieces) := by
  induction pieces with
  | nil => exact absurd rfl hne
  | cons piece rest ih =>
    obtain ⟨hfilled, htrimmed⟩ := h piece List.mem_cons_self
    by_cases hrest : rest = []
    · subst hrest
      exact ⟨hfilled, htrimmed⟩
    · obtain ⟨hfilled', htrimmed'⟩ := ih hrest fun other hother => h other (List.mem_cons_of_mem piece hother)
      rw [joinWith_cons _ _ hrest]
      exact ⟨by simp [hfilled], htrimmed.around htrimmed' hfilled hfilled' mark⟩

/-! ### Runs at the front -/

theorem take_takeWhile {α : Type} (p : α → Bool) (xs : List α) : xs.take (xs.takeWhile p).length = xs.takeWhile p :=
  (List.prefix_iff_eq_take.mp (List.takeWhile_prefix p)).symm

theorem drop_takeWhile {α : Type} (p : α → Bool) (xs : List α) :
    xs.drop (xs.takeWhile p).length = xs.dropWhile p := by
  calc xs.drop (xs.takeWhile p).length
      = (xs.takeWhile p ++ xs.dropWhile p).drop (xs.takeWhile p).length := by
        rw [List.takeWhile_append_dropWhile]
    _ = xs.dropWhile p := List.drop_left

section Front

variable {α : Type} {p : α → Bool} {front rest : List α}

/-- A run ends before the first element that is not of its class. -/
theorem takeWhile_front (hfront : ∀ a ∈ front, p a = true) (hrest : ∀ a ∈ rest.head?, p a = false) :
    (front ++ rest).takeWhile p = front := by
  rw [List.takeWhile_append_of_pos hfront]
  cases rest with
  | nil => simp
  | cons a more => rw [List.takeWhile_cons_of_neg (by simp [hrest a rfl]), List.append_nil]

theorem dropWhile_front (hfront : ∀ a ∈ front, p a = true) (hrest : ∀ a ∈ rest.head?, p a = false) :
    (front ++ rest).dropWhile p = rest := by
  rw [List.dropWhile_append_of_pos hfront]
  cases rest with
  | nil => rfl
  | cons a more => exact List.dropWhile_cons_of_neg (by simp [hrest a rfl])

end Front

/-! ### The ends of texts -/

theorem after?_eq_some {opening text rest : List Char} :
    after? opening text = some rest ↔ text = opening ++ rest := by
  induction opening generalizing text with
  | nil => simp [after?, eq_comm]
  | cons o opening ih =>
    cases text with
    | nil => simp [after?]
    | cons c text =>
      by_cases h : o = c
      · subst h
        simp [after?, ih]
      · simp [after?, h, Ne.symm h]

theorem startsWith_iff {opening text : List Char} :
    startsWith opening text = true ↔ opening <+: text := by
  rw [startsWith, Option.isSome_iff_exists]
  constructor
  · rintro ⟨rest, h⟩
    exact ⟨rest, (after?_eq_some.mp h).symm⟩
  · rintro ⟨rest, h⟩
    exact ⟨rest, after?_eq_some.mpr h.symm⟩

theorem endsWith_iff {ending text : List Char} : endsWith ending text = true ↔ ending <:+ text := by
  rw [endsWith, startsWith_iff]
  exact List.reverse_prefix

theorem cut?_eq_some {mark before behind : List Char} (h : cut? mark text = some (before, behind)) :
    text = before ++ mark ++ behind := by
  induction text generalizing before with
  | nil =>
    rw [cut?] at h
    split at h
    next hempty =>
      obtain ⟨rfl, rfl⟩ := Prod.mk.inj (Option.some.inj h)
      rw [List.isEmpty_iff.mp hempty]
      rfl
    next => cases h
  | cons c rest ih =>
    rw [cut?] at h
    split at h
    next found hfound =>
      obtain ⟨rfl, rfl⟩ := Prod.mk.inj (Option.some.inj h)
      exact after?_eq_some.mp hfound
    next =>
      obtain ⟨⟨front, back⟩, hcut, heq⟩ := Option.map_eq_some_iff.mp h
      obtain ⟨rfl, rfl⟩ := Prod.mk.inj heq
      rw [ih hcut]
      rfl

/-- A text is cut at the first of the characters that are marks. -/
theorem cut?_append {mark : Char} {front : List Char} (h : mark ∉ front) (rest : List Char) :
    cut? [mark] (front ++ mark :: rest) = some (front, rest) := by
  induction front with
  | nil => simp [cut?, after?]
  | cons c more ih =>
    rw [List.mem_cons, not_or] at h
    rw [List.cons_append, cut?, after?, if_neg (by simpa using h.1), ih h.2]
    rfl

theorem hasInfix_iff {mark text : List Char} : hasInfix mark text = true ↔ mark <:+: text := by
  rw [hasInfix, Option.isSome_iff_exists]
  constructor
  · rintro ⟨⟨before, behind⟩, h⟩
    exact ⟨before, behind, (cut?_eq_some h).symm⟩
  · intro h
    induction text with
    | nil =>
      obtain rfl := List.infix_nil.mp h
      exact ⟨_, rfl⟩
    | cons c rest ih =>
      rw [cut?]
      cases hafter : after? mark (c :: rest) with
      | some behind => exact ⟨_, rfl⟩
      | none =>
        rcases List.infix_cons_iff.mp h with ⟨behind, hprefix⟩ | hinfix
        · rw [after?_eq_some.mpr hprefix.symm] at hafter
          cases hafter
        · obtain ⟨found, hfound⟩ := ih hinfix
          rw [hfound]
          exact ⟨_, rfl⟩

theorem cut?_eq_none {mark text : List Char} : cut? mark text = none ↔ ¬mark <:+: text := by
  rw [← hasInfix_iff, hasInfix, Bool.not_eq_true, Option.isSome_eq_false_iff, Option.isNone_iff_eq_none]

end WikiMigration.Text
