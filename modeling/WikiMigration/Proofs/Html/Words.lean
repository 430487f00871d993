/-
The words of a text.

A blank between two texts keeps their words apart, so the words of a text are those of its lines, one line
after the other, and words with single spaces between them are read back as they were.
-/
import WikiMigration.Html.Node
import WikiMigration.Proofs.Text.Lines

namespace WikiMigration.Html

open Text

variable {c : Char} {text line word : List Char} {pieces : List (List Char)}

/-! ### Reading words -/

/-- Something, and no blank in it. -/
structure IsWord (word : List Char) : Prop where
  ne_nil : word ≠ []
  solid : ∀ c ∈ word, isBlank c = false

/-- The characters of a word are read into the word. -/
theorem wordsFrom_append (read : List Char) (h : ∀ c ∈ word, isBlank c = false) (rest : List Char) :
    wordsFrom read (word ++ rest) = wordsFrom (word.reverse ++ read) rest := by
  induction word generalizing read with
  | nil => rfl
  | cons c more ih =>
    rw [List.cons_append, wordsFrom, if_neg (by simp [h c List.mem_cons_self]),
      ih _ fun d hd => h d (List.mem_cons_of_mem c hd)]
    simp

/-- A blank ends the word before it. -/
theorem wordsFrom_blank (read : List Char) (hc : isBlank c = true) (rest : List Char) :
    wordsFrom read (c :: rest) = wordsFrom read [] ++ words rest := by
  conv => lhs; rw [wordsFrom, if_pos hc]
  rfl

/-- A blank keeps the words before it and those behind it apart. -/
theorem wordsFrom_append_blank (read text : List Char) (hc : isBlank c = true) (rest : List Char) :
    wordsFrom read (text ++ c :: rest) = wordsFrom read text ++ words rest := by
  induction text generalizing read with
  | nil => exact wordsFrom_blank read hc rest
  | cons d more ih =>
    rw [List.cons_append, wordsFrom, wordsFrom]
    split
    · rw [ih, List.append_assoc]
    · exact ih _

theorem words_append_blank (text : List Char) (hc : isBlank c = true) (rest : List Char) :
    words (text ++ c :: rest) = words text ++ words rest :=
  wordsFrom_append_blank [] text hc rest

theorem isWord_of_mem_wordsFrom {read : List Char} (hread : ∀ c ∈ read, isBlank c = false)
    (h : word ∈ wordsFrom read text) : IsWord word := by
  have hword : ∀ read : List Char, (∀ c ∈ read, isBlank c = false) →
      word ∈ (if read.isEmpty then [] else [read.reverse]) → IsWord word := by
    intro read hread hmem
    split at hmem
    · cases hmem
    · next hne =>
      obtain rfl := List.mem_singleton.mp hmem
      exact ⟨by simpa using hne, fun c hc => hread c (List.mem_reverse.mp hc)⟩
  induction text generalizing read with
  | nil => exact hword read hread h
  | cons c rest ih =>
    rw [wordsFrom] at h
    split at h
    · rcases List.mem_append.mp h with h | h
      · exact hword read hread h
      · exact ih (by simp) h
    · next hc =>
      exact ih (fun d hd => (List.mem_cons.mp hd).elim (fun heq => by simpa [heq] using hc) (hread d)) h

theorem isWord_of_mem_words (h : word ∈ words text) : IsWord word := isWord_of_mem_wordsFrom (by simp) h

theorem mem_of_mem_wordsFrom {read : List Char} (h : word ∈ wordsFrom read text) (hc : c ∈ word) :
    c ∈ read ∨ c ∈ text := by
  have hword : ∀ read : List Char, word ∈ (if read.isEmpty then [] else [read.reverse]) → c ∈ read := by
    intro read hmem
    split at hmem
    · cases hmem
    · exact List.mem_reverse.mp (List.mem_singleton.mp hmem ▸ hc)
  induction text generalizing read with
  | nil => exact Or.inl (hword read h)
  | cons d rest ih =>
    rw [wordsFrom] at h
    split at h
    · rcases List.mem_append.mp h with h | h
      · exact Or.inl (hword read h)
      · exact Or.inr (List.mem_cons_of_mem d ((ih h).resolve_left List.not_mem_nil))
    · rcases ih h with hread | hrest
      · rcases List.mem_cons.mp hread with rfl | hread
        · exact Or.inr List.mem_cons_self
        · exact Or.inl hread
      · exact Or.inr (List.mem_cons_of_mem d hrest)

/-- The first word that is read starts with what has been read. -/
theorem exists_wordsFrom {read : List Char} (hread : read ≠ []) (text : List Char) :
    ∃ more rest, wordsFrom read text = (read.reverse ++ more) :: rest := by
  induction text generalizing read with
  | nil => exact ⟨[], [], by simp [wordsFrom, hread]⟩
  | cons c text ih =>
    rw [wordsFrom]
    split
    · exact ⟨[], wordsFrom [] text, by simp [hread]⟩
    · obtain ⟨more, rest, heq⟩ := ih (List.cons_ne_nil c read)
      exact ⟨c :: more, rest, by rw [heq]; simp⟩

/-- The first word starts with the first character that is no blank. -/
theorem exists_words (h : isBlankText text = false) :
    ∃ first more rest,
      (text.dropWhile isBlank).head? = some first ∧ words text = (first :: more) :: rest := by
  induction text with
  | nil => cases h
  | cons c text ih =>
    by_cases hc : isBlank c = true
    · obtain ⟨first, more, rest, hhead, hwords⟩ := ih (by simpa [isBlankText, hc] using h)
      refine ⟨first, more, rest, by rwa [List.dropWhile_cons_of_pos hc], ?_⟩
      rw [words, wordsFrom_blank [] hc, hwords]
      rfl
    · obtain ⟨more, rest, heq⟩ := exists_wordsFrom (List.cons_ne_nil c []) text
      refine ⟨c, more, rest, by rw [List.dropWhile_cons_of_neg hc]; rfl, ?_⟩
      rw [words, wordsFrom, if_neg hc, heq]
      rfl

theorem words_ne_nil (h : isBlankText text = false) : words text ≠ [] := by
  obtain ⟨first, more, rest, -, hwords⟩ := exists_words h
  rw [hwords]
  exact List.cons_ne_nil _ _

theorem words_of_blank (h : isBlankText text = true) : words text = [] := by
  induction text with
  | nil => rfl
  | cons c text ih =>
    have hblank : isBlank c = true ∧ isBlankText text = true := by simpa [isBlankText] using h
    rw [words, wordsFrom_blank [] hblank.1, ih hblank.2]
    rfl

/-- **The words of a text are those of its lines.** -/
theorem words_unlines (pieces : List (List Char)) : words (unlines pieces) = pieces.flatMap words := by
  induction pieces with
  | nil => rfl
  | cons piece rest ih =>
    by_cases hrest : rest = []
    · subst hrest
      simp [unlines, joinWith]
    · rw [unlines_cons piece hrest, words_append_blank piece (by decide), ih, List.flatMap_cons]

/-! ### Writing words -/

/-- Words with single spaces between them are read back. -/
theorem words_unwords (h : ∀ piece ∈ pieces, IsWord piece) : words (unwords pieces) = pieces := by
  induction pieces with
  | nil => rfl
  | cons piece rest ih =>
    have hpiece := h piece List.mem_cons_self
    have hword : words piece = [piece] := by
      have hread := wordsFrom_append [] hpiece.solid []
      simp only [List.append_nil] at hread
      rw [words, hread, wordsFrom, if_neg (by simp [hpiece.ne_nil]), List.reverse_reverse]
    by_cases hrest : rest = []
    · subst hrest
      exact hword
    · rw [unwords, joinWith_cons _ _ hrest, List.append_assoc, List.singleton_append,
        words_append_blank piece (by decide), hword, ← unwords,
        ih fun w hw => h w (List.mem_cons_of_mem piece hw)]
      rfl

theorem words_unwords_words (text : List Char) : words (unwords (words text)) = words text :=
  words_unwords fun _ hword => isWord_of_mem_words hword

theorem mem_of_mem_unwords (h : c ∈ unwords (words text)) : c = ' ' ∨ c ∈ text := by
  rcases mem_joinWith h with h | ⟨word, hword, hc⟩
  · exact Or.inl (List.mem_singleton.mp h)
  · exact Or.inr ((mem_of_mem_wordsFrom hword hc).resolve_left List.not_mem_nil)

/-- Words with single spaces between them neither start nor end with a blank. -/
theorem trimmed_unwords (hne : pieces ≠ []) (h : ∀ piece ∈ pieces, IsWord piece) :
    unwords pieces ≠ [] ∧ Trimmed isBlank (unwords pieces) :=
  trimmed_joinWith [' '] hne fun piece hpiece =>
    ⟨(h piece hpiece).ne_nil, trimmed_of_all (by simpa using (h piece hpiece).solid)⟩

/-- No two spaces follow each other where a word ends. -/
theorem not_double_append {rest : List Char} (h : ∀ c ∈ word, isBlank c = false) (hhead : rest.head? ≠ some ' ')
    (hrest : ¬ [' ', ' '] <:+: rest) : ¬ [' ', ' '] <:+: word ++ ' ' :: rest := by
  induction word with
  | nil =>
    rw [List.nil_append, List.infix_cons_iff, not_or]
    refine ⟨fun hdouble => ?_, hrest⟩
    obtain ⟨more, rfl⟩ := (List.cons_prefix_cons.mp hdouble).2
    exact hhead rfl
  | cons c more ih =>
    rw [List.cons_append, List.infix_cons_iff, not_or]
    refine ⟨fun hdouble => ?_, ih fun d hd => h d (List.mem_cons_of_mem c hd)⟩
    have hc := h c List.mem_cons_self
    rw [← (List.cons_prefix_cons.mp hdouble).1] at hc
    exact absurd hc (by decide)

/-- The spaces between words are single ones. -/
theorem single_unwords (h : ∀ piece ∈ pieces, IsWord piece) : ¬ [' ', ' '] <:+: unwords pieces := by
  induction pieces with
  | nil => exact fun hdouble => absurd hdouble.length_le (by decide)
  | cons piece rest ih =>
    rw [List.forall_mem_cons] at h
    by_cases hrest : rest = []
    · subst hrest
      intro hdouble
      have hspace := h.1.solid ' ' (hdouble.subset List.mem_cons_self)
      exact absurd hspace (by decide)
    · rw [unwords, joinWith_cons _ _ hrest, List.append_assoc, List.singleton_append, ← unwords]
      refine not_double_append h.1.solid (fun hhead => ?_) (ih h.2)
      exact absurd ((trimmed_unwords hrest h.2).2.head ' ' hhead) (by decide)

end WikiMigration.Html
