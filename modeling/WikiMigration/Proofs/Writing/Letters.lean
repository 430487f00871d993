/-
Prose of a wiki page, letter by letter.

Prose is made literal by replacements that are made one after the other, each over the whole text.  Together
they write every character in one of three ways: as it is, behind a tilde, or twice.  Which of them it is can
be told from the character and its neighbours.  So the text can be escaped in one pass, and two marks that
mean something together never stand side by side as they are.
-/
import Mathlib.Data.List.Basic
import WikiMigration.Proofs.Text.Lines
import WikiMigration.Wiki.Inline
import WikiMigration.Writing.Escape

namespace WikiMigration.Writing

open Text
open Wiki (isEscapable)

variable {c d m : Char} {mark replacement text rest : List Char}

/-! ### Replacing -/

/-- Characters that are passed over might as well not be there. -/
theorem replaceFrom_eq (mark replacement : List Char) (skip : Nat) (text : List Char) :
    replaceFrom mark replacement skip text = replaceAll mark replacement (text.drop skip) := by
  induction skip generalizing text with
  | zero => rfl
  | succ skip ih =>
    cases text with
    | nil => rfl
    | cons c rest => exact ih rest

theorem replaceAll_found (hne : mark ≠ []) (rest : List Char) :
    replaceAll mark replacement (mark ++ rest) = replacement ++ replaceAll mark replacement rest := by
  obtain ⟨m, more, rfl⟩ := List.exists_cons_of_ne_nil hne
  have hstarts : startsWith (m :: more) (m :: (more ++ rest)) = true :=
    startsWith_iff.mpr (List.prefix_append (m :: more) rest)
  rw [List.cons_append, replaceAll, replaceFrom, if_pos hstarts, replaceFrom_eq]
  simp

theorem replaceAll_kept (h : ¬ mark <+: c :: rest) :
    replaceAll mark replacement (c :: rest) = c :: replaceAll mark replacement rest := by
  rw [replaceAll, replaceFrom, if_neg fun hstarts => h (startsWith_iff.mp hstarts), replaceAll]

theorem replaceAll_of_ne (h : c ≠ m) (more : List Char) :
    replaceAll (m :: more) replacement (c :: rest) = c :: replaceAll (m :: more) replacement rest :=
  replaceAll_kept fun hprefix => h (List.cons_prefix_cons.mp hprefix).1.symm

theorem replaceAll_of_not_mem (h : m ∉ text) (more : List Char) : replaceAll (m :: more) replacement text = text := by
  induction text with
  | nil => rfl
  | cons c rest ih =>
    rw [List.mem_cons, not_or] at h
    rw [replaceAll_of_ne (Ne.symm h.1), ih h.2]

/-- Without the characters that marks start with nothing is escaped. -/
theorem escapeWiki_eq_self (h : ∀ m ∈ "~[_'\x7b\\".toList, m ∉ text) : escapeWiki text = text := by
  have hkept : ∀ {m : Char} {more replacement : List Char}, m ∈ "~[_'\x7b\\".toList →
      replaceAll (m :: more) replacement text = text := fun hm => replaceAll_of_not_mem (h _ hm) _
  show replaceAll ['\\', '\\'] _ (replaceAll ['\x7b', '\x7b'] _ (replaceAll ['\'', '\''] _
    (replaceAll ['_', '_'] _ (replaceAll ['['] _ (replaceAll ['~'] _ text))))) = text
  rw [hkept (by decide), hkept (by decide), hkept (by decide), hkept (by decide), hkept (by decide), hkept (by decide)]

/-- No character is lost where the replacement has those of the mark. -/
theorem mem_replaceAll (hne : mark ≠ []) (hkept : ∀ d ∈ mark, d ∈ replacement) (h : c ∈ text) :
    c ∈ replaceAll mark replacement text := by
  have hpos := List.length_pos_of_ne_nil hne
  induction hn : text.length using Nat.strong_induction_on generalizing text with
  | _ n ih =>
    by_cases hstarts : mark <+: text
    · obtain ⟨rest, rfl⟩ := hstarts
      rw [List.length_append] at hn
      rw [replaceAll_found hne]
      rcases List.mem_append.mp h with h | h
      · exact List.mem_append_left _ (hkept c h)
      · exact List.mem_append_right _ (ih rest.length (by omega) h rfl)
    · cases text with
      | nil => cases h
      | cons d rest =>
        rw [List.length_cons] at hn
        rw [replaceAll_kept hstarts]
        rcases List.mem_cons.mp h with rfl | h
        · exact List.mem_cons_self
        · exact List.mem_cons_of_mem d (ih rest.length (by omega) h rfl)

/-- Every occurrence of one character is replaced. -/
theorem replaceAll_char (m : Char) (replacement text : List Char) :
    replaceAll [m] replacement text = text.flatMap fun c => if c = m then replacement else [c] := by
  induction text with
  | nil => rfl
  | cons c rest ih =>
    rw [List.flatMap_cons, ← ih]
    by_cases hc : c = m
    · subst hc
      rw [if_pos rfl]
      exact replaceAll_found (by simp) rest
    · rw [if_neg hc]
      exact replaceAll_of_ne hc []

/-! ### Doubled marks -/

/-- The characters that mean something when they stand twice. -/
def pairedMarks : List Char := ['_', '\'', '\x7b', '\\']

/-- The text with a tilde before each character of a doubled mark. -/
def escapePair (m : Char) (text : List Char) : List Char := replaceAll [m, m] ['~', m, '~', m] text

/-- The text with all the doubled marks made literal, one mark after the other. -/
def escapePairs (marks : List Char) (text : List Char) : List Char :=
  marks.foldl (fun text m => escapePair m text) text

theorem escapePair_single (h : rest.head? ≠ some m) : escapePair m (m :: rest) = m :: escapePair m rest := by
  refine replaceAll_kept fun hprefix => h ?_
  obtain ⟨behind, rfl⟩ := (List.cons_prefix_cons.mp hprefix).2
  rfl

/-- A text comes to start with a tilde at most. -/
theorem head?_escapePair (hd : d ≠ '~') (h : (escapePair m text).head? = some d) : text.head? = some d := by
  cases text with
  | nil => exact h
  | cons c rest =>
    by_cases hpair : [m, m] <+: c :: rest
    · obtain ⟨behind, heq⟩ := hpair
      rw [← heq, escapePair, replaceAll_found (by simp)] at h
      exact absurd (Option.some.inj h).symm hd
    · rw [escapePair, replaceAll_kept hpair] at h
      exact h

theorem escapePairs_cons {marks : List Char} (h : c ∉ marks) :
    escapePairs marks (c :: text) = c :: escapePairs marks text := by
  induction marks generalizing text with
  | nil => rfl
  | cons m marks ih =>
    rw [List.mem_cons, not_or] at h
    show escapePairs marks (escapePair m (c :: text)) = c :: escapePairs marks (escapePair m text)
    rw [escapePair, replaceAll_of_ne h.1, ← escapePair, ih h.2]

/-- A character is left alone if another one stands behind it. -/
theorem escapePairs_single (marks : List Char) (hc : c ≠ '~') (h : text.head? ≠ some c) :
    escapePairs marks (c :: text) = c :: escapePairs marks text := by
  induction marks generalizing text with
  | nil => rfl
  | cons m marks ih =>
    have hstep : escapePair m (c :: text) = c :: escapePair m text := by
      by_cases hm : c = m
      · subst hm
        exact escapePair_single h
      · exact replaceAll_of_ne hm [m]
    show escapePairs marks (escapePair m (c :: text)) = c :: escapePairs marks (escapePair m text)
    rw [hstep]
    exact ih fun hhead => h (head?_escapePair hc hhead)

theorem escapePairs_pair {marks : List Char} (hm : m ∈ marks) (hnodup : marks.Nodup) (htilde : '~' ∉ marks) :
    escapePairs marks (m :: m :: text) = ['~', m, '~', m] ++ escapePairs marks text := by
  induction marks generalizing text with
  | nil => cases hm
  | cons k marks ih =>
    rw [List.mem_cons, not_or] at htilde
    obtain ⟨hk, hmarks⟩ := List.nodup_cons.mp hnodup
    show escapePairs marks (escapePair k (m :: m :: text)) = _ ++ escapePairs marks (escapePair k text)
    by_cases hkm : m = k
    · subst hkm
      have hpair : escapePair m (m :: m :: text) = ['~', m, '~', m] ++ escapePair m text :=
        @replaceAll_found [m, m] _ (by simp) text
      rw [hpair]
      show escapePairs marks ('~' :: m :: '~' :: m :: escapePair m text) = _
      rw [escapePairs_cons htilde.2, escapePairs_cons hk, escapePairs_cons htilde.2, escapePairs_cons hk]
      rfl
    · have hpass : escapePair k (m :: m :: text) = m :: m :: escapePair k text := by
        rw [escapePair, replaceAll_of_ne hkm, replaceAll_of_ne hkm, escapePair]
      rw [hpass]
      exact ih ((List.mem_cons.mp hm).resolve_left hkm) hmarks htilde.2

/-- The text with its tildes and opening brackets doubled. -/
def escapeSingles (text : List Char) : List Char :=
  text.flatMap fun c => if c = '~' then ['~', '~'] else if c = '[' then ['[', '['] else [c]

theorem escapeWiki_eq_pairs (text : List Char) : escapeWiki text = escapePairs pairedMarks (escapeSingles text) := by
  have hsingles : replaceAll ['['] "[[".toList (replaceAll ['~'] "~~".toList text) = escapeSingles text := by
    rw [replaceAll_char, replaceAll_char, List.flatMap_assoc, escapeSingles]
    refine List.flatMap_congr fun c _ => ?_
    by_cases htilde : c = '~'
    · subst htilde
      decide
    · rw [if_neg htilde, if_neg htilde, List.flatMap_singleton]
      rfl
  rw [← hsingles]
  rfl

theorem head?_escapeSingles (text : List Char) : (escapeSingles text).head? = text.head? := by
  cases text with
  | nil => rfl
  | cons c rest =>
    rw [escapeSingles, List.flatMap_cons]
    by_cases htilde : c = '~'
    · rw [if_pos htilde, htilde]
      rfl
    by_cases hbracket : c = '['
    · rw [if_neg htilde, if_pos hbracket, hbracket]
      rfl
    · rw [if_neg htilde, if_neg hbracket]
      rfl

/-! ### Letters -/

/-- The ways to write a character. -/
inductive Spelling where
  | plain
  | tilde
  | twice
  deriving DecidableEq, Repr

/-- A character and the way it is written. -/
structure Letter where
  char : Char
  spelling : Spelling
  deriving DecidableEq, Repr

/-- A letter as it is written. -/
def Letter.written (letter : Letter) : List Char :=
  match letter.spelling with
  | .plain => [letter.char]
  | .tilde => ['~', letter.char]
  | .twice => [letter.char, letter.char]

/-- Letters as they are written. -/
def Letter.writtenOf (letters : List Letter) : List Char := letters.flatMap Letter.written

/-- The letters of a text.  `second` says that the next character is the second one of a doubled mark. -/
def spellFrom (second : Bool) : List Char → List Letter
  | [] => []
  | c :: rest =>
    if second then ⟨c, .tilde⟩ :: spellFrom false rest
    else if c = '~' then ⟨c, .tilde⟩ :: spellFrom false rest
    else if c = '[' then ⟨c, .twice⟩ :: spellFrom false rest
    else if c ∈ pairedMarks ∧ rest.head? = some c then ⟨c, .tilde⟩ :: spellFrom true rest
    else ⟨c, .plain⟩ :: spellFrom false rest

/-- The letters that a text is escaped to. -/
def spell (text : List Char) : List Letter := spellFrom false text

theorem map_char_spellFrom (second : Bool) (text : List Char) :
    (spellFrom second text).map Letter.char = text := by
  induction text generalizing second with
  | nil => rfl
  | cons c rest ih =>
    rw [spellFrom]
    repeat' split
    all_goals rw [List.map_cons, ih]

@[simp] theorem map_char_spell (text : List Char) : (spell text).map Letter.char = text :=
  map_char_spellFrom false text

theorem head?_spellFrom {letter : Letter} {second : Bool} (h : (spellFrom second text).head? = some letter) :
    text.head? = some letter.char := by
  have hmap := congrArg List.head? (map_char_spellFrom second text)
  rw [List.head?_map, h] at hmap
  exact hmap.symm

theorem spell_plain (htilde : c ≠ '~') (hbracket : c ≠ '[') (hpair : ¬ (c ∈ pairedMarks ∧ rest.head? = some c)) :
    spell (c :: rest) = ⟨c, .plain⟩ :: spell rest := by
  rw [spell, spellFrom, if_neg (by decide), if_neg htilde, if_neg hbracket, if_neg hpair, spell]

/-- A character without a meaning of its own, alone or doubled, is written as it is. -/
theorem spell_char (htilde : c ≠ '~') (hbracket : c ≠ '[') (hpair : c ∉ pairedMarks) :
    spell (c :: rest) = ⟨c, .plain⟩ :: spell rest :=
  spell_plain htilde hbracket fun h => hpair h.1

theorem spell_pair (hc : c ∈ pairedMarks) (rest : List Char) :
    spell (c :: c :: rest) = ⟨c, .tilde⟩ :: ⟨c, .tilde⟩ :: spell rest := by
  have htilde : c ≠ '~' := fun heq => absurd hc (by rw [heq]; decide)
  have hbracket : c ≠ '[' := fun heq => absurd hc (by rw [heq]; decide)
  rw [spell, spellFrom, if_neg (by decide), if_neg htilde, if_neg hbracket, if_pos ⟨hc, rfl⟩, spellFrom,
    if_pos rfl, spell]

theorem spellFrom_append (h : ∀ c ∈ rest.head?, c ∉ pairedMarks) {second : Bool}
    (hsecond : second = true → text ≠ []) :
    spellFrom second (text ++ rest) = spellFrom second text ++ spell rest := by
  induction text generalizing second with
  | nil =>
    obtain rfl : second = false := by simpa using hsecond
    rfl
  | cons c more ih =>
    have hpair : (c ∈ pairedMarks ∧ (more ++ rest).head? = some c) ↔ (c ∈ pairedMarks ∧ more.head? = some c) := by
      cases more with
      | nil => exact iff_of_false (fun hhead => h c hhead.2 hhead.1) (by simp)
      | cons d others => rfl
    have hnext := @ih false nofun
    rw [List.cons_append, spellFrom, spellFrom]
    simp only [hpair, hnext]
    split
    · rfl
    split
    · rfl
    split
    · rfl
    split
    next hc =>
      rw [ih fun _ hnil => by rw [hnil] at hc; cases hc.2]
      rfl
    next => rfl

/-- A text is written part by part if the second one does not start with a mark that can be doubled. -/
theorem spell_append (h : ∀ c ∈ rest.head?, c ∉ pairedMarks) (text : List Char) :
    spell (text ++ rest) = spell text ++ spell rest := spellFrom_append h nofun

/-- **Prose is escaped letter by letter.** -/
theorem escapeWiki_eq (text : List Char) : escapeWiki text = Letter.writtenOf (spell text) := by
  rw [escapeWiki_eq_pairs]
  induction hn : text.length using Nat.strong_induction_on generalizing text with
  | _ n ih =>
    subst hn
    cases text with
    | nil => rfl
    | cons c rest =>
      have hrest := ih rest.length (by simp) rest rfl
      by_cases htilde : c = '~'
      · subst htilde
        show escapePairs pairedMarks ('~' :: '~' :: escapeSingles rest) = '~' :: '~' :: Letter.writtenOf (spell rest)
        rw [escapePairs_cons (by decide), escapePairs_cons (by decide), hrest]
      by_cases hbracket : c = '['
      · subst hbracket
        show escapePairs pairedMarks ('[' :: '[' :: escapeSingles rest) = '[' :: '[' :: Letter.writtenOf (spell rest)
        rw [escapePairs_cons (by decide), escapePairs_cons (by decide), hrest]
      have hsingle : ∀ others, escapeSingles (c :: others) = c :: escapeSingles others := by
        intro others
        rw [escapeSingles, List.flatMap_cons, if_neg htilde, if_neg hbracket, escapeSingles]
        rfl
      by_cases hpair : c ∈ pairedMarks ∧ rest.head? = some c
      · obtain ⟨hmark, hhead⟩ := hpair
        obtain ⟨others, rfl⟩ := List.head?_eq_some_iff.mp hhead
        have hothers := ih others.length (by simp only [List.length_cons]; omega) others rfl
        rw [hsingle, hsingle, escapePairs_pair hmark (by decide) (by decide), hothers, spell_pair hmark]
        rfl
      · have hpass : escapePairs pairedMarks (c :: escapeSingles rest)
            = c :: escapePairs pairedMarks (escapeSingles rest) := by
          by_cases hmark : c ∈ pairedMarks
          · refine escapePairs_single pairedMarks htilde ?_
            rw [head?_escapeSingles]
            exact fun hhead => hpair ⟨hmark, hhead⟩
          · exact escapePairs_cons hmark
        rw [hsingle, hpass, hrest, spell_plain htilde hbracket hpair]
        rfl

/-! ### What letters are written as -/

/-- The letter can be read back. -/
def Letter.IsSound (letter : Letter) : Prop :=
  match letter.spelling with
  | .plain => letter.char ≠ '~' ∧ letter.char ≠ '['
  | .tilde => isEscapable letter.char = true
  | .twice => letter.char = '['

/-- Letters that can be read back, and no two marks side by side that mean something together. -/
structure AreSpelled (letters : List Letter) : Prop where
  sound : ∀ letter ∈ letters, letter.IsSound
  sparse : ∀ m ∈ pairedMarks, ¬ [⟨m, .plain⟩, ⟨m, .plain⟩] <:+: letters

theorem AreSpelled.of_part {letters others : List Letter} (h : AreSpelled letters) (hwithin : others <:+: letters) :
    AreSpelled others where
  sound letter hletter := h.sound letter (hwithin.subset hletter)
  sparse m hm hpair := h.sparse m hm (hpair.trans hwithin)

theorem isEscapable_of_paired (h : m ∈ pairedMarks) : isEscapable m = true := by
  simp only [pairedMarks, List.mem_cons, List.not_mem_nil, or_false] at h
  rcases h with rfl | rfl | rfl | rfl <;> decide

theorem isSound_spellFrom {second : Bool} (hsecond : second = true → ∀ c ∈ text.head?, c ∈ pairedMarks) :
    ∀ letter ∈ spellFrom second text, letter.IsSound := by
  induction text generalizing second with
  | nil => exact fun _ h => nomatch h
  | cons c rest ih =>
    have hrest := @ih false nofun
    rw [spellFrom]
    split
    next h => exact List.forall_mem_cons.mpr ⟨isEscapable_of_paired (hsecond h c rfl), hrest⟩
    split
    next htilde =>
      have hescapable : isEscapable c = true := by rw [htilde]; decide
      exact List.forall_mem_cons.mpr ⟨hescapable, hrest⟩
    split
    next hbracket => exact List.forall_mem_cons.mpr ⟨hbracket, hrest⟩
    split
    next hpair =>
      refine List.forall_mem_cons.mpr ⟨isEscapable_of_paired hpair.1, ih fun _ d hd => ?_⟩
      rw [hpair.2] at hd
      exact Option.some.inj hd ▸ hpair.1
    next htilde hbracket _ => exact List.forall_mem_cons.mpr ⟨⟨htilde, hbracket⟩, hrest⟩

/-- A letter and another one behind it. -/
theorem pair_infix_cons {x y letter : Letter} {letters : List Letter} (h : [x, y] <:+: letter :: letters) :
    (letter = x ∧ letters.head? = some y) ∨ [x, y] <:+: letters := by
  refine (List.infix_cons_iff.mp h).imp_left fun hprefix => ?_
  obtain ⟨rfl, behind, rfl⟩ := List.cons_prefix_cons.mp hprefix
  exact ⟨rfl, rfl⟩

theorem sparse_spellFrom (hm : m ∈ pairedMarks) (second : Bool) (text : List Char) :
    ¬ [⟨m, .plain⟩, ⟨m, .plain⟩] <:+: spellFrom second text := by
  induction text generalizing second with
  | nil => exact fun h => absurd h.length_le (by simp [spellFrom])
  | cons c rest ih =>
    intro h
    rw [spellFrom] at h
    have hfirst : ∀ {spelling second}, [⟨m, .plain⟩, ⟨m, .plain⟩] <:+: (⟨c, spelling⟩ : Letter) :: spellFrom second rest →
        c = m ∧ spelling = .plain ∧ rest.head? = some m := by
      intro spelling second hin
      rcases pair_infix_cons hin with ⟨heq, hhead⟩ | hin
      · cases heq
        exact ⟨rfl, rfl, head?_spellFrom hhead⟩
      · exact absurd hin (ih second)
    split at h
    · cases (hfirst h).2.1
    split at h
    · cases (hfirst h).2.1
    split at h
    · cases (hfirst h).2.1
    split at h
    · cases (hfirst h).2.1
    next hpair =>
      obtain ⟨rfl, -, hhead⟩ := hfirst h
      exact hpair ⟨hm, hhead⟩

/-- What prose is escaped to can be read back. -/
theorem areSpelled_spell (text : List Char) : AreSpelled (spell text) where
  sound := isSound_spellFrom nofun
  sparse _ hm := sparse_spellFrom hm false text

section Written

variable {letters : List Letter}

theorem writtenOf_append (xs ys : List Letter) :
    Letter.writtenOf (xs ++ ys) = Letter.writtenOf xs ++ Letter.writtenOf ys := List.flatMap_append

theorem mem_writtenOf (h : c ∈ Letter.writtenOf letters) : c = '~' ∨ c ∈ letters.map Letter.char := by
  obtain ⟨letter, hletter, hc⟩ := List.mem_flatMap.mp h
  have hin : letter.char ∈ letters.map Letter.char := List.mem_map_of_mem hletter
  unfold Letter.written at hc
  split at hc
  · exact Or.inr (List.mem_singleton.mp hc ▸ hin)
  · rcases List.mem_cons.mp hc with rfl | hc
    · exact Or.inl rfl
    · exact Or.inr (List.mem_singleton.mp hc ▸ hin)
  · exact Or.inr ((by simpa using hc : c = letter.char) ▸ hin)

theorem char_mem_written (letter : Letter) : letter.char ∈ letter.written := by
  unfold Letter.written
  split <;> simp

theorem mem_writtenOf_of_char (h : c ∈ letters.map Letter.char) : c ∈ Letter.writtenOf letters := by
  obtain ⟨letter, hletter, rfl⟩ := List.mem_map.mp h
  exact List.mem_flatMap.mpr ⟨letter, hletter, char_mem_written letter⟩

theorem head?_writtenOf (h : (Letter.writtenOf letters).head? = some c) :
    c = '~' ∨ (letters.map Letter.char).head? = some c := by
  cases letters with
  | nil => cases h
  | cons letter rest =>
    obtain ⟨d, spelling⟩ := letter
    cases spelling with
    | plain => exact Or.inr h
    | tilde => exact Or.inl (Option.some.inj h).symm
    | twice => exact Or.inr h

theorem getLast?_writtenOf (letters : List Letter) :
    (Letter.writtenOf letters).getLast? = (letters.map Letter.char).getLast? := by
  rcases List.eq_nil_or_concat letters with rfl | ⟨init, letter, rfl⟩
  · rfl
  · have hlast : ∃ front, letter.written = front ++ [letter.char] := by
      unfold Letter.written
      split
      · exact ⟨[], rfl⟩
      · exact ⟨['~'], rfl⟩
      · exact ⟨[letter.char], rfl⟩
    obtain ⟨front, hfront⟩ := hlast
    have hone : Letter.writtenOf [letter] = letter.written := List.append_nil _
    rw [List.concat_eq_append, writtenOf_append, hone, hfront, ← List.append_assoc, List.getLast?_concat, List.map_append,
      List.map_singleton, List.getLast?_concat]

/-- What is written has no more blanks at its ends than the text. -/
theorem trimmed_writtenOf {p : Char → Bool} (htilde : p '~' = false) (h : Trimmed p (letters.map Letter.char)) :
    Trimmed p (Letter.writtenOf letters) where
  head c hc := by
    rcases head?_writtenOf hc with rfl | hhead
    · exact htilde
    · exact h.head c hhead
  last c hc := h.last c (getLast?_writtenOf letters ▸ hc)

theorem writtenOf_ne_nil (h : letters ≠ []) : Letter.writtenOf letters ≠ [] := by
  obtain ⟨letter, rest, rfl⟩ := List.exists_cons_of_ne_nil h
  exact List.ne_nil_of_mem (List.mem_flatMap.mpr ⟨letter, List.mem_cons_self, char_mem_written letter⟩)

/-- A character at the front that makes nothing literal is one of the text. -/
theorem exists_cons_of_writtenOf (sound : ∀ letter ∈ letters, letter.IsSound) (htilde : d ≠ '~')
    (hbracket : d ≠ '[') (h : Letter.writtenOf letters = d :: rest) :
    ∃ more, letters = ⟨d, .plain⟩ :: more ∧ Letter.writtenOf more = rest := by
  cases letters with
  | nil => cases h
  | cons letter more =>
    have hsound := sound letter List.mem_cons_self
    obtain ⟨c, spelling⟩ := letter
    cases spelling with
    | plain =>
      obtain ⟨rfl, hrest⟩ := List.cons.inj h
      exact ⟨more, rfl, hrest⟩
    | tilde => exact absurd (List.cons.inj h).1.symm htilde
    | twice =>
      obtain rfl : c = '[' := hsound
      exact absurd (List.cons.inj h).1.symm hbracket

/-- So is one at the end that no tilde makes literal. -/
theorem exists_concat_of_writtenOf (sound : ∀ letter ∈ letters, letter.IsSound) (htilde : isEscapable d = false)
    (hbracket : d ≠ '[') (h : Letter.writtenOf letters = rest ++ [d]) :
    ∃ init, letters = init ++ [⟨d, .plain⟩] ∧ Letter.writtenOf init = rest := by
  rcases List.eq_nil_or_concat letters with rfl | ⟨init, ⟨c, spelling⟩, rfl⟩
  · exact absurd h.symm (by simp [Letter.writtenOf])
  · rw [List.concat_eq_append] at h sound
    have hsound := sound ⟨c, spelling⟩ (by simp)
    have hlast := getLast?_writtenOf (init ++ [⟨c, spelling⟩])
    rw [h, List.getLast?_concat, List.map_append, List.map_singleton, List.getLast?_concat] at hlast
    obtain rfl : d = c := Option.some.inj hlast
    cases spelling with
    | plain =>
      rw [writtenOf_append] at h
      exact ⟨init, List.concat_eq_append, List.append_inj_left' h rfl⟩
    | tilde => exact absurd (htilde.symm.trans hsound) (by decide)
    | twice => exact absurd hsound hbracket

/-- Letters that are written as they are are the text. -/
theorem writtenOf_plain (text : List Char) : Letter.writtenOf (text.map (⟨·, .plain⟩)) = text := by
  rw [Letter.writtenOf, List.flatMap_map]
  exact List.flatMap_singleton' text

theorem eq_plain_of_writtenOf (sound : ∀ letter ∈ letters, letter.IsSound) (htilde : '~' ∉ text)
    (hbracket : '[' ∉ text) (h : Letter.writtenOf letters = text) : letters = text.map (⟨·, .plain⟩) := by
  induction text generalizing letters with
  | nil =>
    by_contra hne
    exact writtenOf_ne_nil hne h
  | cons c rest ih =>
    rw [List.mem_cons, not_or] at htilde hbracket
    obtain ⟨more, rfl, hmore⟩ := exists_cons_of_writtenOf sound (Ne.symm htilde.1) (Ne.symm hbracket.1) h
    rw [ih (fun l hl => sound l (List.mem_cons_of_mem _ hl)) htilde.2 hbracket.2 hmore, List.map_cons]

theorem length_le_writtenOf (letters : List Letter) : letters.length ≤ (Letter.writtenOf letters).length := by
  induction letters with
  | nil => exact Nat.le_refl 0
  | cons letter rest ih =>
    have hletter := List.length_pos_of_mem (char_mem_written letter)
    rw [Letter.writtenOf, List.flatMap_cons, List.length_append, List.length_cons, ← Letter.writtenOf]
    omega

/-- Letters that are written as the text that they are for are written as they are: any other is one character more. -/
theorem eq_plain_of_writtenOf_eq (h : Letter.writtenOf letters = letters.map Letter.char) :
    letters = (letters.map Letter.char).map (⟨·, .plain⟩) := by
  replace h : (Letter.writtenOf letters).length ≤ letters.length := by rw [h, List.length_map]
  induction letters with
  | nil => rfl
  | cons letter rest ih =>
    have hrest := length_le_writtenOf rest
    rw [Letter.writtenOf, List.flatMap_cons, List.length_append, List.length_cons, ← Letter.writtenOf] at h
    obtain ⟨c, spelling⟩ := letter
    cases spelling with
    | plain =>
      rw [List.map_cons, List.map_cons, ← ih (by change 1 + _ ≤ _ at h; omega)]
    | tilde => change 2 + _ ≤ _ at h; omega
    | twice => change 2 + _ ≤ _ at h; omega

end Written

/-! ### Inside a cell -/

/-- A character that means nothing when it stands twice is always written in the same way. -/
theorem spelling_of_mem_spellFrom {letter : Letter} {second : Bool}
    (hsecond : second = true → ∀ c ∈ text.head?, c ∈ pairedMarks) (h : letter ∈ spellFrom second text)
    (hsingle : letter.char ∉ pairedMarks) :
    letter.spelling = if letter.char = '~' then .tilde else if letter.char = '[' then .twice else .plain := by
  induction text generalizing second with
  | nil => cases h
  | cons c rest ih =>
    have hrest := @ih false nofun
    rw [spellFrom] at h
    split at h
    next hmark =>
      rcases List.mem_cons.mp h with rfl | h
      · exact absurd (hsecond hmark c rfl) hsingle
      · exact hrest h
    split at h
    next htilde =>
      rcases List.mem_cons.mp h with rfl | h
      · rw [if_pos htilde]
      · exact hrest h
    split at h
    next htilde hbracket =>
      rcases List.mem_cons.mp h with rfl | h
      · rw [if_neg htilde, if_pos hbracket]
      · exact hrest h
    split at h
    next hpair =>
      rcases List.mem_cons.mp h with rfl | h
      · exact absurd hpair.1 hsingle
      · refine ih (fun _ d hd => ?_) h
        rw [hpair.2] at hd
        exact Option.some.inj hd ▸ hpair.1
    next htilde hbracket _ =>
      rcases List.mem_cons.mp h with rfl | h
      · rw [if_neg htilde, if_neg hbracket]
      · exact hrest h

theorem spelling_of_mem_spell {letter : Letter} (h : letter ∈ spell text) (hsingle : letter.char ∉ pairedMarks) :
    letter.spelling = if letter.char = '~' then .tilde else if letter.char = '[' then .twice else .plain :=
  @spelling_of_mem_spellFrom text letter false nofun h hsingle

/-- A letter as it is in the cell of a table, where a bar is made literal. -/
def Letter.inCell (letter : Letter) : Letter := if letter.char = '|' then ⟨'|', .tilde⟩ else letter

/-- The letters that the text of a cell is written with. -/
def spellCell (text : List Char) : List Letter := (spell text).map Letter.inCell

theorem Letter.char_inCell (letter : Letter) : letter.inCell.char = letter.char := by
  unfold Letter.inCell
  split
  next h => exact h.symm
  next => rfl

@[simp] theorem map_char_spellCell (text : List Char) : (spellCell text).map Letter.char = text := by
  have hchar : Letter.char ∘ Letter.inCell = Letter.char := funext Letter.char_inCell
  rw [spellCell, List.map_map, hchar, map_char_spell]

theorem areSpelled_spellCell (text : List Char) : AreSpelled (spellCell text) where
  sound := by
    refine List.forall_mem_map.mpr fun letter hletter => ?_
    unfold Letter.inCell
    split
    · show isEscapable '|' = true
      decide
    · exact (areSpelled_spell text).sound letter hletter
  sparse m hm hwithin := by
    -- A mark that is written as it is was no bar.
    have hplain : ∀ {letter : Letter}, letter.inCell = ⟨m, .plain⟩ → letter = ⟨m, .plain⟩ := by
      intro letter h
      unfold Letter.inCell at h
      split at h
      · cases h
      · exact h
    obtain ⟨front, behind, heq⟩ := hwithin
    obtain ⟨l1, l2, hl, hl1, -⟩ := List.map_eq_append_iff.mp heq.symm
    obtain ⟨l3, l4, rfl, -, hl4⟩ := List.map_eq_append_iff.mp hl1
    obtain ⟨x, l5, rfl, hx, hl5⟩ := List.map_eq_cons_iff.mp hl4
    obtain ⟨y, l6, rfl, hy, hl6⟩ := List.map_eq_cons_iff.mp hl5
    obtain rfl := List.map_eq_nil_iff.mp hl6
    refine (areSpelled_spell text).sparse m hm ⟨l3, l2, ?_⟩
    rw [hl, hplain hx, hplain hy]

/-- **The bars of a cell's text are made literal letter by letter.** -/
theorem writtenOf_spellCell (text : List Char) :
    Letter.writtenOf (spellCell text) = replaceAll ['|'] "~|".toList (escapeWiki text) := by
  rw [escapeWiki_eq, replaceAll_char, Letter.writtenOf, Letter.writtenOf, spellCell, List.flatMap_map,
    List.flatMap_assoc]
  refine List.flatMap_congr fun letter hletter => ?_
  unfold Letter.inCell
  by_cases hbar : letter.char = '|'
  · have hplain := spelling_of_mem_spell hletter (by rw [hbar]; decide)
    obtain ⟨c, spelling⟩ := letter
    obtain rfl : c = '|' := hbar
    obtain rfl : spelling = .plain := hplain
    decide
  · have hkept : ∀ c ∈ letter.written, c ≠ '|' := by
      rintro c hc rfl
      have hwritten : '|' ∈ Letter.writtenOf [letter] := List.mem_flatMap.mpr ⟨letter, List.mem_singleton_self letter, hc⟩
      have hmem := (mem_writtenOf hwritten).resolve_left (by decide)
      exact hbar (List.mem_singleton.mp hmem).symm
    rw [if_neg hbar, List.flatMap_congr fun c hc => if_neg (hkept c hc)]
    exact (List.flatMap_singleton' _).symm

/-! ### The start of a line -/

/-- Whether the line starts with the marker of an item, of a heading or of a rule. -/
def opensLine (line : List Char) : Bool :=
  match line with
  | [] => false
  | c :: _ => c == '*' || c == '#' || c == '!' || startsWith "----".toList line

/-- The letters of a line of prose: its first character is made literal if it would open something. -/
def spellLine (text : List Char) : List Letter :=
  match spell text with
  | [] => []
  | letter :: rest =>
    if opensLine (Letter.writtenOf (letter :: rest)) then ⟨letter.char, .tilde⟩ :: rest else letter :: rest

theorem escapeWikiLine_eq (h : ∀ c ∈ text.head?, isIndent c = false) :
    escapeWikiLine text = if opensLine text then '~' :: text else text := by
  have hindent : text.takeWhile isIndent = [] := by
    cases text with
    | nil => rfl
    | cons c rest => exact List.takeWhile_cons_of_neg (by simp [h c rfl])
  unfold escapeWikiLine
  simp only [hindent, List.length_nil, List.drop_zero, List.nil_append]
  rfl

/-- What opens a line is a character that is written as it is. -/
theorem exists_of_opensLine {letters : List Letter} (sound : ∀ letter ∈ letters, letter.IsSound)
    (h : opensLine (Letter.writtenOf letters) = true) :
    ∃ c rest, letters = ⟨c, .plain⟩ :: rest ∧ c ∈ ['*', '#', '!', '-'] := by
  have hfirst : ∃ c rest, Letter.writtenOf letters = c :: rest ∧ c ∈ ['*', '#', '!', '-'] := by
    unfold opensLine at h
    split at h
    · cases h
    next c rest heq =>
      refine ⟨c, rest, heq, ?_⟩
      simp only [Bool.or_eq_true, beq_iff_eq] at h
      rcases h with ((rfl | rfl) | rfl) | hrule
      · decide
      · decide
      · decide
      · obtain ⟨behind, hbehind⟩ := startsWith_iff.mp hrule
        rw [heq] at hbehind
        obtain rfl : '-' = c := (List.cons.inj hbehind).1
        decide
  obtain ⟨c, rest, heq, hc⟩ := hfirst
  have hne : c ≠ '~' ∧ c ≠ '[' := by
    simp only [List.mem_cons, List.not_mem_nil, or_false] at hc
    rcases hc with rfl | rfl | rfl | rfl <;> decide
  obtain ⟨more, rfl, -⟩ := exists_cons_of_writtenOf sound hne.1 hne.2 heq
  exact ⟨c, more, rfl, hc⟩

/-- The letters of a line are those of its text, but for a first one that is made literal. -/
theorem spellLine_cases (text : List Char) :
    (spellLine text = spell text ∧ opensLine (Letter.writtenOf (spell text)) = false) ∨
    ∃ c rest, spell text = ⟨c, .plain⟩ :: rest ∧ spellLine text = ⟨c, .tilde⟩ :: rest ∧ c ∈ ['*', '#', '!', '-'] ∧
      opensLine (Letter.writtenOf (spell text)) = true := by
  cases hopens : opensLine (Letter.writtenOf (spell text)) with
  | false =>
    refine Or.inl ⟨?_, rfl⟩
    unfold spellLine
    split
    next heq => exact heq.symm
    next heq => rw [heq] at hopens ⊢; rw [if_neg (by simp [hopens])]
  | true =>
    obtain ⟨c, rest, heq, hc⟩ := exists_of_opensLine (areSpelled_spell text).sound hopens
    refine Or.inr ⟨c, rest, heq, ?_, hc, rfl⟩
    rw [heq] at hopens
    unfold spellLine
    rw [heq]
    exact if_pos hopens

@[simp] theorem map_char_spellLine (text : List Char) : (spellLine text).map Letter.char = text := by
  rcases spellLine_cases text with ⟨heq, -⟩ | ⟨c, rest, hspell, heq, -⟩
  · rw [heq, map_char_spell]
  · rw [heq, ← map_char_spell text, hspell]
    rfl

theorem areSpelled_spellLine (text : List Char) : AreSpelled (spellLine text) := by
  have spelled := areSpelled_spell text
  rcases spellLine_cases text with ⟨heq, -⟩ | ⟨c, rest, hspell, heq, hc, -⟩
  · rw [heq]
    exact spelled
  · rw [hspell] at spelled
    have hescapable : isEscapable c = true := by
      simp only [List.mem_cons, List.not_mem_nil, or_false] at hc
      rcases hc with rfl | rfl | rfl | rfl <;> decide
    rw [heq]
    refine ⟨List.forall_mem_cons.mpr ⟨hescapable, fun l hl => spelled.sound l (List.mem_cons_of_mem _ hl)⟩,
      fun m hm hwithin => ?_⟩
    rcases pair_infix_cons hwithin with ⟨hfirst, -⟩ | hwithin
    · cases hfirst
    · exact spelled.sparse m hm (hwithin.trans (List.suffix_cons _ _).isInfix)

/-- **A line of prose is escaped letter by letter**, and nothing is left at its start that opens an item, a heading
or a rule. -/
theorem escapeWikiLine_escapeWiki (h : ∀ c ∈ text.head?, isIndent c = false) :
    escapeWikiLine (escapeWiki text) = Letter.writtenOf (spellLine text) ∧
      opensLine (Letter.writtenOf (spellLine text)) = false := by
  have hindent : ∀ c ∈ (escapeWiki text).head?, isIndent c = false := by
    intro c hc
    rw [escapeWiki_eq] at hc
    rcases head?_writtenOf hc with rfl | hhead
    · decide
    · exact h c (map_char_spell text ▸ hhead)
  rw [escapeWikiLine_eq hindent, escapeWiki_eq]
  rcases spellLine_cases text with ⟨heq, hopens⟩ | ⟨c, rest, hspell, heq, -, hopens⟩
  · rw [heq, hopens]
    exact ⟨rfl, rfl⟩
  · rw [heq, if_pos hopens, hspell]
    exact ⟨rfl, by rfl⟩

end WikiMigration.Writing
