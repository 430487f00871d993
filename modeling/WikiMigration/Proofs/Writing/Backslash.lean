/-
Prose made literal with backslashes.

Every asterisk of a text, and every low line that does not stand between two letters or digits, is written behind a
backslash.  A backslash of the text is written as it is, so it takes part when escapes are read: in front of an
asterisk it makes the written backslash literal and leaves the asterisk bare, and in front of any other character that
can be escaped it gets lost.  Where no backslash of the text stands in front of such a character, all markers are
literal and the text is read back; and nowhere else.
-/
import WikiMigration.Markdown.Inline
import WikiMigration.Proofs.Text.Scan
import WikiMigration.Writing.Escape
import Mathlib.Algebra.Ring.Parity
import Mathlib.Data.List.Chain

namespace WikiMigration.Writing

open Text

variable {inside : Bool} {c : Char} {text rest before after : List Char}

/-! ### Reading escapes -/

/-- A backslash and the character that it makes literal. -/
def escapePattern : Pattern Char Char
  | '\\' :: c :: _ => if Markdown.escapable.contains c then some (c, 2) else none
  | _ => none

/-- The text with its backslash escapes read. -/
def readEscapes (text : List Char) : List Char := substitute escapePattern (fun c => [c]) text

theorem readEscapes_pair (hc : c ∈ Markdown.escapable) (rest : List Char) :
    readEscapes ('\\' :: c :: rest) = c :: readEscapes rest := by
  have hfound : escapePattern ('\\' :: c :: rest) = some (c, 2) := if_pos (List.contains_iff_mem.mpr hc)
  exact substitute_of_some hfound

theorem readEscapes_char (hc : c ≠ '\\' ∨ ∀ d ∈ rest.head?, d ∉ Markdown.escapable) :
    readEscapes (c :: rest) = c :: readEscapes rest := by
  refine substitute_of_none ?_
  unfold escapePattern
  split
  next d others heq =>
    obtain ⟨rfl, rfl⟩ := List.cons.inj heq
    exact if_neg fun hd => (hc.resolve_left (· rfl)) d rfl (List.contains_iff_mem.mp hd)
  next => rfl

/-- How many backslashes stand at the end of the text. -/
def backslashesAtEnd (text : List Char) : Nat := (text.reverse.takeWhile (· == '\\')).length

theorem backslashesAtEnd_concat (text : List Char) : backslashesAtEnd (text ++ ['\\']) = backslashesAtEnd text + 1 := by
  simp [backslashesAtEnd]

theorem backslashesAtEnd_eq_zero (h : text.getLast? ≠ some '\\') : backslashesAtEnd text = 0 := by
  rcases List.eq_nil_or_concat text with rfl | ⟨others, c, rfl⟩
  · rfl
  · have hc : c ≠ '\\' := by simpa using h
    simp [backslashesAtEnd, hc]

/-! ### Signs of prose -/

/-- A character of prose, and whether a backslash is written before it. -/
structure Sign where
  char : Char
  isShielded : Bool

variable {sign next : Sign} {signs earlier later : List Sign}

/-- The sign as it is written. -/
def Sign.written (sign : Sign) : List Char := if sign.isShielded then ['\\', sign.char] else [sign.char]

/-- The signs as they are written. -/
def writtenSigns (signs : List Sign) : List Char := signs.flatMap Sign.written

/-- The signs of a text; `inside` says that a letter or a digit stands before it. -/
def signsFrom (inside : Bool) : List Char → List Sign
  | [] => []
  | c :: rest =>
    ⟨c, c == '*' || c == '_' && !(inside && rest.head?.any isAlphanumeric)⟩ :: signsFrom (isAlphanumeric c) rest

theorem map_char_signsFrom (inside : Bool) (text : List Char) : (signsFrom inside text).map Sign.char = text := by
  induction text generalizing inside with
  | nil => rfl
  | cons c rest ih => exact congrArg (c :: ·) (ih _)

/-- Escaping writes the signs of the text. -/
theorem escapeMarkdown_eq (text : List Char) : escapeMarkdown text = writtenSigns (signsFrom false text) := by
  have hmarks : isAlphanumeric '\\' = false ∧ isAlphanumeric '*' = false ∧ isAlphanumeric '_' = false := by decide
  have hpass : ∀ inside, escapeUnderscoresFrom inside (escapeAsterisks text) = writtenSigns (signsFrom inside text) := by
    induction text with
    | nil => exact fun _ => rfl
    | cons c rest ih =>
      intro inside
      have hsplit : escapeAsterisks (c :: rest) = (if c == '*' then ['\\', '*'] else [c]) ++ escapeAsterisks rest := rfl
      have hhead : (escapeAsterisks rest).head?.any isAlphanumeric = rest.head?.any isAlphanumeric := by
        cases rest with
        | nil => rfl
        | cons d others => by_cases hd : d = '*' <;> simp [escapeAsterisks, hd, hmarks]
      rw [hsplit, writtenSigns, signsFrom, List.flatMap_cons, ← writtenSigns, Sign.written]
      by_cases hstar : c = '*'
      · simp [hstar, escapeUnderscoresFrom, ih, hmarks]
      by_cases hlow : c = '_'
      · by_cases hword : (inside && rest.head?.any isAlphanumeric) = true
        · simp [hlow, escapeUnderscoresFrom, ih, hmarks, hhead, hword]
        · simp [hlow, escapeUnderscoresFrom, ih, hmarks, hhead, hword]
      · simp [hstar, hlow, escapeUnderscoresFrom, ih]
  exact hpass false

/-- Whether a letter or a digit comes last. -/
def endsInWord (inside : Bool) (signs : List Sign) : Bool :=
  (signs.getLast?.map fun sign => isAlphanumeric sign.char).getD inside

/-- Which signs are shielded: the asterisks, and the low lines outside of words. -/
theorem isShielded_signsFrom (h : signsFrom inside text = earlier ++ sign :: later) :
    sign.isShielded = (sign.char == '*' || sign.char == '_' &&
      !(endsInWord inside earlier && later.head?.any fun next => isAlphanumeric next.char)) := by
  induction earlier generalizing inside text with
  | nil =>
    cases text with
    | nil => cases h
    | cons c rest =>
      obtain ⟨rfl, rfl⟩ := List.cons.inj h
      cases rest with
      | nil => rfl
      | cons d others => rfl
  | cons first others ih =>
    cases text with
    | nil => cases h
    | cons c rest =>
      obtain ⟨rfl, hrest⟩ := List.cons.inj h
      rw [ih hrest]
      cases others with
      | nil => rfl
      | cons second more => rfl

theorem char_of_isShielded (h : signsFrom inside text = earlier ++ sign :: later) (hshield : sign.isShielded = true) :
    sign.char = '*' ∨ sign.char = '_' := by
  rw [isShielded_signsFrom h] at hshield
  simp only [Bool.or_eq_true, Bool.and_eq_true, beq_iff_eq] at hshield
  exact hshield.imp_right And.left

theorem any_getLast?_of_endsInWord (h : endsInWord false signs = true) :
    (signs.getLast?.map Sign.char).any isAlphanumeric = true := by
  unfold endsInWord at h
  cases hlast : signs.getLast? with
  | none => rw [hlast] at h; exact absurd h Bool.false_ne_true
  | some sign => rw [hlast] at h; exact h

/-! ### What is read back -/

/-- Only asterisks and low lines are shielded. -/
def AreSound (signs : List Sign) : Prop := ∀ sign ∈ signs, sign.isShielded = true → sign.char = '*' ∨ sign.char = '_'

theorem areSound_signsFrom (inside : Bool) (text : List Char) : AreSound (signsFrom inside text) := by
  intro sign hsign
  obtain ⟨earlier, later, h⟩ := List.append_of_mem hsign
  exact char_of_isShielded h

theorem escapable_of_shielded (h : sign.char = '*' ∨ sign.char = '_') :
    sign.char ∈ Markdown.escapable ∧ sign.char ≠ '\\' := by
  rcases h with h | h <;> rw [h] <;> decide

theorem readEscapes_shielded (h : AreSound (sign :: signs)) (hshield : sign.isShielded = true) :
    readEscapes (writtenSigns (sign :: signs)) = sign.char :: readEscapes (writtenSigns signs) := by
  have hwritten : writtenSigns (sign :: signs) = '\\' :: sign.char :: writtenSigns signs := by
    rw [writtenSigns, List.flatMap_cons, Sign.written, if_pos hshield]
    rfl
  rw [hwritten, readEscapes_pair (escapable_of_shielded (h sign List.mem_cons_self hshield)).1]

theorem writtenSigns_plain (hplain : sign.isShielded = false) :
    writtenSigns (sign :: signs) = sign.char :: writtenSigns signs := by
  rw [writtenSigns, List.flatMap_cons, Sign.written, hplain]
  rfl

/-- A letter or a digit that comes first is written first. -/
theorem any_head?_writtenSigns (h : AreSound signs)
    (hhead : signs.head?.any (fun sign => isAlphanumeric sign.char) = true) :
    (writtenSigns signs).head?.any isAlphanumeric = true := by
  cases signs with
  | nil => exact absurd hhead Bool.false_ne_true
  | cons sign rest =>
    have hword : isAlphanumeric sign.char = true := hhead
    cases hshield : sign.isShielded with
    | false => rwa [writtenSigns_plain hshield]
    | true =>
      have hmark : isAlphanumeric '*' = false ∧ isAlphanumeric '_' = false := by decide
      rcases h sign List.mem_cons_self hshield with hchar | hchar <;> simp [hchar, hmark] at hword

/-- A backslash and a character that it makes literal. -/
def Escapes (c next : Char) : Prop := c = '\\' ∧ next ∈ Markdown.escapable

instance (c next : Char) : Decidable (Escapes c next) :=
  inferInstanceAs (Decidable (c = '\\' ∧ next ∈ Markdown.escapable))

/-- No backslash of the text stands right before a character that it makes literal. -/
def HasNoEscapes (text : List Char) : Prop := text.IsChain fun c next => ¬ Escapes c next

instance (text : List Char) : Decidable (HasNoEscapes text) :=
  inferInstanceAs (Decidable (text.IsChain fun c next => ¬ Escapes c next))

/-- A text without escapes is read back. -/
theorem readEscapes_writtenSigns (sound : AreSound signs) (h : HasNoEscapes (signs.map Sign.char)) :
    readEscapes (writtenSigns signs) = signs.map Sign.char := by
  induction signs with
  | nil => rfl
  | cons sign rest ih =>
    have hrest := ih (fun s hs => sound s (List.mem_cons_of_mem sign hs)) h.tail
    cases hshield : sign.isShielded with
    | true => rw [readEscapes_shielded sound hshield, hrest, List.map_cons]
    | false =>
      rw [writtenSigns_plain hshield, readEscapes_char, hrest, List.map_cons]
      by_cases hc : sign.char = '\\'
      · -- what is written next is the next character, as it cannot be escaped
        refine Or.inr fun d hd => ?_
        cases rest with
        | nil => cases hd
        | cons next more =>
          have hnext : next.char ∉ Markdown.escapable := fun hmem =>
            (List.isChain_cons_cons.mp h).1 ⟨hc, hmem⟩
          cases hplain : next.isShielded with
          | true =>
            have hchar := sound next (List.mem_cons_of_mem sign List.mem_cons_self) hplain
            exact absurd (escapable_of_shielded hchar).1 hnext
          | false =>
            rw [writtenSigns_plain hplain] at hd
            obtain rfl := Option.some.inj hd
            exact hnext
      · exact Or.inl hc

/-- What is read back is no longer than the text, and it is the text only if every character that a backslash of the
text stands before has a backslash of its own. -/
structure ReadsLess (signs : List Sign) : Prop where
  length : (readEscapes (writtenSigns signs)).length ≤ signs.length
  shielded : readEscapes (writtenSigns signs) = signs.map Sign.char →
    signs.IsChain fun sign next => Escapes sign.char next.char → next.isShielded = true

/-- A sign that is read as it is. -/
theorem ReadsLess.cons (h : ReadsLess signs)
    (hread : readEscapes (writtenSigns (sign :: signs)) = sign.char :: readEscapes (writtenSigns signs))
    (hnext : ∀ next ∈ signs.head?, Escapes sign.char next.char → next.isShielded = true) :
    ReadsLess (sign :: signs) where
  length := by
    rw [hread]
    exact Nat.succ_le_succ h.length
  shielded heq := by
    rw [hread] at heq
    exact List.isChain_cons.mpr ⟨hnext, h.shielded (List.cons.inj heq).2⟩

/-- A backslash of the text is paired with the one that is written before the next character. -/
theorem ReadsLess.pair {next : Sign} (h : ReadsLess signs) (sound : AreSound (next :: signs))
    (hplain : sign.isShielded = false) (hchar : sign.char = '\\') (hnext : next.isShielded = true) :
    ReadsLess (sign :: next :: signs) := by
  have hnextChar := (escapable_of_shielded (sound next List.mem_cons_self hnext)).2
  have hread : readEscapes (writtenSigns (sign :: next :: signs)) =
      sign.char :: next.char :: readEscapes (writtenSigns signs) := by
    have hwritten : writtenSigns (sign :: next :: signs) = '\\' :: '\\' :: next.char :: writtenSigns signs := by
      rw [writtenSigns_plain hplain, hchar, writtenSigns, List.flatMap_cons, Sign.written, if_pos hnext]
      rfl
    rw [hwritten, readEscapes_pair (by decide), readEscapes_char (Or.inl hnextChar), hchar]
  have hnot : ∀ other ∈ signs.head?, Escapes next.char other.char → other.isShielded = true :=
    fun other _ hescapes => absurd hescapes.1 hnextChar
  refine ⟨?_, fun heq => ?_⟩
  · rw [hread]
    exact Nat.succ_le_succ (Nat.succ_le_succ h.length)
  · rw [hread] at heq
    have hrest := h.shielded (List.cons.inj (List.cons.inj heq).2).2
    exact .cons_cons (fun _ => hnext) (List.isChain_cons.mpr ⟨hnot, hrest⟩)

/-- A backslash of the text that gets lost before the next character. -/
theorem ReadsLess.lost {next : Sign} (h : ReadsLess signs) (hplain : sign.isShielded = false)
    (hchar : sign.char = '\\') (hnext : next.isShielded = false) (hmem : next.char ∈ Markdown.escapable) :
    ReadsLess (sign :: next :: signs) := by
  have hread : readEscapes (writtenSigns (sign :: next :: signs)) =
      next.char :: readEscapes (writtenSigns signs) := by
    rw [writtenSigns_plain hplain, hchar, writtenSigns_plain hnext, readEscapes_pair hmem]
  refine ⟨?_, fun heq => ?_⟩
  · rw [hread]
    exact Nat.succ_le_succ (Nat.le_succ_of_le h.length)
  · have hlengths := congrArg List.length (hread.symm.trans heq)
    have hlength := h.length
    simp only [List.length_cons, List.length_map] at hlengths
    omega

theorem readsLess_of_sound (sound : AreSound signs) : ReadsLess signs := by
  -- A pair takes two signs at once.
  induction hn : signs.length using Nat.strongRecOn generalizing signs with
  | _ n ih =>
    subst hn
    cases signs with
    | nil => exact ⟨Nat.le_refl 0, fun _ => .nil⟩
    | cons sign rest =>
      have soundRest : AreSound rest := fun s hs => sound s (List.mem_cons_of_mem sign hs)
      have hrest : ReadsLess rest := ih _ (Nat.lt_succ_self rest.length) soundRest rfl
      cases hshield : sign.isShielded with
      | true =>
        have hchar := (escapable_of_shielded (sound sign List.mem_cons_self hshield)).2
        exact hrest.cons (readEscapes_shielded sound hshield) fun next _ hescapes => absurd hescapes.1 hchar
      | false =>
        by_cases hchar : sign.char = '\\'
        · cases rest with
          | nil =>
            refine hrest.cons ?_ (by simp)
            rw [writtenSigns_plain hshield, hchar]
            rfl
          | cons next more =>
            have soundMore : AreSound more := fun s hs => soundRest s (List.mem_cons_of_mem next hs)
            have hmore : ReadsLess more := ih more.length (by simp only [List.length_cons]; omega) soundMore rfl
            cases hnext : next.isShielded with
            | true => exact hmore.pair soundRest hshield hchar hnext
            | false =>
              by_cases hmem : next.char ∈ Markdown.escapable
              · exact hmore.lost hshield hchar hnext hmem
              · refine hrest.cons ?_ fun other hother hescapes => ?_
                · rw [writtenSigns_plain hshield, readEscapes_char (Or.inr fun d hd => ?_)]
                  rw [writtenSigns_plain hnext] at hd
                  exact Option.some.inj hd ▸ hmem
                · exact absurd hescapes.2 (Option.some.inj hother ▸ hmem)
        · refine hrest.cons ?_ fun next _ hescapes => absurd hescapes.1 hchar
          rw [writtenSigns_plain hshield, readEscapes_char (Or.inl hchar)]

/-! ### What is literal -/

/-- Markdown reads every asterisk, and every low line that does not stand between two letters or digits, as a literal
character: an odd number of backslashes stands before it. -/
structure IsInert (written : List Char) : Prop where
  asterisks : ∀ before after, written = before ++ '*' :: after → Odd (backslashesAtEnd before)
  lowLines : ∀ before after, written = before ++ '_' :: after →
    ¬ (before.getLast?.any isAlphanumeric = true ∧ after.head?.any isAlphanumeric = true) →
    Odd (backslashesAtEnd before)

theorem getLast?_writtenSigns (signs : List Sign) : (writtenSigns signs).getLast? = signs.getLast?.map Sign.char := by
  rcases List.eq_nil_or_concat signs with rfl | ⟨others, sign, rfl⟩
  · rfl
  · rw [List.concat_eq_append, writtenSigns, List.flatMap_append, List.flatMap_singleton, List.getLast?_concat,
      Sign.written]
    split <;> simp

/-- Where a marker stands in what is written. -/
theorem exists_sign (h : writtenSigns signs = before ++ c :: after) (hc : c ≠ '\\') :
    ∃ earlier sign later, signs = earlier ++ sign :: later ∧ sign.char = c ∧
      before = writtenSigns earlier ++ (if sign.isShielded then ['\\'] else []) ∧ after = writtenSigns later := by
  obtain ⟨earlier, sign, later, inner, more, rfl, hwritten, rfl⟩ := exists_part_of_flatMap h
  have hafter : after = more ++ writtenSigns later := by
    rw [writtenSigns, List.flatMap_append, List.flatMap_cons, hwritten] at h
    simpa [writtenSigns] using h.symm
  rw [Sign.written] at hwritten
  cases hshield : sign.isShielded with
  | true =>
    rw [if_pos hshield] at hwritten
    cases inner with
    | nil => exact absurd (List.cons.inj hwritten).1.symm hc
    | cons d others =>
      obtain ⟨rfl, hrest⟩ := List.cons.inj hwritten
      cases others with
      | nil =>
        obtain ⟨rfl, rfl⟩ := List.cons.inj hrest
        exact ⟨earlier, sign, later, rfl, rfl, by simp [writtenSigns, hshield], hafter⟩
      | cons e rest => simp at hrest
  | false =>
    rw [if_neg (by simp [hshield])] at hwritten
    cases inner with
    | nil =>
      obtain ⟨rfl, rfl⟩ := List.cons.inj hwritten
      exact ⟨earlier, sign, later, rfl, rfl, by simp [writtenSigns, hshield], hafter⟩
    | cons d others => simp at hwritten

theorem hasNoEscapes_iff : HasNoEscapes (signs.map Sign.char) ↔
    ∀ ⦃sign next earlier later⦄, signs = earlier ++ sign :: next :: later → ¬ Escapes sign.char next.char := by
  rw [HasNoEscapes, List.isChain_map, List.isChain_iff_forall_rel_of_append_cons_cons]

/-- In a text without escapes the backslash before a sign is the only one there. -/
theorem backslashesAtEnd_shield (h : HasNoEscapes (signs.map Sign.char)) (hsigns : signs = earlier ++ sign :: later)
    (hmem : sign.char ∈ Markdown.escapable) : backslashesAtEnd (writtenSigns earlier ++ ['\\']) = 1 := by
  rw [backslashesAtEnd_concat, backslashesAtEnd_eq_zero]
  intro hlast
  rcases List.eq_nil_or_concat earlier with rfl | ⟨others, last, rfl⟩
  · simp [writtenSigns] at hlast
  · have hchar : last.char = '\\' := by simpa [getLast?_writtenSigns] using hlast
    exact hasNoEscapes_iff.mp h (by simpa using hsigns) ⟨hchar, hmem⟩

theorem isInert_escapeMarkdown (h : HasNoEscapes text) : IsInert (escapeMarkdown text) := by
  rw [← map_char_signsFrom false text] at h
  rw [escapeMarkdown_eq]
  have hodd : ∀ {earlier sign later}, signsFrom false text = earlier ++ sign :: later → sign.isShielded = true →
      Odd (backslashesAtEnd (writtenSigns earlier ++ if sign.isShielded then ['\\'] else [])) := by
    intro earlier sign later hsigns hshield
    have hmem := (escapable_of_shielded (char_of_isShielded hsigns hshield)).1
    rw [hshield, if_pos rfl, backslashesAtEnd_shield h hsigns hmem]
    exact odd_one
  constructor
  · intro before after hwritten
    obtain ⟨earlier, sign, later, hsigns, hchar, rfl, rfl⟩ := exists_sign hwritten (by decide)
    exact hodd hsigns (by rw [isShielded_signsFrom hsigns, hchar]; rfl)
  · intro before after hwritten hword
    obtain ⟨earlier, sign, later, hsigns, hchar, rfl, rfl⟩ := exists_sign hwritten (by decide)
    refine hodd hsigns ?_
    -- a bare low line stands between two letters or digits, in the text and so in what is written
    by_contra hshield
    have hplain := Bool.eq_false_iff.mpr hshield
    have hbetween := isShielded_signsFrom hsigns
    rw [hplain, hchar] at hbetween
    have hboth : endsInWord false earlier = true ∧ later.head?.any (fun next => isAlphanumeric next.char) = true := by
      simpa using hbetween.symm
    refine hword ⟨?_, ?_⟩
    · rw [hplain, if_neg Bool.false_ne_true, List.append_nil, getLast?_writtenSigns]
      exact any_getLast?_of_endsInWord hboth.1
    · exact any_head?_writtenSigns (fun s hs => areSound_signsFrom false text s (by simp [hsigns, hs])) hboth.2

/-- Where a text is read back and its markers are literal, no backslash of it stands before a character that it would
make literal. -/
theorem hasNoEscapes_of_isInert (hinert : IsInert (escapeMarkdown text))
    (hread : readEscapes (escapeMarkdown text) = text) : HasNoEscapes text := by
  rw [escapeMarkdown_eq] at hinert hread
  have hchain := (readsLess_of_sound (areSound_signsFrom false text)).shielded
    (hread.trans (map_char_signsFrom false text).symm)
  rw [← map_char_signsFrom false text, hasNoEscapes_iff]
  intro sign next earlier later hsigns hescapes
  have hnext := List.isChain_iff_forall_rel_of_append_cons_cons.mp hchain hsigns hescapes
  have hplain : sign.isShielded = false := by
    rw [isShielded_signsFrom hsigns, hescapes.1]
    rfl
  -- a third backslash would stand before the one of the text, and that one is bare
  have hbare : (writtenSigns earlier).getLast? ≠ some '\\' := by
    intro hlast
    rcases List.eq_nil_or_concat earlier with rfl | ⟨others, last, rfl⟩
    · simp [writtenSigns] at hlast
    · have hchar : last.char = '\\' := by simpa [getLast?_writtenSigns] using hlast
      have hsplit : signsFrom false text = others ++ last :: sign :: next :: later := by simpa using hsigns
      have hshield := List.isChain_iff_forall_rel_of_append_cons_cons.mp hchain hsplit ⟨hchar, hescapes.1 ▸ by decide⟩
      exact Bool.false_ne_true (hplain.symm.trans hshield)
  have heven : ¬ Odd (backslashesAtEnd ((writtenSigns earlier ++ ['\\']) ++ ['\\'])) := by
    rw [backslashesAtEnd_concat, backslashesAtEnd_concat, backslashesAtEnd_eq_zero hbare]
    decide
  have hwritten : writtenSigns (signsFrom false text) =
      ((writtenSigns earlier ++ ['\\']) ++ ['\\']) ++ next.char :: writtenSigns later := by
    simp [hsigns, writtenSigns, Sign.written, hplain, hnext, hescapes.1]
  refine heven ?_
  have hsplit : signsFrom false text = (earlier ++ [sign]) ++ next :: later := by simpa using hsigns
  have hmark := char_of_isShielded hsplit hnext
  rcases hmark with hmark | hmark <;> rw [hmark] at hwritten
  · exact hinert.asterisks _ _ hwritten
  · exact hinert.lowLines _ _ hwritten (by simp [show isAlphanumeric '\\' = false by decide])

/-- **Escaping is exact on texts without escapes.**  Where no backslash of a text stands before a character that it
makes literal, every asterisk of the escaped text and every low line outside of words is literal, and reading the
escapes gives the text back; for every other text one of the two fails. -/
theorem escaping_exact_iff (text : List Char) :
    (IsInert (escapeMarkdown text) ∧ readEscapes (escapeMarkdown text) = text) ↔ HasNoEscapes text := by
  refine ⟨fun h => hasNoEscapes_of_isInert h.1 h.2, fun h => ⟨isInert_escapeMarkdown h, ?_⟩⟩
  rw [escapeMarkdown_eq, readEscapes_writtenSigns (areSound_signsFrom false text), map_char_signsFrom]
  rwa [map_char_signsFrom]

/-- A backslash of the text pairs with the one before an asterisk. -/
theorem escaped_asterisk_bare :
    ¬ (IsInert (escapeMarkdown "\\*".toList) ∧ readEscapes (escapeMarkdown "\\*".toList) = "\\*".toList) := by
  intro h
  have heven : ¬ Odd (backslashesAtEnd "\\\\".toList) := by decide
  exact heven (h.1.asterisks "\\\\".toList [] (by decide))

end WikiMigration.Writing
