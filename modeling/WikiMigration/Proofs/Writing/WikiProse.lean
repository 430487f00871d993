/-
Plain text on its way to a wiki page and back.

A paragraph of text is written as one line, in which all that would be read as markup is made literal.  The
line is then read as a paragraph of the same text.  It should always be, but the escaping overlooks some
openings: a bar at the start of a row, a definition, and a style, in a line of its own or within the text.  They
are all that it overlooks.
-/
import Mathlib.Data.List.Infix
import WikiMigration.Proofs.Wiki.Styled
import WikiMigration.Proofs.Writing.Prose

namespace WikiMigration.Conversion

open Text Html Wiki Writing

variable {c : Char} {text line : List Char}

/-! ### Lines of text -/

/-- A line of text: there is something in it, and its only blanks are single spaces inside. -/
structure IsTextLine (text : List Char) : Prop where
  ne_nil : text ≠ []
  chars : ∀ c ∈ text, c ≠ '\x00' ∧ (isBlank c = true → c = ' ')
  ends : Trimmed (· == ' ') text
  single : ¬ [' ', ' '] <:+: text

theorem isTextLine_iff : ((!text.isEmpty) = true ∧ (text.all fun c => c != '\x00' && (!isBlank c || c == ' ')) = true) ∧
    (text.head? ≠ some ' ' ∧ text.getLast? ≠ some ' ') ∧ ¬ [' ', ' '] <:+: text ↔ IsTextLine text := by
  constructor
  · rintro ⟨⟨hne, hchars⟩, ⟨hhead, hlast⟩, hsingle⟩
    refine ⟨by simpa using hne, fun c hc => ?_, ⟨fun c hc => ?_, fun c hc => ?_⟩, hsingle⟩
    · simpa [or_iff_not_imp_left] using List.all_eq_true.mp hchars c hc
    · exact beq_false_of_ne fun heq => hhead (heq ▸ hc)
    · exact beq_false_of_ne fun heq => hlast (heq ▸ hc)
  · rintro ⟨hne, hchars, hends, hsingle⟩
    refine ⟨⟨by simpa using hne, List.all_eq_true.mpr fun c hc => ?_⟩, ⟨fun hhead => ?_, fun hlast => ?_⟩, hsingle⟩
    · simpa [or_iff_not_imp_left] using hchars c hc
    · exact absurd (hends.head ' ' hhead) (by decide)
    · exact absurd (hends.last ' ' hlast) (by decide)

instance (text : List Char) : Decidable (IsTextLine text) := decidable_of_iff _ isTextLine_iff

namespace IsTextLine

theorem eq_space (h : IsTextLine text) (hc : c ∈ text) (hblank : isBlank c = true) : c = ' ' :=
  (h.chars c hc).2 hblank

theorem trimmed (h : IsTextLine text) : Trimmed isBlank text := by
  have hsolid : ∀ c ∈ text, (c == ' ') = false → isBlank c = false := fun c hc hspace =>
    Bool.eq_false_iff.mpr fun hblank => ne_of_beq_false hspace (h.eq_space hc hblank)
  exact ⟨fun c hc => hsolid c (List.mem_of_head? hc) (h.ends.head c hc),
    fun c hc => hsolid c (List.mem_of_getLast? hc) (h.ends.last c hc)⟩

theorem filled (h : IsTextLine text) : ∃ c ∈ text, isBlank c = false := by
  obtain ⟨c, rest, rfl⟩ := List.exists_cons_of_ne_nil h.ne_nil
  exact ⟨c, List.mem_cons_self, h.trimmed.head c rfl⟩

theorem not_mem (h : IsTextLine text) (hblank : isBlank c = true) (hc : c ≠ ' ') : c ∉ text := fun hmem =>
  hc (h.eq_space hmem hblank)

theorem isSound (h : IsTextLine text) : TextBlock.IsSound ⟨"p", text⟩ where
  name := Or.inl rfl
  filled := h.filled
  read c hc := ⟨fun heq => h.not_mem (by decide) (by decide) (heq ▸ hc : '\r' ∈ text), (h.chars c hc).1⟩

end IsTextLine

/-! ### Writing -/

/-- Single spaces are not merged, whatever follows the last word. -/
theorem collapseRunsFrom_append (spaces : HasSpacesOnly text) (single : ¬ [' ', ' '] <:+: text)
    (hlast : text.getLast? ≠ some ' ') (tail : List Char) :
    collapseRunsFrom none (text ++ tail) = text ++ collapseRunsFrom none tail := by
  suffices h : collapseRunsFrom none (text ++ tail) = text ++ collapseRunsFrom none tail ∧
      (text ≠ [] → text.head? ≠ some ' ' →
        collapseRunsFrom (some false) (text ++ tail) = ' ' :: (text ++ collapseRunsFrom none tail)) from h.1
  induction text with
  | nil => exact ⟨rfl, fun h => absurd rfl h⟩
  | cons c rest ih =>
    have hrest : rest.getLast? ≠ some ' ' := fun h => hlast (by simp [List.getLast?_cons, h])
    obtain ⟨hnone, hsome⟩ := ih (fun d hd => spaces d (List.mem_cons_of_mem c hd))
      (fun hwithin => single (hwithin.trans (List.suffix_cons c rest).isInfix)) hrest
    by_cases hblank : isBlank c = true
    · obtain rfl := spaces c List.mem_cons_self hblank
      refine ⟨?_, fun _ h => absurd rfl h⟩
      rw [List.cons_append, collapseRunsFrom_space]
      refine hsome (fun hnil => hlast (by rw [hnil]; rfl)) fun hhead => single ?_
      obtain ⟨others, rfl⟩ := List.head?_eq_some_iff.mp hhead
      exact (List.prefix_append [' ', ' '] others).isInfix
    · have hsolid : isBlank c = false := by simpa using hblank
      rw [List.cons_append, collapseRunsFrom_solid hsolid, collapseRunsFrom_solid hsolid, hnone]
      exact ⟨rfl, fun _ _ => rfl⟩

namespace IsTextLine

section Letters

variable {letters : List Letter}

theorem trimmed_written (h : IsTextLine text) (hletters : letters.map Letter.char = text) :
    Trimmed isBlank (Letter.writtenOf letters) :=
  trimmed_writtenOf (by decide) (hletters ▸ h.trimmed)

theorem isBlockText (h : IsTextLine text) (hletters : letters.map Letter.char = text) :
    IsBlockText (Letter.writtenOf letters) where
  ne_nil := writtenOf_ne_nil fun hnil => h.ne_nil (by rw [← hletters, hnil]; rfl)
  trimmed := (h.trimmed_written hletters).mono fun c hc => by rw [beq_iff_eq.mp hc]; decide

theorem not_mem_written (h : IsTextLine text) (hletters : letters.map Letter.char = text)
    (hblank : isBlank c = true) (hc : c ≠ ' ') : c ∉ Letter.writtenOf letters := by
  intro hmem
  rcases mem_writtenOf hmem with rfl | hmem
  · cases hblank
  · exact h.not_mem hblank hc (hletters ▸ hmem)

end Letters

theorem collapseRuns_append (h : IsTextLine text) (tail : List Char) :
    collapseRunsFrom none (text ++ tail) = text ++ collapseRunsFrom none tail :=
  collapseRunsFrom_append (fun _ => h.eq_space) h.single (fun hlast => absurd (h.ends.last ' ' hlast) (by decide)) tail

theorem collapseRuns_eq (h : IsTextLine text) : collapseRuns text = text := by
  have hcollapsed := h.collapseRuns_append []
  simpa [collapseRuns, collapseRunsFrom] using hcollapsed

theorem indented (h : IsTextLine text) : ∀ c ∈ text.head?, isIndent c = false := by
  intro c hc
  refine Bool.eq_false_iff.mpr fun hindent => Bool.false_ne_true ((h.trimmed.head c hc).symm.trans ?_)
  simp only [isIndent, Bool.or_eq_true, beq_iff_eq] at hindent
  rcases hindent with rfl | rfl <;> decide

/-- The only text inside an element is escaped and nothing else. -/
theorem writeText_eq (h : IsTextLine text) {place : Writing.Place} (hpreformatted : place.preformatted = false)
    (hverbatim : place.verbatim = false) : writeText .jspwiki place none none text = escapeWiki text := by
  have hescaped : Trimmed isBlank (escapeWiki text) := by
    rw [escapeWiki_eq]
    exact h.trimmed_written (map_char_spell text)
  have hleft : trimLeftWith isRunBlank (escapeWiki text) = escapeWiki text :=
    trimLeftWith_eq_self (hescaped.mono fun _ => isBlank_of_isRunBlank).head
  have hright : trimRight (escapeWiki text) = escapeWiki text := trimRightWith_eq_self hescaped.last
  rw [writeText, hpreformatted, hverbatim]
  simp only [Bool.false_eq_true, if_false, h.collapseRuns_eq]
  show (if _ then trimRight (if _ then trimLeftWith isRunBlank (escapeWiki text) else escapeWiki text)
    else if _ then trimLeftWith isRunBlank (escapeWiki text) else escapeWiki text) = escapeWiki text
  rw [hleft, ite_self, hright, ite_self]

/-- The paragraph is written as the line of its letters. -/
theorem text_writeNode (h : IsTextLine text) (nodes earlier later : List Node) :
    (writeNode .jspwiki (bodyPlace nodes) earlier later (TextBlock.node ⟨"p", text⟩)).text
      = padded (Letter.writtenOf (spellLine text)) := by
  have hinner := @writeText_eq text h ((bodyPlace nodes).inside ⟨"p", [], [.text text]⟩) rfl rfl
  have hline := (escapeWikiLine_escapeWiki h.indented).1
  have hwritten := h.isBlockText (map_char_spellLine text)
  have hescaped : IsBlockText (escapeWiki text) := by
    rw [escapeWiki_eq]
    exact h.isBlockText (map_char_spell text)
  have hfeed : '\n' ∉ escapeWiki text := by
    rw [escapeWiki_eq]
    exact h.not_mem_written (map_char_spell text) (by decide) (by decide)
  have hstarts : escapeLineStarts .jspwiki (escapeWiki text) = Letter.writtenOf (spellLine text) := by
    rw [escapeLineStarts, Text.lines, splitAt_of_not_mem hfeed]
    exact hline
  have hjoined := joinBlocks_text "p" hescaped h.isSound.isBlankText hinner
  exact text_writeNode_paragraph hjoined hstarts hwritten.ne_nil (h.trimmed_written (map_char_spellLine text)) earlier
    later

/-- **A paragraph of a line of text is written as the line of its letters.** -/
theorem writePage_eq (h : IsTextLine text) :
    Writing.writePage .jspwiki (TextBlock.html ⟨"p", text⟩) = Letter.writtenOf (spellLine text) ++ ['\n'] := by
  have hwritten := h.isBlockText (map_char_spellLine text)
  have hpage := @writePage_page .jspwiki ⟨"p", text⟩ [] (fun block => Letter.writtenOf (spellLine block.text))
    (by simpa using h.isSound) (by simpa using hwritten)
    (by simpa using fun earlier later => h.text_writeNode _ earlier later)
  exact hpage.trans (tidy_line hwritten.ne_nil (h.trimmed_written (map_char_spellLine text))
    (h.not_mem_written (map_char_spellLine text) (by decide) (by decide)))

end IsTextLine

/-! ### What the line is -/

theorem isEmpty_takeWhile {p : Char → Bool} (h : ∀ c ∈ line.head?, p c = false) : line.takeWhile p = [] := by
  cases line with
  | nil => rfl
  | cons c rest => exact List.takeWhile_cons_of_neg (by simp [h c rfl])

theorem head_of_not_opensLine (h : opensLine line = false) : ∀ c ∈ line.head?, c ≠ '*' ∧ c ≠ '#' ∧ c ≠ '!' := by
  intro c hc
  cases line with
  | nil => cases hc
  | cons d rest =>
    obtain rfl : d = c := Option.some.inj hc
    simp only [opensLine, Bool.or_eq_false_iff, beq_eq_false_iff_ne] at h
    exact ⟨h.1.1.1, h.1.1.2, h.1.2⟩

theorem isRule_of_not_opensLine (h : opensLine line = false) : isRule line = false := by
  by_contra hrule
  have hdashes : 4 ≤ (line.takeWhile (· == '-')).length := by
    simp only [isRule, Bool.not_eq_false, Bool.and_eq_true, decide_eq_true_eq] at hrule
    exact hrule.1
  have hall : line.takeWhile (· == '-') = List.replicate (line.takeWhile (· == '-')).length '-' :=
    List.eq_replicate_of_mem fun c hc => by simpa using List.mem_takeWhile_imp hc
  obtain ⟨n, hn⟩ := Nat.exists_eq_add_of_le hdashes
  have hprefix : "----".toList <+: line := by
    rw [hn, List.replicate_add] at hall
    exact (List.IsPrefix.trans ⟨_, hall.symm⟩ (List.takeWhile_prefix _))
  have hstarts := startsWith_iff.mpr hprefix
  cases line with
  | nil => cases hstarts
  | cons c rest =>
    rw [opensLine, hstarts, Bool.or_true] at h
    cases h

/-- A line that starts with no brace and opens no item, heading or rule is a row, opens a style, is a definition,
or is text. -/
theorem lineKind_of (hne : line ≠ []) (htrimmed : Trimmed isBlank line) (hbraces : ¬ ['\x7b', '\x7b'] <+: line)
    (hopens : opensLine line = false) :
    LineKind.of false line =
      if line.head? = some '|' then .row
      else match styleOpening? line with
        | some style => .styleOpening style
        | none => match definition? line with
          | some (term, meaning) => .definition term meaning
          | none => .text := by
  have hstripped : trim line = line := htrimmed.trimWith_eq_self
  have hmark : after? preformattedMark line = none := by
    rw [Option.eq_none_iff_forall_ne_some]
    intro rest hrest
    exact hbraces ⟨'\x7b' :: rest, (after?_eq_some.mp hrest).symm⟩
  have hhead := head_of_not_opensLine hopens
  have hheading : heading? line = none := by
    rw [heading?, isEmpty_takeWhile fun c hc => beq_false_of_ne (hhead c hc).2.2]
    rfl
  have hitem : item? line = none := by
    rw [item?, isEmpty_takeWhile fun c hc => by
      rw [beq_false_of_ne (hhead c hc).1, beq_false_of_ne (hhead c hc).2.1]
      rfl]
    rfl
  have hempty : line.isEmpty = false := List.isEmpty_eq_false_iff.mpr hne
  unfold LineKind.of
  cases hstyle : styleOpening? line with
  | some style =>
    simp only [hstripped, hmark, hempty, hstyle, Option.filter_none, Bool.false_eq_true, if_false, beq_iff_eq]
  | none =>
    cases definition? line <;>
      simp only [hstripped, hmark, hempty, hheading, hitem, hstyle, isRule_of_not_opensLine hopens,
        Option.filter_none, Bool.and_false, Bool.false_eq_true, if_false, beq_iff_eq]

/-- A blank end of a trimmed text is empty. -/
theorem eq_nil_of_blank {front behind : List Char} (htrimmed : Trimmed isBlank (front ++ behind))
    (hblank : isBlankText behind = true) : behind = [] := by
  by_contra hne
  have hlast := htrimmed.last (behind.getLast hne) (by rw [List.getLast?_append, List.getLast?_eq_some_getLast hne]; rfl)
  rw [List.all_eq_true.mp hblank _ (List.getLast_mem hne)] at hlast
  cases hlast

/-- A mark and a name of a style, be it a style sheet in brackets or a word. -/
inductive IsStyleLine : List Char → Prop
  | sheet {inner : List Char} (closed : ')' ∉ inner) : IsStyleLine ('%' :: '%' :: '(' :: (inner ++ [')']))
  | word {c : Char} {more : List Char} (latin : isLatin c = true)
      (chars : ∀ d ∈ more, isNameChar d = true) : IsStyleLine ('%' :: '%' :: c :: more)

theorem isStyleLine_of_styleOpening? (htrimmed : Trimmed isBlank line)
    (h : (styleOpening? line).isSome = true) : IsStyleLine line := by
  have hname : (fun d => isWordChar d || d == '-') = isNameChar := rfl
  unfold styleOpening? at h
  simp only [drop_takeWhile, hname] at h
  split at h
  next rest hrest =>
    obtain rfl : line = '%' :: '%' :: '(' :: rest := after?_eq_some.mp hrest
    split at h
    next behind hbehind =>
      split at h
      next hblank =>
        have hsplit := List.takeWhile_append_dropWhile (p := (· != ')')) (l := rest)
        rw [hbehind] at hsplit
        have hclosed : ')' ∉ rest.takeWhile (· != ')') := fun hmem => by
          simpa using List.mem_takeWhile_imp hmem
        generalize rest.takeWhile (· != ')') = inner at hsplit hclosed
        obtain rfl := hsplit.symm
        obtain rfl : behind = [] := by
          refine @eq_nil_of_blank ('%' :: '%' :: '(' :: (inner ++ [')'])) behind ?_ hblank
          simpa using htrimmed
        exact .sheet hclosed
      next => cases h
    next => cases h
  next c rest hne hrest =>
    obtain rfl : line = '%' :: '%' :: c :: rest := after?_eq_some.mp hrest
    split at h
    next hletters =>
      rw [Bool.and_eq_true] at hletters
      have hsplit := List.takeWhile_append_dropWhile (p := isNameChar) (l := rest)
      have hchars : ∀ d ∈ rest.takeWhile isNameChar, isNameChar d = true := fun d hd =>
        List.mem_takeWhile_imp hd
      generalize rest.takeWhile isNameChar = more at hsplit hchars
      have hrest : rest.dropWhile isNameChar = [] := by
        refine @eq_nil_of_blank ('%' :: '%' :: c :: more) _ ?_ hletters.2
        rw [List.cons_append, List.cons_append, List.cons_append, hsplit]
        exact htrimmed
      rw [hrest, List.append_nil] at hsplit
      exact hsplit ▸ .word hletters.1 hchars
    next => cases h
  next => cases h

theorem IsStyleLine.styleOpening? (h : IsStyleLine line) : (styleOpening? line).isSome = true := by
  have hname : (fun d => isWordChar d || d == '-') = isNameChar := rfl
  cases h with
  | @sheet inner closed =>
    have hopen : ∀ c ∈ inner, (c != ')') = true := fun c hc => by
      simpa using fun heq : c = ')' => closed (heq ▸ hc)
    have hafter : after? "%%".toList ('%' :: '%' :: '(' :: (inner ++ [')'])) = some ('(' :: (inner ++ [')'])) :=
      after?_eq_some.mpr rfl
    have hinner : (inner ++ [')']).takeWhile (· != ')') = inner := by
      rw [List.takeWhile_append_of_pos hopen, List.takeWhile_cons_of_neg (by decide), List.append_nil]
    rw [Wiki.styleOpening?, hafter]
    simp [hinner, isBlankText]
  | @word c more latin chars =>
    have hafter : after? "%%".toList ('%' :: '%' :: c :: more) = some (c :: more) := after?_eq_some.mpr rfl
    have hmore : more.takeWhile isNameChar = more := List.takeWhile_eq_self_iff.mpr chars
    have hparen : c ≠ '(' := ne_of_isLatin latin (by decide)
    rw [Wiki.styleOpening?, hafter]
    simp [hname, hmore, latin, isBlankText]

/-- A line opens a style if there is a mark and a name on it, and nothing else. -/
theorem styleOpening?_isSome (htrimmed : Trimmed isBlank line) :
    (styleOpening? line).isSome = true ↔ IsStyleLine line :=
  ⟨isStyleLine_of_styleOpening? htrimmed, IsStyleLine.styleOpening?⟩

/-! ### What the escaping overlooks -/

/-- What is not made literal: the bar of a row, a definition, a style in a line of its own, and a style within
the text. -/
inductive IsOverlooked : List Char → Prop
  | row (rest : List Char) : IsOverlooked ('|' :: rest)
  | definition (term meaning : List Char) : IsOverlooked (';' :: (term ++ ':' :: meaning))
  | styleBlock {name : List Char} (names : IsStyleWord name) : IsOverlooked ('%' :: '%' :: name)
  | style {text : List Char} (styled : HasStyle text) : IsOverlooked text

/-- A character that means nothing at the start of a line is written as it is there. -/
theorem spellLine_char (hc : c ∉ ['*', '#', '!', '-', '~', '[', '_', '\'', '\x7b', '\\']) (rest : List Char) :
    spellLine (c :: rest) = ⟨c, .plain⟩ :: spell rest := by
  simp only [List.mem_cons, List.not_mem_nil, or_false, not_or] at hc
  obtain ⟨hstar, hnumber, hmark, hdash, htilde, hbracket, hlow, hquote, hbrace, hslash⟩ := hc
  have hspell : spell (c :: rest) = ⟨c, .plain⟩ :: spell rest :=
    spell_char htilde hbracket (by simp [pairedMarks, hlow, hquote, hbrace, hslash])
  rcases spellLine_cases (c :: rest) with ⟨heq, -⟩ | ⟨d, more, hd, -, hmem, -⟩
  · rw [heq, hspell]
  · obtain ⟨rfl, -⟩ : c = d ∧ _ := by simpa [hspell] using hd
    simp [hstar, hnumber, hmark, hdash] at hmem

section Kinds

variable {letters : List Letter}

/-- The line starts with a character that means nothing within it exactly if its text does. -/
theorem exists_front (hd : c ∉ ['*', '#', '!', '-', '~', '[', '_', '\'', '\x7b', '\\']) (text : List Char) :
    (∃ rest, Letter.writtenOf (spellLine text) = c :: rest) ↔ ∃ rest, text = c :: rest := by
  constructor
  · rintro ⟨rest, hrest⟩
    obtain ⟨more, hmore, -⟩ := exists_cons_of_writtenOf (areSpelled_spellLine text).sound
      (fun heq => hd (by rw [heq]; decide)) (fun heq => hd (by rw [heq]; decide)) hrest
    exact ⟨more.map Letter.char, by rw [← map_char_spellLine text, hmore]; rfl⟩
  · rintro ⟨rest, rfl⟩
    exact ⟨Letter.writtenOf (spell rest), by rw [spellLine_char hd]; rfl⟩

theorem isRow_iff (text : List Char) :
    (Letter.writtenOf (spellLine text)).head? = some '|' ↔ ∃ rest, text = '|' :: rest := by
  rw [List.head?_eq_some_iff]
  exact exists_front (by decide) text

theorem definition?_isSome (text : List Char) : (definition? (Letter.writtenOf (spellLine text))).isSome = true ↔
    ∃ term meaning, text = ';' :: (term ++ ':' :: meaning) := by
  have hcolon : ∀ line : List Char, (cut? [':'] line).isSome = true ↔ ':' ∈ line := fun line =>
    (hasInfix_iff : hasInfix [':'] line = true ↔ _).trans (List.singleton_infix_iff ':' line)
  have hdefinition : ∀ rest, (definition? (';' :: rest)).isSome = true ↔ ':' ∈ rest := by
    intro rest
    rw [definition?, Option.isSome_map, hcolon]
  constructor
  · intro h
    obtain ⟨rest, hrest⟩ : ∃ rest, Letter.writtenOf (spellLine text) = ';' :: rest := by
      unfold definition? at h
      split at h
      next rest heq => exact ⟨rest, heq⟩
      next => cases h
    rw [hrest, hdefinition] at h
    obtain ⟨more, hmore, rfl⟩ := exists_cons_of_writtenOf (areSpelled_spellLine text).sound (by decide) (by decide) hrest
    obtain ⟨term, meaning, hsplit⟩ := List.append_of_mem ((mem_writtenOf h).resolve_left (by decide))
    refine ⟨term, meaning, ?_⟩
    rw [← map_char_spellLine text, hmore, List.map_cons, hsplit]
  · rintro ⟨term, meaning, rfl⟩
    rw [spellLine_char (by decide)]
    refine (hdefinition _).mpr (mem_writtenOf_of_char ?_)
    rw [map_char_spell]
    simp

/-- A written line begins with two characters that nothing is written before, so the text does. -/
theorem exists_cons_cons_of_writtenLine {rest : List Char}
    (h : Letter.writtenOf (spellLine text) = '%' :: '%' :: rest) :
    ∃ letters, AreSpelled letters ∧ Letter.writtenOf letters = rest ∧
      text = '%' :: '%' :: letters.map Letter.char := by
  have spelled := areSpelled_spellLine text
  obtain ⟨l1, h1, hl1⟩ := exists_cons_of_writtenOf spelled.sound (by decide) (by decide) h
  have hsound1 : ∀ letter ∈ l1, letter.IsSound := fun l hl => spelled.sound l (h1 ▸ List.mem_cons_of_mem _ hl)
  obtain ⟨l2, rfl, hl2⟩ := exists_cons_of_writtenOf hsound1 (by decide) (by decide) hl1
  refine ⟨l2, spelled.of_part ⟨[⟨'%', .plain⟩, ⟨'%', .plain⟩], [], by rw [h1]; simp⟩, hl2, ?_⟩
  rw [← map_char_spellLine text, h1]
  rfl

/-- The name on a line that opens a style is the one that the text has there. -/
theorem isStyleWord_of_isStyleLine (h : IsStyleLine (Letter.writtenOf (spellLine text))) :
    ∃ name, IsStyleWord name ∧ text = '%' :: '%' :: name := by
  generalize hline : Letter.writtenOf (spellLine text) = line at h
  cases h with
  | @sheet inner closed =>
    obtain ⟨l2, spelled, hl2, htext⟩ := exists_cons_cons_of_writtenLine hline
    refine ⟨_, ?_, htext⟩
    obtain ⟨l3, rfl, hl3⟩ := exists_cons_of_writtenOf spelled.sound (by decide) (by decide) hl2
    have hsound3 : ∀ letter ∈ l3, letter.IsSound := fun l hl => spelled.sound l (List.mem_cons_of_mem _ hl)
    obtain ⟨init, rfl, rfl⟩ := exists_concat_of_writtenOf hsound3 (by decide) (by decide) hl3
    have hinit : ')' ∉ init.map Letter.char := fun hmem => closed (mem_writtenOf_of_char hmem)
    simpa using IsStyleWord.sheet hinit
  | @word c more latin chars =>
    obtain ⟨l2, spelled, hl2, htext⟩ := exists_cons_cons_of_writtenLine hline
    refine ⟨_, ?_, htext⟩
    have hnot : ∀ {d : Char}, isLatin d = false → isNameChar d = false → d ∉ c :: more := by
      intro d hd hd' hmem
      rcases List.mem_cons.mp hmem with rfl | hmem
      · cases hd.symm.trans latin
      · cases hd'.symm.trans (chars d hmem)
    obtain rfl := eq_plain_of_writtenOf spelled.sound (hnot (by decide) (by decide))
      (hnot (by decide) (by decide)) hl2
    have hsingle : ¬ ['_', '_'] <:+: more := by
      refine fun hwithin => spelled.sparse '_' (by decide) ?_
      exact (hwithin.map (⟨·, .plain⟩)).trans (List.suffix_cons (⟨c, .plain⟩ : Letter) _).isInfix
    rw [List.map_map]
    exact (List.map_id' (c :: more)).symm ▸ IsStyleWord.word latin chars hsingle

theorem isStyleLine_of_isStyleWord {name : List Char} (names : IsStyleWord name) :
    IsStyleLine (Letter.writtenOf (spellLine ('%' :: '%' :: name))) := by
  have hpercent : spell ('%' :: name) = ⟨'%', .plain⟩ :: spell name :=
    spell_char (by decide) (by decide) (by decide)
  rw [spellLine_char (by decide), hpercent]
  cases names with
  | @sheet inner closed =>
    rw [spell_char (by decide) (by decide) (by decide), spell_append (by simp; decide),
      spell_char (by decide) (by decide) (by decide)]
    show IsStyleLine ('%' :: '%' :: '(' :: Letter.writtenOf (spell inner ++ [⟨')', .plain⟩]))
    rw [writtenOf_append]
    refine .sheet fun hmem => closed ?_
    simpa using (mem_writtenOf hmem).resolve_left (by decide)
  | @word c more latin chars single =>
    rw [spell_styleWord latin chars single]
    show IsStyleLine ('%' :: '%' :: Letter.writtenOf ((c :: more).map fun d => ⟨d, .plain⟩))
    rw [writtenOf_plain]
    exact .word latin chars

/-- A style is opened by the line exactly if it is by the text, with a name that is not broken up. -/
theorem styleOpening?_written (h : IsTextLine text) :
    (styleOpening? (Letter.writtenOf (spellLine text))).isSome = true ↔
      ∃ name, IsStyleWord name ∧ text = '%' :: '%' :: name := by
  rw [styleOpening?_isSome (h.trimmed_written (map_char_spellLine text))]
  constructor
  · exact isStyleWord_of_isStyleLine
  · rintro ⟨name, names, rfl⟩
    exact isStyleLine_of_isStyleWord names

end Kinds

/-! ### The page -/

theorem fragmentsOf_line (hnul : '\x00' ∉ line) (hreturn : '\r' ∉ line) (hfeed : '\n' ∉ line) :
    fragmentsOf (line ++ ['\n']) = fragmentsFrom .empty [line, []] := by
  have hkept : (line ++ ['\n']).filter (· != '\x00') = line ++ ['\n'] :=
    List.filter_eq_self.mpr fun c hc => by
      rcases List.mem_append.mp hc with hc | hc
      · simpa using fun heq : c = '\x00' => hnul (heq ▸ hc)
      · rw [List.mem_singleton.mp hc]
        decide
  have hnormal : normalizeNewlines (line ++ ['\n']) = line ++ ['\n'] :=
    normalizeNewlines_eq_self (by simpa using hreturn)
  rw [fragmentsOf, pageLines, hkept, hnormal, Text.lines, splitAt_append hfeed]
  rfl

/-- The block that the only line of a page is, if it is a row, a definition, a style or text. -/
def blockOf (line : List Char) : LineKind → List Fragment
  | .row => [.table [line]]
  | .styleOpening style => [.styleOpening style, .styleClosing]
  | .definition term meaning => [.definition term meaning]
  | _ => [.paragraph [line]]

/-- The kinds of lines that prose can be read as once it was made literal. -/
inductive IsProseKind : LineKind → Prop
  | row : IsProseKind .row
  | styleOpening (style : List Char) : IsProseKind (.styleOpening style)
  | definition (term meaning : List Char) : IsProseKind (.definition term meaning)
  | text : IsProseKind .text

theorem fragmentsFrom_line {kind : LineKind} (h : LineKind.of false line = kind) (hkind : IsProseKind kind) :
    fragmentsFrom .empty [line, []] = blockOf line kind := by
  have hfirst : LineKind.of (Pending.empty.styles != 0) line = kind := h
  show (Pending.empty.stepLine line).2 ++ fragmentsFrom (Pending.empty.stepLine line).1 [[]] = blockOf line kind
  rw [Pending.stepLine, hfirst]
  cases hkind <;> rfl

/-- **A page of one such line is rendered as a paragraph of a text exactly if the line is read as text**, and its
inline markup as the text. -/
theorem renderPage_line (context : Context) (hnul : '\x00' ∉ line) (hreturn : '\r' ∉ line) (hfeed : '\n' ∉ line)
    {kind : LineKind} (h : LineKind.of false line = kind) (hkind : IsProseKind kind) (text : List Char) :
    renderPage context (line ++ ['\n']) = TextBlock.html ⟨"p", text⟩ ↔
      kind = .text ∧ renderInline context line = Html.escape text := by
  rw [renderPage, fragmentsOf_line hnul hreturn hfeed, fragmentsFrom_line h hkind]
  -- The tag of a block shows in its first two characters.
  have hother : ∀ {tag more : List Char}, tag.take 2 ≠ ['<', 'p'] → 2 ≤ tag.length →
      tag ++ more ≠ TextBlock.html ⟨"p", text⟩ := by
    intro tag more hne hlength heq
    have htake : (tag ++ more).take 2 = tag.take 2 := List.take_append_of_le_length hlength
    rw [← htake, heq] at hne
    exact hne (by simp [TextBlock.html, startTagText])
  cases hkind with
  | row =>
    have hrendered : ∃ more, unlines ((blockOf line .row).map (Fragment.render context)) = "<table".toList ++ more :=
      ⟨_, rfl⟩
    obtain ⟨more, hmore⟩ := hrendered
    exact iff_of_false (hmore ▸ hother (by decide) (by decide)) (by simp)
  | styleOpening style =>
    have hrendered : ∃ more, unlines ((blockOf line (.styleOpening style)).map (Fragment.render context))
        = "<div".toList ++ more := by
      refine ⟨styleAttribute style ++ (['>', '\n'] ++ "</div>".toList), ?_⟩
      show unlines [(openStyle "div" (Piece.ofText style)).flatMap Piece.text, "</div>".toList] = _
      rw [text_openStyle]
      simp only [unlines, joinWith, List.append_assoc, List.cons_append, List.nil_append]
    obtain ⟨more, hmore⟩ := hrendered
    exact iff_of_false (hmore ▸ hother (by decide) (by decide)) (by simp)
  | definition term meaning =>
    have hrendered : ∃ more, unlines ((blockOf line (.definition term meaning)).map (Fragment.render context))
        = "<dl>".toList ++ more := ⟨_, rfl⟩
    obtain ⟨more, hmore⟩ := hrendered
    exact iff_of_false (hmore ▸ hother (by decide) (by decide)) (by simp)
  | text =>
    have hrendered : unlines ((blockOf line .text).map (Fragment.render context))
        = startTagText "p" ++ renderInline context line ++ endTagText "p" := rfl
    rw [hrendered, TextBlock.html, List.append_assoc, List.append_assoc, List.append_cancel_left_eq,
      List.append_cancel_right_eq]
    simp

/-! ### There and back -/

/-- The letters of a text with a style in it end with those of the style. -/
theorem exists_spellLine_append {before rest : List Char} (h : ∀ c ∈ rest.head?, c = '%') :
    ∃ front, spellLine (before ++ rest) = front ++ spell rest := by
  have hspell : spell (before ++ rest) = spell before ++ spell rest :=
    spell_append (fun c hc => by rw [h c hc]; decide) before
  rcases spellLine_cases (before ++ rest) with ⟨heq, -⟩ | ⟨c, more, hfirst, heq, hc, -⟩
  · exact ⟨spell before, heq.trans hspell⟩
  · cases before with
    | nil =>
      -- What opens the line is no mark of a style.
      have hhead := head?_spellFrom (congrArg List.head? hfirst)
      obtain rfl := h c hhead
      simp at hc
    | cons d others =>
      obtain ⟨letter, letters, hletters⟩ := List.exists_cons_of_ne_nil
        (fun hnil => by simpa [hnil] using map_char_spell (d :: others) : spell (d :: others) ≠ [])
      rw [hspell, hletters, List.cons_append] at hfirst
      obtain ⟨rfl, rfl⟩ := List.cons.inj hfirst
      exact ⟨⟨c, .tilde⟩ :: letters, heq⟩

/-- What the line of a text is read as. -/
theorem lineKind_written (h : IsTextLine text) :
    ∃ kind, LineKind.of false (Letter.writtenOf (spellLine text)) = kind ∧ IsProseKind kind ∧
      (kind = .text ↔ (¬ ∃ rest, text = '|' :: rest) ∧ (¬ ∃ name, IsStyleWord name ∧ text = '%' :: '%' :: name) ∧
        ¬ ∃ term meaning, text = ';' :: (term ++ ':' :: meaning)) := by
  have spelled := areSpelled_spellLine text
  have hletters := map_char_spellLine text
  have hbraces : ¬ ['\x7b', '\x7b'] <+: Letter.writtenOf (spellLine text) := by
    rintro ⟨rest, hrest⟩
    obtain ⟨more, hmore, hwritten⟩ := exists_cons_of_writtenOf spelled.sound (by decide) (by decide) hrest.symm
    have hsound : ∀ letter ∈ more, letter.IsSound := fun l hl => spelled.sound l (hmore ▸ List.mem_cons_of_mem _ hl)
    obtain ⟨others, rfl, -⟩ := exists_cons_of_writtenOf hsound (by decide) (by decide) hwritten
    exact spelled.sparse '\x7b' (by decide) (hmore ▸ (List.prefix_append [_, _] others).isInfix)
  have hkind := lineKind_of (h.isBlockText hletters).ne_nil (h.trimmed_written hletters) hbraces
    (escapeWikiLine_escapeWiki h.indented).2
  rw [← isRow_iff, ← styleOpening?_written h, ← definition?_isSome]
  by_cases hrow : (Letter.writtenOf (spellLine text)).head? = some '|'
  · rw [if_pos hrow] at hkind
    exact ⟨_, hkind, .row, by simp [hrow]⟩
  rw [if_neg hrow] at hkind
  cases hstyle : styleOpening? (Letter.writtenOf (spellLine text)) with
  | some style =>
    rw [hstyle] at hkind
    exact ⟨_, hkind, .styleOpening style, by simp⟩
  | none =>
    rw [hstyle] at hkind
    cases hdefinition : definition? (Letter.writtenOf (spellLine text)) with
    | some found =>
      rw [hdefinition] at hkind
      exact ⟨_, hkind, .definition found.1 found.2, by simp⟩
    | none =>
      rw [hdefinition] at hkind
      exact ⟨_, hkind, .text, by simp [hrow]⟩

/-- **Prose is protected, but for what is overlooked.**  A paragraph of a line of text is written so that it is
read as a paragraph of that text, exactly if nothing in the text is overlooked. -/
theorem prose_protected (context : Context) (h : IsTextLine text) :
    renderPage context (Writing.writePage .jspwiki (TextBlock.html ⟨"p", text⟩)) = TextBlock.html ⟨"p", text⟩ ↔
      ¬ IsOverlooked text := by
  have spelled := areSpelled_spellLine text
  have hletters := map_char_spellLine text
  have hnul : '\x00' ∉ Letter.writtenOf (spellLine text) := fun hmem =>
    (h.chars _ (hletters ▸ (mem_writtenOf hmem).resolve_left (by decide))).1 rfl
  obtain ⟨kind, hof, hkind, htext⟩ := lineKind_written h
  rw [h.writePage_eq, renderPage_line context hnul (h.not_mem_written hletters (by decide) (by decide))
    (h.not_mem_written hletters (by decide) (by decide)) hof hkind, htext]
  constructor
  · rintro ⟨⟨hrow, hstyle, hdefinition⟩, hinline⟩ hoverlooked
    cases hoverlooked with
    | row rest => exact hrow ⟨rest, rfl⟩
    | definition term meaning => exact hdefinition ⟨term, meaning, rfl⟩
    | styleBlock names => exact hstyle ⟨_, names, rfl⟩
    | style styled =>
      obtain ⟨before, name, content, behind, names, rfl⟩ := styled
      obtain ⟨front, hfront⟩ := @exists_spellLine_append before
        ('%' :: '%' :: (name ++ ' ' :: (content ++ '/' :: '%' :: behind))) (by simp)
      have hbracket := bracket_mem_renderInline context isRespelling_id names spelled (by rw [hfront, List.map_id])
      rw [hinline] at hbracket
      exact bracket_not_mem_escape _ hbracket
  · intro hnot
    refine ⟨⟨?_, ?_, ?_⟩, ?_⟩
    · rintro ⟨rest, rfl⟩
      exact hnot (.row rest)
    · rintro ⟨name, names, rfl⟩
      exact hnot (.styleBlock names)
    · rintro ⟨term, meaning, rfl⟩
      exact hnot (.definition term meaning)
    · have hrendered := renderInline_eq_escape context spelled (by rw [hletters]; exact fun _ => h.eq_space)
        (by rw [hletters]; exact fun styled => hnot (.style styled))
      rwa [hletters] at hrendered

theorem not_hasStyle (hmark : ¬ ['%', '%'] <:+: text) : ¬ HasStyle text := by
  rintro ⟨before, name, content, behind, -, rfl⟩
  exact hmark ⟨before, name ++ ' ' :: (content ++ '/' :: '%' :: behind), by simp⟩

/-- Where no line of the three kinds begins and no two percent signs follow each other, nothing is overlooked. -/
theorem not_isOverlooked (hbar : text.head? ≠ some '|') (hsemicolon : text.head? ≠ some ';')
    (hmark : ¬ ['%', '%'] <:+: text) : ¬ IsOverlooked text := by
  intro h
  cases h with
  | row rest => exact hbar rfl
  | definition term meaning => exact hsemicolon rfl
  | styleBlock names => exact hmark (List.prefix_append ['%', '%'] _).isInfix
  | style styled => exact not_hasStyle hmark styled

theorem star_protected :
    let text := "* ~[a|b] [\x7bX\x7d] __b__ ''i'' \x7b\x7bm\x7d\x7d \\\\ 5 %sup x/% | ;a:b".toList
    IsTextLine text ∧ ¬ IsOverlooked text ∧
      renderPage plainContext (Writing.writePage .jspwiki (TextBlock.html ⟨"p", text⟩)) =
        TextBlock.html ⟨"p", text⟩ := by
  have hline : IsTextLine "* ~[a|b] [\x7bX\x7d] __b__ ''i'' \x7b\x7bm\x7d\x7d \\\\ 5 %sup x/% | ;a:b".toList := by decide +kernel
  have hnot := @not_isOverlooked "* ~[a|b] [\x7bX\x7d] __b__ ''i'' \x7b\x7bm\x7d\x7d \\\\ 5 %sup x/% | ;a:b".toList
    (by decide) (by decide) (by decide +kernel)
  exact ⟨hline, hnot, (prose_protected plainContext hline).mpr hnot⟩

/-- A text with a bar at its start is read as a table. -/
theorem bar_not_protected :
    IsTextLine "|a".toList ∧
      renderPage plainContext (Writing.writePage .jspwiki (TextBlock.html ⟨"p", "|a".toList⟩)) ≠
        TextBlock.html ⟨"p", "|a".toList⟩ := by
  decide +kernel

end WikiMigration.Conversion
