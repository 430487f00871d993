/-
Styles in a line.

A style is a mark, a name, a blank, and a text up to the end of the style.  It is found in a line exactly if it
stands in the text that the line was made of: no part of it is made literal, but for two low lines side by side
in a name that is a word.
-/
import WikiMigration.Proofs.Wiki.Literal

namespace WikiMigration.Wiki

open Text Writing
open Html (isEntityChar)

variable {c d m : Char} {text : List Char} {letters : List Letter} {fragments : List (List Char)}
variable {piece : Piece} {pieces front behind : List Piece}

/-! ### Running text as HTML -/

@[simp] theorem escapePieces_append (xs ys : List Piece) :
    escapePieces (xs ++ ys) = escapePieces xs ++ escapePieces ys := List.flatMap_append

theorem escapePieces_cons (piece : Piece) (pieces : List Piece) :
    escapePieces (piece :: pieces) = escapePieces [piece] ++ escapePieces pieces :=
  escapePieces_append [piece] pieces

theorem escapePieces_ofText (text : List Char) :
    escapePieces (Piece.ofText text) = Piece.ofText (Html.escape text) := by
  rw [escapePieces, Piece.ofText, List.flatMap_map, Html.escape, Piece.ofText, List.map_flatMap]
  rfl

/-- A piece is written as it is, or as an entity. -/
theorem escapePieces_singleton (piece : Piece) : escapePieces [piece] = [piece] ∨
    ∃ entity, escapePieces [piece] = Piece.ofText ('&' :: entity) ∧ ∀ c ∈ '&' :: entity, isEntityChar c = true := by
  cases piece with
  | held index => exact Or.inl rfl
  | char c =>
    have hescape : escapePieces [.char c] = Piece.ofText (Html.escapeChar c) := List.append_nil _
    rw [hescape]
    unfold Html.escapeChar
    split
    · exact Or.inr ⟨"amp;".toList, rfl, List.all_eq_true.mp (by decide)⟩
    split
    · exact Or.inr ⟨"lt;".toList, rfl, List.all_eq_true.mp (by decide)⟩
    split
    · exact Or.inr ⟨"gt;".toList, rfl, List.all_eq_true.mp (by decide)⟩
    · exact Or.inl rfl

theorem escapePieces_eq_nil (h : escapePieces pieces = []) : pieces = [] := by
  cases pieces with
  | nil => rfl
  | cons piece rest =>
    rw [escapePieces_cons] at h
    have hfirst := (List.append_eq_nil_iff.mp h).1
    rcases escapePieces_singleton piece with heq | ⟨entity, heq, -⟩
    · cases heq.symm.trans hfirst
    · cases heq.symm.trans hfirst

theorem char_mem_escapePieces (hc : Html.escapeChar c = [c]) (h : Piece.char c ∈ pieces) :
    Piece.char c ∈ escapePieces pieces := by
  refine List.mem_flatMap.mpr ⟨.char c, h, ?_⟩
  show Piece.char c ∈ Piece.ofText (Html.escapeChar c)
  rw [hc]
  exact List.mem_singleton_self _

/-- A character that no entity is made of stands for itself, and parts what stands before it from what stands
behind. -/
theorem split_escapePieces (hd : isEntityChar d = false) (h : escapePieces pieces = front ++ .char d :: behind) :
    ∃ before after, pieces = before ++ .char d :: after ∧ escapePieces before = front ∧
      escapePieces after = behind := by
  induction pieces generalizing front with
  | nil => exact absurd h.symm (by simp [escapePieces])
  | cons piece rest ih =>
    have later : ∀ {more}, front = escapePieces [piece] ++ more → escapePieces rest = more ++ .char d :: behind →
        ∃ before after, piece :: rest = before ++ .char d :: after ∧ escapePieces before = front ∧
          escapePieces after = behind := by
      intro more hfront hrest
      obtain ⟨before, after, rfl, hbefore, hafter⟩ := ih hrest
      exact ⟨piece :: before, after, rfl, by rw [escapePieces_cons, hbefore, hfront], hafter⟩
    rw [escapePieces_cons] at h
    rcases List.append_eq_append_iff.mp h with ⟨more, hfront, hrest⟩ | ⟨more, hfirst, hbehind⟩
    · exact later hfront hrest
    cases more with
    | nil => exact @later [] (by simpa using hfirst.symm) (by simpa using hbehind.symm)
    | cons other more =>
      -- The character is in what the first piece is written as, so the piece is the character.
      obtain ⟨rfl, hbehind⟩ := List.cons.inj hbehind
      rcases escapePieces_singleton piece with heq | ⟨entity, heq, hentity⟩
      · obtain ⟨rfl, rfl, rfl⟩ : front = [] ∧ piece = .char d ∧ more = [] := by
          rw [heq] at hfirst
          cases front with
          | nil => simpa using hfirst
          | cons x xs => simp at hfirst
        exact ⟨[], rest, rfl, rfl, by simpa using hbehind.symm⟩
      · have hmem : Piece.char d ∈ Piece.ofText ('&' :: entity) := by
          rw [← heq, hfirst]
          simp
        obtain ⟨e, he, hed⟩ := List.mem_map.mp hmem
        rw [← Piece.char.inj hed, hentity e he] at hd
        cases hd

theorem char_mem_of_escapePieces (hc : isEntityChar c = false) (h : Piece.char c ∈ escapePieces pieces) :
    Piece.char c ∈ pieces := by
  obtain ⟨front, behind, heq⟩ := List.append_of_mem h
  obtain ⟨before, after, rfl, -, -⟩ := split_escapePieces hc heq
  simp

/-- The same for a character at the front. -/
theorem head_escapePieces (hd : isEntityChar d = false) (h : escapePieces pieces = .char d :: behind) :
    ∃ after, pieces = .char d :: after ∧ escapePieces after = behind := by
  obtain ⟨before, after, rfl, hbefore, hafter⟩ := @split_escapePieces d pieces [] behind hd h
  rw [escapePieces_eq_nil hbefore]
  exact ⟨after, rfl, hafter⟩

/-- Text without the sign that entities start with is written as it is. -/
theorem eq_of_escapePieces (hamp : '&' ∉ text) (h : escapePieces pieces = Piece.ofText text) :
    pieces = Piece.ofText text := by
  induction text generalizing pieces with
  | nil => exact escapePieces_eq_nil h
  | cons c rest ih =>
    rw [List.mem_cons, not_or] at hamp
    cases pieces with
    | nil => cases h
    | cons piece others =>
      rw [escapePieces_cons, ofText_cons] at h
      rcases escapePieces_singleton piece with heq | ⟨entity, heq, -⟩
      · rw [heq] at h
        obtain ⟨rfl, hothers⟩ := List.cons.inj h
        rw [ih hamp.2 hothers, ofText_cons]
      · rw [heq] at h
        exact absurd (Piece.char.inj (List.cons.inj h).1) hamp.1

theorem isEntityChar_of_paired (h : m ∈ pairedMarks) : isEntityChar m = false := by
  simp only [pairedMarks, List.mem_cons, List.not_mem_nil, or_false] at h
  rcases h with rfl | rfl | rfl | rfl <;> decide

theorem AreQuiet.escapePieces (h : AreQuiet pieces) : AreQuiet (escapePieces pieces) where
  bracket hmem := h.bracket (char_mem_of_escapePieces (by decide) hmem)
  sparse m hm hwithin := by
    have hentity := isEntityChar_of_paired hm
    obtain ⟨front, behind, heq⟩ := hwithin
    rw [List.append_assoc] at heq
    obtain ⟨before, after, rfl, -, hafter⟩ := split_escapePieces hentity heq.symm
    obtain ⟨others, rfl, -⟩ := head_escapePieces hentity hafter
    exact h.sparse m hm ⟨before, others, by simp⟩

theorem escapeChar_of_escapable (h : isEscapable c = true) : Html.escapeChar c = [c] := by
  have hne : ∀ {d : Char}, isEscapable d = false → (c == d) = false := fun hd =>
    beq_false_of_ne fun heq => by rw [heq, hd] at h; cases h
  rw [Html.escapeChar, hne (by decide), hne (by decide), hne (by decide)]
  rfl

/-- Once its marks give way to what they stand for, a line is the text that its letters spell. -/
theorem restore_escapePieces (h : List.Forall₂ (StandsFor fragments) pieces letters)
    (sound : ∀ letter ∈ letters, letter.IsSound) :
    (Line.mk (escapePieces pieces) fragments).restore = Html.escape (letters.map Letter.char) := by
  have restore_cons : ∀ index (xs : List Piece), (Line.mk (.held index :: xs) fragments).restore
      = (fragments[index]?).getD [] ++ (Line.mk xs fragments).restore := fun _ _ => rfl
  induction h with
  | nil => rfl
  | @cons piece letter xs ys hletter _ ih =>
    have hrest := ih fun l hl => sound l (List.mem_cons_of_mem letter hl)
    have hsound := sound letter List.mem_cons_self
    rw [List.map_cons, Html.escape, List.flatMap_cons, ← Html.escape, ← hrest]
    obtain ⟨c, spelling⟩ := letter
    have hheld : ∀ index, fragments[index]? = some [c] → Html.escapeChar c = [c] →
        (Line.mk (Wiki.escapePieces (.held index :: xs)) fragments).restore
          = Html.escapeChar c ++ (Line.mk (Wiki.escapePieces xs) fragments).restore := by
      intro index hindex hc
      rw [hc]
      exact (restore_cons index _).trans (congrArg (·.getD [] ++ _) hindex)
    cases spelling with
    | plain =>
      obtain rfl : piece = .char c := hletter
      exact restore_ofText (Html.escapeChar c) (Wiki.escapePieces xs) fragments
    | tilde =>
      obtain ⟨index, rfl, hindex⟩ := hletter
      exact hheld index hindex (escapeChar_of_escapable hsound)
    | twice =>
      obtain ⟨index, rfl, hindex⟩ := hletter
      obtain rfl : c = '[' := hsound
      exact hheld index hindex (by decide)

/-! ### Names -/

/-- Whether the character may stand in a name that is a word. -/
def isNameChar (c : Char) : Bool := isWordChar c || c == '-'

/-- The name of a style: a text in parentheses, or a word that starts with a letter. -/
inductive NamesStyle : List Piece → Prop
  | sheet {inner : List Piece} (closed : Piece.char ')' ∉ inner) : NamesStyle (.char '(' :: (inner ++ [.char ')']))
  | word {c : Char} {more : List Char} (latin : isLatin c = true) (chars : ∀ d ∈ more, isNameChar d = true) :
    NamesStyle (Piece.ofText (c :: more))

theorem ne_of_isLatin (h : isLatin c = true) (hd : isLatin d = false) : c ≠ d := fun heq => by
  rw [heq, hd] at h
  cases h

/-- Pieces of which every one is a character of a class are a text. -/
theorem exists_ofText {p : Char → Bool} (h : ∀ piece ∈ pieces, piece.isChar p = true) :
    ∃ text, pieces = Piece.ofText text ∧ ∀ c ∈ text, p c = true := by
  induction pieces with
  | nil => exact ⟨[], rfl, fun _ hc => nomatch hc⟩
  | cons piece rest ih =>
    obtain ⟨text, rfl, htext⟩ := ih fun x hx => h x (List.mem_cons_of_mem piece hx)
    have hpiece := h piece List.mem_cons_self
    cases piece with
    | char c => exact ⟨c :: text, rfl, List.forall_mem_cons.mpr ⟨hpiece, htext⟩⟩
    | held index => cases hpiece

theorem namesStyle_of_styleName? {name rest : List Piece} (h : styleName? pieces = some (name, rest)) :
    NamesStyle name ∧ pieces = name ++ rest := by
  refine ⟨?_, (styleName?_eq_some h).2⟩
  cases pieces with
  | nil => cases h
  | cons piece others =>
    cases piece with
    | held index => cases h
    | char c =>
      by_cases hc : c = '('
      · subst hc
        rw [styleName?_sheet] at h
        split at h
        · obtain ⟨rfl, -⟩ := Prod.mk.inj (Option.some.inj h)
          exact .sheet fun hmem => by simpa [Piece.isChar] using List.mem_takeWhile_imp hmem
        · cases h
      · rw [styleName?_word hc] at h
        split at h
        next hlatin =>
          obtain ⟨rfl, -⟩ := Prod.mk.inj (Option.some.inj h)
          obtain ⟨more, hmore, hchars⟩ := @exists_ofText (others.takeWhile (Piece.isChar isNameChar)) isNameChar
            fun _ hx => List.mem_takeWhile_imp hx
          show NamesStyle (.char c :: others.takeWhile (Piece.isChar isNameChar))
          rw [hmore]
          exact .word hlatin hchars
        next => cases h

/-- A name with a space behind it is read as a name. -/
theorem styleName?_of_namesStyle {name : List Piece} (h : NamesStyle name) (rest : List Piece) :
    styleName? (name ++ .char ' ' :: rest) = some (name, .char ' ' :: rest) := by
  cases h with
  | @sheet inner closed =>
    have hopen : ∀ piece ∈ inner, (!piece.isChar (· == ')')) = true := by
      intro piece hpiece
      cases piece with
      | held index => rfl
      | char d => simpa [Piece.isChar] using fun heq : d = ')' => closed (heq ▸ hpiece)
    rw [List.cons_append, List.append_assoc, styleName?_sheet, List.dropWhile_append_of_pos hopen,
      List.takeWhile_append_of_pos hopen]
    simp [Piece.isChar]
  | @word c more latin chars =>
    have hname : ∀ piece ∈ Piece.ofText more, piece.isChar isNameChar = true := by
      intro piece hpiece
      obtain ⟨d, hd, rfl⟩ := List.mem_map.mp hpiece
      exact chars d hd
    have hspace : (Piece.char ' ').isChar isNameChar = false := by decide
    rw [ofText_cons, List.cons_append, styleName?_word (ne_of_isLatin latin (by decide)), if_pos latin]
    show some (Piece.char c :: List.takeWhile (Piece.isChar isNameChar) _,
      List.dropWhile (Piece.isChar isNameChar) _) = _
    rw [List.takeWhile_append_of_pos hname, List.dropWhile_append_of_pos hname, List.takeWhile_cons_of_neg (by simp [hspace]),
      List.dropWhile_cons_of_neg (by simp [hspace]), List.append_nil]

/-! ### Styles among the pieces of a line -/

/-- A style among the pieces: a mark, a name, a space, and a text up to the mark of its end. -/
def HasStyledPieces (pieces : List Piece) : Prop :=
  ∃ before name content behind, NamesStyle name ∧
    pieces = before ++ .char '%' :: .char '%' :: (name ++ .char ' ' :: (content ++ .char '/' :: .char '%' :: behind))

theorem foundIn_eq_nil {α : Type} {pattern : Pattern Piece α} : foundIn pattern pieces = [] ↔
    ∀ behind, behind <:+ pieces → behind ≠ [] → pattern behind = none := by
  constructor
  · intro h
    induction pieces with
    | nil => exact fun behind hbehind hne => absurd (List.suffix_nil.mp hbehind) hne
    | cons piece rest ih =>
      cases hfound : pattern (piece :: rest) with
      | some found =>
        rw [foundIn, parts, partsFrom, hfound] at h
        cases h
      | none =>
        rw [foundIn, parts_of_none hfound] at h
        intro behind hbehind hne
        rcases List.suffix_cons_iff.mp hbehind with rfl | hbehind
        · exact hfound
        · exact ih h behind hbehind hne
  · intro h
    rw [foundIn, parts_eq_items h]
    simp [foundOf, List.filterMap_map]

theorem hasStyledPieces_of_found {a : List Piece × List Piece} {n : Nat}
    (spaces : ∀ c, .char c ∈ pieces → isBlank c = true → c = ' ') (hsuffix : behind <:+ pieces)
    (h : stylePattern behind = some (a, n)) : HasStyledPieces pieces := by
  have hmark : Piece.ofText "%%".toList = [.char '%', .char '%'] := by decide
  have hclose : Piece.ofText "/%".toList = [.char '/', .char '%'] := by decide
  unfold stylePattern at h
  split at h
  · cases h
  next rest hrest =>
  have hbehind := afterChars?_eq_some hrest
  split at h
  next name blank content hname =>
    split at h
    next hblank =>
      obtain ⟨names, rfl⟩ := namesStyle_of_styleName? hname
      obtain ⟨front, hfront, -⟩ := Option.map_eq_some_iff.mp h
      obtain ⟨after, rfl⟩ := beforeChars?_eq_some hfront
      obtain ⟨before, rfl⟩ := hsuffix
      obtain rfl : blank = ' ' := spaces blank (by rw [hbehind]; simp) hblank
      exact ⟨before, name, front, after, names, by rw [hbehind, hmark, hclose]; simp⟩
    next => cases h
  next => cases h

theorem afterChars?_ofText (mark : List Char) (behind : List Piece) :
    afterChars? mark (Piece.ofText mark ++ behind) = some behind := by
  induction mark with
  | nil => rfl
  | cons c rest ih =>
    rw [ofText_cons, List.cons_append, afterChars?, if_pos (beq_self_eq_true c)]
    exact ih

/-- A text that occurs is found, there or earlier. -/
theorem exists_beforeChars? {mark : List Char} (hne : mark ≠ []) (content behind : List Piece) :
    ∃ front, beforeChars? mark (content ++ (Piece.ofText mark ++ behind)) = some front := by
  induction content with
  | nil =>
    obtain ⟨c, more, rfl⟩ := List.exists_cons_of_ne_nil hne
    have hafter : (afterChars? (c :: more) (.char c :: (Piece.ofText more ++ behind))).isSome = true := by
      rw [← List.cons_append, ← ofText_cons, afterChars?_ofText]
      rfl
    exact ⟨[], by rw [List.nil_append, ofText_cons, List.cons_append, beforeChars?, if_pos hafter]⟩
  | cons piece rest ih =>
    obtain ⟨front, hfront⟩ := ih
    rw [List.cons_append, beforeChars?]
    split
    · exact ⟨[], rfl⟩
    · exact ⟨piece :: front, by rw [hfront]; rfl⟩

theorem foundIn_style_ne_nil (h : HasStyledPieces pieces) : foundIn stylePattern pieces ≠ [] := by
  obtain ⟨before, name, content, behind, names, rfl⟩ := h
  intro hnil
  have hnone := foundIn_eq_nil.mp hnil _ (List.suffix_append before _) (by simp)
  obtain ⟨front, hfront⟩ := @exists_beforeChars? ['/', '%'] (by decide) content behind
  have hcontent : content ++ (Piece.ofText ['/', '%'] ++ behind) = content ++ .char '/' :: .char '%' :: behind := rfl
  rw [hcontent] at hfront
  rw [stylePattern_eq, styleName?_of_namesStyle names] at hnone
  have hblank : isBlank ' ' = true := by decide
  simp [hfront, hblank] at hnone

/-! ### Styles in running text -/

theorem namesStyle_escapePieces {name : List Piece} (h : NamesStyle name) : NamesStyle (escapePieces name) := by
  cases h with
  | @sheet inner closed =>
    have heq : escapePieces (.char '(' :: (inner ++ [.char ')']))
        = .char '(' :: (escapePieces inner ++ [.char ')']) := by
      rw [escapePieces_cons, escapePieces_append]
      rfl
    rw [heq]
    exact .sheet fun hmem => closed (char_mem_of_escapePieces (by decide) hmem)
  | @word c more latin chars =>
    have hplain : ∀ d ∈ c :: more, Html.escapeChar d = [d] := by
      have hname : ∀ {d : Char}, isNameChar d = true → Html.escapeChar d = [d] := by
        intro d hd
        have hne : ∀ {e : Char}, isNameChar e = false → (d == e) = false := fun he =>
          beq_false_of_ne fun heq => by rw [heq, he] at hd; cases hd
        rw [Html.escapeChar, hne (by decide), hne (by decide), hne (by decide)]
        rfl
      refine List.forall_mem_cons.mpr ⟨hname ?_, fun d hd => hname (chars d hd)⟩
      rw [isNameChar, isWordChar_of_isLatin latin, Bool.true_or]
    have heq : escapePieces (Piece.ofText (c :: more)) = Piece.ofText (c :: more) := by
      rw [escapePieces_ofText, escape_eq_self hplain]
    rw [heq]
    exact .word latin chars

theorem namesStyle_of_escapePieces {name : List Piece} (h : NamesStyle (escapePieces name)) : NamesStyle name := by
  generalize hescaped : escapePieces name = escaped at h
  cases h with
  | @sheet inner closed =>
    obtain ⟨others, rfl, hothers⟩ := head_escapePieces (by decide) hescaped
    obtain ⟨before, after, rfl, rfl, hafter⟩ := split_escapePieces (by decide) hothers
    rw [escapePieces_eq_nil hafter]
    exact .sheet fun hmem => closed (char_mem_escapePieces (by decide) hmem)
  | @word c more latin chars =>
    have hamp : '&' ∉ c :: more := by
      rw [List.mem_cons, not_or]
      exact ⟨(ne_of_isLatin latin (by decide)).symm, fun hmem => absurd (chars _ hmem) (by decide)⟩
    rw [eq_of_escapePieces hamp hescaped]
    exact .word latin chars

/-- A style stands in running text exactly if it stands in what the text is written as. -/
theorem hasStyledPieces_escapePieces : HasStyledPieces (escapePieces pieces) ↔ HasStyledPieces pieces := by
  constructor
  · rintro ⟨before, name, content, behind, names, heq⟩
    obtain ⟨start, p1, rfl, -, h1⟩ := split_escapePieces (by decide) heq
    obtain ⟨p2, rfl, h2⟩ := head_escapePieces (by decide) h1
    obtain ⟨title, p3, rfl, rfl, h3⟩ := split_escapePieces (by decide) h2
    obtain ⟨inner, p4, rfl, -, h4⟩ := split_escapePieces (by decide) h3
    obtain ⟨rest, rfl, -⟩ := head_escapePieces (by decide) h4
    exact ⟨start, title, inner, rest, namesStyle_of_escapePieces names, rfl⟩
  · rintro ⟨before, name, content, behind, names, rfl⟩
    refine ⟨escapePieces before, escapePieces name, escapePieces content, escapePieces behind,
      namesStyle_escapePieces names, ?_⟩
    have hsame : ∀ {c : Char} (others : List Piece), Html.escapeChar c = [c] →
        escapePieces (.char c :: others) = .char c :: escapePieces others := by
      intro c others hc
      have hone : escapePieces [.char c] = [.char c] :=
        (escapePieces_ofText [c]).trans (congrArg Piece.ofText (escape_eq_self (by simpa using hc)))
      rw [escapePieces_cons, hone]
      rfl
    simp only [escapePieces_append, hsame _ (by decide : Html.escapeChar '%' = ['%']),
      hsame _ (by decide : Html.escapeChar ' ' = [' ']), hsame _ (by decide : Html.escapeChar '/' = ['/'])]

/-! ### Styles in the text that letters spell -/

/-- The name of a style in a text that is made literal: a text in parentheses, or a word without two low lines
side by side. -/
inductive IsStyleWord : List Char → Prop
  | sheet {inner : List Char} (closed : ')' ∉ inner) : IsStyleWord ('(' :: (inner ++ [')']))
  | word {c : Char} {more : List Char} (latin : isLatin c = true) (chars : ∀ d ∈ more, isNameChar d = true)
    (single : ¬ ['_', '_'] <:+: more) : IsStyleWord (c :: more)

/-- A style in a text: a mark, a name, a space, and a text up to the mark of its end. -/
def HasStyle (text : List Char) : Prop :=
  ∃ before name content behind, IsStyleWord name ∧
    text = before ++ '%' :: '%' :: (name ++ ' ' :: (content ++ '/' :: '%' :: behind))

/-- What is read as the name of a style is the name of a style. -/
theorem isStyleWord_of_namesStyle {name : List Piece} (h : List.Forall₂ (StandsFor fragments) name letters)
    (spelled : AreSpelled letters) (names : NamesStyle name) : IsStyleWord (letters.map Letter.char) := by
  cases names with
  | @sheet inner closed =>
    obtain ⟨first, others, hfirst, hothers, rfl⟩ := List.forall₂_cons_left_iff.mp h
    obtain ⟨middle, last, rfl, hmiddle, hlast⟩ := forall₂_append_left hothers
    obtain rfl := standsFor_char.mp hfirst
    obtain rfl := @eq_of_ofText [')'] _ _ hlast
    have hclosed : ')' ∉ middle.map Letter.char := by
      intro hmem
      obtain ⟨letter, hletter, hchar⟩ := List.mem_map.mp hmem
      obtain ⟨front, behind, rfl⟩ := List.append_of_mem hletter
      obtain ⟨xs, ys, rfl, -, hys⟩ := forall₂_append_right hmiddle
      obtain ⟨piece, more, hpiece, -, rfl⟩ := List.forall₂_cons_right_iff.mp hys
      have hsound := spelled.sound letter (by simp)
      obtain ⟨c, spelling⟩ := letter
      obtain rfl : c = ')' := hchar
      cases spelling with
      | plain =>
        obtain rfl : piece = .char ')' := hpiece
        exact closed (by simp)
      | tilde => exact absurd hsound (by simp only [Letter.IsSound]; decide)
      | twice => exact absurd hsound (by simp only [Letter.IsSound]; decide)
    simpa using IsStyleWord.sheet hclosed
  | @word c more latin chars =>
    obtain rfl := eq_of_ofText h
    have hmap : ∀ text : List Char, (text.map fun c => (⟨c, .plain⟩ : Letter)).map Letter.char = text := by
      intro text
      rw [List.map_map]
      exact List.map_id' text
    rw [hmap]
    refine .word latin chars fun hwithin => spelled.sparse '_' (by decide) ?_
    exact (hwithin.map (⟨·, .plain⟩)).trans (List.suffix_cons (⟨c, .plain⟩ : Letter) _).isInfix

/-- A style that is found in the pieces of a line stands in its text. -/
theorem hasStyle_of_pieces (h : List.Forall₂ (StandsFor fragments) pieces letters) (spelled : AreSpelled letters)
    (styled : HasStyledPieces pieces) : HasStyle (letters.map Letter.char) := by
  obtain ⟨before, name, content, behind, names, rfl⟩ := styled
  obtain ⟨l0, l1, rfl, -, h1⟩ := forall₂_append_left h
  obtain ⟨first, l2, hfirst, h2, rfl⟩ := List.forall₂_cons_left_iff.mp h1
  obtain ⟨second, l3, hsecond, h3, rfl⟩ := List.forall₂_cons_left_iff.mp h2
  obtain ⟨title, l4, rfl, htitle, h4⟩ := forall₂_append_left h3
  obtain ⟨space, l5, hspace, h5, rfl⟩ := List.forall₂_cons_left_iff.mp h4
  obtain ⟨inner, l6, rfl, -, h6⟩ := forall₂_append_left h5
  obtain ⟨slash, l7, hslash, h7, rfl⟩ := List.forall₂_cons_left_iff.mp h6
  obtain ⟨last, rest, hlast, -, rfl⟩ := List.forall₂_cons_left_iff.mp h7
  rw [standsFor_char] at hfirst hsecond hspace hslash hlast
  subst hfirst hsecond hspace hslash hlast
  have hname := isStyleWord_of_namesStyle htitle (spelled.of_part ⟨l0 ++ [⟨'%', .plain⟩, ⟨'%', .plain⟩],
    ⟨' ', .plain⟩ :: (inner ++ ⟨'/', .plain⟩ :: ⟨'%', .plain⟩ :: rest), by simp⟩) names
  exact ⟨l0.map Letter.char, title.map Letter.char, inner.map Letter.char, rest.map Letter.char, hname, by simp⟩

/-- A word without two low lines side by side is written as it is. -/
theorem spell_word (chars : ∀ d ∈ text, isNameChar d = true) (single : ¬ ['_', '_'] <:+: text) :
    spell text = text.map (⟨·, .plain⟩) := by
  induction text with
  | nil => rfl
  | cons c rest ih =>
    have hc := chars c List.mem_cons_self
    have hne : ∀ {d : Char}, isNameChar d = false → c ≠ d := fun hd heq => by
      rw [heq, hd] at hc
      cases hc
    have hpair : ¬ (c ∈ pairedMarks ∧ rest.head? = some c) := by
      rintro ⟨hmark, hhead⟩
      simp only [pairedMarks, List.mem_cons, List.not_mem_nil, or_false] at hmark
      rcases hmark with rfl | rfl | rfl | rfl
      · obtain ⟨others, rfl⟩ := List.head?_eq_some_iff.mp hhead
        exact single (List.prefix_append ['_', '_'] others).isInfix
      · exact hne (by decide) rfl
      · exact hne (by decide) rfl
      · exact hne (by decide) rfl
    rw [spell_plain (hne (by decide)) (hne (by decide)) hpair,
      ih (fun d hd => chars d (List.mem_cons_of_mem c hd)) fun h => single (h.trans (List.suffix_cons c rest).isInfix)]
    rfl

theorem spell_styleWord {more : List Char} (latin : isLatin c = true) (chars : ∀ d ∈ more, isNameChar d = true)
    (single : ¬ ['_', '_'] <:+: more) : spell (c :: more) = (c :: more).map (⟨·, .plain⟩) := by
  have hc : isNameChar c = true := by rw [isNameChar, isWordChar_of_isLatin latin, Bool.true_or]
  refine spell_word (List.forall_mem_cons.mpr ⟨hc, chars⟩) fun hwithin => ?_
  rcases List.infix_cons_iff.mp hwithin with hprefix | hwithin
  · exact ne_of_isLatin latin (by decide) (List.cons_prefix_cons.mp hprefix).1.symm
  · exact single hwithin

/-- Letters that are written in another way than in prose, but only where they have to be made literal. -/
structure IsRespelling (f : Letter → Letter) : Prop where
  char : ∀ letter, (f letter).char = letter.char
  plain : ∀ c, c ≠ '|' → f ⟨c, .plain⟩ = ⟨c, .plain⟩

theorem isRespelling_id : IsRespelling id := ⟨fun _ => rfl, fun _ _ => rfl⟩

theorem isRespelling_inCell : IsRespelling Letter.inCell := ⟨Letter.char_inCell, fun _ hc => if_neg hc⟩

section Respelling

variable {f : Letter → Letter}

theorem namesStyle_of_isStyleWord (hf : IsRespelling f) {name : List Char} (names : IsStyleWord name)
    (h : List.Forall₂ (StandsFor fragments) pieces ((spell name).map f)) : NamesStyle pieces := by
  cases names with
  | @sheet inner closed =>
    rw [spell_char (by decide) (by decide) (by decide), spell_append (by simp; decide),
      spell_char (by decide) (by decide) (by decide), List.map_cons, List.map_append, List.map_cons,
      hf.plain _ (by decide), hf.plain _ (by decide)] at h
    obtain ⟨first, rest, hfirst, hrest, rfl⟩ := List.forall₂_cons_right_iff.mp h
    obtain ⟨middle, last, rfl, hmiddle, hlast⟩ := forall₂_append_right hrest
    obtain rfl := @eq_ofText [')'] _ _ hlast
    obtain rfl : first = .char '(' := hfirst
    refine .sheet fun hmem => closed ?_
    obtain ⟨xs, ys, rfl⟩ := List.append_of_mem hmem
    obtain ⟨front, behind, heq, -, hbehind⟩ := forall₂_append_left hmiddle
    obtain ⟨letter, more, hletter, -, rfl⟩ := List.forall₂_cons_left_iff.mp hbehind
    have hchar : Letter.char ∘ f = Letter.char := funext hf.char
    rw [← map_char_spell inner, ← hchar, ← List.map_map, heq, standsFor_char.mp hletter]
    simp
  | @word c more latin chars single =>
    have hplain : ((c :: more).map (⟨·, .plain⟩)).map f = (c :: more).map (⟨·, .plain⟩) := by
      rw [List.map_map]
      refine List.map_congr_left fun d hd => hf.plain d ?_
      rintro rfl
      rcases List.mem_cons.mp hd with rfl | hd
      · cases latin
      · cases chars _ hd
    rw [spell_styleWord latin chars single, hplain] at h
    rw [eq_ofText h]
    exact .word latin chars

/-- A style that stands in a text is found in the pieces of its line. -/
theorem hasStyledPieces_of_text (hf : IsRespelling f) {before : List Letter} {name content behind : List Char}
    (names : IsStyleWord name)
    (h : List.Forall₂ (StandsFor fragments) pieces
      (before ++ (spell ('%' :: '%' :: (name ++ ' ' :: (content ++ '/' :: '%' :: behind)))).map f)) :
    HasStyledPieces pieces := by
  have hchar : ∀ {c : Char} (rest : List Char), c ∈ ['%', ' ', '/'] →
      spell (c :: rest) = ⟨c, .plain⟩ :: spell rest ∧ f ⟨c, .plain⟩ = ⟨c, .plain⟩ := by
    intro c rest hc
    simp only [List.mem_cons, List.not_mem_nil, or_false] at hc
    rcases hc with rfl | rfl | rfl <;>
      exact ⟨spell_char (by decide) (by decide) (by decide), hf.plain _ (by decide)⟩
  rw [(hchar _ (by decide)).1, (hchar _ (by decide)).1, spell_append (by simp; decide), (hchar _ (by decide)).1,
    spell_append (by simp; decide), (hchar _ (by decide)).1, (hchar _ (by decide)).1] at h
  simp only [List.map_cons, List.map_append, (hchar [] (List.mem_cons_self : '%' ∈ _)).2,
    (hchar [] (by decide : ' ' ∈ ['%', ' ', '/'])).2, (hchar [] (by decide : '/' ∈ ['%', ' ', '/'])).2] at h
  obtain ⟨p0, p1, rfl, -, h1⟩ := forall₂_append_right h
  obtain ⟨first, p2, hfirst, h2, rfl⟩ := List.forall₂_cons_right_iff.mp h1
  obtain ⟨second, p3, hsecond, h3, rfl⟩ := List.forall₂_cons_right_iff.mp h2
  obtain ⟨title, p4, rfl, htitle, h4⟩ := forall₂_append_right h3
  obtain ⟨space, p5, hspace, h5, rfl⟩ := List.forall₂_cons_right_iff.mp h4
  obtain ⟨inner, p6, rfl, -, h6⟩ := forall₂_append_right h5
  obtain ⟨slash, p7, hslash, h7, rfl⟩ := List.forall₂_cons_right_iff.mp h6
  obtain ⟨last, rest, hlast, -, rfl⟩ := List.forall₂_cons_right_iff.mp h7
  obtain rfl : first = .char '%' := hfirst
  obtain rfl : second = .char '%' := hsecond
  obtain rfl : space = .char ' ' := hspace
  obtain rfl : slash = .char '/' := hslash
  obtain rfl : last = .char '%' := hlast
  exact ⟨p0, title, inner, rest, namesStyle_of_isStyleWord hf names htitle, rfl⟩

end Respelling

/-! ### Rendering -/

/-- What is found is replaced, and the rest is kept. -/
theorem substitute_of_foundIn_nil {α : Type} {pattern : Pattern Piece α} (replacement : α → List Piece)
    (h : foundIn pattern pieces = []) : substitute pattern replacement pieces = pieces :=
  substitute_of_items replacement (parts_eq_items (foundIn_eq_nil.mp h))

/-- No mark but that of a style is found in the running text of a line. -/
theorem withStyles_quiet (h : AreQuiet pieces) (fragments : List (List Char)) :
    (Line.mk pieces fragments).withStyles =
      ⟨substitute lineBreakPattern (fun _ => Piece.ofText "<br />".toList)
        (substitute stylePattern (fun (name, content) => renderStyle name content) (escapePieces pieces)),
        fragments⟩ := by
  have hpass : ∀ {m : Char} (closing tag : String), m ∈ pairedMarks →
      substitute (enclosedPattern [m, m] closing.toList 1) (tagged tag) (escapePieces pieces) = escapePieces pieces :=
    fun closing tag hm => substitute_of_items _ (h.escapePieces.parts_enclosed hm [] _ 1)
  have hbold := hpass "__" "b" (by decide : '_' ∈ pairedMarks)
  have hitalic := hpass "''" "i" (by decide : '\'' ∈ pairedMarks)
  have hcode := hpass "\x7d\x7d" "code" (by decide : '\x7b' ∈ pairedMarks)
  have hmarks : "__".toList = ['_', '_'] ∧ "''".toList = ['\'', '\''] ∧ "\x7b\x7b".toList = ['\x7b', '\x7b'] := by
    decide
  rw [withStyles_eq, hmarks.1, hmarks.2.1, hmarks.2.2]
  rw [hmarks.1] at hbold
  rw [hmarks.2.1] at hitalic
  rw [hbold, hitalic, hcode]

theorem isEntityChar_of_blank (h : isBlank c = true) : isEntityChar c = false := by
  by_contra hentity
  have hmem : c ∈ "&ampltg;".toList := List.contains_iff_mem.mp (by simpa using hentity : isEntityChar c = true)
  have hblank := List.all_eq_true.mp (by decide : "&ampltg;".toList.all fun c => !isBlank c) c hmem
  rw [h] at hblank
  cases hblank

/-- **Text without a style is rendered as it is**, once it was made literal. -/
theorem renderInline_eq_escape (context : Context) (spelled : AreSpelled letters)
    (spaces : ∀ c ∈ letters.map Letter.char, isBlank c = true → c = ' ')
    (plain : ¬ HasStyle (letters.map Letter.char)) :
    renderInline context (Letter.writtenOf letters) = Html.escape (letters.map Letter.char) := by
  obtain ⟨pieces, fragments, hheld, hstands⟩ := exists_held context spelled
  have hquiet := areQuiet hstands spelled
  have hspaces : ∀ c, .char c ∈ escapePieces pieces → isBlank c = true → c = ' ' := by
    intro c hc hblank
    obtain ⟨xs, ys, rfl⟩ := List.append_of_mem (char_mem_of_escapePieces (isEntityChar_of_blank hblank) hc)
    obtain ⟨front, behind, rfl, -, hbehind⟩ := forall₂_append_left hstands
    obtain ⟨letter, more, hletter, -, rfl⟩ := List.forall₂_cons_left_iff.mp hbehind
    obtain rfl := standsFor_char.mp hletter
    exact spaces c (by simp) hblank
  have hstyle : foundIn stylePattern (escapePieces pieces) = [] := by
    refine foundIn_eq_nil.mpr fun behind hbehind _ => ?_
    rw [Option.eq_none_iff_forall_ne_some]
    rintro ⟨a, n⟩ hfound
    have hstyled := hasStyledPieces_escapePieces.mp (hasStyledPieces_of_found hspaces hbehind hfound)
    exact plain (hasStyle_of_pieces hstands spelled hstyled)
  rw [renderInline, hheld, withStyles_quiet hquiet, substitute_of_foundIn_nil _ hstyle,
    substitute_of_items _ hquiet.escapePieces.parts_lineBreak]
  exact restore_escapePieces hstands spelled.sound

theorem head_renderStyle (name content : List Piece) : ∃ more, renderStyle name content = .char '<' :: more := by
  have hopen : ∀ tag behind : String, ("<" ++ tag ++ behind).toList = '<' :: (tag.toList ++ behind.toList) := by
    intro tag behind
    rw [String.toList_append, String.toList_append]
    rfl
  unfold renderStyle
  split
  · rw [tagged, hopen]
    exact ⟨_, rfl⟩
  · unfold openStyle
    split
    · rw [hopen]
      exact ⟨_, rfl⟩
    · rw [hopen]
      exact ⟨_, rfl⟩

/-- A style is rendered as a tag. -/
theorem bracket_mem_withStyles (h : AreQuiet pieces) (styled : HasStyledPieces pieces)
    (fragments : List (List Char)) : Piece.char '<' ∈ (Line.mk pieces fragments).withStyles.pieces := by
  rw [withStyles_quiet h]
  show Piece.char '<' ∈ substitute lineBreakPattern _ (substitute stylePattern _ (escapePieces pieces))
  have hstyle : Piece.char '<' ∈ substitute stylePattern (fun (name, content) => renderStyle name content)
      (escapePieces pieces) := by
    obtain ⟨a, ha⟩ := List.exists_mem_of_ne_nil _ (foundIn_style_ne_nil (hasStyledPieces_escapePieces.mpr styled))
    obtain ⟨more, hmore⟩ := head_renderStyle a.1 a.2
    refine mem_substitute.mpr (Or.inr ⟨a, ha, ?_⟩)
    show Piece.char '<' ∈ renderStyle a.1 a.2
    rw [hmore]
    exact List.mem_cons_self
  -- A line break is a tag too, and without one the line is as it was.
  by_cases hbreak : foundIn lineBreakPattern (substitute stylePattern (fun (name, content) => renderStyle name content)
      (escapePieces pieces)) = []
  · rw [substitute_of_foundIn_nil _ hbreak]
    exact hstyle
  · obtain ⟨a, ha⟩ := List.exists_mem_of_ne_nil _ hbreak
    exact mem_substitute.mpr (Or.inr ⟨a, ha, by decide⟩)

/-- A style that stands in a text is rendered as a tag, whatever stands before it. -/
theorem bracket_mem_renderInline (context : Context) {f : Letter → Letter} (hf : IsRespelling f)
    {before : List Letter} {name content behind : List Char} (names : IsStyleWord name)
    (spelled : AreSpelled letters)
    (h : letters = before ++ (spell ('%' :: '%' :: (name ++ ' ' :: (content ++ '/' :: '%' :: behind)))).map f) :
    '<' ∈ renderInline context (Letter.writtenOf letters) := by
  obtain ⟨pieces, fragments, hheld, hstands⟩ := exists_held context spelled
  have hmem := bracket_mem_withStyles (areQuiet hstands spelled) (hasStyledPieces_of_text hf names (h ▸ hstands)) fragments
  rw [renderInline, hheld, Line.restore]
  exact List.mem_flatMap.mpr ⟨_, hmem, List.mem_singleton_self '<'⟩

end WikiMigration.Wiki
