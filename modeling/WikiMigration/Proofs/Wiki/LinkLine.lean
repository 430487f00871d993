/-
A line that is one link.

A line in brackets is read in two parts: what comes before the target may have literal characters and
preformatted text in it, and the target has none.  What is held of the first part is not changed by the
second, as nothing in the target closes what was opened before it.  If no bracket is left between the two of
the line, the whole line is held as one link, and rendering it gives that link and nothing else.
-/
import WikiMigration.Proofs.Wiki.Element
import WikiMigration.Proofs.Wiki.Prose
import WikiMigration.Proofs.Wiki.Restoring

namespace WikiMigration.Wiki

open Text

variable {α : Type} {pattern : Pattern Piece α} {front behind line : List Char} {content pieces rest : List Piece}

/-! ### Literal characters -/

/-- Whether the last character is a tilde that takes the meaning from what follows. -/
def endsInTilde : List Char → Bool
  | [] => false
  | ['~'] => true
  | '~' :: c :: rest => if isEscapable c then endsInTilde rest else endsInTilde (c :: rest)
  | _ :: rest => endsInTilde rest

/-- The literal characters of a text are those that it has on its own, if its end does not reach further. -/
theorem parts_literal_append (h : endsInTilde front = false) (rest : List Piece) :
    parts literalPattern (Piece.ofText front ++ rest)
      = parts literalPattern (Piece.ofText front) ++ parts literalPattern rest := by
  fun_induction endsInTilde front with
  | case1 => rfl
  | case2 => cases h
  | case3 c more hc ih =>
    have hfound : ∀ others, literalPattern (.char '~' :: .char c :: others) = some (c, 2) := fun others => if_pos hc
    rw [ofText_cons, ofText_cons, List.cons_append, List.cons_append, parts_of_some (hfound _),
      parts_of_some (hfound _)]
    exact congrArg (Part.found c :: ·) (ih h)
  | case4 c more hc ih =>
    have hnone : ∀ others, literalPattern (.char '~' :: .char c :: others) = none := fun others => if_neg hc
    have hrest := ih h
    rw [ofText_cons, List.cons_append] at hrest
    rw [ofText_cons, ofText_cons, List.cons_append, List.cons_append, parts_of_none (hnone _),
      parts_of_none (hnone _), hrest, List.cons_append]
  | case5 c more hlast hne ih =>
    have htilde : Piece.char c ≠ .char '~' := by
      intro heq
      cases more with
      | nil => exact hlast (Piece.char.inj heq) rfl
      | cons d others => exact hne d others (Piece.char.inj heq) rfl
    rw [ofText_cons, List.cons_append, parts_of_none (literal_startsAt _ _ htilde),
      parts_of_none (literal_startsAt _ _ htilde), ih h, List.cons_append]

/-! ### Parts that are read apart -/

theorem afterChars?_append {mark : List Char} (h : ∀ c ∈ mark, rest.head? ≠ some (.char c)) (pieces : List Piece) :
    afterChars? mark (pieces ++ rest) = (afterChars? mark pieces).map (· ++ rest) := by
  induction mark generalizing pieces with
  | nil => rfl
  | cons m mark ih =>
    have hmark := ih fun c hc => h c (List.mem_cons_of_mem m hc)
    cases pieces with
    | nil =>
      cases rest with
      | nil => rfl
      | cons piece others =>
        exact afterChars?_of_ne fun heq => h m List.mem_cons_self (congrArg some heq)
    | cons piece others =>
      cases piece with
      | held index => rfl
      | char d =>
        rw [List.cons_append, afterChars?, afterChars?]
        split
        · exact hmark others
        · rfl

theorem beforeChars?_append {mark : List Char} (h : ∀ c ∈ mark, rest.head? ≠ some (.char c))
    (hnone : beforeChars? mark rest = none) (pieces : List Piece) :
    beforeChars? mark (pieces ++ rest) = beforeChars? mark pieces := by
  induction pieces with
  | nil => exact hnone
  | cons piece others ih =>
    rw [List.cons_append, beforeChars?, beforeChars?, ← List.cons_append, afterChars?_append h, Option.isSome_map, ih]

theorem occurrence_append {literal : List Char} (h : ∀ c ∈ literal, rest.head? ≠ some (.char c))
    (pieces : List Piece) : occurrence literal (pieces ++ rest) = occurrence literal pieces := by
  unfold occurrence
  rw [afterChars?_append h, Option.map_map]
  rfl

theorem enclosed_append {opening closing : List Char} (hopening : ∀ c ∈ opening, rest.head? ≠ some (.char c))
    (hclosing : ∀ c ∈ closing, rest.head? ≠ some (.char c)) (hnone : beforeChars? closing rest = none)
    (pieces : List Piece) :
    enclosedPattern opening closing 0 (pieces ++ rest) = enclosedPattern opening closing 0 pieces := by
  unfold enclosedPattern
  rw [afterChars?_append hopening]
  cases afterChars? opening pieces with
  | none => rfl
  | some more => simp [beforeChars?_append hclosing hnone]

/-- A pattern matches at least one piece, and no more than there are. -/
def Fits (pattern : Pattern Piece α) : Prop :=
  ∀ pieces a n, pattern pieces = some (a, n) → 0 < n ∧ n ≤ pieces.length

theorem fits_occurrence {literal : List Char} (hne : literal ≠ []) : Fits (occurrence literal) := by
  intro pieces a n h
  obtain ⟨rest, hrest, heq⟩ := Option.map_eq_some_iff.mp h
  obtain rfl := (Prod.mk.inj heq).2
  have hpieces := congrArg List.length (afterChars?_eq_some hrest)
  rw [List.length_append, length_ofText] at hpieces
  exact ⟨List.length_pos_iff.mpr hne, by omega⟩

theorem fits_enclosed {opening closing : List Char} (hne : opening ≠ []) :
    Fits (enclosedPattern opening closing 0) := by
  intro pieces a n h
  obtain ⟨behind, hpieces, hn⟩ := enclosedPattern_eq_some h
  refine ⟨pos_of_enclosed hne h, ?_⟩
  rw [hpieces]
  simp only [List.length_append, length_ofText]
  omega

/-! ### Held fragments -/

section Hold

variable {write : α → List Char} {fragments : List (List Char)}

/-- What is behind the part of a line with all its matches in stays behind it. -/
theorem hold_append (hrest : parts pattern (pieces ++ rest) = parts pattern pieces ++ rest.map .item) :
    (Line.mk (pieces ++ rest) fragments).hold pattern write
      = ⟨((Line.mk pieces fragments).hold pattern write).pieces ++ rest,
          ((Line.mk pieces fragments).hold pattern write).fragments⟩ := by
  simp only [Line.hold, hrest, holdParts_append_items]

/-- A piece that no match starts at stays before the others. -/
theorem hold_cons {piece : Piece} (hfirst : pattern (piece :: pieces) = none) :
    (Line.mk (piece :: pieces) fragments).hold pattern write
      = ⟨piece :: ((Line.mk pieces fragments).hold pattern write).pieces,
          ((Line.mk pieces fragments).hold pattern write).fragments⟩ := by
  simp only [Line.hold, parts_of_none hfirst, holdParts]

theorem holdLiteral_append {literal fragment : List Char}
    (hrest : parts (occurrence literal) (pieces ++ rest) = parts (occurrence literal) pieces ++ rest.map .item) :
    (Line.mk (pieces ++ rest) fragments).holdLiteral literal fragment
      = ⟨((Line.mk pieces fragments).holdLiteral literal fragment).pieces ++ rest,
          ((Line.mk pieces fragments).holdLiteral literal fragment).fragments⟩ := by
  simp only [Line.holdLiteral, substitute, hrest, List.flatMap_append, List.flatMap_map]
  rw [List.flatMap_singleton']

end Hold

/-! ### Texts that change nothing before them -/

/-- A text that holds nothing apart and closes nothing that was opened before it. -/
structure IsInertEnd (behind : List Char) : Prop where
  tilde : '~' ∉ behind
  bracket : '[' ∉ behind
  head : ∀ c ∈ behind.head?, c ≠ '\x7b' ∧ c ≠ '\x7d'
  code : ¬ preformattedEnd <:+: behind

theorem head?_ofText {m : Char} (h : ∀ c ∈ behind.head?, c ≠ m) : (Piece.ofText behind).head? ≠ some (.char m) := by
  cases behind with
  | nil => exact nofun
  | cons c rest => exact fun heq => h c rfl (Piece.char.inj (Option.some.inj heq))

/-- A text that is found among the characters of another is in it. -/
theorem infix_of_ofText {mark text : List Char} (h : Piece.ofText mark <:+: Piece.ofText text) : mark <:+: text := by
  obtain ⟨before, after, heq⟩ := h
  refine ⟨Piece.textOf before, Piece.textOf after, ?_⟩
  have htext := congrArg (fun pieces => pieces.flatMap Piece.text) heq
  simpa [Piece.textOf] using htext

theorem IsInertEnd.beforeChars? (h : IsInertEnd behind) {others : List Piece} (hsuffix : others <:+ Piece.ofText behind) :
    Wiki.beforeChars? preformattedEnd others = none := by
  rw [Option.eq_none_iff_forall_ne_some]
  intro more hmore
  obtain ⟨after, rfl⟩ := beforeChars?_eq_some hmore
  exact h.code (infix_of_ofText (List.IsInfix.trans ⟨more, after, rfl⟩ hsuffix.isInfix))

theorem IsInertEnd.parts_code (h : IsInertEnd behind) (pieces : List Piece) :
    parts codePattern (pieces ++ Piece.ofText behind)
      = parts codePattern pieces ++ (Piece.ofText behind).map .item := by
  have hopening : ∀ c ∈ preformattedMark, (Piece.ofText behind).head? ≠ some (.char c) := by
    intro c hc
    obtain rfl : c = '\x7b' := by simpa [preformattedMark] using hc
    exact head?_ofText fun d hd => (h.head d hd).1
  have hclosing : ∀ c ∈ preformattedEnd, (Piece.ofText behind).head? ≠ some (.char c) := by
    intro c hc
    obtain rfl : c = '\x7d' := by simpa [preformattedEnd] using hc
    exact head?_ofText fun d hd => (h.head d hd).2
  have hends : parts codePattern (Piece.ofText behind) = (Piece.ofText behind).map .item := by
    refine parts_eq_items fun others hothers _ => ?_
    unfold codePattern enclosedPattern
    cases hafter : afterChars? "\x7b\x7b\x7b".toList others with
    | none => rfl
    | some rest =>
      have hrest : rest <:+ others := ⟨_, (afterChars?_eq_some hafter).symm⟩
      have hnone : Wiki.beforeChars? "\x7d\x7d\x7d".toList rest = none := h.beforeChars? (hrest.trans hothers)
      simp only [List.drop_zero, Nat.not_lt_zero, if_false, hnone, Option.map_none]
  have happend := @parts_append _ _ codePattern pieces (Piece.ofText behind) (fits_enclosed (by decide))
    fun others _ _ => enclosed_append hopening hclosing (h.beforeChars? List.suffix_rfl) others
  rw [happend, hends]

theorem IsInertEnd.parts_bracket (h : IsInertEnd behind) (pieces : List Piece) :
    parts (occurrence "[[".toList) (pieces ++ Piece.ofText behind)
      = parts (occurrence "[[".toList) pieces ++ (Piece.ofText behind).map .item := by
  have hopening : ∀ c ∈ "[[".toList, (Piece.ofText behind).head? ≠ some (.char c) := by
    intro c hc
    obtain rfl : c = '[' := by simpa using hc
    exact head?_ofText fun d hd heq => h.bracket (heq ▸ List.mem_of_head? hd)
  rw [parts_append (fits_occurrence (by decide)) fun others _ _ => occurrence_append hopening others,
    parts_of_startsAt bracket_startsAt h.bracket]

/-- **What is held of a text is not changed by what comes behind**, if that holds nothing itself. -/
theorem IsInertEnd.withLiteralsHeld (h : IsInertEnd behind) (hfront : endsInTilde front = false) :
    Line.withLiteralsHeld (front ++ behind)
      = ⟨(Line.withLiteralsHeld front).pieces ++ Piece.ofText behind, (Line.withLiteralsHeld front).fragments⟩ := by
  have hliterals : literalsHeld (front ++ behind)
      = ⟨(literalsHeld front).pieces ++ Piece.ofText behind, (literalsHeld front).fragments⟩ := by
    have hparts := parts_literal_append hfront (Piece.ofText behind)
    rw [parts_of_startsAt literal_startsAt h.tilde] at hparts
    rw [literalsHeld, ofText_append]
    exact hold_append hparts
  have hbrackets : bracketsHeld (front ++ behind)
      = ⟨(bracketsHeld front).pieces ++ Piece.ofText behind, (bracketsHeld front).fragments⟩ := by
    rw [bracketsHeld, hliterals]
    exact holdLiteral_append (h.parts_bracket _)
  rw [withLiteralsHeld_eq, hbrackets]
  exact hold_append (h.parts_code _)

/-- A bracket before a text without opening brackets is not taken as a literal one. -/
theorem withLiteralsHeld_bracket (h : '[' ∉ front) :
    Line.withLiteralsHeld ('[' :: front)
      = ⟨.char '[' :: (Line.withLiteralsHeld front).pieces, (Line.withLiteralsHeld front).fragments⟩ := by
  have hliterals : literalsHeld ('[' :: front)
      = ⟨.char '[' :: (literalsHeld front).pieces, (literalsHeld front).fragments⟩ :=
    hold_cons (literal_startsAt _ _ (by decide))
  have hnone : Piece.char '[' ∉ (literalsHeld front).pieces := fun hmem => by
    obtain ⟨c, hc, heq⟩ := List.mem_map.mp (char_mem_hold hmem)
    exact h (Piece.char.inj heq ▸ hc)
  have hfirst : occurrence "[[".toList (.char '[' :: (literalsHeld front).pieces) = none := by
    have hafter : afterChars? ['['] (literalsHeld front).pieces = none := by
      cases hpieces : (literalsHeld front).pieces with
      | nil => rfl
      | cons piece rest =>
        refine afterChars?_of_ne fun heq => hnone ?_
        rw [hpieces, heq]
        exact List.mem_cons_self
    have hmark : "[[".toList = ['[', '['] := by decide
    rw [occurrence, hmark, afterChars?, if_pos (by decide), hafter]
    rfl
  have hbrackets : bracketsHeld ('[' :: front)
      = ⟨.char '[' :: (bracketsHeld front).pieces, (bracketsHeld front).fragments⟩ := by
    rw [bracketsHeld, hliterals, Line.holdLiteral]
    exact congrArg (Line.mk · _) (substitute_of_none hfirst)
  rw [withLiteralsHeld_eq, hbrackets]
  exact hold_cons (code_startsAt _ _ (by decide))

/-! ### One link -/

/-- Whether the piece is a bracket. -/
def Piece.isBracket : Piece → Bool := Piece.isChar fun c => c == '[' || c == ']'

/-- A line whose literal characters and preformatted texts leave two brackets, with no bracket between
them and no plugin. -/
structure IsOneLink (line : List Char) (content : List Piece) : Prop where
  pieces : (Line.withLiteralsHeld line).pieces = .char '[' :: (content ++ [.char ']'])
  filled : content ≠ []
  inner : ∀ piece ∈ content, piece.isBracket = false
  noPlugin : content.head? = some (.char '\x7b') → content.getLast? ≠ some (.char '\x7d')

theorem isBracket_char {c : Char} (hopening : c ≠ '[') (hclosing : c ≠ ']') : (Piece.char c).isBracket = false := by
  simp [Piece.isBracket, Piece.isChar, hopening, hclosing]

theorem ne_of_isBracket {piece : Piece} {c : Char} (h : piece.isBracket = false)
    (hc : (Piece.char c).isBracket = true) : piece ≠ .char c := fun heq => by
  rw [heq, hc] at h
  cases h

/-- The brace that would end a plugin stands before the last bracket. -/
theorem IsOneLink.beforeChars? (h : IsOneLink line content) (hopens : content = .char '\x7b' :: rest) :
    Wiki.beforeChars? "\x7d]".toList (rest ++ [.char ']']) = none := by
  rw [Option.eq_none_iff_forall_ne_some]
  intro more hmore
  obtain ⟨behind, hbehind⟩ := beforeChars?_eq_some hmore
  have hclosing : Piece.ofText "\x7d]".toList = [.char '\x7d', .char ']'] := by decide
  rw [hclosing] at hbehind
  rcases List.eq_nil_or_concat behind with rfl | ⟨others, last, rfl⟩
  · have hrest : rest = more ++ [.char '\x7d'] := by
      have hends : rest ++ [.char ']'] = more ++ [.char '\x7d'] ++ [.char ']'] := by simpa using hbehind
      exact List.append_cancel_right hends
    refine h.noPlugin (by rw [hopens]; rfl) ?_
    rw [hopens, hrest, ← List.cons_append, List.getLast?_concat]
  · have hrest : rest = more ++ [.char '\x7d', .char ']'] ++ others := by
      have hends : rest ++ [.char ']'] = more ++ [.char '\x7d', .char ']'] ++ others ++ [last] := by simpa using hbehind
      exact List.append_inj_left' hends rfl
    have hmem : Piece.char ']' ∈ content := by
      rw [hopens, hrest]
      simp
    exact ne_of_isBracket (h.inner _ hmem) (by decide) rfl

/-- At no place of the line a plugin is read. -/
theorem IsOneLink.parts_plugin (h : IsOneLink line content) :
    parts pluginPattern (.char '[' :: (content ++ [.char ']'])) = (.char '[' :: (content ++ [.char ']'])).map .item := by
  refine parts_eq_items fun others hothers hne => ?_
  rcases List.suffix_cons_iff.mp hothers with rfl | hbehind
  · have hopening : Piece.ofText "[\x7b".toList = [.char '[', .char '\x7b'] := by decide
    rw [pluginPattern, enclosedPattern]
    cases hafter : afterChars? "[\x7b".toList (.char '[' :: (content ++ [.char ']'])) with
    | none => rfl
    | some rest =>
      have heq := afterChars?_eq_some hafter
      obtain ⟨piece, more, hcontent⟩ := List.exists_cons_of_ne_nil h.filled
      rw [hopening, hcontent] at heq
      obtain ⟨rfl, rfl⟩ : piece = .char '\x7b' ∧ more ++ [.char ']'] = rest := by simpa using heq
      have hnone := h.beforeChars? hcontent
      simp only [List.drop_zero, Nat.not_lt_zero, if_false, hnone, Option.map_none]
  · obtain ⟨piece, rest, rfl⟩ := List.exists_cons_of_ne_nil hne
    refine plugin_startsAt _ _ fun heq => ?_
    rcases List.mem_append.mp (hbehind.subset List.mem_cons_self) with hmem | hmem
    · exact ne_of_isBracket (h.inner piece hmem) (by decide) heq
    · rw [heq] at hmem
      exact absurd hmem (by decide)

theorem IsOneLink.linkPattern (h : IsOneLink line content) :
    linkPattern (.char '[' :: (content ++ [.char ']'])) = some (content, content.length + 1 + 1) := by
  have hbody : (content ++ [Piece.char ']']).takeWhile (fun piece => !piece.isChar fun c => c == '[' || c == ']')
      = content := by
    rw [List.takeWhile_append_of_pos (fun piece hpiece => by
        have hinner := h.inner piece hpiece
        rw [Piece.isBracket] at hinner
        rw [hinner]
        rfl), List.takeWhile_cons_of_neg (by decide), List.append_nil]
  have hfilled : content.isEmpty = false := by simpa using h.filled
  simp [Wiki.linkPattern, hbody, hfilled]

theorem IsOneLink.parts_link (h : IsOneLink line content) :
    parts Wiki.linkPattern (.char '[' :: (content ++ [.char ']'])) = [.found content] := by
  have hall : (content ++ [Piece.char ']']).drop (content.length + 1) = [] := by simp
  rw [parts_of_some h.linkPattern, hall]
  rfl

/-- No pass finds anything in a line that is all held. -/
theorem withStyles_held (index : Nat) (fragments : List (List Char)) :
    (Line.mk [.held index] fragments).withStyles = ⟨[.held index], fragments⟩ := by
  have hheld : ∀ {α : Type} {m : Char} {pattern : Pattern Piece α} (replacement : α → List Piece),
      StartsAt m pattern → substitute pattern replacement [.held index] = [.held index] := by
    intro α m pattern replacement hstarts
    rw [substitute_of_none (hstarts _ _ (by simp))]
    rfl
  have hescape : escapePieces [.held index] = [.held index] := rfl
  rw [withStyles_eq, hescape, hheld _ bold_startsAt, hheld _ italic_startsAt, hheld _ monospaced_startsAt,
    hheld _ style_startsAt, hheld _ lineBreak_startsAt]

/-- **A line that is one link is rendered as the link.** -/
theorem IsOneLink.renderInline (h : IsOneLink line content) (context : Context) :
    renderInline context line = renderLink context (Piece.textOf content) := by
  generalize hfragments : (Line.withLiteralsHeld line).fragments = fragments
  have hline : Line.withLiteralsHeld line = ⟨.char '[' :: (content ++ [.char ']']), fragments⟩ := by
    rw [← h.pieces, ← hfragments]
  have hlink : (Line.withLiteralsHeld line).withLinksHeld context
      = ⟨[.held fragments.length], fragments ++ [renderLink context (Piece.textOf content)]⟩ := by
    rw [hline, Line.withLinksHeld, hold_of_items _ h.parts_plugin, Line.hold]
    simp only [h.parts_link, holdParts]
  rw [Wiki.renderInline, hlink, withStyles_held, Line.restore]
  simp

end WikiMigration.Wiki
