/-
Pages of plain prose.

Prose is made of letters, digits, spaces and the signs of a sentence.  None of these starts a block or any
inline markup, so every line that is not blank is running text, is rendered as it is, and belongs to the
paragraph of the lines around it.
-/
import WikiMigration.Proofs.Html.Blocks
import WikiMigration.Proofs.Wiki.Twin

namespace WikiMigration.Wiki

open Text

variable {c : Char} {text line : List Char} {lines : List (List Char)}

/-! ### Characters -/

/-- Whether the character may stand in a line of prose. -/
def isProseChar (c : Char) : Bool :=
  isLatin c || isDigit c || c == ' ' || c == '.' || c == ',' || c == '?'

/-- A line of prose. -/
def IsProseLine (line : List Char) : Prop := ∀ c ∈ line, isProseChar c = true

/-- A text of prose, in which no line starts with a digit behind its spaces. -/
structure IsProse (text : List Char) : Prop where
  chars : ∀ c ∈ text, c = '\n' ∨ isProseChar c = true
  openings : ∀ line ∈ Text.lines text, ∀ c ∈ (line.dropWhile (· == ' ')).head?, isDigit c = false

theorem isProse_iff : (text.all fun c => c == '\n' || isProseChar c) = true ∧
    ((Text.lines text).all fun line => (line.dropWhile (· == ' ')).head?.all fun c => !isDigit c) = true
      ↔ IsProse text := by
  constructor
  · rintro ⟨hchars, hopenings⟩
    refine ⟨fun c hc => by simpa using List.all_eq_true.mp hchars c hc, fun line hline c hc => ?_⟩
    have hopening := List.all_eq_true.mp hopenings line hline
    rw [hc] at hopening
    simpa using hopening
  · rintro ⟨hchars, hopenings⟩
    refine ⟨List.all_eq_true.mpr fun c hc => by simpa using hchars c hc,
      List.all_eq_true.mpr fun line hline => ?_⟩
    cases hhead : (line.dropWhile (· == ' ')).head? with
    | none => rfl
    | some c => simpa using hopenings line hline c hhead

instance (text : List Char) : Decidable (IsProse text) := decidable_of_iff _ isProse_iff

/-- The paragraphs of a text: the blocks of lines between blank lines. -/
def paragraphsOf (text : List Char) : List (List (List Char)) :=
  ((Text.lines text).splitOnP isBlankText).filter fun paragraph => !paragraph.isEmpty

theorem IsProseLine.not_mem (h : IsProseLine line) {d : Char} (hd : isProseChar d = false) : d ∉ line :=
  fun hmem => Bool.false_ne_true (hd.symm.trans (h d hmem))

theorem ne_of_isProseChar (h : isProseChar c = true) {d : Char} (hd : isProseChar d = false) :
    (c == d) = false :=
  beq_false_of_ne fun heq => Bool.false_ne_true (hd.symm.trans (heq ▸ h))

theorem IsProse.isProseLine (h : IsProse text) (hline : line ∈ Text.lines text) : IsProseLine line :=
  fun c hc => (h.chars c (mem_of_mem_splitAt hline hc)).resolve_left fun heq =>
    not_mem_of_mem_splitAt hline (heq ▸ hc)

/-- A letter, a digit or a sign of prose stands behind the blanks and within the first 128 characters. -/
theorem toNat_of_isProseChar (h : isProseChar c = true) : c = ' ' ∨ (0x20 < c.toNat ∧ c.toNat < 0x80) := by
  have hrange : ∀ {low high : Char}, low ≤ c ∧ c ≤ high → ' ' < low → high.toNat < 0x80 →
      c = ' ' ∨ (0x20 < c.toNat ∧ c.toNat < 0x80) := fun ⟨hlow, hhigh⟩ hspace htop =>
    Or.inr ⟨Nat.lt_of_lt_of_le hspace (Url.le_toNat hlow), Nat.lt_of_le_of_lt (Url.le_toNat hhigh) htop⟩
  simp only [isProseChar, isLatin, isDigit, Bool.or_eq_true, Bool.and_eq_true, decide_eq_true_eq,
    beq_iff_eq] at h
  rcases h with (((((h | h) | h) | rfl) | rfl) | rfl) | rfl
  · exact hrange h (by decide) (by decide)
  · exact hrange h (by decide) (by decide)
  · exact hrange h (by decide) (by decide)
  all_goals decide

/-- The only blank in a line of prose is the space. -/
theorem isBlank_of_isProseChar (h : isProseChar c = true) (hc : c ≠ ' ') : isBlank c = false := by
  obtain ⟨hlow, hhigh⟩ := (toNat_of_isProseChar h).resolve_left hc
  rw [isBlank, if_pos hhigh, Bool.or_eq_false_iff]
  simp only [Bool.and_eq_false_iff, decide_eq_false_iff_not]
  omega

/-- The only decimal digits in prose are those from 0 to 9. -/
theorem isDecimal_of_isProseChar (h : isProseChar c = true) : isDecimal c = isDigit c := by
  rcases toNat_of_isProseChar h with rfl | ⟨-, hhigh⟩
  · decide
  · rw [isDecimal, if_pos hhigh]

/-! ### Lines -/

theorem takeWhile_eq_nil {p : Char → Bool} (h : ∀ c ∈ line, p c = false) : line.takeWhile p = [] := by
  cases line with
  | nil => rfl
  | cons c rest => exact List.takeWhile_cons_of_neg (by simp [h c List.mem_cons_self])

theorem after?_eq_none {m : Char} {mark : List Char} (h : m ∉ text) : after? (m :: mark) text = none := by
  rw [Option.eq_none_iff_forall_ne_some]
  intro rest hrest
  exact h (after?_eq_some.mp hrest ▸ List.mem_cons_self)

/-- The characters that a line starts with when it is a row, a style, a rule, a heading, an item or a definition. -/
def openingMarks : List Char := "|%-!*#;".toList

/-- What stands behind the braces that open preformatted text, if the line opens one and does not end it. -/
def preformattedStart? (line : List Char) : Option (List Char) :=
  (after? preformattedMark (trim line)).filter fun rest => !hasInfix preformattedEnd rest

/-- A line without any of these is preformatted, blank or running text. -/
theorem kind_of_unmarked (h : ∀ m ∈ openingMarks, m ∉ line) (inStyle : Bool) :
    LineKind.of inStyle line =
      match preformattedStart? line with
      | some first => .preformattedOpening first
      | none => if isBlankText line then .blank else .text := by
  have hstyle : after? "%%".toList (trim line) = none :=
    after?_eq_none fun hmem => h '%' (by decide) (mem_of_mem_trim hmem)
  have hspan : ∀ {p : Char → Bool}, (∀ c, p c = true → c ∈ openingMarks) → line.takeWhile p = [] := fun hp =>
    takeWhile_eq_nil fun c hc => Bool.eq_false_iff.mpr fun hpc => h c (hp c hpc) hc
  have hblank : (trim line).isEmpty = isBlankText line := isEmpty_trimWith isBlank line
  have hrow : (line.head? == some '|') = false := by
    rw [beq_eq_false_iff_ne]
    exact fun heq => h '|' (by decide) (List.mem_of_head? heq)
  have hnostyle : styleOpening? (trim line) = none := by rw [styleOpening?, hstyle]
  have hend : (trim line == "/%".toList) = false := by
    rw [beq_eq_false_iff_ne]
    intro heq
    exact h '%' (by decide) (mem_of_mem_trim (by rw [heq]; decide))
  have hrule : isRule line = false := by
    rw [isRule, hspan fun c hc => by rw [beq_iff_eq.mp hc]; decide]
    rfl
  have hheading : heading? line = none := by
    rw [heading?, hspan fun c hc => by rw [beq_iff_eq.mp hc]; decide]
    rfl
  have hitem : item? line = none := by
    rw [item?, hspan fun c hc => by
      rcases Bool.or_eq_true_iff.mp hc with hc | hc
      · rw [beq_iff_eq.mp hc]; decide
      · rw [beq_iff_eq.mp hc]; decide]
    rfl
  have hdefinition : definition? line = none := by
    unfold definition?
    split
    next => exact absurd List.mem_cons_self (h ';' (by decide))
    next => rfl
  have hopening : preformattedStart? line =
      (after? preformattedMark (trim line)).filter fun rest => !hasInfix preformattedEnd rest := rfl
  unfold LineKind.of
  cases hstart : preformattedStart? line with
  | some first =>
    rw [hopening] at hstart
    simp only [hstart]
  | none =>
    rw [hopening] at hstart
    simp only [hstart, hblank, hrow, hnostyle, hend, hrule, hheading, hitem, hdefinition, Bool.false_eq_true, if_false,
      Bool.false_and]

/-- A line of prose is blank or running text. -/
theorem IsProseLine.kind (h : IsProseLine line) :
    LineKind.of false line = if isBlankText line then .blank else .text := by
  have hmarks : (openingMarks.all fun m => !isProseChar m) = true := by decide
  have hunmarked : ∀ m ∈ openingMarks, m ∉ line := fun m hm =>
    h.not_mem (by simpa using List.all_eq_true.mp hmarks m hm)
  have hmark : after? preformattedMark (trim line) = none :=
    after?_eq_none fun hmem => h.not_mem (d := '\x7b') (by decide) (mem_of_mem_trim hmem)
  rw [kind_of_unmarked hunmarked, preformattedStart?, hmark]
  rfl

/-- Between two lines of prose nothing but a paragraph is open. -/
def Pending.inParagraph (read : List (List Char)) : Pending := ⟨read, [], [], 0, none⟩

/-- The fragments of paragraphs; one without lines gives none. -/
def paragraphs (blocks : List (List (List Char))) : List Fragment :=
  (blocks.filter fun block => !block.isEmpty).map .paragraph

theorem paragraphs_append (blocks blocks' : List (List (List Char))) :
    paragraphs (blocks ++ blocks') = paragraphs blocks ++ paragraphs blocks' := by
  simp [paragraphs]

theorem blocksEnd_inParagraph (read : List (List Char)) :
    (Pending.inParagraph read).blocksEnd = paragraphs [read] := by
  cases read <;> rfl

theorem step_inParagraph (h : IsProseLine line) (read : List (List Char)) :
    (Pending.inParagraph read).step line
      = if isBlankText line then (.inParagraph [], paragraphs [read])
        else (.inParagraph (read ++ [line]), []) := by
  have hkind : LineKind.of ((Pending.inParagraph read).styles != 0) line = _ := h.kind
  show (Pending.inParagraph read).stepLine line = _
  rw [← blocksEnd_inParagraph]
  by_cases hblank : isBlankText line = true
  · rw [if_pos hblank] at hkind ⊢
    rw [Pending.stepLine, hkind]
    rfl
  · rw [if_neg hblank] at hkind ⊢
    rw [Pending.stepLine, hkind]
    rfl

/-- The paragraphs of prose, behind the lines of one that is open. -/
theorem fragmentsFrom_prose (h : ∀ line ∈ lines, IsProseLine line) (read : List (List Char)) :
    fragmentsFrom (.inParagraph read) lines
      = paragraphs (List.splitOnPPrepend isBlankText lines read.reverse) := by
  induction lines generalizing read with
  | nil =>
    have hfinish : (Pending.inParagraph read).finish = (Pending.inParagraph read).blocksEnd :=
      List.append_nil _
    rw [fragmentsFrom, hfinish, blocksEnd_inParagraph, List.splitOnPPrepend_nil, List.reverse_reverse]
  | cons line rest ih =>
    have hrest := ih fun l hl => h l (List.mem_cons_of_mem line hl)
    rw [fragmentsFrom, step_inParagraph (h line List.mem_cons_self)]
    by_cases hblank : isBlankText line = true
    · rw [if_pos hblank, List.splitOnPPrepend_cons_pos hblank, List.reverse_reverse]
      exact (congrArg (paragraphs [read] ++ ·) (hrest [])).trans (paragraphs_append [read] _).symm
    · rw [if_neg hblank, List.splitOnPPrepend_cons_neg (by simpa using hblank)]
      refine (hrest (read ++ [line])).trans ?_
      rw [List.reverse_append]
      rfl

/-! ### Inline markup -/

section Passes

variable {α : Type} {pattern : Pattern Piece α} {m : Char}

/-- A pattern that starts with a character finds nothing in a text without it. -/
theorem parts_of_startsAt (hstarts : StartsAt m pattern) (h : m ∉ text) :
    parts pattern (Piece.ofText text) = (Piece.ofText text).map .item := by
  refine parts_of_not_mem hstarts fun hmem => ?_
  obtain ⟨c, hc, heq⟩ := List.mem_map.mp hmem
  exact h (Piece.char.inj heq ▸ hc)

theorem substitute_of_startsAt (hstarts : StartsAt m pattern) (replacement : α → List Piece) (h : m ∉ text) :
    substitute pattern replacement (Piece.ofText text) = Piece.ofText text := by
  rw [substitute, parts_of_startsAt hstarts h, List.flatMap_map]
  exact List.flatMap_singleton' _

/-- Pieces without a match are left behind those with all the matches. -/
theorem holdParts_append_items (fragment : α → List Char) (next : Nat) (ps : List (Part Piece α))
    (pieces : List Piece) : holdParts fragment next (ps ++ pieces.map .item)
      = ((holdParts fragment next ps).1 ++ pieces, (holdParts fragment next ps).2) := by
  induction ps generalizing next with
  | nil =>
    induction pieces with
    | nil => rfl
    | cons piece rest ih =>
      have hrest : holdParts fragment next (rest.map .item) = (rest, []) := ih
      simp only [List.nil_append, List.map_cons, holdParts, hrest]
  | cons part rest ih =>
    cases part with
    | item piece =>
      rw [List.cons_append, holdParts, ih, holdParts]
      rfl
    | found a =>
      rw [List.cons_append, holdParts, ih, holdParts]
      rfl

/-- A line in which nothing is found is left as it is. -/
theorem hold_of_items {pieces : List Piece} (fragment : α → List Char) (h : parts pattern pieces = pieces.map .item)
    (fragments : List (List Char)) : (Line.mk pieces fragments).hold pattern fragment = ⟨pieces, fragments⟩ := by
  have hparts := holdParts_append_items fragment fragments.length [] pieces
  rw [List.nil_append] at hparts
  simp only [Line.hold, h, hparts]
  simp [holdParts]

theorem hold_of_startsAt (hstarts : StartsAt m pattern) (fragment : α → List Char) (h : m ∉ text)
    (fragments : List (List Char)) :
    (Line.mk (Piece.ofText text) fragments).hold pattern fragment = ⟨Piece.ofText text, fragments⟩ :=
  hold_of_items fragment (parts_of_startsAt hstarts h) fragments

end Passes

theorem literal_startsAt : StartsAt '~' literalPattern := by
  intro piece rest hne
  unfold literalPattern
  split
  next heq => exact absurd (List.cons.inj heq).1 hne
  next => rfl

theorem link_startsAt : StartsAt '[' linkPattern := by
  intro piece rest hne
  unfold linkPattern
  split
  next heq => exact absurd (List.cons.inj heq).1 hne
  next => rfl

theorem code_startsAt : StartsAt '\x7b' (enclosedPattern "\x7b\x7b\x7b".toList "\x7d\x7d\x7d".toList 0) :=
  enclosed_startsAt '\x7b' ['\x7b', '\x7b'] _ 0

theorem plugin_startsAt : StartsAt '[' pluginPattern := enclosed_startsAt '[' ['\x7b'] _ 0

theorem bracket_startsAt : StartsAt '[' fun pieces : List Piece =>
    (afterChars? "[[".toList pieces).map fun _ => ((), "[[".toList.length) := by
  intro piece rest hne
  have hmark : "[[".toList = ['[', '['] := by decide
  simp only [hmark, afterChars?_of_ne hne, Option.map_none]

/-- No character of prose is written in another way. -/
theorem escapeChar_prose (h : isProseChar c = true) : Html.escapeChar c = [c] := by
  rw [Html.escapeChar, ne_of_isProseChar h (by decide), ne_of_isProseChar h (by decide),
    ne_of_isProseChar h (by decide)]
  rfl

theorem escapePieces_prose (h : IsProseLine line) : escapePieces (Piece.ofText line) = Piece.ofText line := by
  induction line with
  | nil => rfl
  | cons c rest ih =>
    have hrest := ih fun d hd => h d (List.mem_cons_of_mem c hd)
    rw [ofText_cons, escapePieces, List.flatMap_cons, ← escapePieces, hrest]
    exact congrArg (Piece.ofText · ++ Piece.ofText rest) (escapeChar_prose (h c List.mem_cons_self))

theorem bold_startsAt : StartsAt '_' (enclosedPattern "__".toList "__".toList 1) :=
  enclosed_startsAt '_' ['_'] _ 1

theorem italic_startsAt : StartsAt '\'' (enclosedPattern "''".toList "''".toList 1) :=
  enclosed_startsAt '\'' ['\''] _ 1

theorem monospaced_startsAt : StartsAt '\x7b' (enclosedPattern "\x7b\x7b".toList "\x7d\x7d".toList 1) :=
  enclosed_startsAt '\x7b' ['\x7b'] _ 1

theorem withStyles_prose (h : IsProseLine line) (fragments : List (List Char)) :
    (Line.mk (Piece.ofText line) fragments).withStyles = ⟨Piece.ofText line, fragments⟩ := by
  rw [withStyles_eq, escapePieces_prose h,
    substitute_of_startsAt bold_startsAt _ (h.not_mem (by decide)),
    substitute_of_startsAt italic_startsAt _ (h.not_mem (by decide)),
    substitute_of_startsAt monospaced_startsAt _ (h.not_mem (by decide)),
    substitute_of_startsAt style_startsAt _ (h.not_mem (by decide)),
    substitute_of_startsAt lineBreak_startsAt _ (h.not_mem (by decide))]

/-- A line of prose is rendered as it is. -/
theorem renderInline_prose (context : Context) (h : IsProseLine line) : renderInline context line = line := by
  have hbracket : '[' ∉ line := h.not_mem (by decide)
  have hliterals : Line.withLiteralsHeld line = ⟨Piece.ofText line, [['[']]⟩ := by
    have hheld : (Line.mk (Piece.ofText line) []).holdLiteral "[[".toList ['[']
        = ⟨Piece.ofText line, [['[']]⟩ := by
      rw [Line.holdLiteral, substitute_of_startsAt bracket_startsAt _ hbracket]
      rfl
    rw [Line.withLiteralsHeld, hold_of_startsAt literal_startsAt _ (h.not_mem (by decide)), hheld,
      hold_of_startsAt code_startsAt _ (h.not_mem (by decide))]
  rw [renderInline, hliterals, Line.withLinksHeld, hold_of_startsAt plugin_startsAt _ hbracket,
    hold_of_startsAt link_startsAt _ hbracket, withStyles_prose h]
  have hrestore := restore_ofText line [] [['[']]
  rw [List.append_nil] at hrestore
  exact hrestore.trans (List.append_nil line)

theorem escape_eq_self (h : ∀ c ∈ text, Html.escapeChar c = [c]) : Html.escape text = text := by
  rw [Html.escape, List.flatMap_congr h]
  exact List.flatMap_singleton' text

/-- A paragraph of prose is rendered as a block of its lines. -/
theorem render_paragraph (context : Context) (h : ∀ line ∈ lines, IsProseLine line) :
    (Fragment.paragraph lines).render context = Html.TextBlock.html ⟨"p", unlines lines⟩ := by
  have hopen : "<p>".toList = Html.startTagText "p" := by decide
  have hclose : "</p>".toList = Html.endTagText "p" := by decide
  have hlines : lines.map (renderInline context) = lines :=
    (List.map_congr_left fun line hline => renderInline_prose context (h line hline)).trans
      (List.map_id' lines)
  have hescape : Html.escape (unlines lines) = unlines lines := by
    refine escape_eq_self fun c hc => ?_
    by_cases hfeed : c = '\n'
    · rw [hfeed]
      rfl
    · obtain ⟨line, hline, hin⟩ := mem_unlines hfeed hc
      exact escapeChar_prose (h line hline c hin)
  refine (congrArg₂ (fun front behind => front ++ unlines (lines.map (renderInline context)) ++ behind)
    hopen hclose).trans ?_
  rw [hlines, Html.TextBlock.html, hescape]

/-! ### Pages -/

theorem mem_splitOnPPrepend {p : List Char → Bool} {read block : List (List Char)}
    (h : block ∈ List.splitOnPPrepend p lines read) (hline : line ∈ block) :
    line ∈ read ∨ (line ∈ lines ∧ p line = false) := by
  induction lines generalizing read with
  | nil =>
    rw [List.splitOnPPrepend_nil, List.mem_singleton] at h
    exact Or.inl (List.mem_reverse.mp (h ▸ hline))
  | cons first rest ih =>
    have hlater : line ∈ rest ∧ p line = false → line ∈ first :: rest ∧ p line = false := fun hin =>
      ⟨List.mem_cons_of_mem first hin.1, hin.2⟩
    by_cases hfirst : p first = true
    · rw [List.splitOnPPrepend_cons_pos hfirst, ← List.splitOnPPrepend_nil_right] at h
      rcases List.mem_cons.mp h with rfl | h
      · exact Or.inl (List.mem_reverse.mp hline)
      · exact (ih h).elim (nomatch ·) fun hin => Or.inr (hlater hin)
    · have hfirst : p first = false := by simpa using hfirst
      rw [List.splitOnPPrepend_cons_neg hfirst] at h
      rcases ih h with hin | hin
      · rcases List.mem_cons.mp hin with rfl | hin
        · exact Or.inr ⟨List.mem_cons_self, hfirst⟩
        · exact Or.inl hin
      · exact Or.inr (hlater hin)

theorem mem_paragraphsOf {paragraph : List (List Char)} (h : paragraph ∈ paragraphsOf text) :
    paragraph ≠ [] ∧ ∀ line ∈ paragraph, line ∈ Text.lines text ∧ isBlankText line = false := by
  obtain ⟨hmem, hne⟩ := List.mem_filter.mp h
  refine ⟨by simpa using hne, fun line hline => ?_⟩
  exact (mem_splitOnPPrepend hmem hline).resolve_left nofun

theorem flatten_splitOnPPrepend (p : List Char → Bool) (lines read : List (List Char)) :
    (List.splitOnPPrepend p lines read).flatten = read.reverse ++ lines.filter fun line => !p line := by
  induction lines generalizing read with
  | nil => simp
  | cons line rest ih =>
    by_cases hline : p line = true
    · rw [List.splitOnPPrepend_cons_pos hline, ← List.splitOnPPrepend_nil_right, List.flatten_cons, ih]
      simp [hline]
    · rw [List.splitOnPPrepend_cons_neg (by simpa using hline), ih]
      simp [hline]

/-- The paragraphs hold the lines that are not blank. -/
theorem flatten_paragraphsOf (text : List Char) :
    (paragraphsOf text).flatten = (Text.lines text).filter fun line => !isBlankText line :=
  List.flatten_filter_not_isEmpty.trans (flatten_splitOnPPrepend isBlankText _ [])

/-- Nothing is dropped from a text without NUL, and its line feeds are the ends of its lines. -/
theorem pageLines_eq (hnul : '\x00' ∉ text) (hreturn : '\r' ∉ text) : pageLines text = Text.lines text := by
  have hkept : text.filter (· != '\x00') = text :=
    List.filter_eq_self.mpr fun c hc => by simpa using fun heq : c = '\x00' => hnul (heq ▸ hc)
  rw [pageLines, hkept, normalizeNewlines_eq_self hreturn]

theorem pageLines_prose (h : IsProse text) : pageLines text = Text.lines text :=
  pageLines_eq (fun hmem => absurd (h.chars _ hmem) (by decide)) fun hmem => absurd (h.chars _ hmem) (by decide)

/-- **A page of prose is rendered as its paragraphs.** -/
theorem renderPage_prose (context : Context) (h : IsProse text) :
    renderPage context text
      = unlines ((paragraphsOf text).map fun paragraph => Html.TextBlock.html ⟨"p", unlines paragraph⟩) := by
  have hlines : ∀ line ∈ Text.lines text, IsProseLine line := fun line hline => h.isProseLine hline
  have hfragments : fragmentsOf text = (paragraphsOf text).map .paragraph := by
    rw [fragmentsOf, pageLines_prose h]
    exact fragmentsFrom_prose hlines []
  rw [renderPage, hfragments, List.map_map]
  refine congrArg unlines (List.map_congr_left fun paragraph hparagraph => ?_)
  exact render_paragraph context fun line hline => hlines line ((mem_paragraphsOf hparagraph).2 line hline).1

end WikiMigration.Wiki
