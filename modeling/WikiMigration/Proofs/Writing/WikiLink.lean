/-
Links to pages, written and read back.

A link is written as its label, made literal as prose is, a bar and its target between brackets, or as the target
alone where the label says the same.  Between brackets the label is read by other rules than prose: a character
that was made literal is only a mark there, which is not filled in, and a closing bracket or a bar ends the label.
So the link comes back exactly if nothing of its label had to be made literal, the label has neither of the two,
and the target is neither split into lines nor in part taken for preformatted text or for the end of a plugin.
-/
import WikiMigration.Proofs.Wiki.ExternalLink
import WikiMigration.Proofs.Writing.WikiCell

namespace WikiMigration.Wiki

open Text Writing

variable {context : Context} {line text label target body rest : List Char} {letters : List Letter}
variable {pieces content inside : List Piece}

/-- What is enclosed in a text is found. -/
theorem exists_enclosed {opening closing : List Char} (hopening : opening ≠ []) (hclosing : closing ≠ [])
    (content behind : List Piece) :
    ∃ found n, enclosedPattern opening closing 0 (Piece.ofText opening ++ (content ++ (Piece.ofText closing ++ behind))) =
      some (found, n + 1) := by
  obtain ⟨front, hfront⟩ := exists_beforeChars? hclosing content behind
  have hlength := List.length_pos_iff.mpr hopening
  refine ⟨front, opening.length + front.length + closing.length - 1, ?_⟩
  simp only [enclosedPattern, afterChars?_ofText, List.drop_zero, hfront, Nat.not_lt_zero, if_false, Option.map_some,
    List.take_zero, List.nil_append, Nat.add_zero]
  congr 2
  omega

/-! ### Preformatted text in a text -/

/-- There is preformatted text in the text: three opening braces, and three closing ones behind them. -/
def HasCode (text : List Char) : Prop :=
  ∃ before code behind, text = before ++ preformattedMark ++ code ++ preformattedEnd ++ behind

theorem foundIn_code_eq_nil : foundIn codePattern (Piece.ofText text) = [] ↔ ¬ HasCode text := by
  rw [foundIn_eq_nil]
  constructor
  · rintro hnone ⟨before, code, behind, rfl⟩
    have hsuffix : Piece.ofText preformattedMark ++ (Piece.ofText code ++ (Piece.ofText preformattedEnd ++
        Piece.ofText behind)) <:+ Piece.ofText (before ++ preformattedMark ++ code ++ preformattedEnd ++ behind) := by
      refine ⟨Piece.ofText before, ?_⟩
      simp only [ofText_append, List.append_assoc]
    obtain ⟨found, n, hfound⟩ := @exists_enclosed preformattedMark preformattedEnd (by decide)
      (by decide) (Piece.ofText code) (Piece.ofText behind)
    have hmatch := hnone _ hsuffix (by simp [preformattedMark, Piece.ofText])
    cases hmatch.symm.trans hfound
  · intro hcode behind hbehind hne
    rw [Option.eq_none_iff_forall_ne_some]
    rintro ⟨found, n⟩ hfound
    obtain ⟨others, hothers, -⟩ := enclosedPattern_eq_some hfound
    obtain ⟨before, hbefore⟩ := hbehind
    refine hcode ⟨Piece.textOf before, Piece.textOf found, Piece.textOf others, ?_⟩
    have htext := congrArg Piece.textOf hbefore
    rw [hothers] at htext
    simpa [Piece.textOf, preformattedMark, preformattedEnd] using htext.symm

/-- The pieces of a text of which the preformatted parts are held with numbers from `next` on. -/
def codePieces (next : Nat) (text : List Char) : List Piece :=
  (holdParts renderCode next (parts codePattern (Piece.ofText text))).1

theorem codePieces_of_not_hasCode (h : ¬ HasCode text) (next : Nat) : codePieces next text = Piece.ofText text := by
  have hparts := parts_eq_items (foundIn_eq_nil.mp (foundIn_code_eq_nil.mpr h))
  have hheld := holdParts_append_items renderCode next [] (Piece.ofText text)
  rw [codePieces, hparts]
  exact congrArg Prod.fst hheld

/-- What is held leaves a NUL in the text that is read. -/
theorem nul_mem_codePieces (h : HasCode text) (next : Nat) : '\x00' ∈ Piece.textOf (codePieces next text) := by
  have hfound : foundIn codePattern (Piece.ofText text) ≠ [] := fun hnil => foundIn_code_eq_nil.mp hnil h
  have hmem : Piece.held next ∈ codePieces next text :=
    mem_holdParts.mpr (Or.inr ⟨0, List.length_pos_iff.mpr hfound, rfl⟩)
  exact List.mem_flatMap.mpr ⟨_, hmem, by simp [Piece.text]⟩

theorem char_mem_codePieces {c : Char} {next : Nat} (h : .char c ∈ codePieces next text) : c ∈ text := by
  rcases mem_holdParts.mp h with hitem | ⟨k, -, heq⟩
  · obtain ⟨d, hd, heq⟩ := List.mem_map.mp (mem_of_item_mem hitem)
    exact Piece.char.inj heq ▸ hd
  · cases heq

theorem codePieces_cons {c : Char} (hc : c ≠ '\x7b') (next : Nat) (text : List Char) :
    codePieces next (c :: text) = .char c :: codePieces next text := by
  have hnone : codePattern (.char c :: Piece.ofText text) = none :=
    code_startsAt _ _ fun heq => hc (Piece.char.inj heq)
  rw [codePieces, ofText_cons, parts_of_none hnone, holdParts]
  rfl

theorem codePieces_bracket (next : Nat) (text : List Char) :
    codePieces next (text ++ [']']) = codePieces next text ++ [.char ']'] := by
  have hend : IsInertEnd [']'] := ⟨by decide, by decide, by decide, by decide⟩
  rw [codePieces, ofText_append, hend.parts_code, holdParts_append_items]
  rfl

/-! ### What is held of a line in brackets -/

theorem holdParts_items_append {α : Type} (write : α → List Char) (next : Nat) (pieces : List Piece)
    (ps : List (Part Piece α)) : holdParts write next (pieces.map .item ++ ps) =
      (pieces ++ (holdParts write next ps).1, (holdParts write next ps).2) := by
  induction pieces with
  | nil => rfl
  | cons piece more ih =>
    rw [List.map_cons, List.cons_append, holdParts, ih]
    rfl

/-- No preformatted text starts among pieces without two braces side by side. -/
theorem parts_code_append (sparse : ¬ [Piece.char '\x7b', .char '\x7b'] <:+: pieces)
    (hhead : pieces ≠ [] → rest.head? ≠ some '\x7b') :
    parts codePattern (pieces ++ Piece.ofText rest) = pieces.map .item ++ parts codePattern (Piece.ofText rest) := by
  induction pieces with
  | nil => rfl
  | cons piece more ih =>
    have hmore := ih (fun h => sparse (h.trans (List.suffix_cons piece more).isInfix)) fun _ => hhead (by simp)
    have hnone : codePattern (piece :: (more ++ Piece.ofText rest)) = none := by
      rw [Option.eq_none_iff_forall_ne_some]
      rintro ⟨found, n⟩ hfound
      obtain ⟨behind, hbehind, -⟩ := enclosedPattern_eq_some hfound
      have hmark : Piece.ofText "\x7b\x7b\x7b".toList = [.char '\x7b', .char '\x7b', .char '\x7b'] := by decide
      rw [hmark] at hbehind
      obtain ⟨rfl, htail⟩ := List.cons.inj hbehind
      cases more with
      | nil =>
        cases rest with
        | nil => cases htail
        | cons c others => exact hhead (by simp) (congrArg some (Piece.char.inj (List.cons.inj htail).1))
      | cons second others =>
        obtain ⟨rfl, -⟩ := List.cons.inj htail
        exact sparse ⟨[], others, rfl⟩
    rw [List.cons_append, parts_of_none hnone, hmore, List.map_cons, List.cons_append]

theorem piecesFrom_of_not_twice (h : ∀ letter ∈ letters, letter.spelling ≠ .twice) (bracket bracket' : List Piece)
    (next : Nat) : piecesFrom bracket next letters = piecesFrom bracket' next letters := by
  induction letters generalizing next with
  | nil => rfl
  | cons letter more ih =>
    have hmore := ih fun l hl => h l (List.mem_cons_of_mem letter hl)
    have hletter := h letter List.mem_cons_self
    rw [piecesFrom, piecesFrom]
    cases hspelling : letter.spelling with
    | plain => simp only [hmore]
    | tilde => simp only [hmore]
    | twice => exact absurd hspelling hletter

/-- **What is held of a bracket, letters, and a text behind them**: of the letters those that were made literal, and
of the text what is preformatted. -/
theorem withLiteralsHeld_letters (spelled : AreSpelled letters) (hbracket : '[' ∉ Letter.writtenOf letters ++ rest)
    (htilde : '~' ∉ rest) (hhead : letters ≠ [] → rest.head? ≠ some '\x7b') :
    ∃ front fragments next, List.Forall₂ (StandsFor fragments) front letters ∧
      (Line.withLiteralsHeld ('[' :: (Letter.writtenOf letters ++ rest))).pieces =
        .char '[' :: (front ++ codePieces next rest) := by
  have htwice : ∀ letter ∈ letters, letter.spelling ≠ .twice := by
    rintro ⟨c, spelling⟩ hletter rfl
    have hsound : c = '[' := spelled.sound _ hletter
    refine hbracket (List.mem_append_left _ (List.mem_flatMap.mpr ⟨_, hletter, ?_⟩))
    rw [hsound]
    exact List.mem_cons_self
  have hpieces := piecesFrom_of_not_twice htwice [.char '[', .char '['] [.held (literalsOf letters).length] 0
  have hreads : List.Forall₂ (StandsFor (literalsOf letters ++ [['[']]))
      (piecesFrom [.char '[', .char '['] 0 letters) letters := by
    rw [hpieces]
    exact forall₂_piecesFrom spelled.sound (List.prefix_append _ _) (by simp)
  have hliterals : literalsHeld (Letter.writtenOf letters ++ rest) =
      ⟨piecesFrom [.char '[', .char '['] 0 letters ++ Piece.ofText rest, literalsOf letters⟩ := by
    have hparts := parts_literal_append (endsInTilde_writtenOf spelled.sound) (Piece.ofText rest)
    rw [parts_of_startsAt literal_startsAt htilde] at hparts
    rw [literalsHeld, ofText_append, hold_append hparts, ← literalsHeld, literalsHeld_writtenOf spelled.sound]
  have hbrackets : bracketsHeld (Letter.writtenOf letters ++ rest) =
      ⟨piecesFrom [.char '[', .char '['] 0 letters ++ Piece.ofText rest, literalsOf letters ++ [['[']]⟩ := by
    have hnone : Piece.char '[' ∉ (literalsHeld (Letter.writtenOf letters ++ rest)).pieces := by
      intro hmem
      obtain ⟨c, hc, heq⟩ := List.mem_map.mp (char_mem_hold hmem)
      exact hbracket (Piece.char.inj heq ▸ hc)
    rw [hliterals] at hnone
    rw [bracketsHeld, hliterals, Line.holdLiteral]
    exact congrArg (Line.mk · _) (substitute_of_items _ (parts_of_not_mem bracket_startsAt hnone))
  have hsparse := (areQuiet hreads spelled).sparse '\x7b' (by decide)
  have hfilled : piecesFrom [.char '[', .char '['] 0 letters ≠ [] → rest.head? ≠ some '\x7b' := fun hne =>
    hhead fun hnil => hne (by rw [hnil]; rfl)
  refine ⟨_, _, (literalsOf letters ++ [['[']]).length, hreads, ?_⟩
  rw [withLiteralsHeld_bracket hbracket, withLiteralsHeld_eq, hbrackets, Line.hold]
  dsimp only
  rw [parts_code_append hsparse hfilled, holdParts_items_append]
  rfl

/-! ### The links of a line in brackets -/

theorem IsOneLink.linksIn (h : IsOneLink line content) : Wiki.linksIn line = [content] := by
  have hplugins : (pluginsHeld line).pieces = .char '[' :: (content ++ [.char ']']) := by
    have hline : Line.withLiteralsHeld line =
        ⟨.char '[' :: (content ++ [.char ']']), (Line.withLiteralsHeld line).fragments⟩ := by rw [← h.pieces]
    rw [pluginsHeld, hline, hold_of_items renderPlugin h.parts_plugin]
  rw [Wiki.linksIn, hplugins, foundIn, h.parts_link]
  rfl

/-- A line that is one plugin has no link. -/
theorem linksIn_of_plugin
    (hpieces : (Line.withLiteralsHeld line).pieces = .char '[' :: .char '\x7b' :: (pieces ++ [.char '\x7d', .char ']']))
    (hbracket : Piece.char '[' ∉ pieces) : linksIn line = [] := by
  obtain ⟨found, n, hfound⟩ := @exists_enclosed "[\x7b".toList "\x7d]".toList (by decide)
    (by decide) pieces []
  have hfound : pluginPattern (.char '[' :: .char '\x7b' :: (pieces ++ [.char '\x7d', .char ']'])) =
      some (found, n + 1) := hfound
  have hnone : Piece.char '[' ∉ (pluginsHeld line).pieces := by
    intro hmem
    have hitem := (mem_hold.mp hmem).resolve_right (by simp)
    rw [hpieces, parts_of_some hfound] at hitem
    have hrest := List.mem_of_mem_drop (mem_of_item_mem ((List.mem_cons.mp hitem).resolve_left nofun))
    simp [hbracket] at hrest
  rw [linksIn, foundIn, parts_of_not_mem link_startsAt hnone]
  simp [foundOf, List.filterMap_map]

/-- A link in a line that is one bracketed content is that content. -/
theorem isOneLink_of_mem_linksIn (hpieces : (Line.withLiteralsHeld line).pieces = .char '[' :: (content ++ [.char ']']))
    (filled : content ≠ []) (inner : ∀ piece ∈ content, piece.isBracket = false) (h : inside ∈ linksIn line) :
    inside = content ∧ IsOneLink line content := by
  have hplugin : content.head? = some (.char '\x7b') → content.getLast? ≠ some (.char '\x7d') := by
    intro hhead hlast
    obtain ⟨more, rfl⟩ := List.head?_eq_some_iff.mp hhead
    obtain ⟨between, rfl⟩ : ∃ between, more = between ++ [.char '\x7d'] := by
      obtain ⟨front, hfront⟩ := List.getLast?_eq_some_iff.mp hlast
      cases front with
      | nil => cases hfront
      | cons piece others => exact ⟨others, (List.cons.inj hfront).2⟩
    have hnone : Piece.char '[' ∉ between := fun hmem =>
      ne_of_isBracket (c := '[') (inner (.char '[') (by simp [hmem])) (by decide) rfl
    have hbetween : (Line.withLiteralsHeld line).pieces =
        .char '[' :: .char '\x7b' :: (between ++ [.char '\x7d', .char ']']) := by rw [hpieces]; simp
    rw [linksIn_of_plugin hbetween hnone] at h
    cases h
  have hlink : IsOneLink line content := ⟨hpieces, filled, inner, hplugin⟩
  rw [hlink.linksIn] at h
  exact ⟨List.mem_singleton.mp h, hlink⟩

/-! ### Pages that start with a bracket -/

/-- The first line of a page ends where the first mark of an end stands. -/
theorem pageLines_append {front : List Char} {c : Char} (hfront : ∀ d ∈ front, d ∉ lineEnds)
    (hc : c = '\n' ∨ c = '\r') (rest : List Char) : ∃ others, pageLines (front ++ c :: rest) = front :: others := by
  have hkept : front.filter (· != '\x00') = front :=
    List.filter_eq_self.mpr fun d hd => by simpa using fun heq : d = '\x00' => hfront d hd (by rw [heq]; decide)
  have hreturn : '\r' ∉ front := fun hmem => hfront _ hmem (by decide)
  have hfeed : '\n' ∉ front := fun hmem => hfront _ hmem (by decide)
  obtain ⟨more, hmore⟩ : ∃ more, normalizeNewlines ((c :: rest).filter (· != '\x00')) = '\n' :: more := by
    rcases hc with rfl | rfl
    · exact ⟨_, normalizeNewlines_cons fun heq => absurd heq (by decide)⟩
    · rw [List.filter_cons_of_pos (by decide)]
      rcases hothers : rest.filter (· != '\x00') with _ | ⟨d, others⟩
      · exact ⟨_, normalizeNewlines_cons nofun⟩
      · by_cases hd : d = '\n'
        · exact ⟨normalizeNewlines others, by rw [hd, normalizeNewlines]⟩
        · exact ⟨_, normalizeNewlines_cons fun _ heq => hd (Option.some.inj heq)⟩
  refine ⟨lines more, ?_⟩
  rw [pageLines, List.filter_append, hkept, normalizeNewlines_append hreturn, hmore, lines, splitAt_append hfeed, lines]

/-- An open paragraph is the next fragment, with the lines that follow it. -/
theorem exists_paragraph (first : List Char) (read lines : List (List Char)) :
    ∃ read' more, fragmentsFrom (.inParagraph (first :: read)) lines = .paragraph (first :: read') :: more := by
  induction lines generalizing read with
  | nil => exact ⟨read, _, rfl⟩
  | cons line rest ih =>
    have hstep : (Pending.inParagraph (first :: read)).step line = (Pending.inParagraph (first :: read)).stepLine line := rfl
    rw [fragmentsFrom, hstep, Pending.stepLine]
    cases LineKind.of ((Pending.inParagraph (first :: read)).styles != 0) line with
    | text => exact ih (read ++ [line])
    | _ => exact ⟨read, _, rfl⟩

/-- Behind the first of the lines there is nothing, or a line feed. -/
theorem exists_unlines_cons (line : List Char) (lines : List (List Char)) :
    ∃ rest, unlines (line :: lines) = line ++ rest ∧ (rest = [] ∨ rest.head? = some '\n') := by
  cases lines with
  | nil => exact ⟨[], (List.append_nil line).symm, Or.inl rfl⟩
  | cons next others => exact ⟨'\n' :: unlines (next :: others), unlines_cons line (by simp), Or.inr rfl⟩

/-- A page whose first line starts with a bracket shows that line in a paragraph, and no tag of an anchor follows it. -/
theorem renderPage_bracket {page : List Char} {others : List (List Char)} (h : pageLines page = ('[' :: text) :: others)
    (context : Context) : ∃ rest, renderPage context page = "<p>".toList ++ (renderInline context ('[' :: text) ++ rest) ∧
      ¬ "<a".toList <+: rest := by
  obtain ⟨read, more, hfragments⟩ := exists_paragraph ('[' :: text) [] others
  have hpage : fragmentsOf page = .paragraph (('[' :: text) :: read) :: more := by
    rw [fragmentsOf, h, fragmentsFrom]
    simp only [Pending.step, Pending.empty, Pending.stepLine, kind_of_bracket]
    exact hfragments
  obtain ⟨behind, hbehind, -⟩ := exists_unlines_cons (Fragment.render context (.paragraph (('[' :: text) :: read)))
    (more.map (Fragment.render context))
  obtain ⟨inside, hinside, hhead⟩ := exists_unlines_cons (renderInline context ('[' :: text)) (read.map (renderInline context))
  have hparagraph : Fragment.render context (.paragraph (('[' :: text) :: read)) =
      "<p>".toList ++ unlines (renderInline context ('[' :: text) :: read.map (renderInline context)) ++ "</p>".toList := rfl
  refine ⟨inside ++ ("</p>".toList ++ behind), ?_, ?_⟩
  · rw [renderPage, hpage, List.map_cons, hbehind, hparagraph, hinside]
    simp only [List.append_assoc]
  · rcases hhead with rfl | hhead
    · exact fun hprefix => absurd (congrArg (List.take 2) (List.prefix_iff_eq_append.mp hprefix).symm) (by simp)
    · obtain ⟨tail, rfl⟩ := List.head?_eq_some_iff.mp hhead
      exact fun hprefix => absurd (List.cons_prefix_cons.mp hprefix).1 (by decide)

/-! ### Links to pages -/

/-- The name of a page that a link leads to: it is no number, no address elsewhere and no attachment. -/
structure IsPageName (target : List Char) : Prop where
  ne_nil : target ≠ []
  plain : ∀ c ∈ target, c ∉ "[]|~#\x00".toList
  trimmed : Trimmed isBlank target
  number : isFootnoteNumber target = false
  external : isExternal target = false
  attachment : (extension? target).any attachmentExtensions.contains = false

namespace IsPageName

theorem not_mem (h : IsPageName target) {c : Char} (hc : c ∈ "[]|~#\x00".toList) : c ∉ target := fun hmem =>
  h.plain c hmem hc

theorem not_mem_closed (h : IsPageName target) {c : Char} (hc : c ∈ "[|~".toList) : c ∉ target ++ [']'] := by
  have hchars : "[|~".toList = ['[', '|', '~'] := by decide
  rw [hchars] at hc
  simp only [List.mem_append, List.mem_cons, List.not_mem_nil, or_false, not_or] at hc ⊢
  rcases hc with rfl | rfl | rfl
  · exact ⟨h.not_mem (by decide), by decide⟩
  · exact ⟨h.not_mem (by decide), by decide⟩
  · exact ⟨h.not_mem (by decide), by decide⟩

theorem trim_eq (h : IsPageName target) : trim target = target := h.trimmed.trimWith_eq_self

theorem renderLink (h : IsPageName target) (heditor : context.editorMode = true) (hparts : linkParts body = (label, target)) :
    renderLink context body = anchor "wikipage" target (Html.escape label) := by
  have hsection : target.head? ≠ some '#' := fun heq => h.not_mem (by decide) (List.mem_of_head? heq)
  have hmark : footnoteMark? target = none := by
    unfold footnoteMark?
    split
    · exact absurd rfl hsection
    · rfl
  unfold Wiki.renderLink
  simp only [hparts, hmark, h.number, h.external, h.attachment, pageAddress, heditor, Bool.false_eq_true, if_false,
    if_true, beq_iff_eq, hsection]

end IsPageName

/-- The link comes back: nothing of its label has to be made literal or ends the label, its target is on one line and
has no preformatted text in it, and the two are not enclosed in braces as a plugin is. -/
structure IsKeptLink (label target : List Char) : Prop where
  literal : escapeWiki label = label
  ends : '|' ∉ label ∧ ']' ∉ label
  oneLine : '\n' ∉ target ∧ '\r' ∉ target
  code : ¬ HasCode target
  plugin : label.head? = some '\x7b' → target.getLast? ≠ some '\x7d'

/-- The page of one link to a page. -/
def shownLink (label target : List Char) : List Char :=
  Html.paragraphText (anchor "wikipage" target (Html.escape label))

/-- A page that is shown as one link has such a link in its first line. -/
theorem exists_link_of_page (heditor : context.editorMode = true) {page : List Char} {others : List (List Char)}
    (hlines : pageLines page = ('[' :: line) :: others) (h : renderPage context page = shownLink label target) :
    ∃ inside ∈ linksIn ('[' :: line), linkParts (Piece.textOf inside) = (label, target) := by
  obtain ⟨rest, hpage, hrest⟩ := renderPage_bracket hlines context
  have hshown : shownLink label target =
      "<p>".toList ++ (anchor "wikipage" target (Html.escape label) ++ "</p>".toList) := by
    have hopen : Html.startTagText "p" = "<p>".toList := by decide
    have hclose : Html.endTagText "p" = "</p>".toList := by decide
    rw [shownLink, Html.paragraphText, hopen, hclose, List.append_assoc]
  rw [hpage, hshown] at h
  exact exists_link_of_renderInline heditor hrest (List.append_cancel_left h)

/-- Neither a bar nor a bracket is in the label of a link. -/
theorem not_mem_label (h : inside ∈ linksIn line) {c : Char} (hc : c ∈ "[]|".toList) :
    c ∉ (linkParts (Piece.textOf inside)).1 := by
  obtain ⟨-, hinner⟩ := exists_suffix_of_mem_link h
  have hbracket : ∀ d, (Piece.char d).isBracket = true → (d = '\x00' ∨ d.isDigit = true → False) →
      d ∉ (linkParts (Piece.textOf inside)).1 := fun d hd hmark =>
    (not_mem_linkParts fun hmem => ne_of_isBracket (hinner _ ((mem_textOf hmem).resolve_right hmark)) hd rfl).1
  have hchars : "[]|".toList = ['[', ']', '|'] := by decide
  rw [hchars] at hc
  simp only [List.mem_cons, List.not_mem_nil, or_false] at hc
  rcases hc with rfl | rfl | rfl
  · exact hbracket _ (by decide) (by decide)
  · exact hbracket _ (by decide) (by decide)
  · exact bar_not_mem_linkParts _

/-- A link is closed in its line. -/
theorem closing_mem (h : inside ∈ linksIn line) : ']' ∈ line := by
  obtain ⟨⟨behind, hsuffix⟩, -⟩ := exists_suffix_of_mem_link h
  exact char_mem_withLiteralsHeld (char_mem_hold (hsuffix.subset (by simp)))

/-- What one bracketed content is shown as. -/
theorem renderPage_eq_shownLink_iff (heditor : context.editorMode = true) (name : IsPageName target)
    (hends : ∀ c ∈ '[' :: line, c ∉ lineEnds)
    (hpieces : (Line.withLiteralsHeld ('[' :: line)).pieces = .char '[' :: (content ++ [.char ']']))
    (filled : content ≠ []) (inner : ∀ piece ∈ content, piece.isBracket = false) :
    renderPage context ('[' :: line) = shownLink label target ↔
      (content.head? = some (.char '\x7b') → content.getLast? ≠ some (.char '\x7d')) ∧
        linkParts (Piece.textOf content) = (label, target) := by
  constructor
  · intro h
    obtain ⟨inside, hinside, hparts⟩ := exists_link_of_page heditor (pageLines_of_lineEnds hends) h
    obtain ⟨rfl, hlink⟩ := isOneLink_of_mem_linksIn hpieces filled inner hinside
    exact ⟨hlink.noPlugin, hparts⟩
  · rintro ⟨hplugin, hparts⟩
    have hlink : IsOneLink ('[' :: line) content := ⟨hpieces, filled, inner, hplugin⟩
    rw [renderPage_of_bracket hends, hlink.renderInline context, name.renderLink heditor hparts, shownLink]

/-! ### What is between the brackets -/

section Content

variable {fragments : List (List Char)} {front : List Piece} {next : Nat}

theorem eq_ofText_of_nul_not_mem (h : '\x00' ∉ Piece.textOf pieces) : pieces = Piece.ofText (Piece.textOf pieces) := by
  induction pieces with
  | nil => rfl
  | cons piece rest ih =>
    cases piece with
    | held index => exact absurd List.mem_cons_self h
    | char c => exact congrArg (Piece.char c :: ·) (ih fun hmem => h (List.mem_cons_of_mem c hmem))

theorem mem_textOf_codePieces {c : Char} (hc : ¬ (c = '\x00' ∨ c.isDigit = true))
    (h : c ∈ Piece.textOf (codePieces next text)) : c ∈ text :=
  char_mem_codePieces ((mem_textOf h).resolve_right hc)

theorem isBracket_codePieces (name : IsPageName target) : ∀ piece ∈ codePieces next target, piece.isBracket = false := by
  intro piece hpiece
  cases piece with
  | held index => rfl
  | char c =>
    have hc := char_mem_codePieces hpiece
    exact isBracket_char (fun heq => name.not_mem (by decide) (heq ▸ hc)) fun heq => name.not_mem (by decide) (heq ▸ hc)

theorem ofText_plugin (front behind : List Char) :
    ((Piece.ofText front).head? = some (.char '\x7b') → (Piece.ofText behind).getLast? ≠ some (.char '\x7d')) ↔
      (front.head? = some '\x7b' → behind.getLast? ≠ some '\x7d') := by
  simp [Piece.ofText]

theorem codePieces_ne_nil (hne : text ≠ []) : codePieces next text ≠ [] := by
  by_cases hcode : HasCode text
  · intro hnil
    have hmem := nul_mem_codePieces hcode next
    rw [hnil] at hmem
    cases hmem
  · rw [codePieces_of_not_hasCode hcode]
    simpa [Piece.ofText] using hne

/-- The target alone is read as a link to it, unless it has preformatted text in it. -/
theorem linkParts_codePieces_iff (name : IsPageName target) :
    linkParts (Piece.textOf (codePieces next target)) = (label, target) ↔ label = target ∧ ¬ HasCode target := by
  have hbar : '|' ∉ Piece.textOf (codePieces next target) := fun hmem =>
    name.not_mem (by decide) (mem_textOf_codePieces (by decide) hmem)
  rw [linkParts_of_not_mem hbar, Prod.mk.injEq]
  constructor
  · rintro ⟨hlabel, htarget⟩
    refine ⟨hlabel.symm.trans htarget, fun hcode => name.not_mem (c := '\x00') (by decide) ?_⟩
    rw [← htarget]
    exact mem_trim (by decide) (nul_mem_codePieces hcode next)
  · rintro ⟨rfl, hcode⟩
    have htext : Piece.textOf (Piece.ofText label) = label := text_ofText label
    rw [codePieces_of_not_hasCode hcode, htext, name.trim_eq]
    exact ⟨rfl, rfl⟩

/-- A label and a target are read as they are if nothing of the label is held and the target has no preformatted
text in it. -/
theorem linkParts_named_iff (name : IsPageName target) (hne : label ≠ []) (htrim : trim label = label)
    (hnul : '\x00' ∉ label) (hbar : '|' ∉ label) (reads : List.Forall₂ (StandsFor fragments) front letters)
    (hletters : letters.map Letter.char = label) :
    linkParts (Piece.textOf (front ++ .char '|' :: codePieces next target)) = (label, target) ↔
      front = Piece.ofText label ∧ ¬ HasCode target := by
  have htext : Piece.textOf (front ++ .char '|' :: codePieces next target) =
      Piece.textOf front ++ '|' :: Piece.textOf (codePieces next target) := by
    simp [Piece.textOf, Piece.text]
  have hfront : '|' ∉ Piece.textOf front := fun hmem => by
    have hletter := plain_mem_of_char_mem reads ((mem_textOf hmem).resolve_right (by decide))
    exact hbar (hletters ▸ List.mem_map_of_mem hletter)
  have hbehind : '|' ∉ Piece.textOf (codePieces next target) := fun hmem =>
    name.not_mem (by decide) (mem_textOf_codePieces (by decide) hmem)
  rw [htext, linkParts_named hfront hbehind, Prod.mk.injEq]
  constructor
  · rintro ⟨hlabel, htarget⟩
    have hcode : ¬ HasCode target := fun hcode => by
      refine name.not_mem (c := '\x00') (by decide) ?_
      rw [← htarget]
      exact mem_trim (by decide) (nul_mem_codePieces hcode next)
    have hread : '\x00' ∉ Piece.textOf front := fun hmem => by
      have hmem := mem_trim (by decide) hmem
      rw [if_neg (by simpa using List.ne_nil_of_mem hmem)] at hlabel
      exact hnul (hlabel ▸ hmem)
    have hplain := eq_ofText_of_nul_not_mem hread
    rw [hplain] at reads
    have htext : label = Piece.textOf front := by
      rw [← hletters, eq_of_ofText reads, List.map_map]
      exact List.map_id _
    exact ⟨htext ▸ hplain, hcode⟩
  · rintro ⟨rfl, hcode⟩
    have hlabel : Piece.textOf (Piece.ofText label) = label := text_ofText label
    have htarget : Piece.textOf (Piece.ofText target) = target := text_ofText target
    rw [codePieces_of_not_hasCode hcode, hlabel, htarget, name.trim_eq, htrim, if_neg (by simpa using hne)]
    exact ⟨rfl, rfl⟩

/-- What a target alone between brackets is shown as. -/
theorem shownLink_bare_iff (name : IsPageName target) (heditor : context.editorMode = true)
    (hends : ∀ c ∈ '[' :: (target ++ [']']), c ∉ lineEnds) :
    renderPage context ('[' :: (target ++ [']'])) = shownLink label target ↔
      label = target ∧ ¬ HasCode target ∧ (target.head? = some '\x7b' → target.getLast? ≠ some '\x7d') := by
  obtain ⟨front, fragments, next, hfront, hpieces⟩ := @withLiteralsHeld_letters (target ++ [']']) []
    ⟨nofun, by simp⟩ (name.not_mem_closed (by decide)) (name.not_mem_closed (by decide)) fun hne => absurd rfl hne
  rw [List.forall₂_nil_right_iff.mp hfront, codePieces_bracket] at hpieces
  rw [renderPage_eq_shownLink_iff heditor name hends hpieces (codePieces_ne_nil name.ne_nil) (isBracket_codePieces name),
    linkParts_codePieces_iff name, and_comm, and_assoc]
  refine and_congr_right fun _ => and_congr_right fun hcode => ?_
  rw [codePieces_of_not_hasCode hcode, ofText_plugin]

/-- What letters, a bar and a target between brackets are shown as. -/
theorem shownLink_named_iff (name : IsPageName target) (heditor : context.editorMode = true) (spelled : AreSpelled letters)
    (hends : ∀ c ∈ '[' :: (Letter.writtenOf letters ++ '|' :: (target ++ [']'])), c ∉ lineEnds)
    (hne : label ≠ []) (htrim : trim label = label) (hnul : '\x00' ∉ label) (hlabel : ∀ c ∈ label, c ∉ "[]|".toList)
    (hletters : letters.map Letter.char = label) :
    renderPage context ('[' :: (Letter.writtenOf letters ++ '|' :: (target ++ [']']))) = shownLink label target ↔
      letters = label.map (⟨·, .plain⟩) ∧ ¬ HasCode target ∧
        (label.head? = some '\x7b' → target.getLast? ≠ some '\x7d') := by
  have hnot : ∀ {c}, c ∈ "[]|".toList → c ∉ label := fun hc hmem => hlabel _ hmem hc
  have hopening : '[' ∉ Letter.writtenOf letters ++ '|' :: (target ++ [']']) := by
    simp only [List.mem_append (s := Letter.writtenOf letters), List.mem_cons (b := '|'), not_or]
    exact ⟨fun hmem => hnot (by decide) (hletters ▸ (mem_writtenOf hmem).resolve_left (by decide)), by decide,
      name.not_mem_closed (by decide)⟩
  obtain ⟨front, fragments, next, hfront, hpieces⟩ := withLiteralsHeld_letters spelled hopening
    (by simpa using name.not_mem_closed (c := '~') (by decide)) fun _ => by simp
  replace hpieces : (Line.withLiteralsHeld ('[' :: (Letter.writtenOf letters ++ '|' :: (target ++ [']'])))).pieces =
      .char '[' :: ((front ++ .char '|' :: codePieces next target) ++ [.char ']']) := by
    rw [hpieces, codePieces_cons (by decide), codePieces_bracket, List.append_assoc, List.cons_append]
  have hinner : ∀ piece ∈ front ++ .char '|' :: codePieces next target, piece.isBracket = false := by
    intro piece hpiece
    rcases List.mem_append.mp hpiece with hpiece | hpiece
    · cases piece with
      | held index => rfl
      | char c =>
        have hc : c ∈ label := hletters ▸ List.mem_map_of_mem (plain_mem_of_char_mem hfront hpiece)
        exact isBracket_char (fun heq => hnot (by decide) (heq ▸ hc)) fun heq => hnot (by decide) (heq ▸ hc)
    · rcases List.mem_cons.mp hpiece with rfl | hpiece
      · decide
      · exact isBracket_codePieces name piece hpiece
  rw [renderPage_eq_shownLink_iff heditor name hends hpieces (by simp) hinner,
    linkParts_named_iff name hne htrim hnul (hnot (by decide)) hfront hletters, and_comm, and_assoc]
  have hplain : front = Piece.ofText label ↔ letters = label.map (⟨·, .plain⟩) :=
    ⟨fun h => eq_of_ofText (h ▸ hfront), fun h => eq_ofText (h ▸ hfront)⟩
  rw [hplain]
  refine and_congr_right fun hletters => and_congr_right fun hcode => ?_
  have hlabel : Piece.ofText label ≠ [] := by simpa [Piece.ofText] using hne
  have htarget : Piece.ofText target ≠ [] := by simpa [Piece.ofText] using name.ne_nil
  rw [hplain.mpr hletters, codePieces_of_not_hasCode hcode, ← ofText_plugin, List.head?_append_of_ne_nil _ hlabel,
    List.getLast?_append_of_ne_nil _ (List.cons_ne_nil _ _), List.getLast?_cons_of_ne_nil htarget]

end Content

end WikiMigration.Wiki

namespace WikiMigration.Conversion

open Text Writing Wiki

variable {label target : List Char} {context : Context}

/-! ### What is written -/

/-- Nothing is lost when what was doubled is single again. -/
theorem mem_plainLabel {c : Char} {text : List Char} (h : c ∈ text) : c ∈ Content.plainLabel text :=
  mem_replaceAll (by decide) (by decide) (mem_replaceAll (by decide) (by decide) h)

/-- A link is written without its label exactly if nothing of the label has to be made literal and it is the target. -/
theorem linkBody_cases (h : IsTextLine label) (name : IsPageName target) :
    (escapeWiki label = label ∧ label = target ∧ Content.linkBody (escapeWiki label) target = target) ∨
      Content.linkBody (escapeWiki label) target = escapeWiki label ++ '|' :: target := by
  unfold Content.linkBody
  split
  next hshort =>
    have hplain : Content.plainLabel (escapeWiki label) = target := by
      obtain ⟨c, hc, -⟩ := h.escaped.filled
      simpa [List.ne_nil_of_mem (mem_plainLabel hc)] using hshort
    have hnone : ∀ {c}, c ∈ "[]|~#\x00".toList → c ∉ escapeWiki label := fun hc hmem =>
      name.not_mem hc (hplain ▸ mem_plainLabel hmem)
    have hsame : escapeWiki label = label := by
      have hletters := eq_plain_of_writtenOf (areSpelled_spell label).sound (hnone (by decide)) (hnone (by decide))
        (escapeWiki_eq label).symm
      have hmap := map_char_spell label
      rw [hletters, List.map_map] at hmap
      exact (List.map_id _).symm.trans hmap
    rw [hsame] at hnone hplain
    have hbrackets : replaceAll "[[".toList ['['] label = label := replaceAll_of_not_mem (hnone (by decide)) _
    have htildes : replaceAll "~~".toList ['~'] label = label := replaceAll_of_not_mem (hnone (by decide)) _
    rw [Content.plainLabel, hbrackets, htildes] at hplain
    exact Or.inl ⟨hsame, hplain, rfl⟩
  next => exact Or.inr rfl

/-- Where nothing has to be made literal every letter is written as it is. -/
theorem spell_of_literal (h : escapeWiki label = label) : spell label = label.map (⟨·, .plain⟩) := by
  have hletters := map_char_spell label
  rw [escapeWiki_eq] at h
  have hplain := eq_plain_of_writtenOf_eq (h.trans hletters.symm)
  rwa [hletters] at hplain

theorem lineEnds_not_mem (h : IsTextLine label) {c : Char} (hc : c ∈ label) : c ∉ lineEnds := by
  obtain ⟨hnul, hblank⟩ := h.chars c hc
  simp only [lineEnds, List.mem_cons, List.not_mem_nil, or_false, not_or]
  refine ⟨?_, ?_, hnul⟩
  · rintro rfl
    exact absurd (hblank (by decide)) (by decide)
  · rintro rfl
    exact absurd (hblank (by decide)) (by decide)

theorem lead_ends (h : IsTextLine label) {lead : List Char} (hlead : ∀ c ∈ lead, c = '|' ∨ c = '~' ∨ c ∈ label) :
    ∀ c ∈ lead, c ∉ lineEnds := by
  intro c hc
  rcases hlead c hc with rfl | rfl | hc
  · decide
  · decide
  · exact lineEnds_not_mem h hc

/-- What stands before the target of a link is its label, with marks that make it literal and a bar. -/
theorem exists_lead (h : IsTextLine label) (name : IsPageName target) :
    ∃ lead, Content.linkBody (escapeWiki label) target = lead ++ target ∧ ∀ c ∈ lead, c = '|' ∨ c = '~' ∨ c ∈ label := by
  rcases linkBody_cases h name with ⟨-, -, hbody⟩ | hbody
  · exact ⟨[], hbody, nofun⟩
  · refine ⟨escapeWiki label ++ ['|'], by rw [hbody]; simp, fun c hc => ?_⟩
    rcases List.mem_append.mp hc with hc | hc
    · rw [escapeWiki_eq] at hc
      exact Or.inr ((mem_writtenOf hc).imp_right fun hmem => map_char_spell label ▸ hmem)
    · exact Or.inl (List.mem_singleton.mp hc)

theorem lineEnds_markup (h : IsTextLine label) (name : IsPageName target) (htarget : ∀ c ∈ target, c ∉ lineEnds) :
    ∀ c ∈ (Content.link label target).markup, c ∉ lineEnds := by
  obtain ⟨lead, hbody, hlead⟩ := exists_lead h name
  rw [Content.markup, hbody]
  intro c hc
  simp only [List.mem_cons, List.mem_append, List.not_mem_nil, or_false] at hc
  rcases hc with rfl | (hc | hc) | rfl
  · decide
  · exact lead_ends h hlead c hc
  · exact htarget c hc
  · decide

/-- A link that comes back has neither a bar nor a bracket in its label, and its target is on one line. -/
theorem plain_of_shown (h : IsTextLine label) (name : IsPageName target) (heditor : context.editorMode = true)
    (hshown : renderPage context (Content.link label target).markup = shownLink label target) :
    (∀ c ∈ label, c ∉ "[]|".toList) ∧ ∀ c ∈ target, c ∉ lineEnds := by
  obtain ⟨lead, hbody, hlead⟩ := exists_lead h name
  cases hfind : target.find? (· ∈ lineEnds) with
  | none =>
    have htarget : ∀ c ∈ target, c ∉ lineEnds := fun c hc => by simpa using List.find?_eq_none.mp hfind c hc
    have hlines := pageLines_of_lineEnds (lineEnds_markup h name htarget)
    obtain ⟨inside, hinside, hparts⟩ := exists_link_of_page heditor hlines hshown
    have hlabel := fun {c} => @not_mem_label _ _ hinside c
    rw [hparts] at hlabel
    exact ⟨fun c hc hmark => hlabel hmark hc, htarget⟩
  | some c =>
    -- the first line of the page has no bracket that closes
    obtain ⟨hc, front, rest, rfl, hfront⟩ := List.find?_eq_some_iff_append.mp hfind
    have hbreak : c = '\n' ∨ c = '\r' := by
      have hnul : c ≠ '\x00' := fun heq => name.not_mem (c := '\x00') (by decide) (heq ▸ by simp)
      simpa [lineEnds, hnul] using hc
    have hpage : '[' :: (lead ++ (front ++ c :: rest) ++ [']']) = ('[' :: (lead ++ front)) ++ c :: (rest ++ [']']) := by
      simp
    have hline : ∀ d ∈ '[' :: (lead ++ front), d ∉ lineEnds := by
      intro d hd
      simp only [List.mem_cons, List.mem_append] at hd
      rcases hd with rfl | hd | hd
      · decide
      · exact lead_ends h hlead d hd
      · simpa using hfront d hd
    rw [Content.markup, hbody, hpage] at hshown
    obtain ⟨others, hlines⟩ := pageLines_append hline hbreak (rest ++ [']'])
    obtain ⟨inside, hinside, hparts⟩ := exists_link_of_page heditor hlines hshown
    have hlabel := not_mem_label hinside (c := ']') (by decide)
    rw [hparts] at hlabel
    have hclosing : ']' ∈ lead ++ front := (List.mem_cons.mp (closing_mem hinside)).resolve_left (by decide)
    rcases List.mem_append.mp hclosing with hmem | hmem
    · exact absurd ((hlead _ hmem).resolve_left (by decide)) (by simpa using hlabel)
    · exact absurd (List.mem_append_left _ hmem) (name.not_mem (by decide))

/-- Where the label has neither a bar nor a bracket and the target is on one line, the two are read back as they are
if nothing of the label has to be made literal and there is no preformatted text and no plugin. -/
theorem shownLink_iff_of_plain (h : IsTextLine label) (name : IsPageName target) (heditor : context.editorMode = true)
    (hlabel : ∀ c ∈ label, c ∉ "[]|".toList) (htarget : ∀ c ∈ target, c ∉ lineEnds) :
    renderPage context (Content.link label target).markup = shownLink label target ↔
      escapeWiki label = label ∧ ¬ HasCode target ∧ (label.head? = some '\x7b' → target.getLast? ≠ some '\x7d') := by
  have hends := lineEnds_markup h name htarget
  rw [Content.markup] at hends ⊢
  rcases linkBody_cases h name with ⟨hsame, rfl, hbody⟩ | hbody
  · rw [hbody] at hends ⊢
    rw [shownLink_bare_iff name heditor hends]
    exact ⟨fun h => ⟨hsame, h.2⟩, fun h => ⟨rfl, h.2⟩⟩
  · have hletters := map_char_spell label
    have hnul : '\x00' ∉ label := fun hmem => (h.chars _ hmem).1 rfl
    rw [hbody, escapeWiki_eq, List.append_assoc, List.cons_append] at hends ⊢
    rw [shownLink_named_iff name heditor (areSpelled_spell label) hends h.ne_nil h.trim_eq hnul hlabel hletters]
    refine and_congr_left fun _ => ⟨fun hplain => by rw [hplain, writtenOf_plain], fun hsame => ?_⟩
    exact spell_of_literal ((escapeWiki_eq label).trans hsame)

variable {attributes : List Html.Attribute} {place : Writing.Place}

/-- **A link to a page is read back exactly if it is kept.** -/
theorem link_read_back_iff (link : IsPageLink attributes target) (h : IsTextLine label) (name : IsPageName target)
    (hpreformatted : place.preformatted = false) (hverbatim : place.verbatim = false) (before behind : List Html.Node)
    (heditor : context.editorMode = true) :
    renderPage context (writeNode .jspwiki place before behind (.element "a" attributes [.text label])).text =
      shownLink label target ↔ IsKeptLink label target := by
  rw [text_writeNode_link link h name.ne_nil hpreformatted hverbatim]
  constructor
  · intro hshown
    obtain ⟨hlabel, htarget⟩ := plain_of_shown h name heditor hshown
    obtain ⟨hliteral, hcode, hplugin⟩ := (shownLink_iff_of_plain h name heditor hlabel htarget).mp hshown
    exact ⟨hliteral, ⟨fun hmem => hlabel _ hmem (by decide), fun hmem => hlabel _ hmem (by decide)⟩,
      ⟨fun hmem => htarget _ hmem (by decide), fun hmem => htarget _ hmem (by decide)⟩, hcode, hplugin⟩
  · rintro ⟨hliteral, ⟨hbar, hclosing⟩, ⟨hfeed, hreturn⟩, hcode, hplugin⟩
    have hopening : '[' ∉ label := fun hmem => by
      have hletter : (⟨'[', .plain⟩ : Letter) ∈ spell label := by
        rw [spell_of_literal hliteral]
        exact List.mem_map_of_mem hmem
      exact ((areSpelled_spell label).sound _ hletter).2 rfl
    refine (shownLink_iff_of_plain h name heditor (fun c hc => ?_) fun c hc => ?_).mpr ⟨hliteral, hcode, hplugin⟩
    · have hchars : "[]|".toList = ['[', ']', '|'] := by decide
      rw [hchars]
      simp only [List.mem_cons, List.not_mem_nil, or_false, not_or]
      exact ⟨fun heq => hopening (heq ▸ hc), fun heq => hclosing (heq ▸ hc), fun heq => hbar (heq ▸ hc)⟩
    · simp only [lineEnds, List.mem_cons, List.not_mem_nil, or_false, not_or]
      exact ⟨fun heq => hfeed (heq ▸ hc), fun heq => hreturn (heq ▸ hc), fun heq => name.not_mem (by decide) (heq ▸ hc)⟩

/-- The attributes of a link to a page. -/
def pageAttributes (target : List Char) : List Html.Attribute :=
  [⟨"class", "wikipage".toList⟩, ⟨"href", target⟩]

/-- Braces, asterisks and percent signs that stand alone need not be made literal, and the link is read back. -/
theorem startPage_read_back :
    IsPageLink (pageAttributes "Main Page".toList) "Main Page".toList ∧ IsTextLine "the \x7bstart\x7d page*".toList ∧
      IsPageName "Main Page".toList ∧
      renderPage plainContext (writeNode .jspwiki .outside [] []
        (.element "a" (pageAttributes "Main Page".toList) [.text "the \x7bstart\x7d page*".toList])).text =
          shownLink "the \x7bstart\x7d page*".toList "Main Page".toList := by
  have link : IsPageLink (pageAttributes "Main Page".toList) "Main Page".toList := ⟨by decide, by decide⟩
  have label : IsTextLine "the \x7bstart\x7d page*".toList := by decide +kernel
  have name : IsPageName "Main Page".toList :=
    ⟨by decide, by decide +kernel, ⟨by decide, by decide⟩, by decide, by decide +kernel, by decide +kernel⟩
  have kept : IsKeptLink "the \x7bstart\x7d page*".toList "Main Page".toList :=
    ⟨by decide +kernel, by decide, by decide, foundIn_code_eq_nil.mp (by decide +kernel), by decide⟩
  exact ⟨link, label, name, (link_read_back_iff link label name rfl rfl [] [] rfl).mpr kept⟩

/-- A tilde is made literal for prose, and only the mark of it is read between brackets. -/
theorem tilde_not_read_back :
    IsPageLink (pageAttributes "Page".toList) "Page".toList ∧ IsTextLine "a~b".toList ∧ IsPageName "Page".toList ∧
      renderPage plainContext (writeNode .jspwiki .outside [] []
        (.element "a" (pageAttributes "Page".toList) [.text "a~b".toList])).text ≠
          shownLink "a~b".toList "Page".toList := by
  refine ⟨⟨by decide, by decide⟩, by decide +kernel,
    ⟨by decide, by decide +kernel, ⟨by decide, by decide⟩, by decide, by decide +kernel, by decide +kernel⟩, ?_⟩
  decide +kernel

end WikiMigration.Conversion
