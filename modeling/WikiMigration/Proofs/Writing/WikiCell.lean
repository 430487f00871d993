/-
The cells of a table in the wiki dialect.

A cell holds a text or a link to a page.  It is written as a line of markup with every bar made literal, which is
read as inline markup again.  A text comes back if there is no style in it.  A link never comes back: the bar
between its label and its target is made literal with those of the text.
-/
import WikiMigration.Proofs.Wiki.BareBar
import WikiMigration.Proofs.Wiki.TableRow
import WikiMigration.Proofs.Writing.WikiProse

namespace WikiMigration.Conversion

open Text Html Wiki Writing

variable {c : Char} {text label target : List Char} {letters : List Letter} {children : List Node}

/-! ### Lines of markup -/

/-- Two spaces side by side stand on one side of any other character. -/
theorem single_append_cons {xs ys : List Char} (hc : c ≠ ' ') (hxs : ¬ [' ', ' '] <:+: xs) (hys : ¬ [' ', ' '] <:+: ys) :
    ¬ [' ', ' '] <:+: xs ++ c :: ys := by
  intro hwithin
  induction xs with
  | nil =>
    rcases List.infix_cons_iff.mp hwithin with hprefix | hwithin
    · exact hc (List.cons_prefix_cons.mp hprefix).1.symm
    · exact hys hwithin
  | cons d xs ih =>
    rcases List.infix_cons_iff.mp hwithin with hprefix | hwithin
    · obtain ⟨rfl, hnext⟩ := List.cons_prefix_cons.mp hprefix
      cases xs with
      | nil => exact hc (List.cons_prefix_cons.mp hnext).1.symm
      | cons e xs =>
        obtain ⟨rfl, -⟩ := List.cons_prefix_cons.mp hnext
        exact hxs (List.prefix_append [' ', ' '] xs).isInfix
    · exact ih (fun h => hxs (h.trans (List.suffix_cons d xs).isInfix)) hwithin

theorem collapseBlanks_eq_self (spaces : HasSpacesOnly text) (single : ¬ [' ', ' '] <:+: text) :
    collapseBlanks text = text := by
  suffices h : collapseFrom false text = text ∧ (text.head? ≠ some ' ' → collapseFrom true text = ' ' :: text) from h.1
  induction text with
  | nil => exact ⟨rfl, fun _ => rfl⟩
  | cons c rest ih =>
    obtain ⟨hclosed, hopen⟩ := ih (fun d hd => spaces d (List.mem_cons_of_mem c hd))
      fun hwithin => single (hwithin.trans (List.suffix_cons c rest).isInfix)
    by_cases hblank : isBlank c = true
    · obtain rfl := spaces c List.mem_cons_self hblank
      refine ⟨?_, fun h => absurd rfl h⟩
      rw [collapseFrom, if_pos hblank]
      refine hopen fun hhead => single ?_
      obtain ⟨others, rfl⟩ := List.head?_eq_some_iff.mp hhead
      exact (List.prefix_append [' ', ' '] others).isInfix
    · rw [collapseFrom, collapseFrom, if_neg hblank, if_neg hblank, hclosed]
      exact ⟨rfl, fun _ => rfl⟩

/-- Writing puts no two spaces side by side. -/
theorem single_writtenOf (sound : ∀ letter ∈ letters, letter.IsSound)
    (single : ¬ [' ', ' '] <:+: letters.map Letter.char) : ¬ [' ', ' '] <:+: Letter.writtenOf letters := by
  induction letters with
  | nil => exact single
  | cons letter more ih =>
    have hmore := fun l hl => sound l (List.mem_cons_of_mem letter hl)
    have hrest := ih hmore fun hwithin => single (hwithin.trans (List.suffix_cons letter.char _).isInfix)
    -- Two spaces would be the last character of the letter and the first one behind it.
    have hletter : ∀ front : List Char, ' ' ∉ front →
        ¬ [' ', ' '] <:+: front ++ letter.char :: Letter.writtenOf more := by
      intro front hfront hwithin
      induction front with
      | nil =>
        rcases List.infix_cons_iff.mp hwithin with hprefix | hwithin
        · obtain ⟨hchar, others, hothers⟩ := List.cons_prefix_cons.mp hprefix
          obtain ⟨l, rfl, -⟩ := exists_cons_of_writtenOf hmore (by decide) (by decide) hothers.symm
          refine single ⟨[], l.map Letter.char, ?_⟩
          rw [List.map_cons, List.map_cons, ← hchar]
          rfl
        · exact hrest hwithin
      | cons d front ihfront =>
        rw [List.mem_cons, not_or] at hfront
        rcases List.infix_cons_iff.mp hwithin with hprefix | hwithin
        · exact hfront.1 (List.cons_prefix_cons.mp hprefix).1
        · exact ihfront hfront.2 hwithin
    have hsound := sound letter List.mem_cons_self
    obtain ⟨d, spelling⟩ := letter
    cases spelling with
    | plain => exact hletter [] (by simp)
    | tilde => exact hletter ['~'] (by decide)
    | twice =>
      obtain rfl : d = '[' := hsound
      exact hletter ['['] (by decide)

namespace IsTextLine

/-- What is written for a line of text is one. -/
theorem escaped (h : IsTextLine text) : IsTextLine (escapeWiki text) := by
  have hletters := map_char_spell text
  have sound := (areSpelled_spell text).sound
  rw [escapeWiki_eq]
  refine ⟨(h.isBlockText hletters).ne_nil, fun c hc => ?_, trimmed_writtenOf (by decide) (by rw [hletters]; exact h.ends),
    single_writtenOf sound (by rw [hletters]; exact h.single)⟩
  rcases mem_writtenOf hc with rfl | hmem
  · decide
  · exact h.chars c (hletters ▸ hmem)

/-- Brackets around a line make one. -/
theorem bracketed (h : IsTextLine text) : IsTextLine ('[' :: (text ++ [']'])) where
  ne_nil := List.cons_ne_nil _ _
  chars c hc := by
    rcases List.mem_cons.mp hc with rfl | hc
    · decide
    rcases List.mem_append.mp hc with hc | hc
    · exact h.chars c hc
    · rw [List.mem_singleton.mp hc]
      decide
  ends := by
    refine ⟨fun c hc => ?_, fun c hc => ?_⟩
    · cases hc
      decide
    · rw [← List.cons_append, List.getLast?_concat] at hc
      cases hc
      decide
  single := @single_append_cons '[' [] (text ++ [']']) (by decide) (by decide)
    (single_append_cons (by decide) h.single (by decide))

/-- Two lines with a bar between them make one. -/
theorem barred (h : IsTextLine text) (h' : IsTextLine target) : IsTextLine (text ++ '|' :: target) where
  ne_nil := List.append_ne_nil_of_left_ne_nil h.ne_nil _
  chars c hc := by
    rcases List.mem_append.mp hc with hc | hc
    · exact h.chars c hc
    rcases List.mem_cons.mp hc with rfl | hc
    · decide
    · exact h'.chars c hc
  ends := by
    refine ⟨fun c hc => h.ends.head c ?_, fun c hc => h'.ends.last c ?_⟩
    · rwa [List.head?_append_of_ne_nil _ h.ne_nil] at hc
    · rwa [List.getLast?_append_of_ne_nil _ (List.cons_ne_nil _ _), List.getLast?_cons_of_ne_nil h'.ne_nil] at hc
  single := single_append_cons (by decide) h.single h'.single

theorem trim_eq (h : IsTextLine text) : trim text = text := h.trimmed.trimWith_eq_self

theorem isBlankText_eq (h : IsTextLine text) : isBlankText text = false := by
  obtain ⟨c, hc, hfilled⟩ := h.filled
  exact List.all_eq_false.mpr ⟨c, hc, by simp [hfilled]⟩

end IsTextLine

/-! ### What a cell holds -/

/-- What a cell holds: a text, or a link to a page. -/
inductive Content where
  | text (text : List Char)
  | link (label target : List Char)

namespace Content

/-- A label with what was doubled in it single again. -/
def plainLabel (label : List Char) : List Char :=
  replaceAll "~~".toList ['~'] (replaceAll "[[".toList ['['] label)

/-- What stands between the brackets of a link: the target alone if the label says the same. -/
def linkBody (label target : List Char) : List Char :=
  if (plainLabel label).isEmpty || plainLabel label == target then target else label ++ '|' :: target

/-- The markup that the content is written as. -/
def markup : Content → List Char
  | .text text => escapeWiki text
  | .link label target => '[' :: (linkBody (escapeWiki label) target ++ [']'])

/-- The HTML of the content. -/
def html : Content → List Char
  | .text text => Html.escape text
  | .link label target => anchor "wikipage" target (Html.escape label)

/-- A line of text, or a link with one for its label and another one for its target, which names a page. -/
def IsFit : Content → Prop
  | .text text => IsTextLine text
  | .link label target => IsTextLine label ∧ IsTextLine target ∧ '|' ∉ target ∧ label ≠ target

instance : (content : Content) → Decidable content.IsFit
  | .text text => inferInstanceAs (Decidable (IsTextLine text))
  | .link label target => inferInstanceAs (Decidable (IsTextLine label ∧ IsTextLine target ∧ '|' ∉ target ∧ label ≠ target))

theorem IsFit.isTextLine_markup {content : Content} (h : content.IsFit) : IsTextLine content.markup := by
  cases content with
  | text text => exact IsTextLine.escaped h
  | link label target =>
    obtain ⟨hlabel, htarget, -, -⟩ := h
    have hbody : IsTextLine (linkBody (escapeWiki label) target) := by
      unfold linkBody
      split
      · exact htarget
      · exact hlabel.escaped.barred htarget
    exact hbody.bracketed

end Content

variable {content : Content}

/-- The attributes are those of a link to a page. -/
structure IsPageLink (attributes : List Attribute) (target : List Char) : Prop where
  target : attributeValue? "href" attributes = some target
  kind : "footnote" ∉ classesOf attributes ∧ "footnoteref" ∉ classesOf attributes

/-- The content is what the nodes hold. -/
inductive Content.IsIn : Content → List Node → Prop
  | text (text : List Char) : IsIn (.text text) [.text text]
  | link {attributes : List Attribute} {target : List Char} (label : List Char) (link : IsPageLink attributes target) :
    IsIn (.link label target) [.element "a" attributes [.text label]]

/-! ### Writing a cell -/

variable {place : Writing.Place}

/-- The text of an element around a line of text. -/
theorem joinTexts_text (h : IsTextLine label) (hpreformatted : place.preformatted = false)
    (hverbatim : place.verbatim = false) (outer : Writing.Place) (name : String) :
    joinTexts outer name (keptTexts name none [.text label] (writeNodes .jspwiki place [] [.text label])) =
      escapeWiki label := by
  have hblock : IsBlockText (escapeWiki label) := by
    rw [escapeWiki_eq]
    exact h.isBlockText (map_char_spell label)
  have hwrites := @IsTextLine.writeText_eq _ h place hpreformatted hverbatim
  have hkept : keptTexts name none [.text label] (writeNodes .jspwiki place [] [.text label]) = [escapeWiki label] :=
    keptTexts_text h.isBlankText_eq hblock.ne_nil hwrites
  rw [hkept, joinTexts]
  split
  · exact List.flatten_singleton
  · exact hblock.joinBlocks_bare

/-- A link is written between brackets. -/
theorem text_writeNode_link {attributes : List Attribute} (link : IsPageLink attributes target) (h : IsTextLine label)
    (htarget : target ≠ []) (hpreformatted : place.preformatted = false) (hverbatim : place.verbatim = false)
    (before behind : List Node) :
    (writeNode .jspwiki place before behind (.element "a" attributes [.text label])).text =
      (Content.link label target).markup := by
  have hinside : (place.inside ⟨"a", attributes, [.text label]⟩).preformatted = false ∧
      (place.inside ⟨"a", attributes, [.text label]⟩).verbatim = false := by
    simp [Writing.Place.inside, hpreformatted, hverbatim, Place.isCode]
  have haddress : valueOf "href" ⟨"a", attributes, [.text label]⟩ = target := by
    rw [valueOf, link.target, Option.getD_some]
  have hfilled : target.isEmpty = false := by simpa using htarget
  have hchomp : chomp (escapeWiki label) = ⟨[], escapeWiki label, []⟩ := by
    have hends := h.escaped.ends
    have hspace : ∀ {c : Option Char}, (∀ d ∈ c, (d == ' ') = false) → endSpace c = [] := fun {c} hc =>
      if_neg fun heq => absurd (hc ' ' (beq_iff_eq.mp heq)) (by decide)
    rw [chomp, h.escaped.trim_eq, hspace hends.head, hspace hends.last]
  rw [writeNode]
  show Wiki.writeLink place ⟨"a", attributes, [.text label]⟩ (joinTexts _ "a" _) = _
  rw [joinTexts_text h hinside.1 hinside.2, Wiki.writeLink, hverbatim, hchomp, haddress]
  simp only [Chomped.around, List.contains_eq_mem, link.kind.1, link.kind.2, hfilled, decide_false, Bool.false_and,
    Bool.false_eq_true, if_false, List.nil_append, List.append_nil]
  by_cases hplain : ((Content.plainLabel (escapeWiki label)).isEmpty ||
      Content.plainLabel (escapeWiki label) == target) = true
  · exact (if_pos hplain).trans (by rw [Content.markup, Content.linkBody, if_pos hplain]; rfl)
  · exact (if_neg hplain).trans (by rw [Content.markup, Content.linkBody, if_neg hplain]; rfl)

theorem Content.IsIn.text_cell (h : content.IsIn children) (fit : content.IsFit) (hpreformatted : place.preformatted = false)
    (hverbatim : place.verbatim = false) :
    (cellTexts children (writeNodes .jspwiki place [] children)).flatten = content.markup := by
  cases h with
  | text text =>
    have hline : IsTextLine text := fit
    simp [writeNodes, writeNode, cellTexts, hline.isBlankText_eq, hline.writeText_eq hpreformatted hverbatim,
      Content.markup]
  | link label link =>
    have hlink := text_writeNode_link link fit.1 fit.2.1.ne_nil hpreformatted hverbatim [] []
    simp [writeNodes, cellTexts, hlink]

/-- There are no other cells in a cell, and no rows. -/
theorem Content.IsIn.none_inside (h : content.IsIn children) (place : Writing.Place) :
    (writeNodes .jspwiki place [] children).flatMap Written.cells = [] ∧
      (writeNodes .jspwiki place [] children).flatMap Written.rows = [] := by
  cases h with
  | text text => exact ⟨by simp [writeNodes, writeNode], by simp [writeNodes, writeNode]⟩
  | link label link =>
    have hcell : Place.isCell "a" = false := by decide
    exact ⟨by simp [writeNodes, writeNode, hcell], by simp [writeNodes, writeNode]⟩

/-! ### Reading a cell -/

/-- The bar of a link is made literal, with all others. -/
theorem bar_not_mem_link (hbar : '|' ∉ target) (label : List Char) :
    Piece.char '|' ∉ (literalsHeld (withLiteralBars (Content.link label target).markup)).pieces := by
  have hlast : '|' ∉ target ++ [']'] := by simp [hbar]
  have hclosing : withLiteralBars (target ++ [']']) = target ++ [']'] := withLiteralBars_of_not_mem hlast
  rw [Content.markup, withLiteralBars_cons (by decide), Content.linkBody]
  split
  · rw [hclosing]
    exact @bar_not_mem_literalsHeld (target ++ [']']) [] nofun List.not_mem_nil hlast
  · -- The bar behind the label is one letter more.
    have hwritten : withLiteralBars (escapeWiki label ++ '|' :: target ++ [']']) =
        Letter.writtenOf (spellCell label ++ [⟨'|', .tilde⟩]) ++ (target ++ [']']) := by
      rw [List.append_assoc, List.cons_append, withLiteralBars_append, withLiteralBars_bar, hclosing, writtenOf_append,
        writtenOf_spellCell, List.append_assoc]
      rfl
    rw [hwritten]
    refine bar_not_mem_literalsHeld (fun letter hletter => ?_) (fun hmem => ?_) hlast
    · rcases List.mem_append.mp hletter with hletter | hletter
      · exact (areSpelled_spellCell label).sound letter hletter
      · rw [List.mem_singleton.mp hletter]
        show isEscapable '|' = true
        decide
    · obtain ⟨letter, -, heq⟩ := List.mem_map.mp ((List.mem_append.mp hmem).resolve_right (by decide))
      unfold Letter.inCell at heq
      split at heq
      next => cases heq
      next hletter => exact hletter (congrArg Letter.char heq)

namespace Content

/-- The content comes back from its cell: it is a text without a style. -/
def IsKept : Content → Prop
  | .text text => ¬ HasStyle text
  | .link _ _ => False

/-- The content is a link. -/
def isLink : Content → Bool
  | .text _ => false
  | .link _ _ => true

/-- What a cell holds is shown as it is exactly if it is a text without a style. -/
theorem IsFit.renderInline_iff (fit : content.IsFit) {context : Context}
    (heditor : content.isLink = true → context.editorMode = true) :
    renderInline context (withLiteralBars content.markup) = content.html ↔ content.IsKept := by
  cases content with
  | text text =>
    have hline : IsTextLine text := fit
    have spelled := areSpelled_spellCell text
    have hletters := map_char_spellCell text
    have hwritten : withLiteralBars (escapeWiki text) = Letter.writtenOf (spellCell text) := (writtenOf_spellCell text).symm
    show renderInline context (withLiteralBars (escapeWiki text)) = Html.escape text ↔ ¬ HasStyle text
    rw [hwritten]
    constructor
    · rintro hshown ⟨before, name, content, behind, names, rfl⟩
      have hspell : spellCell (before ++ '%' :: '%' :: (name ++ ' ' :: (content ++ '/' :: '%' :: behind))) =
          (spell before).map Letter.inCell
            ++ (spell ('%' :: '%' :: (name ++ ' ' :: (content ++ '/' :: '%' :: behind)))).map Letter.inCell := by
        rw [spellCell, spell_append (by simp; decide), List.map_append]
      have hbracket := bracket_mem_renderInline context isRespelling_inCell names spelled hspell
      rw [hshown] at hbracket
      exact bracket_not_mem_escape _ hbracket
    · intro plain
      have hrendered := renderInline_eq_escape context spelled (by rw [hletters]; exact fun _ => hline.eq_space)
        (by rwa [hletters])
      rwa [hletters] at hrendered
  | link label target =>
    obtain ⟨-, -, hbar, hne⟩ := fit
    exact iff_of_false (fun h => hne (eq_of_renderInline (heditor rfl) (bar_not_mem_link hbar label) h)) id

end Content

end WikiMigration.Conversion
