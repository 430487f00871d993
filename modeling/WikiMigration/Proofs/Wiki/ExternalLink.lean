/-
Links that lead out of the wiki.

A page that is one link to an address elsewhere is rendered as a paragraph with an anchor in it, or with an
image.  Its address comes through the reading and the cleaning of the page as what it is read back as, and
that is the address itself unless an address of the wiki engine starts in it: the cleaning does not look at
whose site an address belongs to.
-/
import WikiMigration.Proofs.Html.Address
import WikiMigration.Proofs.Html.Linked
import WikiMigration.Proofs.Wiki.LinkLine

namespace WikiMigration.Wiki

open Text

variable {context : Context} {target text line label body : List Char} {c : Char}

/-! ### Links -/

/-- The characters that end a line, and the one that no page has. -/
def lineEnds : List Char := ['\n', '\r', '\x00']

/-- An address elsewhere, without markup in it and blanks around it. -/
structure IsExternalTarget (target : List Char) : Prop where
  external : isExternal target = true
  plain : ∀ c ∈ target, c ∉ "[]|~".toList ∧ c ∉ lineEnds
  code : hasInfix preformattedEnd target = false
  trimmed : Trimmed isBlank target

/-- What is left of the text of a link, behind the bracket that opens it, when its literal characters and
preformatted texts are held apart. -/
def textPieces (text : List Char) : List Piece := (Line.withLiteralsHeld ('[' :: text)).pieces

/-- A text that a link can have before its bar: on one line, with no bracket and no bar that is not literal
or preformatted. -/
structure IsLinkText (text : List Char) : Prop where
  oneLine : ∀ c ∈ text, c ∉ lineEnds
  opens : (textPieces text).head? = some (.char '[')
  plain : ∀ piece ∈ (textPieces text).tail, piece.isBracket = false ∧ piece ≠ .char '|'
  ends : endsInTilde text = false

/-- The line of a link with a text. -/
def linkLine (text target : List Char) : List Char := '[' :: (text ++ '|' :: (target ++ [']']))

/-- A line that is a link to the address, with the address alone or behind a text that opens no plugin. -/
inductive IsLinkTo (target : List Char) : List Char → Prop
  | bare : IsLinkTo target ('[' :: (target ++ [']']))
  | named {text : List Char} (htext : IsLinkText text)
      (hplugin : (textPieces text).tail.head? = some (.char '\x7b') → target.getLast? ≠ some '\x7d') :
      IsLinkTo target (linkLine text target)

/-! ### Addresses elsewhere -/

/-- An address elsewhere starts with a letter. -/
theorem exists_latin_of_isExternal (h : isExternal target = true) :
    ∃ first more, target = first :: more ∧ isLatin first = true := by
  have hmark : ∀ mark, startsWith mark target = true → (∃ first more, mark = first :: more ∧ isLatin first = true) →
      ∃ first more, target = first :: more ∧ isLatin first = true := by
    rintro mark hstarts ⟨first, more, rfl, hfirst⟩
    obtain ⟨rest, hrest⟩ := startsWith_iff.mp hstarts
    exact ⟨first, more ++ rest, hrest.symm, hfirst⟩
  simp only [isExternal, Bool.or_eq_true] at h
  rcases h with (hscheme | hmail) | hnews
  · cases target with
    | nil => cases hscheme
    | cons first more =>
      simp only [hasScheme, Bool.and_eq_true] at hscheme
      exact ⟨first, more, rfl, hscheme.1⟩
  · exact hmark _ hmail ⟨'m', _, rfl, by decide⟩
  · exact hmark _ hnews ⟨'n', _, rfl, by decide⟩

theorem isDecimal_of_isLatin (h : isLatin c = true) : isDecimal c = false := by
  have hprose : isProseChar c = true := by simp [isProseChar, h]
  rw [isDecimal_of_isProseChar hprose, isDigit, Bool.and_eq_false_iff, decide_eq_false_iff_not,
    decide_eq_false_iff_not]
  -- The letters stand behind the digits.
  refine Or.inr fun hdigit => ?_
  have hhigh : c.toNat ≤ 57 := Url.le_toNat hdigit
  simp only [isLatin, Bool.or_eq_true, Bool.and_eq_true, decide_eq_true_eq] at h
  rcases h with ⟨hlow, -⟩ | ⟨hlow, -⟩
  · have hlow : 97 ≤ c.toNat := Url.le_toNat hlow
    omega
  · have hlow : 65 ≤ c.toNat := Url.le_toNat hlow
    omega

/-- **A link to an address elsewhere is an anchor or an image.** -/
theorem renderLink_external (h : isExternal target = true) (hparts : linkParts body = (label, target)) :
    renderLink context body = Html.anchorText "external" target label
      ∨ renderLink context body = Html.imageText target target := by
  obtain ⟨first, more, rfl, hfirst⟩ := exists_latin_of_isExternal h
  have hmark : footnoteMark? (first :: more) = none := by
    unfold footnoteMark?
    split
    next heq =>
      rw [(List.cons.inj heq).1] at hfirst
      exact absurd hfirst (by decide)
    next => rfl
  have hnumber : isFootnoteNumber (first :: more) = false := by
    simp [isFootnoteNumber, isDecimal_of_isLatin hfirst]
  unfold renderLink
  simp only [hparts, hmark, hnumber, h, Bool.false_eq_true, if_false, if_true]
  split
  · exact Or.inr (Html.imageText_eq _ _).symm
  · exact Or.inl (Html.anchorText_eq (by decide) _ _).symm

/-! ### Lines -/

theorem char_mem_withLiteralsHeld (h : .char c ∈ (Line.withLiteralsHeld text).pieces) : c ∈ text := by
  obtain ⟨d, hd, heq⟩ := List.mem_map.mp (char_mem_hold (char_mem_holdLiteral (char_mem_hold h)))
  exact Piece.char.inj heq ▸ hd

namespace IsExternalTarget

theorem ne_nil (h : IsExternalTarget target) : target ≠ [] := by
  obtain ⟨first, more, rfl, -⟩ := exists_latin_of_isExternal h.external
  exact List.cons_ne_nil first more

theorem not_mem (h : IsExternalTarget target) (hc : c ∈ "[]|~".toList ∨ c ∈ lineEnds) : c ∉ target := fun hmem =>
  hc.elim (h.plain c hmem).1 (h.plain c hmem).2

theorem head_ne (h : IsExternalTarget target) (hc : isLatin c = false) : target.head? ≠ some c := by
  obtain ⟨first, more, rfl, hfirst⟩ := exists_latin_of_isExternal h.external
  rintro heq
  obtain rfl := Option.some.inj heq
  exact Bool.false_ne_true (hc.symm.trans hfirst)

theorem trim_eq (h : IsExternalTarget target) : trim target = target := h.trimmed.trimWith_eq_self

theorem isBracket_eq_false (h : IsExternalTarget target) {piece : Piece} (hpiece : piece ∈ Piece.ofText target) :
    piece.isBracket = false := by
  obtain ⟨c, hc, rfl⟩ := List.mem_map.mp hpiece
  exact isBracket_char (fun heq => h.not_mem (Or.inl (by decide)) (heq ▸ hc)) fun heq =>
    h.not_mem (Or.inl (by decide)) (heq ▸ hc)

/-- The address and the bracket behind it hold nothing apart. -/
theorem isInertEnd (h : IsExternalTarget target) : IsInertEnd (target ++ [']']) where
  tilde := by simpa using h.not_mem (Or.inl (by decide))
  bracket := by simpa using h.not_mem (Or.inl (by decide))
  head := by
    obtain ⟨first, more, rfl, hfirst⟩ := exists_latin_of_isExternal h.external
    rintro c hc
    obtain rfl := Option.some.inj hc
    constructor <;> rintro rfl <;> exact absurd hfirst (by decide)
  code := by
    intro hinfix
    rcases List.infix_concat_iff.mp hinfix with hsuffix | hinfix
    · obtain hnil | ⟨front, heq, -⟩ := List.suffix_concat_iff.mp hsuffix
      · exact absurd hnil (by decide)
      · have hmem : ']' ∈ preformattedEnd := heq ▸ List.mem_append_right front List.mem_cons_self
        exact absurd hmem (by decide)
    · exact Bool.false_ne_true (h.code.symm.trans (hasInfix_iff.mpr hinfix))

/-- So do the bar, the address and the bracket. -/
theorem isInertEnd_bar (h : IsExternalTarget target) : IsInertEnd ('|' :: (target ++ [']'])) where
  tilde := by simpa using h.not_mem (Or.inl (by decide))
  bracket := by simpa using h.not_mem (Or.inl (by decide))
  head := by
    rintro c hc
    obtain rfl := Option.some.inj hc
    decide
  code := by
    intro hinfix
    rcases List.infix_cons_iff.mp hinfix with hprefix | hinfix
    · obtain hnil | ⟨rest, heq, -⟩ := List.prefix_cons_iff.mp hprefix
      · exact absurd hnil (by decide)
      · exact absurd (List.cons.inj heq).1 (by decide)
    · exact h.isInertEnd.code hinfix

end IsExternalTarget

/-- A link's line has the link as its only content, with a label that is not empty. -/
structure IsLinkLine (line target label : List Char) : Prop where
  link : ∃ content, IsOneLink line content ∧ linkParts (Piece.textOf content) = (label, target)
  filled : label ≠ []
  oneLine : '\r' ∉ label

theorem isLinkLine_bare (h : IsExternalTarget target) : IsLinkLine ('[' :: (target ++ [']'])) target target where
  link := by
    have hpieces : (Line.withLiteralsHeld ['[']).pieces = [.char '['] := by decide +kernel
    have hheld := h.isInertEnd.withLiteralsHeld (by decide : endsInTilde ['['] = false)
    have htext : Piece.textOf (Piece.ofText target) = target := text_ofText target
    refine ⟨Piece.ofText target, ⟨?_, ?_, ?_, ?_⟩, ?_⟩
    · refine (congrArg Line.pieces hheld).trans ?_
      rw [hpieces, ofText_append]
      rfl
    · simpa [Piece.ofText] using h.ne_nil
    · exact fun piece => h.isBracket_eq_false
    · exact fun hopens => absurd hopens (head?_ofText fun c hc heq => h.head_ne (by decide) (heq ▸ hc))
    · rw [htext]
      rw [linkParts_of_not_mem (h.not_mem (Or.inl (by decide))), h.trim_eq]
  filled := h.ne_nil
  oneLine := h.not_mem (Or.inr (by decide))

namespace IsLinkText

theorem textPieces_eq (h : IsLinkText text) : textPieces text = .char '[' :: (textPieces text).tail :=
  (List.cons_head?_tail h.opens).symm

theorem endsInTilde_eq (h : IsLinkText text) : endsInTilde ('[' :: text) = false := by
  rw [endsInTilde]
  · exact h.ends
  · exact fun heq => absurd heq (by decide)
  · exact fun _ _ heq => absurd heq (by decide)

/-- What is written of the text comes from the text itself, apart from the numbers of what is held of it. -/
theorem mem_of_mem_textOf (h : IsLinkText text) (hc : c ∈ Piece.textOf (textPieces text).tail) (hnul : c ≠ '\x00')
    (hdigit : c.isDigit = false) : .char c ∈ (textPieces text).tail ∧ c ∈ '[' :: text := by
  rcases mem_textOf hc with hmem | heq | hnumber
  · have hin : Piece.char c ∈ textPieces text := by
      rw [h.textPieces_eq]
      exact List.mem_cons_of_mem _ hmem
    exact ⟨hmem, char_mem_withLiteralsHeld hin⟩
  · exact absurd heq hnul
  · exact absurd hnumber (by simp [hdigit])

theorem bar_not_mem (h : IsLinkText text) : '|' ∉ Piece.textOf (textPieces text).tail := fun hmem =>
  (h.plain _ (h.mem_of_mem_textOf hmem (by decide) (by decide)).1).2 rfl

theorem return_not_mem (h : IsLinkText text) : '\r' ∉ Piece.textOf (textPieces text).tail := fun hmem =>
  have hin := (h.mem_of_mem_textOf hmem (by decide) (by decide)).2
  h.oneLine '\r' ((List.mem_cons.mp hin).resolve_left (by decide)) (by decide)

end IsLinkText

/-- A text on one line without brackets and bars can stand before the bar of a link, if it does not end in a
tilde that would take the meaning from the bar. -/
theorem isLinkText_of_plain (h : ∀ c ∈ text, c ∉ "[]|".toList ∧ c ∉ lineEnds) (hends : endsInTilde text = false) :
    IsLinkText text := by
  have hmem : ∀ {c}, c ∈ "[]|".toList → c ∉ text := fun hc hin => (h _ hin).1 hc
  have hpieces : textPieces text = .char '[' :: (Line.withLiteralsHeld text).pieces :=
    congrArg Line.pieces (withLiteralsHeld_bracket (hmem (by decide)))
  refine ⟨fun c hc => (h c hc).2, by rw [hpieces]; rfl, fun piece hpiece => ?_, hends⟩
  rw [hpieces, List.tail_cons] at hpiece
  have hne : ∀ {c}, c ∈ "[]|".toList → piece ≠ .char c := fun hc heq =>
    hmem hc (char_mem_withLiteralsHeld (heq ▸ hpiece))
  refine ⟨?_, hne (by decide)⟩
  cases piece with
  | held index => rfl
  | char d =>
    exact isBracket_char (fun heq => @hne '[' (by decide) (congrArg _ heq)) fun heq =>
      @hne ']' (by decide) (congrArg _ heq)

theorem isOneLink_named (h : IsExternalTarget target) (htext : IsLinkText text)
    (hplugin : (textPieces text).tail.head? = some (.char '\x7b') → target.getLast? ≠ some '\x7d') :
    IsOneLink (linkLine text target) ((textPieces text).tail ++ .char '|' :: Piece.ofText target) where
  pieces := by
    refine (congrArg Line.pieces (h.isInertEnd_bar.withLiteralsHeld htext.endsInTilde_eq)).trans ?_
    have hpieces := htext.textPieces_eq
    rw [textPieces] at hpieces ⊢
    dsimp only
    rw [hpieces, ofText_cons, ofText_append]
    simp [Piece.ofText]
  filled := by simp
  inner := by
    intro piece hpiece
    rcases List.mem_append.mp hpiece with hmem | hmem
    · exact (htext.plain piece hmem).1
    rcases List.mem_cons.mp hmem with rfl | hmem
    · decide
    · exact h.isBracket_eq_false hmem
  noPlugin := by
    intro hopens hcloses
    refine hplugin ?_ ?_
    · cases htail : (textPieces text).tail with
      | nil =>
        rw [htail, List.nil_append, List.head?_cons] at hopens
        exact absurd hopens (by decide)
      | cons piece rest => rwa [htail] at hopens
    · have hlast : (Piece.ofText target).getLast? = some (.char '\x7d') := by
        have hne : Piece.ofText target ≠ [] := by simpa [Piece.ofText] using h.ne_nil
        rwa [← List.singleton_append, ← List.append_assoc, List.getLast?_append_of_ne_nil _ hne] at hcloses
      rw [Piece.ofText, List.getLast?_map] at hlast
      obtain ⟨c, hc, heq⟩ := Option.map_eq_some_iff.mp hlast
      rw [hc, Piece.char.inj heq]

/-- **A page that is a link to an address elsewhere is one link to it.** -/
theorem IsLinkTo.isLinkLine (link : IsLinkTo target line) (h : IsExternalTarget target) :
    ∃ label, IsLinkLine line target label := by
  cases link with
  | bare => exact ⟨target, isLinkLine_bare h⟩
  | @named text htext hplugin =>
    have hwritten : Piece.textOf ((textPieces text).tail ++ .char '|' :: Piece.ofText target)
        = Piece.textOf (textPieces text).tail ++ '|' :: target := by
      have htarget := text_ofText target
      simp [Piece.textOf, Piece.text, htarget]
    have hparts := linkParts_named htext.bar_not_mem (h.not_mem (Or.inl (by decide)))
    rw [← hwritten, h.trim_eq] at hparts
    refine ⟨_, ⟨_, isOneLink_named h htext hplugin, hparts⟩, ?_, ?_⟩
    · split
      · exact h.ne_nil
      next hfilled => simpa using hfilled
    · split
      · exact h.not_mem (Or.inr (by decide))
      · exact fun hmem => htext.return_not_mem (mem_of_mem_trim hmem)

/-! ### Pages -/

theorem pageLines_of_lineEnds {page : List Char} (h : ∀ c ∈ page, c ∉ lineEnds) : pageLines page = [page] := by
  rw [pageLines_eq (fun hmem => h _ hmem (by decide)) fun hmem => h _ hmem (by decide), lines,
    splitAt_of_not_mem fun hmem => h _ hmem (by decide)]

/-- A line that starts with a bracket is running text. -/
theorem kind_of_bracket {more : List Char} (inStyle : Bool) : LineKind.of inStyle ('[' :: more) = .text := by
  obtain ⟨rest, hrest⟩ : ∃ rest, trim ('[' :: more) = '[' :: rest := by
    have hleft : trimLeftWith isBlank ('[' :: more) = '[' :: more := List.dropWhile_cons_of_neg (by decide)
    rw [trim, trimWith, hleft, trimRightWith, List.reverse_cons, List.dropWhile_append]
    split
    · exact ⟨[], rfl⟩
    · exact ⟨(more.reverse.dropWhile isBlank).reverse, by simp⟩
  simp [LineKind.of, hrest, after?, preformattedMark, styleOpening?, isRule, heading?, item?, definition?]

/-- A page of one line in brackets is rendered as a paragraph. -/
theorem renderPage_of_bracket {more : List Char} (h : ∀ c ∈ '[' :: more, c ∉ lineEnds) :
    renderPage context ('[' :: more) = Html.paragraphText (renderInline context ('[' :: more)) := by
  have hfragments : fragmentsOf ('[' :: more) = [.paragraph ['[' :: more]] := by
    rw [fragmentsOf, pageLines_of_lineEnds h]
    simp only [fragmentsFrom, Pending.step, Pending.empty, Pending.stepLine, kind_of_bracket]
    rfl
  rw [renderPage, hfragments]
  rfl

theorem IsLinkTo.page (link : IsLinkTo target line) (h : IsExternalTarget target) :
    ∃ more, line = '[' :: more ∧ ∀ c ∈ line, c ∉ lineEnds := by
  have hends : ∀ {c}, c ∈ target ++ [']'] → c ∉ lineEnds := fun {c} hc =>
    (List.mem_append.mp hc).elim (fun hmem => (h.plain c hmem).2) fun hmem =>
      List.mem_singleton.mp hmem ▸ by decide
  cases link with
  | bare => exact ⟨_, rfl, List.forall_mem_cons.mpr ⟨by decide, fun _ => hends⟩⟩
  | named htext hplugin =>
    refine ⟨_, rfl, List.forall_mem_cons.mpr ⟨by decide, fun c hc => ?_⟩⟩
    rcases List.mem_append.mp hc with hmem | hmem
    · exact htext.oneLine c hmem
    rcases List.mem_cons.mp hmem with rfl | hmem
    · decide
    · exact hends hmem

/-- The address of a link to an address elsewhere, once the page is read and cleaned. -/
theorem IsLinkTo.linkAddresses (link : IsLinkTo target line) (h : IsExternalTarget target) (context : Context) :
    Html.linkAddresses (Html.clean (Html.parse (renderPage context line))) = [some (Html.plainName target)] := by
  obtain ⟨more, hline, hends⟩ := link.page h
  obtain ⟨label, ⟨content, hlink, hparts⟩, hfilled, hreturn⟩ := link.isLinkLine h
  have haddress : '\r' ∉ target ∧ '\x00' ∉ target :=
    ⟨h.not_mem (Or.inr (by decide)), h.not_mem (Or.inr (by decide))⟩
  have hpage : renderPage context line = Html.paragraphText (renderLink context (Piece.textOf content)) := by
    rw [← hlink.renderInline context]
    subst hline
    exact renderPage_of_bracket hends
  rw [hpage]
  rcases @renderLink_external context target label _ h.external hparts with hanchor | himage
  · rw [hanchor]
    exact Html.linkAddresses_anchor (by decide) haddress h.ne_nil hreturn hfilled
  · rw [himage]
    exact Html.linkAddresses_image haddress h.ne_nil

/-- **A link to an address elsewhere leads there, exactly if no address of the engine starts in it**; in any
case it leads to what its address is read back as. -/
theorem external_link_kept (context : Context) (h : IsExternalTarget target) (link : IsLinkTo target line) :
    Html.linkAddresses (Html.clean (Html.parse (renderPage context line))) = [some (Html.plainName target)] ∧
      (Html.linkAddresses (Html.clean (Html.parse (renderPage context line))) = [some target]
        ↔ Html.holdsAddress target = false) := by
  have hlinks := link.linkAddresses h context
  refine ⟨hlinks, ?_⟩
  rw [hlinks, ← Html.plainName_eq_self_iff (h.not_mem (Or.inr (by decide)))]
  simp

/-- An address elsewhere is read and cleaned as it is, behind a text with literal brackets in it. -/
theorem report_link_kept :
    IsExternalTarget "https://example.org/files/report.pdf".toList ∧
      IsLinkText "the ~[old~] report".toList ∧
      Html.linkAddresses (Html.clean (Html.parse (renderPage plainContext
          (linkLine "the ~[old~] report".toList "https://example.org/files/report.pdf".toList))))
        = [some "https://example.org/files/report.pdf".toList] := by
  have target : IsExternalTarget "https://example.org/files/report.pdf".toList :=
    ⟨by decide, fun c hc => ⟨not_mem_of_all (by decide +kernel) hc, not_mem_of_all (by decide +kernel) hc⟩,
      by decide +kernel, trimmed_of_all (by decide +kernel)⟩
  have text : IsLinkText "the ~[old~] report".toList :=
    ⟨fun c hc => not_mem_of_all (by decide) hc, by decide +kernel, by decide +kernel, by decide +kernel⟩
  have link := @IsLinkTo.named "https://example.org/files/report.pdf".toList _ text (by decide +kernel)
  exact ⟨target, text, (external_link_kept plainContext target link).2.mpr (by decide +kernel)⟩

/-- The path of an attachment that an address has in its query is taken for the whole address. -/
theorem login_link_changed :
    IsExternalTarget "https://example.org/login?next=/attach/report.pdf".toList ∧
      IsLinkText "the report".toList ∧
      Html.linkAddresses (Html.clean (Html.parse (renderPage plainContext
          (linkLine "the report".toList "https://example.org/login?next=/attach/report.pdf".toList))))
        = [some "report.pdf".toList] := by
  have target : IsExternalTarget "https://example.org/login?next=/attach/report.pdf".toList :=
    ⟨by decide, fun c hc => ⟨not_mem_of_all (by decide +kernel) hc, not_mem_of_all (by decide +kernel) hc⟩,
      by decide +kernel, trimmed_of_all (by decide +kernel)⟩
  have text : IsLinkText "the report".toList := isLinkText_of_plain
    (fun c hc => ⟨not_mem_of_all (by decide) hc, not_mem_of_all (by decide) hc⟩) (by decide +kernel)
  have link := @IsLinkTo.named "https://example.org/login?next=/attach/report.pdf".toList _ text (by decide +kernel)
  have hname : Html.plainName "https://example.org/login?next=/attach/report.pdf".toList = "report.pdf".toList := by
    decide +kernel
  have hlinks := link.linkAddresses target plainContext
  rw [hname] at hlinks
  exact ⟨target, text, hlinks⟩

end WikiMigration.Wiki
