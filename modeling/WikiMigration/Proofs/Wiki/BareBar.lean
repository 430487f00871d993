/-
A link whose label is not its target needs a bar.

What stands between the brackets of a link is split at its bars, and a bar that was made literal is none: the
number that stands for it in the link is not filled in.  So where every bar of a line is literal, a link shows the
text that it leads to, and no link of the line shows another one.
-/
import WikiMigration.Proofs.Html.Linked
import WikiMigration.Proofs.Wiki.Styled

namespace WikiMigration.Wiki

open Text Writing

variable {context : Context} {line body text target rest rest' fragment : List Char} {pieces : List Piece}

/-! ### What is found -/

/-- A link stands between two brackets of the line. -/
theorem exists_suffix_of_mem_link {inside : List Piece} (h : inside ∈ linksIn line) :
    (∃ behind, .char '[' :: (inside ++ .char ']' :: behind) <:+ (pluginsHeld line).pieces) ∧
      ∀ piece ∈ inside, piece.isBracket = false := by
  obtain ⟨part, hpart, heq⟩ := List.mem_filterMap.mp h
  cases part with
  | item other => cases heq
  | found found =>
    obtain rfl := Option.some.inj heq
    obtain ⟨pieces, n, hsuffix, hfound⟩ := exists_suffix_of_found hpart
    obtain ⟨⟨behind, rfl⟩, -, hinner⟩ := linkPattern_eq_some hfound
    exact ⟨⟨behind, hsuffix⟩, hinner⟩

/-- What a link is made of stands in the line. -/
theorem mem_of_mem_link {inside : List Piece} (h : inside ∈ linksIn line) :
    ∀ piece ∈ inside, piece ∈ (pluginsHeld line).pieces := by
  obtain ⟨⟨behind, hsuffix⟩, -⟩ := exists_suffix_of_mem_link h
  exact fun piece hpiece => hsuffix.subset (by simp [hpiece])

theorem bar_not_mem_textOf (h : Piece.char '|' ∉ pieces) : '|' ∉ Piece.textOf pieces := fun hmem =>
  h ((mem_textOf hmem).resolve_right (by decide))

/-! ### Links without a bar -/

/-- The start that a link to a page has, and no other tag. -/
def pageStart : List Char := "<a class=\"w".toList

theorem anchor_unfold (kind : String) (address label : List Char) : anchor kind address label =
    "<a class=\"".toList ++ kind.toList ++ "\" href=\"".toList ++ Html.escapeAttribute address ++ "\">".toList
      ++ label ++ "</a>".toList := rfl

theorem anchor_eq (target label : List Char) : anchor "wikipage" target label =
    pageStart ++ ("ikipage\" href=\"".toList ++ (Html.escapeAttribute target ++ '"' :: '>' :: (label ++ "</a>".toList))) := by
  have hstart : "<a class=\"".toList ++ "wikipage".toList ++ "\" href=\"".toList =
    pageStart ++ "ikipage\" href=\"".toList := by decide
  have hend : "\">".toList = ['"', '>'] := by decide
  rw [anchor_unfold, hstart, hend]
  simp only [List.append_assoc, List.cons_append, List.nil_append]

/-- What starts in another way is no link to a page. -/
theorem ne_anchor {front more : List Char} (n : Nat) (hfront : n ≤ front.length) (hstart : n ≤ pageStart.length)
    (hne : front.take n ≠ pageStart.take n) : front ++ more ≠ anchor "wikipage" target text ++ rest' := by
  intro h
  have htake := congrArg (List.take n) h
  rw [anchor_eq, List.append_assoc, List.take_append_of_le_length hfront, List.take_append_of_le_length hstart] at htake
  exact hne htake

theorem image_ne (address description : List Char) :
    inlineImage address description ++ rest ≠ anchor "wikipage" target text ++ rest' := by
  have hunfold : inlineImage address description = "<img class=\"inline\" src=\"".toList
      ++ Html.escapeAttribute address ++ "\" alt=\"".toList ++ Html.escapeAttribute description ++ "\" />".toList := rfl
  simp only [hunfold, List.append_assoc]
  exact ne_anchor 2 (by decide) (by decide) (by decide)

theorem anchor_ne {kind : String} (hlength : 11 ≤ ("<a class=\"".toList ++ kind.toList).length)
    (hne : ("<a class=\"".toList ++ kind.toList).take 11 ≠ pageStart.take 11) (address label : List Char) :
    anchor kind address label ++ rest ≠ anchor "wikipage" target text ++ rest' := by
  simp only [anchor_unfold kind, List.append_assoc]
  rw [← List.append_assoc]
  exact ne_anchor 11 hlength (by decide) hne

/-- Two texts that end at the same mark. -/
theorem eq_of_append_cons {m : Char} {xs ys more more' : List Char} (hxs : m ∉ xs) (hys : m ∉ ys)
    (h : xs ++ m :: more = ys ++ m :: more') : xs = ys ∧ more = more' := by
  rcases List.append_eq_append_iff.mp h with ⟨zs, rfl, hzs⟩ | ⟨zs, rfl, hzs⟩
  · cases zs with
    | nil => exact ⟨(List.append_nil xs).symm, (List.cons.inj hzs).2⟩
    | cons z zs => exact absurd (List.mem_append_right xs ((List.cons.inj hzs).1 ▸ List.mem_cons_self)) hys
  · cases zs with
    | nil => exact ⟨List.append_nil ys, (List.cons.inj hzs).2.symm⟩
    | cons z zs => exact absurd (List.mem_append_right ys ((List.cons.inj hzs).1 ▸ List.mem_cons_self)) hxs

theorem eq_of_escape {text' : List Char} (h : Html.escape text = Html.escape text') : text = text' := by
  have hread := Html.readReferences_escape text
  rw [h, Html.readReferences_escape] at hread
  exact hread.symm

/-- Links to pages that are written alike have the same label and lead to the same page. -/
theorem eq_of_anchor {label address : List Char}
    (h : anchor "wikipage" address (Html.escape label) ++ rest = anchor "wikipage" target (Html.escape text) ++ rest') :
    label = text ∧ address = target := by
  have hend : "</a>".toList = '<' :: "/a>".toList := by decide
  rw [anchor_eq, anchor_eq, hend] at h
  simp only [List.append_assoc, List.cons_append, List.append_cancel_left_eq] at h
  -- The target ends at the quotation mark, and the label at the next tag.
  obtain ⟨haddress, hlabel⟩ := eq_of_append_cons (Html.quote_not_mem_escapeAttribute address)
    (Html.quote_not_mem_escapeAttribute target) h
  obtain ⟨hshown, -⟩ := eq_of_append_cons (Html.bracket_not_mem_escape label) (Html.bracket_not_mem_escape text)
    (List.cons.inj hlabel).2
  have htarget := Html.readReferences_escapeAttribute target
  rw [← haddress, Html.readReferences_escapeAttribute] at htarget
  exact ⟨eq_of_escape hshown, htarget⟩

/-- A link that is written as one to a page has the label and the target of that. -/
theorem linkParts_of_renderLink (heditor : context.editorMode = true)
    (h : renderLink context body ++ rest = anchor "wikipage" target (Html.escape text) ++ rest') :
    linkParts body = (text, target) := by
  unfold renderLink at h
  have hparts : anchor "wikipage" (linkParts body).2 (Html.escape (linkParts body).1) ++ rest =
      anchor "wikipage" target (Html.escape text) ++ rest' → linkParts body = (text, target) := fun heq =>
    Prod.ext (eq_of_anchor heq).1 (eq_of_anchor heq).2
  dsimp only at h
  split at h
  · simp only [List.append_assoc] at h
    exact absurd h (ne_anchor 11 (by decide) (by decide) (by decide))
  split at h
  · simp only [List.append_assoc] at h
    exact absurd h (ne_anchor 11 (by decide) (by decide) (by decide))
  split at h
  · split at h
    · exact absurd h (image_ne _ _)
    · exact absurd h (anchor_ne (by decide) (by decide) _ _)
  split at h
  · exact hparts h
  split at h
  · split at h
    · exact absurd h (image_ne _ _)
    · exact absurd h (anchor_ne (by decide) (by decide) _ _)
  · rw [pageAddress, if_pos heditor] at h
    exact hparts h

/-! ### What is held -/

/-- Of what is held of a line, nothing but a link is written as one to a page. -/
theorem exists_link_of_fragment (heditor : context.editorMode = true)
    (hfragment : fragment ∈ (allHeld context line).fragments)
    (h : fragment ++ rest = anchor "wikipage" target (Html.escape text) ++ rest') :
    ∃ inside ∈ linksIn line, linkParts (Piece.textOf inside) = (text, target) := by
  rw [fragments_allHeld] at hfragment
  simp only [List.mem_append, List.mem_map, List.mem_singleton] at hfragment
  have hsingle : ∀ {c : Char}, c ≠ '<' → [c] ++ rest ≠ anchor "wikipage" target (Html.escape text) ++ rest' :=
    fun hc heq => hc (Option.some.inj (congrArg List.head? heq))
  rcases hfragment with (((⟨c, hc, rfl⟩ | rfl) | ⟨inside, -, rfl⟩) | ⟨inside, -, rfl⟩) | ⟨inside, hinside, rfl⟩
  · refine absurd h (hsingle ?_)
    obtain ⟨behind, n, hmatch⟩ := exists_match_of_mem hc
    unfold literalPattern at hmatch
    split at hmatch
    next d _ =>
      split at hmatch
      next hescapable =>
        obtain ⟨rfl, -⟩ := Prod.mk.inj (Option.some.inj hmatch)
        rintro rfl
        exact absurd hescapable (by decide)
      next => cases hmatch
    next => cases hmatch
  · exact absurd h (hsingle (by decide))
  · have hcode : renderCode inside = "<code>".toList ++ Html.escape (Piece.textOf inside) ++ "</code>".toList := rfl
    rw [hcode, List.append_assoc, List.append_assoc] at h
    exact absurd h (ne_anchor 2 (by decide) (by decide) (by decide))
  · have hplugin : renderPlugin inside = "<span class=\"wikiplugin\">".toList ++ Html.escape (Piece.textOf inside)
      ++ "</span>".toList := rfl
    rw [hplugin, List.append_assoc, List.append_assoc] at h
    exact absurd h (ne_anchor 2 (by decide) (by decide) (by decide))
  · exact ⟨inside, hinside, linkParts_of_renderLink heditor h⟩

/-! ### What the line starts with -/

/-- The characters that the names of tags of running text start with. -/
def tagChars : List Char := ['b', 'i', 'c', 's', 'd']

/-- If the pieces start with a tag, it is one of running text. -/
def StartsPlain (pieces : List Piece) : Prop :=
  ∀ more, pieces = .char '<' :: more → ∃ c others, more = .char c :: others ∧ c ∈ tagChars

theorem StartsPlain.substitute {α : Type} {pattern : Pattern Piece α} {m : Char} {replacement : α → List Piece}
    (hstarts : StartsAt m pattern) (hm : m ∉ '<' :: tagChars)
    (hreplace : ∀ a more, StartsPlain (replacement a ++ more)) (h : StartsPlain pieces) :
    StartsPlain (substitute pattern replacement pieces) := by
  cases pieces with
  | nil => exact nofun
  | cons piece rest =>
    cases hfound : pattern (piece :: rest) with
    | some found =>
      have hsubstitute : ∃ more, Text.substitute pattern replacement (piece :: rest) = replacement found.1 ++ more := by
        rw [Text.substitute, parts, partsFrom, hfound]
        exact ⟨_, List.flatMap_cons⟩
      obtain ⟨more, hmore⟩ := hsubstitute
      rw [hmore]
      exact hreplace found.1 more
    | none =>
      intro more hmore
      rw [substitute_of_none hfound] at hmore
      obtain ⟨rfl, rfl⟩ := List.cons.inj hmore
      obtain ⟨c, others, rfl, hc⟩ := h rest rfl
      have hne : Piece.char c ≠ .char m := fun heq => hm (List.mem_cons_of_mem _ (Piece.char.inj heq ▸ hc))
      exact ⟨c, _, substitute_of_none (hstarts _ _ hne), hc⟩

theorem startsPlain_ofText {tag : List Char} {c : Char} (hc : c ∈ tagChars) (more : List Piece) :
    StartsPlain (Piece.ofText ('<' :: c :: tag) ++ more) := by
  intro others heq
  exact ⟨c, _, (List.cons.inj heq).2.symm, hc⟩

theorem startsPlain_tagged (tag : String) (htag : ∃ c ∈ tagChars, tag.toList.head? = some c)
    (content more : List Piece) : StartsPlain (tagged tag content ++ more) := by
  obtain ⟨c, hc, hhead⟩ := htag
  obtain ⟨name, htag⟩ := List.head?_eq_some_iff.mp hhead
  have hopen : ("<" ++ tag ++ ">").toList = '<' :: c :: (name ++ ">".toList) := by
    rw [String.toList_append, String.toList_append, htag]
    rfl
  rw [tagged, hopen, List.append_assoc, List.append_assoc]
  exact startsPlain_ofText hc _

theorem startsPlain_renderStyle (name content more : List Piece) : StartsPlain (renderStyle name content ++ more) := by
  unfold renderStyle
  split
  next tag htag =>
    unfold styleTag? at htag
    split at htag
    · obtain rfl := Option.some.inj htag
      exact startsPlain_tagged _ ⟨'s', by decide, rfl⟩ content more
    split at htag
    · obtain rfl := Option.some.inj htag
      exact startsPlain_tagged _ ⟨'s', by decide, rfl⟩ content more
    split at htag
    · obtain rfl := Option.some.inj htag
      exact startsPlain_tagged _ ⟨'d', by decide, rfl⟩ content more
    · cases htag
  next =>
    have hopen : ∀ behind : String, ("<" ++ "span" ++ behind).toList = '<' :: 's' :: ("pan".toList ++ behind.toList) := by
      intro behind
      rw [String.toList_append]
      rfl
    unfold openStyle
    split
    · rw [hopen, List.append_assoc, List.append_assoc, List.append_assoc, List.append_assoc]
      exact startsPlain_ofText (by decide) _
    · rw [hopen, List.append_assoc, List.append_assoc, List.append_assoc, List.append_assoc]
      exact startsPlain_ofText (by decide) _

theorem startsPlain_escapePieces (pieces : List Piece) : StartsPlain (escapePieces pieces) := by
  intro more heq
  have hmem : Piece.char '<' ∈ escapePieces pieces := heq ▸ List.mem_cons_self
  obtain ⟨piece, -, hpiece⟩ := List.mem_flatMap.mp hmem
  cases piece with
  | held index => cases List.mem_singleton.mp hpiece
  | char c =>
    obtain ⟨d, hd, hchar⟩ := List.mem_map.mp hpiece
    obtain rfl := Piece.char.inj hchar
    exact absurd (List.mem_flatMap.mpr ⟨c, List.mem_singleton_self c, hd⟩) (Html.bracket_not_mem_escape [c])

theorem StartsPlain.replace {α : Type} {pattern : Pattern Piece α} {m : Char} {replacement : α → List Piece} {line : Line}
    (h : StartsPlain line.pieces) (hstarts : StartsAt m pattern) (hm : m ∉ '<' :: tagChars)
    (hreplace : ∀ a more, StartsPlain (replacement a ++ more)) : StartsPlain (line.replace pattern replacement).pieces :=
  h.substitute hstarts hm hreplace

theorem startsPlain_withStyles (line : Line) : StartsPlain line.withStyles.pieces := by
  have hbreak : "<br />".toList = '<' :: 'b' :: "r />".toList := by decide
  rw [Line.withStyles]
  refine ((((StartsPlain.replace ?_ bold_startsAt (by decide) ?_).replace italic_startsAt (by decide) ?_).replace
    monospaced_startsAt (by decide) ?_).replace style_startsAt (by decide) ?_).replace lineBreak_startsAt (by decide) ?_
  · exact startsPlain_escapePieces line.pieces
  · exact fun a more => startsPlain_tagged "b" ⟨'b', by decide, rfl⟩ a more
  · exact fun a more => startsPlain_tagged "i" ⟨'i', by decide, rfl⟩ a more
  · exact fun a more => startsPlain_tagged "code" ⟨'c', by decide, rfl⟩ a more
  · exact fun a more => startsPlain_renderStyle a.1 a.2 more
  · intro _ more
    rw [hbreak]
    exact startsPlain_ofText (by decide) more

/-- **A line that is shown as a link to a page at its start has a link with that label and that target.** -/
theorem exists_link_of_renderInline (heditor : context.editorMode = true) (hrest : ¬ "<a".toList <+: rest)
    (h : renderInline context line ++ rest = anchor "wikipage" target (Html.escape text) ++ rest') :
    ∃ inside ∈ linksIn line, linkParts (Piece.textOf inside) = (text, target) := by
  have hrestore : renderInline context line = (allHeld context line).withStyles.restore := rfl
  rw [hrestore, Line.restore] at h
  have hstart := startsPlain_withStyles (allHeld context line)
  have hmark : ∀ index, Piece.held index ∈ (allHeld context line).withStyles.pieces →
      Piece.held index ∈ (allHeld context line).pieces := fun index => (mem_withStyles rfl).mp
  generalize (allHeld context line).withStyles.pieces = pieces at h hstart hmark
  cases pieces with
  | nil =>
    rw [List.flatMap_nil, List.nil_append, anchor_eq, List.append_assoc] at h
    have hopening : pageStart = "<a".toList ++ " class=\"w".toList := by decide
    refine absurd ?_ hrest
    rw [h, hopening, List.append_assoc]
    exact List.prefix_append _ _
  | cons piece more =>
    cases piece with
    | held index =>
      have hindex := allHeld_numbered context line index (hmark index List.mem_cons_self)
      rw [List.flatMap_cons, fragments_withStyles, List.append_assoc] at h
      dsimp only at h
      rw [List.getElem?_eq_getElem hindex] at h
      exact exists_link_of_fragment heditor (List.getElem_mem hindex) h
    | char c =>
      rw [List.flatMap_cons, anchor_eq] at h
      obtain rfl : c = '<' := Option.some.inj (congrArg List.head? h)
      obtain ⟨d, others, rfl, hd⟩ := hstart more rfl
      rw [List.flatMap_cons] at h
      have hsecond : d = 'a' := Option.some.inj (congrArg (fun xs => xs[1]?) h)
      exact absurd hd (by rw [hsecond]; decide)

/-- **Where no bar is left bare, no line is shown as a link to a page other than the text it shows.** -/
theorem eq_of_renderInline (heditor : context.editorMode = true) (hbars : Piece.char '|' ∉ (literalsHeld line).pieces)
    (h : renderInline context line = anchor "wikipage" target (Html.escape text)) : text = target := by
  have hshown : renderInline context line ++ [] = anchor "wikipage" target (Html.escape text) ++ [] := by rw [h]
  obtain ⟨inside, hinside, hparts⟩ := exists_link_of_renderInline heditor (by decide) hshown
  have hbar : '|' ∉ Piece.textOf inside := bar_not_mem_textOf fun hbar => hbars
    (char_mem_holdLiteral (char_mem_hold (char_mem_hold (mem_of_mem_link hinside _ hbar))))
  rw [linkParts_of_not_mem hbar] at hparts
  exact (Prod.mk.inj hparts).1.symm.trans (Prod.mk.inj hparts).2

/-! ### Lines without a bare bar -/

theorem char_mem_piecesFrom {c : Char} {bracket : List Piece} {letters : List Letter} {next : Nat}
    (h : Piece.char c ∈ piecesFrom bracket next letters) : ⟨c, .plain⟩ ∈ letters ∨ Piece.char c ∈ bracket := by
  induction letters generalizing next with
  | nil => cases h
  | cons letter rest ih =>
    have later : ∀ {next}, Piece.char c ∈ piecesFrom bracket next rest →
        ⟨c, .plain⟩ ∈ letter :: rest ∨ Piece.char c ∈ bracket := fun h =>
      (ih h).imp_left (List.mem_cons_of_mem letter)
    obtain ⟨d, spelling⟩ := letter
    cases spelling with
    | plain =>
      rcases List.mem_cons.mp h with heq | h
      · exact Or.inl (Piece.char.inj heq ▸ List.mem_cons_self)
      · exact later h
    | tilde => exact later ((List.mem_cons.mp h).resolve_left nofun)
    | twice => exact (List.mem_append.mp h).elim Or.inr later

/-- Letters leave no tilde behind that takes the meaning from what follows. -/
theorem endsInTilde_writtenOf {letters : List Letter} (sound : ∀ letter ∈ letters, letter.IsSound) :
    endsInTilde (Letter.writtenOf letters) = false := by
  induction letters with
  | nil => rfl
  | cons letter rest ih =>
    have hrest := ih fun l hl => sound l (List.mem_cons_of_mem letter hl)
    have hletter := sound letter List.mem_cons_self
    have hother : ∀ {c : Char} (others : List Char), c ≠ '~' → endsInTilde (c :: others) = endsInTilde others := by
      intro c others hc
      rw [endsInTilde]
      · exact fun h => absurd h hc
      · exact fun _ _ h => absurd h hc
    obtain ⟨c, spelling⟩ := letter
    cases spelling with
    | plain => exact (hother _ hletter.1).trans hrest
    | tilde =>
      show endsInTilde ('~' :: c :: Letter.writtenOf rest) = false
      rw [endsInTilde, if_pos (show isEscapable c = true from hletter), hrest]
    | twice =>
      obtain rfl : c = '[' := hletter
      exact (hother _ (by decide)).trans ((hother _ (by decide)).trans hrest)

/-- Where letters hold only literal bars and what follows holds none, no bar behind a bracket is bare. -/
theorem bar_not_mem_literalsHeld {letters : List Letter} (sound : ∀ letter ∈ letters, letter.IsSound)
    (hletters : ⟨'|', .plain⟩ ∉ letters) (hrest : '|' ∉ rest) :
    Piece.char '|' ∉ (literalsHeld ('[' :: (Letter.writtenOf letters ++ rest))).pieces := by
  have hbracket : literalsHeld ('[' :: (Letter.writtenOf letters ++ rest))
      = ⟨.char '[' :: (literalsHeld (Letter.writtenOf letters ++ rest)).pieces,
          (literalsHeld (Letter.writtenOf letters ++ rest)).fragments⟩ :=
    hold_cons (literal_startsAt _ _ (by decide))
  rw [hbracket]
  intro hmem
  have hbar := (List.mem_cons.mp hmem).resolve_left (by decide)
  have hitem := (mem_hold.mp hbar).resolve_right (by simp)
  rw [ofText_append, parts_literal_append (endsInTilde_writtenOf sound), List.mem_append] at hitem
  rcases hitem with hitem | hitem
  · have hpiece : Piece.char '|' ∈
        (holdParts (fun c => [c]) 0 (parts literalPattern (Piece.ofText (Letter.writtenOf letters)))).1 :=
      mem_holdParts.mpr (Or.inl hitem)
    rw [holdParts_literals sound 0] at hpiece
    exact (char_mem_piecesFrom hpiece).elim hletters (by decide)
  · obtain ⟨c, hc, heq⟩ := List.mem_map.mp (mem_of_item_mem hitem)
    exact hrest (Piece.char.inj heq ▸ hc)

end WikiMigration.Wiki
