/-
Plugins on their way through a conversion.

The body of a plugin is held apart before any other markup is read, so nothing in it is markup, unless a literal
character or preformatted text was held before.  A page of such a line is a paragraph with a span that holds the
body.  The body is read back from the span as it was, and no writer looks at it as text of the page: both put it
between the marks of a plugin again.
-/
import WikiMigration.Proofs.Html.Linked
import WikiMigration.Proofs.Wiki.ExternalLink
import WikiMigration.Proofs.Wiki.Styled
import WikiMigration.Proofs.Writing.Blocks
import WikiMigration.Text.Printable

namespace WikiMigration.Wiki

open Text

variable {c : Char} {mark text rest body : List Char}

/-! ### Printable characters -/

/-- The only blank that shows is the space. -/
theorem eq_space_of_isPrintable (h : isPrintable c = true) (hblank : isBlank c = true) : c = ' ' := by
  have hspace : ' '.toNat = 0x20 := by decide
  by_cases hlow : c.toNat < 0x80
  · rw [isPrintable, if_pos hlow] at h
    rw [isBlank, if_pos hlow] at hblank
    refine Char.toNat_inj.mp ?_
    simp only [Bool.and_eq_true, Bool.or_eq_true, decide_eq_true_eq] at h hblank
    omega
  · -- every other blank is within a range of characters that do not show
    have hwithin : (blankRanges.all fun range => unprintableRanges.any fun wider =>
        wider.1 ≤ range.1 && range.2 ≤ wider.2) = true := by decide +kernel
    rw [isPrintable, if_neg hlow, Bool.not_eq_true', Ranges.holds, List.any_eq_false] at h
    rw [isBlank, if_neg hlow, Ranges.holds, List.any_eq_true] at hblank
    obtain ⟨range, hrange, hin⟩ := hblank
    obtain ⟨wider, hwider, hcovers⟩ := List.any_eq_true.mp (List.all_eq_true.mp hwithin range hrange)
    simp only [Bool.and_eq_true, decide_eq_true_eq] at hin hcovers
    refine absurd ?_ (h wider hwider)
    simp only [Bool.and_eq_true, decide_eq_true_eq]
    omega

theorem not_isPrintable_lineEnds : ∀ c ∈ lineEnds, isPrintable c = false := by decide

/-! ### Bodies -/

/-- The body of a plugin on one line: it shows, and neither does it end the plugin nor holds anything that is read
before plugins are. -/
structure IsPluginBody (body : List Char) : Prop where
  printable : ∀ c ∈ body, isPrintable c = true
  filled : ∃ c ∈ body, c ≠ ' '
  open_ : ¬ ['\x7d', ']'] <:+: body
  tilde : '~' ∉ body
  brackets : ¬ ['[', '['] <:+: body
  braces : ¬ ['\x7b', '\x7b'] <:+: body

theorem isPluginBody_iff :
    (body.all isPrintable && body.any (· != ' ') && !hasInfix ['\x7d', ']'] body && !body.contains '~'
      && !hasInfix ['[', '['] body && !hasInfix ['\x7b', '\x7b'] body) = true ↔ IsPluginBody body := by
  simp only [Bool.and_eq_true, Bool.not_eq_true', ← Bool.not_eq_true, hasInfix_iff, List.all_eq_true, List.any_eq_true,
    List.contains_iff_mem, bne_iff_ne]
  exact ⟨fun ⟨⟨⟨⟨⟨printable, filled⟩, opened⟩, tilde⟩, brackets⟩, braces⟩ =>
      ⟨printable, filled, opened, tilde, brackets, braces⟩,
    fun h => ⟨⟨⟨⟨⟨h.printable, h.filled⟩, h.open_⟩, h.tilde⟩, h.brackets⟩, h.braces⟩⟩

instance (body : List Char) : Decidable (IsPluginBody body) := decidable_of_iff _ isPluginBody_iff

/-- A plugin with the body, as it stands in a line. -/
def pluginLine (body : List Char) : List Char := '[' :: '\x7b' :: (body ++ ['\x7d', ']'])

/-- What is found in a text and more is in the text, if its last character is not in what is more. -/
theorem infix_of_append (hlast : ∀ c ∈ mark.getLast?, c ∉ rest) (hne : mark ≠ []) (h : mark <:+: text ++ rest) :
    mark <:+: text := by
  obtain ⟨before, behind, heq⟩ := h
  rcases List.append_eq_append_iff.mp heq with ⟨more, htext, -⟩ | ⟨more, hmark, hrest⟩
  · exact ⟨before, more, htext.symm⟩
  · rcases List.eq_nil_or_concat more with rfl | ⟨others, c, rfl⟩
    · exact ⟨before, [], by simpa using hmark⟩
    · have hc : mark.getLast? = some c := by
        rw [← List.getLast?_append_of_ne_nil before hne, hmark]
        simp
      exact absurd (by simp [hrest]) (hlast c hc)

namespace IsPluginBody

/-- What does not show is not in the body. -/
theorem not_mem (h : IsPluginBody body) (hc : isPrintable c = false) : c ∉ body := fun hmem =>
  Bool.false_ne_true (hc.symm.trans (h.printable c hmem))

theorem not_mem_lineEnds (h : IsPluginBody body) : ∀ c ∈ pluginLine body, c ∉ lineEnds := by
  have hmarks : ∀ c ∈ "[]\x7b\x7d".toList, c ∉ lineEnds := by decide
  intro c hc hend
  simp only [pluginLine, List.mem_cons, List.mem_append, List.not_mem_nil, or_false] at hc
  rcases hc with rfl | rfl | hc | rfl | rfl
  · exact hmarks _ (by decide) hend
  · exact hmarks _ (by decide) hend
  · exact h.not_mem (not_isPrintable_lineEnds c hend) hc
  · exact hmarks _ (by decide) hend
  · exact hmarks _ (by decide) hend

theorem solid (h : IsPluginBody body) : ∃ c ∈ body, isBlank c = false := by
  obtain ⟨c, hc, hspace⟩ := h.filled
  exact ⟨c, hc, Bool.eq_false_iff.mpr fun hblank => hspace (eq_space_of_isPrintable (h.printable c hc) hblank)⟩

theorem ne_nil (h : IsPluginBody body) : body ≠ [] := by
  obtain ⟨c, hc, -⟩ := h.filled
  exact List.ne_nil_of_mem hc

theorem tilde_not_mem (h : IsPluginBody body) : '~' ∉ pluginLine body := by
  simp [pluginLine, h.tilde]

/-- The bracket of the plugin is no half of a doubled one. -/
theorem brackets_not_infix (h : IsPluginBody body) : ¬ ['[', '['] <:+: pluginLine body := by
  intro hwithin
  rcases List.infix_cons_iff.mp hwithin with hprefix | hwithin
  · simp at hprefix
  rcases List.infix_cons_iff.mp hwithin with hprefix | hwithin
  · simp at hprefix
  · exact h.brackets (infix_of_append (by simp) (by simp) hwithin)

/-- Nor does its brace start preformatted text. -/
theorem not_hasCode (h : IsPluginBody body) : ¬ preformattedMark <:+: pluginLine body := by
  have hmark : preformattedMark = ['\x7b', '\x7b', '\x7b'] := by decide
  rw [hmark]
  intro hwithin
  have hpair : ['\x7b', '\x7b'] <:+: body ++ ['\x7d', ']'] := by
    rcases List.infix_cons_iff.mp hwithin with hprefix | hwithin
    · simp at hprefix
    rcases List.infix_cons_iff.mp hwithin with hprefix | hwithin
    · exact (List.cons_prefix_cons.mp hprefix).2.isInfix
    · exact List.IsInfix.trans (List.suffix_cons '\x7b' _).isInfix hwithin
  exact h.braces (infix_of_append (by simp) (by simp) hpair)

end IsPluginBody

/-! ### Rendering -/

/-- What starts with a mark is not found in a text that the mark is not in. -/
theorem parts_of_not_infix {α : Type} {pattern : Pattern Piece α}
    (hmark : ∀ behind found, pattern behind = some found → Piece.ofText mark <+: behind) (h : ¬ mark <:+: text) :
    parts pattern (Piece.ofText text) = (Piece.ofText text).map .item := by
  refine parts_eq_items fun behind hbehind _ => Option.eq_none_iff_forall_ne_some.mpr fun found hfound => ?_
  have hwithin := (hmark behind found hfound).isInfix.trans hbehind.isInfix
  exact h (infix_of_ofText hwithin)

theorem parts_occurrence (h : ¬ mark <:+: text) :
    parts (occurrence mark) (Piece.ofText text) = (Piece.ofText text).map .item := by
  refine parts_of_not_infix (fun behind found hfound => ?_) h
  obtain ⟨rest, hrest, -⟩ := Option.map_eq_some_iff.mp hfound
  exact ⟨rest, (afterChars?_eq_some hrest).symm⟩

theorem parts_enclosed (h : ¬ mark <:+: text) (closing : List Char) (least : Nat) :
    parts (enclosedPattern mark closing least) (Piece.ofText text) = (Piece.ofText text).map .item := by
  refine parts_of_not_infix (fun behind found hfound => ?_) h
  obtain ⟨rest, hrest, -⟩ := enclosedPattern_eq_some hfound
  rw [hrest, List.append_assoc, List.append_assoc]
  exact List.prefix_append _ _

/-- The brace and the bracket behind the body are the first to end it. -/
theorem beforeChars?_body (h : ¬ ['\x7d', ']'] <:+: body) :
    beforeChars? ['\x7d', ']'] (Piece.ofText (body ++ ['\x7d', ']'])) = some (Piece.ofText body) := by
  induction body with
  | nil => decide
  | cons c rest ih =>
    have hrest := ih fun hwithin => h (hwithin.trans (List.suffix_cons c rest).isInfix)
    have hnone : afterChars? ['\x7d', ']'] (.char c :: Piece.ofText (rest ++ ['\x7d', ']'])) = none := by
      rw [Option.eq_none_iff_forall_ne_some]
      intro behind hbehind
      obtain ⟨hc, hnext⟩ := List.cons.inj (afterChars?_eq_some hbehind)
      cases rest with
      | nil => exact absurd (Piece.char.inj (List.cons.inj hnext).1) (by decide)
      | cons d others =>
        obtain rfl := Piece.char.inj hc
        obtain rfl := Piece.char.inj (List.cons.inj hnext).1
        exact h (List.prefix_append ['\x7d', ']'] others).isInfix
    rw [List.cons_append, ofText_cons, beforeChars?, hnone, hrest]
    rfl

namespace IsPluginBody

/-- Nothing in the line of a plugin is read before the plugin is. -/
theorem withLiteralsHeld (h : IsPluginBody body) :
    Line.withLiteralsHeld (pluginLine body) = ⟨Piece.ofText (pluginLine body), [['[']]⟩ := by
  have hliterals : literalsHeld (pluginLine body) = ⟨Piece.ofText (pluginLine body), []⟩ :=
    hold_of_startsAt literal_startsAt _ h.tilde_not_mem []
  have hbrackets : bracketsHeld (pluginLine body) = ⟨Piece.ofText (pluginLine body), [['[']]⟩ := by
    rw [bracketsHeld, hliterals, Line.holdLiteral]
    exact congrArg (Line.mk · [['[']]) (substitute_of_items _ (parts_occurrence h.brackets_not_infix))
  rw [withLiteralsHeld_eq, hbrackets]
  exact hold_of_items _ (parts_enclosed h.not_hasCode _ 0) _

/-- All of the line is one plugin. -/
theorem parts_plugin (h : IsPluginBody body) :
    parts pluginPattern (Piece.ofText (pluginLine body)) = [.found (Piece.ofText body)] := by
  have hfound : pluginPattern (Piece.ofText (pluginLine body)) =
      some (Piece.ofText body, body.length + 3 + 1) := by
    have hopening : "[\x7b".toList = ['[', '\x7b'] ∧ "\x7d]".toList = ['\x7d', ']'] := by decide
    have hafter : afterChars? ['[', '\x7b'] (Piece.ofText (pluginLine body)) =
        some (Piece.ofText (body ++ ['\x7d', ']'])) := rfl
    rw [pluginPattern, enclosedPattern, hopening.1, hopening.2, hafter]
    simp only [List.drop_zero, Nat.not_lt_zero, if_false, beforeChars?_body h.open_]
    simp [length_ofText]
    omega
  have hall : (Piece.ofText ('\x7b' :: (body ++ ['\x7d', ']']))).drop (body.length + 3) = [] := by
    simp [Piece.ofText]
  have hline : Piece.ofText (pluginLine body) = .char '[' :: Piece.ofText ('\x7b' :: (body ++ ['\x7d', ']'])) := rfl
  rw [hline] at hfound ⊢
  rw [parts_of_some hfound, hall]
  rfl

theorem renderInline (h : IsPluginBody body) (context : Context) :
    renderInline context (pluginLine body) =
      "<span class=\"wikiplugin\">".toList ++ Html.escape body ++ "</span>".toList := by
  have hplugin : (Line.withLiteralsHeld (pluginLine body)).withLinksHeld context =
      ⟨[.held 1], [['['], renderPlugin (Piece.ofText body)]⟩ := by
    have hlink : parts linkPattern [.held 1] = [Piece.held 1].map .item := by
      rw [parts_of_none (link_startsAt _ _ (by simp))]
      rfl
    have hheld : (Line.mk (Piece.ofText (pluginLine body)) [['[']]).hold pluginPattern renderPlugin =
        ⟨[.held 1], [['['], renderPlugin (Piece.ofText body)]⟩ := by
      rw [Line.hold]
      simp only [h.parts_plugin, holdParts]
      rfl
    rw [h.withLiteralsHeld, Line.withLinksHeld, hheld, hold_of_items _ hlink]
  have hrestored : (Line.mk [.held 1] [['['], renderPlugin (Piece.ofText body)]).restore =
      renderPlugin (Piece.ofText body) := by
    rw [Line.restore, List.flatMap_singleton]
    rfl
  rw [Wiki.renderInline, hplugin, withStyles_held, hrestored]
  exact congrArg (fun text => "<span class=\"wikiplugin\">".toList ++ Html.escape text ++ "</span>".toList)
    (textOf_ofText body)

/-- **A page that is one plugin is a paragraph with its body in a span.** -/
theorem renderPage (h : IsPluginBody body) (context : Context) :
    renderPage context (pluginLine body) = Html.paragraphText
      ("<span class=\"wikiplugin\">".toList ++ Html.escape body ++ "</span>".toList) := by
  rw [← h.renderInline context]
  exact renderPage_of_bracket h.not_mem_lineEnds

end IsPluginBody

end WikiMigration.Wiki

namespace WikiMigration.Conversion

open Text Html Wiki Writing

variable {body : List Char}

/-! ### Reading the span -/

/-- The attributes of a span that holds a plugin. -/
def pluginAttributes : List Attribute := [⟨"class", "wikiplugin".toList⟩]

/-- The span that holds a plugin. -/
def pluginSpan (body : List Char) : Node := .element "span" pluginAttributes [.text body]

/-- The span as it is rendered. -/
def pluginText (body : List Char) : List Char :=
  openingText "span" pluginAttributes false ++ escape body ++ endTagText "span"

theorem isPlainTag_span : IsPlainTag "span" :=
  ⟨List.all_eq_true.mp (by decide), ⟨_, _, rfl, by decide⟩, by decide, by decide⟩

theorem arePlain_plugin : ArePlain pluginAttributes :=
  arePlain (by simp [pluginAttributes]) (by decide : ∀ name ∈ ["class"], name ∈ linkAttributeNames)
    (by decide : ["class"].Nodup)

theorem openingText_plugin :
    openingText "span" pluginAttributes false = "<span class=\"wikiplugin\">".toList := by decide

theorem renderPage_plugin (h : IsPluginBody body) (context : Context) :
    renderPage context (pluginLine body) = paragraphText (pluginText body) := by
  have hclosing : endTagText "span" = "</span>".toList := by decide
  rw [h.renderPage, pluginText, openingText_plugin, hclosing]

theorem classesOf_plugin : classesOf pluginAttributes = ["wikiplugin"] := by decide +kernel

theorem normalize_plugin : pluginAttributes.map (normalizeAttribute "span") = pluginAttributes := by decide +kernel

/-- A span is read with the body in it. -/
theorem parse_plugin (h : IsPluginBody body) :
    parse (paragraphText (pluginText body)) = document [.element "p" [] [pluginSpan body]] := by
  have hno : ∀ c ∈ ['\r', '\x00'], c ∉ paragraphText (pluginText body) := by
    have hmarks : ∀ c ∈ ['\r', '\x00'], isPrintable c = false ∧ isEntityChar c = false ∧ c ∉ startTagText "p" ∧
        c ∉ openingText "span" pluginAttributes false ∧ c ∉ endTagText "span" ∧ c ∉ endTagText "p" := by decide
    intro c hc
    obtain ⟨hprintable, hentity, hparagraph, hopening, hclosing, hend⟩ := hmarks c hc
    have htext := not_mem_escape (h.not_mem hprintable) hentity
    simp [paragraphText, pluginText, hparagraph, hopening, htext, hclosing, hend]
  have htokens := tokens_eq (hno '\r' (by decide))
  rw [map_shownChar (hno '\x00' (by decide)), pluginText, tokensOf_inline arePlain_plugin isPlainTag_span h.ne_nil]
    at htokens
  have hkept : (Builder.inInline "span" pluginAttributes []).keptText body = body := by
    simp [Builder.keptText, Builder.all_isTagBlank_of_filled h.solid]
  rw [pluginText, parse_inline (Or.inr rfl) htokens h.ne_nil normalize_plugin, hkept, pluginSpan]

/-- The cleaning takes nothing out of it: the span has a class, and it is none of what the engine adds. -/
theorem clean_plugin (body : List Char) :
    clean (document [.element "p" [] [pluginSpan body]]) = document [.element "p" [] [pluginSpan body]] := by
  have haddresses : cleanAddresses "span" pluginAttributes = pluginAttributes := rfl
  have hdecoration : isDecoration ⟨"span", pluginAttributes, [.text body]⟩ = false := by
    rw [isDecoration, classesOf_plugin]
    decide
  exact clean_linked (haddresses ▸ rfl) hdecoration rfl (by simp)

/-! ### Writing the span -/

/-- A plugin with the body in the markup of a dialect. -/
def pluginMarkup : Dialect → List Char → List Char
  | .markdown, body => pluginLine body ++ ['(', ')']
  | .jspwiki, body => pluginLine body

theorem trimmed_pluginMarkup (dialect : Dialect) (body : List Char) :
    pluginMarkup dialect body ≠ [] ∧ Trimmed isBlank (pluginMarkup dialect body) := by
  have hmarks : ∀ c ∈ ['[', ']', ')'], Trimmed isBlank [c] := fun c hc =>
    trimmed_of_all ((by decide : ∀ c ∈ ['[', ']', ')'], ([c].all fun c => !isBlank c) = true) c hc)
  cases dialect with
  | markdown =>
    have hends := (hmarks '[' (by decide)).around (hmarks ')' (by decide)) (List.cons_ne_nil _ _)
      (List.cons_ne_nil _ _) ('\x7b' :: (body ++ ['\x7d', ']', '(']))
    exact ⟨List.cons_ne_nil _ _, by simpa [pluginMarkup, pluginLine] using hends⟩
  | jspwiki =>
    have hends := (hmarks '[' (by decide)).around (hmarks ']' (by decide)) (List.cons_ne_nil _ _)
      (List.cons_ne_nil _ _) ('\x7b' :: (body ++ ['\x7d']))
    exact ⟨List.cons_ne_nil _ _, by simpa [pluginMarkup, pluginLine] using hends⟩

theorem feed_not_mem_pluginMarkup (h : IsPluginBody body) (dialect : Dialect) : '\n' ∉ pluginMarkup dialect body := by
  have hbody := h.not_mem (by decide : isPrintable '\n' = false)
  cases dialect <;> simp [pluginMarkup, pluginLine, hbody]

/-- A bracket opens no block in either dialect. -/
theorem escapeLineStarts_pluginMarkup (h : IsPluginBody body) (dialect : Dialect) :
    escapeLineStarts dialect (pluginMarkup dialect body) = pluginMarkup dialect body := by
  have hlines : lines (pluginMarkup dialect body) = [pluginMarkup dialect body] :=
    splitAt_of_not_mem (feed_not_mem_pluginMarkup h dialect)
  cases dialect <;> (rw [escapeLineStarts, hlines]; rfl)

/-- A span is written as the plugin, whatever its text is written as. -/
theorem writeElement_plugin (dialect : Dialect) (place : Writing.Place) (before behind : List Node)
    (body text : List Char) (rows : List WrittenRow) :
    writeElement dialect place before behind ⟨"span", pluginAttributes, [.text body]⟩ text rows
      = pluginMarkup dialect body := by
  have hclass : (classesOf pluginAttributes).contains "wikiplugin" = true := by
    rw [classesOf_plugin]
    decide
  have hinner : innerText [.text body] = body := by simp [innerText, textsOf, Node.texts]
  have hopening : "[\x7b".toList = ['[', '\x7b'] := by decide
  cases dialect with
  | markdown =>
    have hclosing : "\x7d]()".toList = ['\x7d', ']', '(', ')'] := by decide
    show Markdown.writeSpan ⟨"span", pluginAttributes, [.text body]⟩ text = _
    rw [Markdown.writeSpan, if_pos hclass, hinner, hopening, hclosing]
    simp [pluginMarkup, pluginLine]
  | jspwiki =>
    have hclosing : "\x7d]".toList = ['\x7d', ']'] := by decide
    show Wiki.writeSpan ⟨"span", pluginAttributes, [.text body]⟩ text = _
    rw [Wiki.writeSpan, if_pos hclass, hinner, hopening, hclosing]
    simp [pluginMarkup, pluginLine]

theorem text_writeNode_span (dialect : Dialect) (place : Writing.Place) (before behind : List Node) (body : List Char) :
    (writeNode dialect place before behind (pluginSpan body)).text = pluginMarkup dialect body := by
  rw [pluginSpan, writeNode]
  exact writeElement_plugin dialect place before behind body _ _

/-- **The page of a plugin is written as the plugin.** -/
theorem writePage_plugin (h : IsPluginBody body) (dialect : Dialect) :
    Writing.writePage dialect (paragraphText (pluginText body)) = pluginMarkup dialect body ++ ['\n'] := by
  obtain ⟨hne, htrimmed⟩ := trimmed_pluginMarkup dialect body
  have hblock : IsBlockText (pluginMarkup dialect body) :=
    ⟨hne, htrimmed.mono fun c hc => by rw [beq_iff_eq.mp hc]; decide⟩
  have hblank : isBlankText (paragraphText (pluginText body)) = false :=
    List.all_eq_false.mpr ⟨'<', List.mem_cons_self, by decide⟩
  have hspan : ∀ place : Writing.Place, (writeNode dialect place [] [] (pluginSpan body)).text
      = framed 0 (pluginMarkup dialect body) 0 := fun place => by rw [text_writeNode_span, framed_zero]
  have hparagraph : ∀ nodes, (writeNode dialect (bodyPlace nodes) [] [] (.element "p" [] [pluginSpan body])).text
      = framed 2 (pluginMarkup dialect body) 2 := fun _ =>
    text_writeNode_paragraph ((joinBlocks_only hblock (hspan _)).trans (framed_zero _))
      (escapeLineStarts_pluginMarkup h dialect) hne htrimmed [] []
  have hbody := writeDocument_body hblock (joinBlocks_only hblock (hparagraph _))
  rw [Writing.writePage, hblank, if_neg (by decide), parse_plugin h, clean_plugin, hbody,
    tidy_line hne htrimmed (feed_not_mem_pluginMarkup h dialect)]

/-! ### The conversion -/

/-- **A plugin is carried over as it is**: a page that is one plugin is converted to the plugin and a line feed,
whatever is in its body. -/
theorem plugin_carried_over {source : Engine}
    (hsource : Rendering.choose source.dialect source.override = .ok .wiki) (page : List Char) (target : Engine)
    (h : IsPluginBody body) :
    convert page source target (some (pluginLine body)) = .ok (pluginMarkup target.dialect body ++ ['\n']) := by
  rw [convert_wiki hsource, renderPage_plugin h, writePage_plugin h]

/-- A plugin that sets a variable to what would be markup on a page. -/
def settingBody : List Char := "SET a=\"__b__\" & <c|[d]>".toList

theorem setting_carried_over :
    Rendering.choose .jspwiki none = .ok .wiki ∧ IsPluginBody settingBody ∧
      convert "Main".toList (plainEngine .jspwiki) (plainEngine .markdown) (some (pluginLine settingBody))
        = .ok (pluginLine settingBody ++ "()\n".toList) ∧
      convert "Main".toList (plainEngine .jspwiki) (plainEngine .jspwiki) (some (pluginLine settingBody))
        = .ok (pluginLine settingBody ++ "\n".toList) := by
  have hsource : Rendering.choose .jspwiki none = .ok .wiki := rfl
  have hbody : IsPluginBody settingBody := by decide +kernel
  have hmarkdown := @plugin_carried_over settingBody (plainEngine .jspwiki) hsource "Main".toList
    (plainEngine .markdown) hbody
  have hjspwiki := @plugin_carried_over settingBody (plainEngine .jspwiki) hsource "Main".toList
    (plainEngine .jspwiki) hbody
  exact ⟨hsource, hbody, hmarkdown.trans (congrArg _ (by decide)), hjspwiki.trans (congrArg _ (by decide))⟩

end WikiMigration.Conversion
