/-
Reading a page of plain blocks.

A block is an element that holds text and nothing else.  A page of such blocks, one behind the other
with a line feed between them, is read as a body with just these elements in it: their text is what was
escaped, and the cleaning finds nothing to take out.
-/
import WikiMigration.Html.Clean
import WikiMigration.Html.Escape
import WikiMigration.Html.Tree
import WikiMigration.Proofs.Text.Lines
import WikiMigration.Proofs.Text.Scan

namespace WikiMigration.Html

open Text

/-! ### References -/

variable {text rest : List Char}

theorem readReferences_cons {c : Char} (inAttribute : Bool) (hc : c ≠ '&') :
    readReferences inAttribute (c :: rest) = c :: readReferences inAttribute rest := by
  have hnone : referencePattern inAttribute (c :: rest) = none := by
    unfold referencePattern
    split <;> simp_all
  exact substitute_of_none hnone

theorem named?_of_closed {name cs : List Char} (inAttribute : Bool)
    (hname : ∀ c ∈ name, (isLatin c || isDigit c) = true) (hentity : entity? (String.ofList name) = some cs) :
    named? inAttribute (name ++ ';' :: rest) = some (cs, name.length + 2) := by
  have hrun : (name ++ ';' :: rest).takeWhile (fun c => isLatin c || isDigit c) = name := by
    rw [List.takeWhile_append_of_pos hname, List.takeWhile_cons_of_neg (by decide), List.append_nil]
  simp [named?, hrun, hentity]

/-- A closed reference to a name gives way to the characters of the name. -/
theorem readReferences_entity {name cs : List Char} (inAttribute : Bool)
    (hname : ∀ c ∈ name, (isLatin c || isDigit c) = true) (hentity : entity? (String.ofList name) = some cs) :
    readReferences inAttribute ('&' :: (name ++ ';' :: rest)) = cs ++ readReferences inAttribute rest := by
  have hfound : referencePattern inAttribute ('&' :: (name ++ ';' :: rest)) = some (cs, name.length + 2) := by
    unfold referencePattern
    split
    next more heq =>
      -- A name does not start with a number sign.
      cases name with
      | nil => cases heq
      | cons c others =>
        have hc := hname c List.mem_cons_self
        simp only [List.cons_append, List.cons.injEq, true_and] at heq
        rw [heq.1] at hc
        exact absurd hc (by decide)
    next more _ heq =>
      obtain rfl := (List.cons.inj heq).2
      exact named?_of_closed inAttribute hname hentity
    next _ hnone => exact absurd rfl (hnone _)
  have hdrop : (name ++ ';' :: rest).drop (name.length + 1) = rest := by
    rw [List.drop_append]
    simp
  rw [readReferences, substitute_of_some hfound, hdrop]
  rfl

theorem readReferences_escapeChar (inAttribute : Bool) (c : Char) (rest : List Char) :
    readReferences inAttribute (escapeChar c ++ rest) = c :: readReferences inAttribute rest := by
  unfold escapeChar
  split
  next hc =>
    rw [beq_iff_eq.mp hc]
    exact @readReferences_entity rest "amp".toList ['&'] inAttribute (List.all_eq_true.mp (by decide))
      (by decide +kernel)
  split
  next hc =>
    rw [beq_iff_eq.mp hc]
    exact @readReferences_entity rest "lt".toList ['<'] inAttribute (List.all_eq_true.mp (by decide))
      (by decide +kernel)
  split
  next hc =>
    rw [beq_iff_eq.mp hc]
    exact @readReferences_entity rest "gt".toList ['>'] inAttribute (List.all_eq_true.mp (by decide))
      (by decide +kernel)
  next hc _ _ => exact readReferences_cons inAttribute (by simpa using hc)

/-- **Reading the references of an escaped text gives the text.** -/
theorem readReferences_escape (text : List Char) : readReferences false (escape text) = text := by
  induction text with
  | nil => rfl
  | cons c rest ih => rw [escape, List.flatMap_cons, ← escape, readReferences_escapeChar, ih]

/-! ### Tokens -/

/-- A name that stands in a tag as it is, of an element with markup in it. -/
structure IsPlainTag (name : String) : Prop where
  chars : ∀ c ∈ name.toList, isTagNameChar c = true
  latin : ∃ c rest, name.toList = c :: rest ∧ isLatin c = true
  lower : lowerName name.toList = name
  mode : TextMode.of name = .markup

/-- The start tag of a name, without attributes. -/
def startTagText (name : String) : List Char := '<' :: name.toList ++ ['>']

/-- The end tag of a name. -/
def endTagText (name : String) : List Char := '<' :: '/' :: name.toList ++ ['>']

variable {name : String}

theorem tokensOf_cons {c : Char} {cs : List Char} {found : List Token}
    (h : readFront c cs = (found, rest)) (hlength : rest.length ≤ cs.length) :
    tokensOf (c :: cs) = found ++ tokensOf rest := by
  rw [tokensOf]
  simp only [h]
  rw [dif_pos (by omega)]

/-- Text up to the next sign is one token. -/
theorem tokensOf_text (hne : text ≠ []) (h : '<' ∉ text) (rest : List Char) :
    tokensOf (text ++ '<' :: rest) = .text (readReferences false text) :: tokensOf ('<' :: rest) := by
  cases text with
  | nil => exact absurd rfl hne
  | cons c more =>
    rw [List.mem_cons, not_or] at h
    have hmore : (more ++ '<' :: rest).takeWhile (· != '<') = more := by
      rw [List.takeWhile_append_of_pos (fun d hd => by simpa using fun heq : d = '<' => h.2 (heq ▸ hd)),
        List.takeWhile_cons_of_neg (by simp), List.append_nil]
    have hfront : readFront c (more ++ '<' :: rest)
        = ([.text (readReferences false (c :: more))], '<' :: rest) := by
      unfold readFront
      rw [if_pos (by simpa using Ne.symm h.1), readText, hmore, List.drop_left]
    exact tokensOf_cons hfront (by simp)

theorem IsPlainTag.takeWhile (h : IsPlainTag name) (rest : List Char) :
    (name.toList ++ '>' :: rest).takeWhile isTagNameChar = name.toList := by
  rw [List.takeWhile_append_of_pos h.chars, List.takeWhile_cons_of_neg (by decide), List.append_nil]

theorem readTagEnd_close (attributes : List Attribute) (fuel : Nat) (rest : List Char) :
    readTagEnd (fuel + 1) attributes ('>' :: rest) = some (attributes.reverse, false, rest) := rfl

theorem IsPlainTag.readStartTag (h : IsPlainTag name) (rest : List Char) :
    readStartTag (name.toList ++ '>' :: rest) = ([.startTag name [] false], rest) := by
  simp [Html.readStartTag, h.takeWhile, readTagEnd_close, h.lower, readInside, h.mode]

theorem IsPlainTag.readEndTag (h : IsPlainTag name) (rest : List Char) :
    readEndTag (name.toList ++ '>' :: rest) = ([.endTag name], rest) := by
  simp [Html.readEndTag, h.takeWhile, readTagEnd_close, h.lower]

/-- Behind the opening sign a name starts a start tag. -/
theorem IsPlainTag.readFront_eq (h : IsPlainTag name) (behind : List Char) :
    readFront '<' (name.toList ++ behind) = Html.readStartTag (name.toList ++ behind) := by
  obtain ⟨c, more, hname, hlatin⟩ := h.latin
  rw [hname, List.cons_append]
  -- A letter is none of the signs that make something else of what follows.
  have hsign : ∀ d, isLatin d = false → c ≠ d := fun d hd heq => by simp [heq, hd] at hlatin
  unfold readFront
  rw [if_neg (by decide)]
  split
  next heq => exact absurd (List.cons.inj heq).1 (hsign _ (by decide))
  next heq => exact absurd (List.cons.inj heq).1 (hsign _ (by decide))
  next heq => exact absurd (List.cons.inj heq).1 (hsign _ (by decide))
  next heq => exact absurd (List.cons.inj heq).1 (hsign _ (by decide))
  next heq => exact absurd (List.cons.inj heq).1 (hsign _ (by decide))
  next heq => rw [← (List.cons.inj heq).1, if_pos hlatin]
  next heq => cases heq

theorem IsPlainTag.tokensOf_startTag (h : IsPlainTag name) (rest : List Char) :
    tokensOf (startTagText name ++ rest) = .startTag name [] false :: tokensOf rest := by
  rw [startTagText, List.append_assoc, List.cons_append, List.singleton_append]
  exact tokensOf_cons ((h.readFront_eq ('>' :: rest)).trans (h.readStartTag rest)) (by simp; omega)

theorem IsPlainTag.tokensOf_endTag (h : IsPlainTag name) (rest : List Char) :
    tokensOf (endTagText name ++ rest) = .endTag name :: tokensOf rest := by
  obtain ⟨c, more, hname, hlatin⟩ := h.latin
  have hread := h.readEndTag rest
  rw [hname, List.cons_append] at hread
  have hc : c ≠ '>' := fun heq => absurd hlatin (by rw [heq]; decide)
  rw [endTagText, hname, List.append_assoc, List.cons_append, List.cons_append, List.singleton_append]
  have hfront : readFront '<' ('/' :: c :: (more ++ '>' :: rest)) = ([.endTag name], rest) := by
    unfold readFront
    rw [if_neg (by decide)]
    split
    next heq => exact absurd (List.cons.inj heq).1 (by decide)
    next heq => exact absurd (List.cons.inj heq).1 (by decide)
    next heq => exact absurd (List.cons.inj (List.cons.inj heq).2).1 hc
    next heq =>
      obtain ⟨rfl, rfl⟩ := List.cons.inj (List.cons.inj heq).2
      rw [if_pos hlatin, hread]
    next heq => cases (List.cons.inj heq).2
    next hslash _ heq =>
      obtain ⟨rfl, rfl⟩ := List.cons.inj heq
      exact (hslash _ _ rfl rfl).elim
    next heq => cases heq
  exact tokensOf_cons hfront (by simp; omega)

/-! ### Blocks -/

/-- An element that holds one text. -/
structure TextBlock where
  name : String
  text : List Char

/-- The block as HTML. -/
def TextBlock.html (block : TextBlock) : List Char :=
  startTagText block.name ++ escape block.text ++ endTagText block.name

/-- The block as a node. -/
def TextBlock.node (block : TextBlock) : Node := .element block.name [] [.text block.text]

/-- The block as tokens. -/
def TextBlock.tokens (block : TextBlock) : List Token :=
  [.startTag block.name [] false, .text block.text, .endTag block.name]

/-- A paragraph or preformatted text, with something in it that is no blank. -/
structure TextBlock.IsSound (block : TextBlock) : Prop where
  name : block.name = "p" ∨ block.name = "pre"
  filled : ∃ c ∈ block.text, isBlank c = false
  read : ∀ c ∈ block.text, c ≠ '\r' ∧ c ≠ '\x00'

variable {block : TextBlock} {blocks : List TextBlock}

/-- A block of lines, one of them not blank. -/
theorem isSound_unlines {lines : List (List Char)} (hname : name = "p" ∨ name = "pre")
    (hfilled : ∃ line ∈ lines, isBlankText line = false)
    (hread : ∀ line ∈ lines, ∀ c ∈ line, c ≠ '\r' ∧ c ≠ '\x00') :
    TextBlock.IsSound ⟨name, unlines lines⟩ := by
  refine ⟨hname, ?_, fun c hc => ?_⟩
  · obtain ⟨line, hline, hblank⟩ := hfilled
    obtain ⟨c, hc, hsolid⟩ := List.all_eq_false.mp hblank
    exact ⟨c, (infix_unlines hline).subset hc, by simpa using hsolid⟩
  · by_cases hfeed : c = '\n'
    · subst hfeed
      decide
    · obtain ⟨line, hline, hin⟩ := mem_unlines hfeed hc
      exact hread line hline c hin

/-- The tags of blocks, links and images. -/
def plainTagNames : List String := ["p", "pre", "a", "img"]

theorem isPlainTag (h : name ∈ plainTagNames) : IsPlainTag name := by
  simp only [plainTagNames, List.mem_cons, List.not_mem_nil, or_false] at h
  rcases h with rfl | rfl | rfl | rfl <;>
    exact ⟨List.all_eq_true.mp (by decide), ⟨_, _, rfl, by decide⟩, by decide, by decide⟩

/-- The characters that the entities of running text are made of. -/
def isEntityChar (c : Char) : Bool := "&ampltg;".toList.contains c

theorem mem_escape {c : Char} (h : c ∈ escape text) : (c ∈ text ∧ c ≠ '<') ∨ isEntityChar c = true := by
  obtain ⟨d, hd, hc⟩ := List.mem_flatMap.mp h
  unfold escapeChar at hc
  split at hc
  · exact Or.inr (List.all_eq_true.mp (by decide : "&amp;".toList.all isEntityChar = true) c hc)
  split at hc
  · exact Or.inr (List.all_eq_true.mp (by decide : "&lt;".toList.all isEntityChar = true) c hc)
  split at hc
  · exact Or.inr (List.all_eq_true.mp (by decide : "&gt;".toList.all isEntityChar = true) c hc)
  next hne _ =>
    obtain rfl := List.mem_singleton.mp hc
    exact Or.inl ⟨hd, by simpa using hne⟩

theorem not_mem_escape {c : Char} (h : c ∉ text) (hc : isEntityChar c = false) : c ∉ escape text :=
  fun hmem => (mem_escape hmem).elim (fun hin => h hin.1) (by simp [hc])

theorem bracket_not_mem_escape (text : List Char) : '<' ∉ escape text := fun hmem =>
  (mem_escape hmem).elim (fun hin => hin.2 rfl) (by decide)

theorem escape_ne_nil (h : text ≠ []) : escape text ≠ [] := fun heq => by
  have hread := readReferences_escape text
  rw [heq] at hread
  exact h hread.symm

theorem TextBlock.IsSound.text_ne_nil (sound : block.IsSound) : block.text ≠ [] := by
  obtain ⟨c, hc, -⟩ := sound.filled
  exact List.ne_nil_of_mem hc

theorem TextBlock.IsSound.isBlankText (sound : block.IsSound) : isBlankText block.text = false := by
  obtain ⟨c, hc, hblank⟩ := sound.filled
  exact List.all_eq_false.mpr ⟨c, hc, by simp [hblank]⟩

theorem TextBlock.IsSound.tokensOf_html (sound : block.IsSound) (rest : List Char) :
    tokensOf (block.html ++ rest) = block.tokens ++ tokensOf rest := by
  have hname : IsPlainTag block.name := isPlainTag (by
    rcases sound.name with hname | hname <;> simp [plainTagNames, hname])
  have hend : endTagText block.name ++ rest = '<' :: (endTagText block.name ++ rest).tail := rfl
  rw [html, List.append_assoc, List.append_assoc, hname.tokensOf_startTag, hend,
    tokensOf_text (escape_ne_nil sound.text_ne_nil) (bracket_not_mem_escape block.text),
    readReferences_escape, ← hend, hname.tokensOf_endTag]
  rfl

/-- What follows a block on a page. -/
def pageRest (blocks : List TextBlock) : List Token :=
  blocks.flatMap fun block => .text ['\n'] :: block.tokens

theorem tokensOf_page (block : TextBlock) (h : ∀ b ∈ block :: blocks, b.IsSound) :
    tokensOf (unlines ((block :: blocks).map TextBlock.html)) = block.tokens ++ pageRest blocks := by
  induction blocks generalizing block with
  | nil =>
    have hblock := (h block List.mem_cons_self).tokensOf_html []
    rw [List.append_nil] at hblock
    refine hblock.trans (congrArg (block.tokens ++ ·) ?_)
    rw [tokensOf]
    rfl
  | cons next others ih =>
    have hothers := ih next fun b hb => h b (List.mem_cons_of_mem block hb)
    rw [List.map_cons, unlines_cons _ (by simp), (h block List.mem_cons_self).tokensOf_html]
    have hstart : unlines ((next :: others).map TextBlock.html)
        = '<' :: (unlines ((next :: others).map TextBlock.html)).tail := by
      cases others <;> rfl
    have hfeed := @tokensOf_text ['\n'] (by simp) (by decide)
      (unlines ((next :: others).map TextBlock.html)).tail
    rw [← hstart, readReferences_cons false (by decide)] at hfeed
    refine congrArg (block.tokens ++ ·) (hfeed.trans ?_)
    rw [hothers]
    rfl

/-! ### The tree -/

/-- A document whose body has the given children. -/
def document (nodes : List Node) : List Node :=
  [.element "html" [] [.element "body" [] nodes]]

/-- The nodes that follow a block on a page. -/
def restNodes (blocks : List TextBlock) : List Node :=
  blocks.flatMap fun block => [.text ['\n'], block.node]

namespace Builder

/-- The tree in work inside a body with the given children, last first, and text read behind them. -/
def inBody (children : List Node) (text : List Char) : Builder :=
  ⟨[⟨"body", [], children⟩, ⟨"html", [], []⟩], [], text, true, false, true, 0⟩

/-- The tree in work inside an element of the body, behind the text of the element. -/
def inElement (name : String) (children : List Node) (text : List Char) : Builder :=
  ⟨[⟨name, [], []⟩, ⟨"body", [], children⟩, ⟨"html", [], []⟩], [], text, true, false, true, 0⟩

variable {children : List Node}

/-- Text that is read outside of all elements that hold asides is text of the page. -/
theorem textNode_of_page {b : Builder} (h : ∀ e ∈ b.stack, holdsAsides e.name = false) (content : List Char) :
    b.textNode content = .text (b.keptText content) := by
  rw [textNode, List.any_eq_false.mpr fun e he => by simp [h e he], if_neg Bool.false_ne_true]

theorem isBlank_of_isTagBlank {c : Char} (h : isTagBlank c = true) : isBlank c = true := by
  simp only [isTagBlank, Bool.or_eq_true, beq_iff_eq] at h
  rcases h with (((rfl | rfl) | rfl) | rfl) | rfl <;> decide

/-- Text that is more than blanks is kept as it is. -/
theorem all_isTagBlank_of_filled (h : ∃ c ∈ text, isBlank c = false) : text.all isTagBlank = false := by
  obtain ⟨c, hc, hblank⟩ := h
  exact List.all_eq_false.mpr
    ⟨c, hc, fun htag => Bool.false_ne_true (hblank.symm.trans (isBlank_of_isTagBlank htag))⟩

theorem closes_body (h : name = "p" ∨ name = "pre") : closes name "body" = false := by
  rcases h with rfl | rfl <;> decide

/-- Inside the body a start tag opens an element, behind the line feed read before it. -/
theorem startTag_inBody (h : name = "p" ∨ name = "pre") :
    (inBody children ['\n']).startTag name [] false = inElement name (.text ['\n'] :: children) [] := by
  have hbody := closes_body h
  rcases h with rfl | rfl <;>
    simp [startTag, inBody, autoClose, closedBy, hbody, popMany, supplyFrame, isOpen, isHeadElement, isMisplaced,
      isVoid, push, flush, textNode, holdsAsides, keptText, keepsBlanks, add, inElement]

/-- At the start of a page it opens the frame of the page too. -/
theorem startTag_empty (h : name = "p" ∨ name = "pre") :
    empty.startTag name [] false = inElement name [] [] := by
  rcases h with rfl | rfl <;>
    simp [startTag, empty, autoClose, closedBy, popMany, supplyFrame, isOpen, isHeadElement, isMisplaced, isVoid,
      push, flush, inElement]

theorem addText_inElement (h : name = "p" ∨ name = "pre") (hne : text ≠ []) :
    (inElement name children []).addText text = inElement name children text := by
  rcases h with rfl | rfl <;> simp [addText, inElement, hne, isOutside, top?]

theorem endTag_inElement (h : name = "p" ∨ name = "pre") (hne : text ≠ []) (hall : text.all isTagBlank = false) :
    (inElement name children text).endTag name = inBody (.element name [] [.text text] :: children) [] := by
  rcases h with rfl | rfl <;>
    simp [endTag, inElement, closedByEnd, popMany, pop, flush, hne, textNode, holdsAsides, keptText, hall, add, inBody]

/-- A block becomes a child of the body. -/
theorem foldl_element (sound : block.IsSound) :
    [Token.text block.text, .endTag block.name].foldl step (inElement block.name children [])
      = inBody (block.node :: children) [] := by
  have hne := sound.text_ne_nil
  have hall := all_isTagBlank_of_filled sound.filled
  simp only [List.foldl_cons, List.foldl_nil, step, addText_inElement sound.name hne,
    endTag_inElement sound.name hne hall]
  rfl

/-- So does every block that follows, with the line feed before it. -/
theorem foldl_pageRest (h : ∀ b ∈ blocks, b.IsSound) :
    (pageRest blocks).foldl step (inBody children []) = inBody ((restNodes blocks).reverse ++ children) [] := by
  induction blocks generalizing children with
  | nil => rfl
  | cons block others ih =>
    have sound := h block List.mem_cons_self
    have hblock : ([Token.text ['\n']] ++ block.tokens).foldl step (inBody children [])
        = inBody (block.node :: .text ['\n'] :: children) [] := by
      have hfeed : (inBody children []).addText ['\n'] = inBody children ['\n'] := rfl
      rw [List.foldl_append, List.foldl_cons, List.foldl_nil, step, hfeed, TextBlock.tokens, List.foldl_cons, step,
        startTag_inBody sound.name, foldl_element sound]
    rw [pageRest, List.flatMap_cons, ← pageRest, List.foldl_append]
    refine (congrArg (fun b => (pageRest others).foldl step b) hblock).trans ?_
    rw [ih fun b hb => h b (List.mem_cons_of_mem block hb)]
    simp [restNodes]

end Builder

/-- The characters that reading a page would change. -/
def normalizedChars : List Char := ['\r', '\x00']

theorem not_mem_html (sound : block.IsSound) {c : Char} (hc : c ∈ normalizedChars) : c ∉ block.html := by
  have hpage : ∀ name, name = "p" ∨ name = "pre" →
      c ∉ startTagText name ∧ c ∉ endTagText name := by
    rintro name (rfl | rfl) <;>
      simp only [normalizedChars, List.mem_cons, List.not_mem_nil, or_false] at hc <;>
      rcases hc with rfl | rfl <;> decide
  have htext : c ∉ block.text := fun hmem => by
    have hread := sound.read c hmem
    simp_all [normalizedChars]
  have hentity : isEntityChar c = false := by
    simp only [normalizedChars, List.mem_cons, List.not_mem_nil, or_false] at hc
    rcases hc with rfl | rfl <;> decide
  simp only [TextBlock.html, List.mem_append, not_or]
  exact ⟨⟨(hpage _ sound.name).1, not_mem_escape htext hentity⟩, (hpage _ sound.name).2⟩

theorem not_mem_page (h : ∀ b ∈ blocks, b.IsSound) {c : Char} (hc : c ∈ normalizedChars) :
    c ∉ unlines (blocks.map TextBlock.html) := fun hmem => by
  obtain ⟨html, hhtml, hin⟩ := mem_unlines (by rintro rfl; exact absurd hc (by decide)) hmem
  obtain ⟨b, hb, rfl⟩ := List.mem_map.mp hhtml
  exact not_mem_html (h b hb) hc hin

/-- **A page of blocks is read as a body with the blocks in it.** -/
theorem parse_page (block : TextBlock) (h : ∀ b ∈ block :: blocks, b.IsSound) :
    parse (unlines ((block :: blocks).map TextBlock.html)) = document (block.node :: restNodes blocks) := by
  have sound := h block List.mem_cons_self
  have hfirst : block.tokens.foldl Builder.step .empty = .inBody [block.node] [] := by
    rw [TextBlock.tokens, List.foldl_cons, Builder.step, Builder.startTag_empty sound.name,
      Builder.foldl_element sound]
  have htokens : tokens (unlines ((block :: blocks).map TextBlock.html))
      = block.tokens ++ pageRest blocks := by
    have hpage : ∀ c ∈ unlines ((block :: blocks).map TextBlock.html), c ≠ '\r' ∧ c ≠ '\x00' := fun c hc =>
      ⟨fun heq => not_mem_page h (by decide) (heq ▸ hc), fun heq => not_mem_page h (by decide) (heq ▸ hc)⟩
    rw [tokens, normalizeNewlines_eq_self fun hr => (hpage _ hr).1 rfl, ← tokensOf_page block h]
    refine congrArg tokensOf ((List.map_congr_left fun c hc => ?_).trans (List.map_id _))
    rw [if_neg (by simpa using (hpage c hc).2)]
    rfl
  rw [parse, htokens, List.foldl_append, hfirst,
    Builder.foldl_pageRest fun b hb => h b (List.mem_cons_of_mem block hb)]
  simp [Builder.finish, Builder.inBody, Builder.flush, Builder.popMany, Builder.pop, Builder.add, document]

/-! ### Cleaning -/

variable {nodes : List Node}

theorem dropElements_eq_self {p : Element → Bool} (h : ∀ node ∈ nodes, node.dropElements p = [node]) :
    dropElements p nodes = nodes := by
  induction nodes with
  | nil => rfl
  | cons node rest ih =>
    rw [dropElements, h node List.mem_cons_self, ih fun n hn => h n (List.mem_cons_of_mem node hn)]
    rfl

theorem mapAttributes_eq_self {f : String → List Attribute → List Attribute}
    (h : ∀ node ∈ nodes, node.mapAttributes f = node) : mapAttributes f nodes = nodes := by
  induction nodes with
  | nil => rfl
  | cons node rest ih =>
    rw [mapAttributes, h node List.mem_cons_self, ih fun n hn => h n (List.mem_cons_of_mem node hn)]

theorem dropElements_document {p : Element → Bool} (hhtml : ∀ children, p ⟨"html", [], children⟩ = false)
    (hbody : p ⟨"body", [], nodes⟩ = false) (h : ∀ node ∈ nodes, node.dropElements p = [node]) :
    dropElements p (document nodes) = document nodes := by
  simp [document, dropElements, Node.dropElements, hhtml, hbody, dropElements_eq_self h]

theorem mapAttributes_document {f : String → List Attribute → List Attribute} (hf : ∀ name, f name [] = [])
    (h : ∀ node ∈ nodes, node.mapAttributes f = node) :
    mapAttributes f (document nodes) = document nodes := by
  simp [document, mapAttributes, Node.mapAttributes, hf, mapAttributes_eq_self h]

theorem mem_restNodes {node : Node} (h : node ∈ block.node :: restNodes blocks) :
    node = .text ['\n'] ∨ ∃ b ∈ block :: blocks, node = b.node := by
  rcases List.mem_cons.mp h with rfl | h
  · exact Or.inr ⟨block, List.mem_cons_self, rfl⟩
  · obtain ⟨b, hb, hnode⟩ := List.mem_flatMap.mp h
    rcases List.mem_cons.mp hnode with rfl | hnode
    · exact Or.inl rfl
    · exact Or.inr ⟨b, List.mem_cons_of_mem block hb, List.mem_singleton.mp hnode⟩

theorem isDecoration_plain (name : String) (children : List Node) :
    isDecoration ⟨name, [], children⟩ = false :=
  rfl

theorem cleanAddresses_nil (name : String) : cleanAddresses name [] = [] := by
  unfold cleanAddresses
  split
  · rfl
  split <;> rfl

theorem isEmptyWrapper_block (sound : block.IsSound) :
    isEmptyWrapper ⟨block.name, [], [.text block.text]⟩ = false := by
  simp [isEmptyWrapper, textsOf, Node.texts, sound.isBlankText]

/-- **There is nothing to clean on a page of blocks.** -/
theorem clean_page (block : TextBlock) (h : ∀ b ∈ block :: blocks, b.IsSound) :
    clean (document (block.node :: restNodes blocks)) = document (block.node :: restNodes blocks) := by
  have hmap : ∀ f : String → List Attribute → List Attribute, (∀ name, f name [] = []) →
      mapAttributes f (document (block.node :: restNodes blocks))
        = document (block.node :: restNodes blocks) := by
    refine fun f hf => mapAttributes_document hf fun node hnode => ?_
    rcases mem_restNodes hnode with rfl | ⟨b, -, rfl⟩
    · rfl
    · simp [TextBlock.node, Node.mapAttributes, mapAttributes, hf]
  have hdrop : ∀ p : Element → Bool, (∀ b ∈ block :: blocks, p ⟨b.name, [], [.text b.text]⟩ = false) →
      ∀ node ∈ block.node :: restNodes blocks, node.dropElements p = [node] := by
    refine fun p hp node hnode => ?_
    rcases mem_restNodes hnode with rfl | ⟨b, hb, rfl⟩
    · rfl
    · simp [TextBlock.node, Node.dropElements, dropElements, hp b hb]
  have hundecorated : dropElements isDecoration (document (block.node :: restNodes blocks))
      = document (block.node :: restNodes blocks) :=
    dropElements_document (fun _ => rfl) rfl (hdrop isDecoration fun b _ => isDecoration_plain b.name _)
  rw [clean, undecorated, hundecorated, hmap dropSectionId fun _ => rfl, hmap cleanAddresses cleanAddresses_nil]
  exact dropElements_document (fun _ => rfl) rfl (hdrop isEmptyWrapper fun b hb => isEmptyWrapper_block (h b hb))

end WikiMigration.Html
