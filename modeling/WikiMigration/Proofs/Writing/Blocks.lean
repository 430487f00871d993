/-
Writing a page of plain blocks.

Every block is written with an empty line before and behind it, and where two of them meet the empty
lines are merged into one.  So the page is the texts of its blocks with one empty line between them, if
no text starts or ends with a line feed.

The normal form of a page goes by its lines: those are kept that a blank line is never the neighbour of another
one in, going through them from the front and passing over a line that would break this.
-/
import Mathlib.Data.List.Destutter
import WikiMigration.Conversion
import WikiMigration.Proofs.Html.Blocks
import WikiMigration.Proofs.Text.Lines
import WikiMigration.Writing.Page

namespace WikiMigration.Writing

open Text Html

variable {text : List Char} {texts : List (List Char)}

/-! ### The normal form -/

section NormalForm

/-- One of the two lines is not blank. -/
def NotBothBlank (line next : List Char) : Prop := ¬(isBlankLine line = true ∧ isBlankLine next = true)

instance : DecidableRel NotBothBlank := fun _ _ => inferInstanceAs (Decidable (¬_))

variable {lines : List (List Char)} {line : List Char}

theorem cons_collapseBlankLines (line : List Char) (lines : List (List Char)) :
    line :: collapseBlankLines (isBlankLine line) lines = lines.destutter' NotBothBlank line := by
  induction lines generalizing line with
  | nil => rfl
  | cons next rest ih =>
    rw [collapseBlankLines, List.destutter'_cons]
    by_cases h : NotBothBlank line next
    · have hkept : (isBlankLine next && isBlankLine line) = false := by
        rw [Bool.and_comm]
        simpa [NotBothBlank] using h
      rw [if_pos h, hkept, ← ih]
      rfl
    · have hpassed : isBlankLine line = true ∧ isBlankLine next = true := Decidable.not_not.mp h
      rw [if_neg h, hpassed.1, hpassed.2, ← ih, hpassed.1]
      rfl

/-- The lines that are kept, one at a time from the front. -/
theorem collapseBlankLines_eq_destutter (lines : List (List Char)) :
    collapseBlankLines false lines = lines.destutter NotBothBlank := by
  cases lines with
  | nil => rfl
  | cons line rest =>
    rw [List.destutter_cons', ← cons_collapseBlankLines, collapseBlankLines, Bool.and_false]
    rfl

theorem notBothBlank_left (hline : isBlankLine line = false) (next : List Char) : NotBothBlank line next :=
  fun h => Bool.false_ne_true (hline.symm.trans h.1)

theorem notBothBlank_right (hline : isBlankLine line = false) (before : List Char) :
    NotBothBlank before line :=
  fun h => Bool.false_ne_true (hline.symm.trans h.2)

/-- A line that is not blank is kept, and so are those behind it as if it were not there. -/
theorem destutter_cons (hline : isBlankLine line = false) (lines : List (List Char)) :
    (line :: lines).destutter NotBothBlank = line :: lines.destutter NotBothBlank := by
  cases lines with
  | nil => rfl
  | cons next rest =>
    rw [List.destutter_cons', List.destutter'_cons_pos _ (notBothBlank_left hline next), List.destutter_cons']

theorem destutter'_concat (hline : isBlankLine line = false) (before : List Char) (lines : List (List Char)) :
    (lines ++ [line]).destutter' NotBothBlank before = lines.destutter' NotBothBlank before ++ [line] := by
  induction lines generalizing before with
  | nil => exact List.destutter'_cons_pos [] (notBothBlank_right hline before)
  | cons next rest ih =>
    rw [List.cons_append, List.destutter'_cons, List.destutter'_cons]
    split
    · rw [ih, List.cons_append]
    · exact ih before

/-- It is kept at the end too. -/
theorem destutter_concat (hline : isBlankLine line = false) (lines : List (List Char)) :
    (lines ++ [line]).destutter NotBothBlank = lines.destutter NotBothBlank ++ [line] := by
  cases lines with
  | nil => rfl
  | cons first rest =>
    rw [List.cons_append, List.destutter_cons', List.destutter_cons', destutter'_concat hline]

theorem destutter_append {block : List (List Char)} (h : ∀ line ∈ block, isBlankLine line = false)
    (lines : List (List Char)) :
    (block ++ lines).destutter NotBothBlank = block ++ lines.destutter NotBothBlank := by
  induction block with
  | nil => rfl
  | cons line rest ih =>
    rw [List.cons_append, destutter_cons (h line List.mem_cons_self),
      ih fun l hl => h l (List.mem_cons_of_mem line hl), List.cons_append]

/-- Of blocks without blank lines, one empty line between two of them, every line is kept. -/
theorem destutter_intercalate {blocks : List (List (List Char))} (hne : ∀ block ∈ blocks, block ≠ [])
    (h : ∀ block ∈ blocks, ∀ line ∈ block, isBlankLine line = false) :
    ([[]].intercalate blocks).destutter NotBothBlank = [[]].intercalate blocks := by
  induction blocks with
  | nil => rfl
  | cons block rest ih =>
    have hblock := h block List.mem_cons_self
    have hrest := ih (fun b hb => hne b (List.mem_cons_of_mem block hb))
      fun b hb => h b (List.mem_cons_of_mem block hb)
    cases rest with
    | nil => simpa using destutter_append hblock []
    | cons next others =>
      obtain ⟨line, more, hnext⟩ : ∃ line more, next = line :: more :=
        List.exists_cons_of_ne_nil (hne next (by simp))
      have hline : isBlankLine line = false := h next (by simp) line (hnext ▸ List.mem_cons_self)
      -- The empty line is followed by the first line of the next block.
      obtain ⟨behind, hbehind⟩ : ∃ behind, [[]].intercalate (next :: others) = line :: behind := by
        cases others <;> exact ⟨_, by simp [hnext]; rfl⟩
      have hempty : ([] :: line :: behind).destutter NotBothBlank
          = [] :: (line :: behind).destutter NotBothBlank := by
        rw [List.destutter_cons', List.destutter'_cons_pos _ (notBothBlank_right hline []),
          List.destutter_cons']
      rw [List.intercalate_cons_cons, List.append_assoc, destutter_append hblock, List.singleton_append,
        hbehind, hempty, ← hbehind, hrest]

/-- The normal form of a text of lines. -/
theorem tidy_unlines (hne : lines ≠ []) (h : ∀ line ∈ lines, '\n' ∉ line) :
    tidy (unlines lines) =
      let kept := trimNewlines (unlines ((lines.map trimRight).destutter NotBothBlank))
      if kept.isEmpty then [] else kept ++ ['\n'] := by
  rw [tidy, lines_unlines hne h, collapseBlankLines_eq_destutter]

end NormalForm

/-! ### Joining -/

/-- An empty line. -/
def emptyLine : List Char := ['\n', '\n']

/-- A text with an empty line before and behind it. -/
def padded (text : List Char) : List Char := emptyLine ++ text ++ emptyLine

/-- There is something in the text, and it neither starts nor ends with a line feed. -/
structure IsBlockText (text : List Char) : Prop where
  ne_nil : text ≠ []
  trimmed : Trimmed (· == '\n') text

theorem padded_ne_nil (text : List Char) : padded text ≠ [] := by
  simp [padded, emptyLine]

/-- A text with so many line feeds before and behind it. -/
def framed (lead : Nat) (text : List Char) (trail : Nat) : List Char :=
  List.replicate lead '\n' ++ text ++ List.replicate trail '\n'

/-- How many line feeds are written where so many wait and so many follow. -/
def feedsBetween (pending lead : Nat) : Nat :=
  if pending != 0 && lead != 0 then min 2 (max pending lead) else pending + lead

theorem feedsBetween_zero (pending : Nat) : feedsBetween pending 0 = pending := by simp [feedsBetween]

section Framed

variable {lead trail : Nat}

theorem IsBlockText.leadingNewlines_framed (h : IsBlockText text) : leadingNewlines (framed lead text trail) = lead := by
  obtain ⟨c, rest, rfl⟩ := List.exists_cons_of_ne_nil h.ne_nil
  have hc := h.trimmed.head c rfl
  rw [leadingNewlines, framed, List.append_assoc, List.takeWhile_append_of_pos (by simp), List.cons_append,
    List.takeWhile_cons_of_neg (by simp [hc]), List.append_nil, List.length_replicate]

theorem IsBlockText.trimNewlines_framed (h : IsBlockText text) : trimNewlines (framed lead text trail) = text := by
  have hleft : (framed lead text trail).dropWhile (· == '\n') = text ++ List.replicate trail '\n' := by
    obtain ⟨c, rest, rfl⟩ := List.exists_cons_of_ne_nil h.ne_nil
    have hc := h.trimmed.head c rfl
    rw [framed, List.append_assoc, List.dropWhile_append_of_pos (by simp), List.cons_append,
      List.dropWhile_cons_of_neg (by simp [hc])]
  have hright : trimRightWith (· == '\n') text = text := trimRightWith_eq_self h.trimmed.last
  rw [trimRightWith] at hright
  rw [trimNewlines, trimWith, trimLeftWith, hleft, trimRightWith, List.reverse_append, List.reverse_replicate,
    List.dropWhile_append_of_pos (by simp), hright]

/-- Where a text follows, the larger number of line feeds is written before it, but no more than two. -/
theorem IsBlockText.joinBlocksFrom_framed (h : IsBlockText text) (pending lead trail : Nat) :
    joinBlocksFrom pending (framed lead text trail :: texts) =
      List.replicate (feedsBetween pending lead) '\n' ++ text ++ joinBlocksFrom trail texts := by
  have hlength : (framed lead text trail).length - lead - text.length = trail := by
    simp only [framed, List.length_append, List.length_replicate]
    omega
  rw [joinBlocksFrom, h.leadingNewlines_framed, h.trimNewlines_framed, hlength]
  rfl

/-- A text that stands alone is written as it is. -/
theorem IsBlockText.joinBlocks_framed (h : IsBlockText text) (lead trail : Nat) :
    joinBlocks [framed lead text trail] = framed lead text trail := by
  have hlead : feedsBetween 0 lead = lead := Nat.zero_add lead
  rw [joinBlocks, h.joinBlocksFrom_framed, hlead]
  rfl

end Framed

theorem padded_eq_framed (text : List Char) : padded text = framed 2 text 2 := rfl

theorem framed_zero (text : List Char) : framed 0 text 0 = text := by simp [framed]

theorem framed_ne_nil (hne : text ≠ []) (lead trail : Nat) : framed lead text trail ≠ [] := by simp [framed, hne]

/-- Padded texts are joined with one empty line between two of them. -/
theorem joinBlocksFrom_padded (hne : texts ≠ []) (h : ∀ text ∈ texts, IsBlockText text) {pending : Nat}
    (hpending : pending = 0 ∨ pending = 2) :
    joinBlocksFrom pending (texts.map padded) = padded (joinWith emptyLine texts) := by
  induction texts generalizing pending with
  | nil => exact absurd rfl hne
  | cons text rest ih =>
    have hbetween : feedsBetween pending 2 = 2 := by rcases hpending with rfl | rfl <;> rfl
    rw [List.map_cons, padded_eq_framed, (h text List.mem_cons_self).joinBlocksFrom_framed, hbetween]
    by_cases hrest : rest = []
    · subst hrest
      rfl
    · rw [ih hrest (fun t ht => h t (List.mem_cons_of_mem text ht)) (Or.inr rfl), joinWith_cons _ _ hrest]
      simp [padded, emptyLine, List.replicate]

theorem joinBlocks_padded (hne : texts ≠ []) (h : ∀ text ∈ texts, IsBlockText text) :
    joinBlocks (texts.map padded) = padded (joinWith emptyLine texts) :=
  joinBlocksFrom_padded hne h (Or.inl rfl)

theorem IsBlockText.joinBlocks_bare (h : IsBlockText text) : joinBlocks [text] = text := by
  have halone := h.joinBlocks_framed 0 0
  rwa [framed_zero] at halone

/-- Blocks of lines are joined with one empty line between two of them. -/
theorem joinWith_emptyLine {blocks : List (List (List Char))} (h : ∀ block ∈ blocks, block ≠ []) :
    joinWith emptyLine (blocks.map unlines) = unlines ([[]].intercalate blocks) := by
  induction blocks with
  | nil => rfl
  | cons block rest ih =>
    cases rest with
    | nil => rw [List.intercalate_singleton]; rfl
    | cons next others =>
      have hnext : [[]].intercalate (next :: others) ≠ [] := by
        cases others <;> simp [h next]
      rw [List.map_cons, joinWith_cons _ _ (by simp), ih fun b hb => h b (List.mem_cons_of_mem block hb),
        List.intercalate_cons_cons, List.append_assoc block, List.singleton_append,
        unlines_append (h block List.mem_cons_self) (by simp), unlines_cons [] hnext]
      simp [emptyLine]

theorem isBlockText_joinWith (mark : List Char) (hne : texts ≠ []) (h : ∀ text ∈ texts, IsBlockText text) :
    IsBlockText (joinWith mark texts) :=
  have hjoined := trimmed_joinWith mark hne fun text htext => ⟨(h text htext).ne_nil, (h text htext).trimmed⟩
  ⟨hjoined.1, hjoined.2⟩

/-- A line without blanks at its ends is in the normal form of a page, but for the line feed at its end. -/
theorem tidy_line (hne : text ≠ []) (htrimmed : Trimmed isBlank text) (hwhole : '\n' ∉ text) :
    tidy text = text ++ ['\n'] := by
  have hright : trimRight text = text := trimRightWith_eq_self htrimmed.last
  have hends : trimNewlines text = text :=
    (htrimmed.mono fun c hc => by rw [beq_iff_eq.mp hc]; decide).trimWith_eq_self
  have htidy := tidy_unlines (List.cons_ne_nil text []) (by simpa using hwhole)
  rw [List.map_singleton, hright, List.destutter_singleton] at htidy
  refine htidy.trans ?_
  show (if (trimNewlines text).isEmpty then [] else trimNewlines text ++ ['\n']) = _
  rw [hends, if_neg (by simpa using hne)]

/-! ### Blocks of lines -/

/-- A line that is kept as it is in the normal form. -/
structure IsKeptLine (line : List Char) : Prop where
  ne_nil : line ≠ []
  trimmed : Trimmed isBlank line
  unquoted : line ≠ ['>']
  whole : '\n' ∉ line

section BlocksOfLines

variable {line : List Char} {blocks : List (List (List Char))}

theorem IsKeptLine.isBlankLine (h : IsKeptLine line) : isBlankLine line = false := by
  have htrim : trim line = line := h.trimmed.trimWith_eq_self
  rw [Writing.isBlankLine, htrim, List.isEmpty_eq_false_iff.mpr h.ne_nil, beq_false_of_ne h.unquoted]
  rfl

theorem IsKeptLine.isBlankText (h : IsKeptLine line) : isBlankText line = false := by
  have hempty := isEmpty_trimWith isBlank line
  rw [h.trimmed.trimWith_eq_self, List.isEmpty_eq_false_iff.mpr h.ne_nil] at hempty
  exact hempty.symm

/-- Lines one under the other start and end as the first and the last of them. -/
theorem trimmed_unlines {lines : List (List Char)} (hne : lines ≠ []) (h : ∀ line ∈ lines, IsKeptLine line) :
    unlines lines ≠ [] ∧ Trimmed isBlank (unlines lines) :=
  trimmed_joinWith ['\n'] hne fun line hline => ⟨(h line hline).ne_nil, (h line hline).trimmed⟩

theorem isBlockText_unlines {lines : List (List Char)} (hne : lines ≠ []) (h : ∀ line ∈ lines, IsKeptLine line) :
    IsBlockText (unlines lines) :=
  have htrimmed := trimmed_unlines hne h
  ⟨htrimmed.1, htrimmed.2.mono fun c hc => by rw [beq_iff_eq.mp hc]; decide⟩

theorem mem_intercalate (h : line ∈ [[]].intercalate blocks) : line = [] ∨ ∃ block ∈ blocks, line ∈ block := by
  induction blocks with
  | nil => cases h
  | cons first rest ih =>
    cases rest with
    | nil => exact Or.inr ⟨first, List.mem_cons_self, by simpa using h⟩
    | cons next others =>
      rw [List.intercalate_cons_cons, List.mem_append, List.mem_append] at h
      rcases h with (h | h) | h
      · exact Or.inr ⟨first, List.mem_cons_self, h⟩
      · exact Or.inl (List.mem_singleton.mp h)
      · exact (ih h).imp_right fun ⟨block, hblock, hmem⟩ => ⟨block, List.mem_cons_of_mem first hblock, hmem⟩

theorem not_mem_intercalate (h : ∀ block ∈ blocks, ∀ line ∈ block, IsKeptLine line) :
    ∀ line ∈ [[]].intercalate blocks, '\n' ∉ line := by
  intro line hline
  rcases mem_intercalate hline with rfl | ⟨block, hblock, hmem⟩
  · exact List.not_mem_nil
  · exact (h block hblock line hmem).whole

/-- **Blocks of lines are in the normal form of a page**, but for the line feed at its end. -/
theorem tidy_blocks (hne : blocks ≠ []) (hblocks : ∀ block ∈ blocks, block ≠ [])
    (h : ∀ block ∈ blocks, ∀ line ∈ block, IsKeptLine line) :
    tidy (joinWith emptyLine (blocks.map unlines)) = unlines ([[]].intercalate blocks ++ [[]]) := by
  have hpage : IsBlockText (unlines ([[]].intercalate blocks)) := by
    rw [← joinWith_emptyLine hblocks]
    exact isBlockText_joinWith emptyLine (by simpa using hne)
      (by simpa using fun block hblock => isBlockText_unlines (hblocks block hblock) (h block hblock))
  have hsome : [[]].intercalate blocks ≠ [] := fun hnil => hpage.ne_nil (by rw [hnil]; rfl)
  have htrimmed : ([[]].intercalate blocks).map trimRight = [[]].intercalate blocks := by
    refine (List.map_congr_left fun line hline => ?_).trans (List.map_id' _)
    rcases mem_intercalate hline with rfl | ⟨block, hblock, hmem⟩
    · rfl
    · exact trimRightWith_eq_self (h block hblock line hmem).trimmed.last
  have hkept := destutter_intercalate hblocks fun block hblock line hline => (h block hblock line hline).isBlankLine
  have hends : trimNewlines (unlines ([[]].intercalate blocks)) = unlines ([[]].intercalate blocks) :=
    hpage.trimmed.trimWith_eq_self
  rw [joinWith_emptyLine hblocks, tidy_unlines hsome (not_mem_intercalate h), htrimmed, hkept, hends,
    if_neg (by simpa using hpage.ne_nil), unlines_concat_nil hsome]

end BlocksOfLines

/-! ### The nodes -/

/-- The place inside the body of a document. -/
def bodyPlace (nodes : List Node) : Place :=
  (Place.outside.inside ⟨"html", [], [.element "body" [] nodes]⟩).inside ⟨"body", [], nodes⟩

variable {dialect : Dialect} {block : TextBlock} {blocks : List TextBlock} {shown : TextBlock → List Char}

theorem trimsAround_block (sound : block.IsSound) : trimsAround (some block.node) = true := by
  rcases sound.name with hname | hname <;> simp [TextBlock.node, trimsAround, hname, trimsInside]

section Kept

variable {place : Place} {before : Option Node} {earlier nodes : List Node} {parent : String}

/-- An element that is written as something is kept. -/
theorem keptTexts_element {node : Node} (hnode : node.isElement = true) (hne : text ≠ [])
    (hwrites : (writeNode dialect place earlier nodes node).text = text) :
    keptTexts parent before (node :: nodes) (writeNodes dialect place earlier (node :: nodes))
      = text :: keptTexts parent (some node) nodes (writeNodes dialect place (node :: earlier) nodes) := by
  cases node with
  | element name attributes children =>
    rw [writeNodes, keptTexts, hwrites, if_neg (by simp [isLeftOut, hne])]
    rfl
  | text | aside | comment | doctype => cases hnode

/-- So is text that is more than blanks. -/
theorem keptTexts_text {content : List Char} (hfilled : isBlankText content = false) (hne : text ≠ [])
    (hwrites : writeText dialect place earlier.head? nodes.head? content = text) :
    keptTexts parent before (.text content :: nodes) (writeNodes dialect place earlier (.text content :: nodes))
      = text :: keptTexts parent (some (.text content)) nodes
        (writeNodes dialect place (.text content :: earlier) nodes) := by
  rw [writeNodes, writeNode, keptTexts, hwrites, if_neg (by simp [isLeftOut, hfilled, hne])]
  rfl

/-- A line feed is not, where blanks mean nothing. -/
theorem keptTexts_feed (h : trimsAt parent before = true ∨ trimsAt parent nodes.head? = true) :
    keptTexts parent before (.text ['\n'] :: nodes) (writeNodes dialect place earlier (.text ['\n'] :: nodes))
      = keptTexts parent (some (.text ['\n'])) nodes (writeNodes dialect place (.text ['\n'] :: earlier) nodes) := by
  have hblank : isBlankText ['\n'] = true := by decide
  rw [writeNodes, keptTexts, if_pos (by simpa [isLeftOut, hblank] using Or.inl h)]
  rfl

/-- Of the children of a body only the blocks are kept. -/
theorem keptTexts_page (h : ∀ b ∈ block :: blocks, b.IsSound)
    (hwrites : ∀ b ∈ block :: blocks, ∀ earlier later,
      (writeNode dialect place earlier later b.node).text = padded (shown b)) :
    keptTexts "body" before (block.node :: restNodes blocks)
        (writeNodes dialect place earlier (block.node :: restNodes blocks))
      = (block :: blocks).map fun b => padded (shown b) := by
  induction blocks generalizing block before earlier with
  | nil => exact keptTexts_element rfl (padded_ne_nil _) (hwrites block List.mem_cons_self earlier [])
  | cons next others ih =>
    have hfeed : trimsAt "body" (some block.node) = true := by
      rw [trimsAt, trimsAround_block (h block List.mem_cons_self), Bool.true_or]
    rw [keptTexts_element rfl (padded_ne_nil _) (hwrites block List.mem_cons_self earlier _), restNodes,
      List.flatMap_cons, ← restNodes, List.cons_append, List.singleton_append, keptTexts_feed (Or.inl hfeed),
      ih (fun b hb => h b (List.mem_cons_of_mem block hb))
        fun b hb => hwrites b (List.mem_cons_of_mem block hb)]
    rfl

end Kept

/-! ### The page -/

/-- Neither the frame of a page nor a paragraph is written in a way of the dialect's own. -/
theorem writeElement_shared {name : String} (h : name = "html" ∨ name = "body" ∨ name = "p") (place : Place)
    (before behind children : List Node) (text : List Char) (rows : List WrittenRow) :
    writeElement dialect place before behind ⟨name, [], children⟩ text rows
      = writeShared dialect place before behind ⟨name, [], children⟩ text := by
  have hlevel : Markdown.headingLevel? name = none := by
    rcases h with rfl | rfl | rfl <;> decide +kernel
  cases dialect with
  | markdown => rcases h with rfl | rfl | rfl <;> simp [writeElement, Markdown.writeElement, hlevel]
  | jspwiki => rcases h with rfl | rfl | rfl <;> simp [writeElement, Wiki.writeElement, hlevel]

/-- The frame of a page is written as what is in it. -/
theorem text_writeNode_frame {name : String} (h : name = "html" ∨ name = "body") (place : Place)
    (hplace : place.isWithin "pre" = false) (before behind children : List Node) :
    (writeNode dialect place before behind (.element name [] children)).text
      = joinBlocks (keptTexts name none children
          (writeNodes dialect (place.inside ⟨name, [], children⟩) [] children)) := by
  have hshared : ∀ text, writeShared dialect place before behind ⟨name, [], children⟩ text = text := by
    rcases h with rfl | rfl <;> exact fun _ => rfl
  have hname : name ≠ "pre" := by rcases h with rfl | rfl <;> decide
  rw [writeNode, writeElement_shared (h.imp_right Or.inl), hshared, joinTexts, hplace]
  simp [hname]

/-- A block is written as its element, for the text in it. -/
theorem exists_rows_writeNode (sound : block.IsSound) {place : Place} {inner : List Char} (hne : inner ≠ [])
    (hinner : writeText dialect (place.inside ⟨block.name, [], [.text block.text]⟩) none none block.text
      = inner)
    (earlier later : List Node) :
    ∃ rows, (writeNode dialect place earlier later block.node).text
      = writeElement dialect place earlier later ⟨block.name, [], [.text block.text]⟩
          (joinTexts place block.name [inner]) rows := by
  have hkept : keptTexts block.name none [.text block.text]
      (writeNodes dialect (place.inside ⟨block.name, [], [.text block.text]⟩) [] [.text block.text])
      = [inner] := keptTexts_text sound.isBlankText hne hinner
  rw [TextBlock.node, writeNode, hkept]
  exact ⟨_, rfl⟩

theorem isBlank_of_isRunBlank {c : Char} (h : isRunBlank c = true) : isBlank c = true := by
  simp only [isRunBlank, Bool.or_eq_true, beq_iff_eq] at h
  rcases h with ((rfl | rfl) | rfl) | rfl <;> decide

/-- **A paragraph is written as what is in it**, the openings of its lines made literal. -/
theorem text_writeNode_paragraph {nodes children : List Node} {inner : List Char}
    (hinner : joinBlocks (keptTexts "p" none children
      (writeNodes dialect ((bodyPlace nodes).inside ⟨"p", [], children⟩) [] children)) = inner)
    (hstarts : escapeLineStarts dialect inner = text) (hne : text ≠ []) (htrimmed : Trimmed isBlank text)
    (earlier later : List Node) :
    (writeNode dialect (bodyPlace nodes) earlier later (.element "p" [] children)).text = padded text := by
  have hinline : (bodyPlace nodes).inline = false := by
    simp only [bodyPlace, Place.inside, Place.outside]
    decide
  have hjoin : ∀ texts, joinTexts (bodyPlace nodes) "p" texts = joinBlocks texts := fun _ => rfl
  have hkept : trimWith isRunBlank text = text :=
    (htrimmed.mono fun _ => isBlank_of_isRunBlank).trimWith_eq_self
  rw [writeNode, writeElement_shared (Or.inr (Or.inr rfl)), hjoin, hinner]
  show writeParagraph dialect (bodyPlace nodes) inner = _
  rw [writeParagraph, hinline, if_neg (by decide), hstarts, hkept, block,
    if_neg (by simpa using hne)]
  rfl

/-- What holds nothing but text is written as the text. -/
theorem joinBlocks_text (name : String) {place : Place} {content : List Char} (h : IsBlockText text)
    (hfilled : isBlankText content = false) (hwrites : writeText dialect place none none content = text) :
    joinBlocks (keptTexts name none [.text content] (writeNodes dialect place [] [.text content])) = text := by
  have hkept : keptTexts name none [.text content] (writeNodes dialect place [] [.text content]) = [text] :=
    keptTexts_text hfilled h.ne_nil hwrites
  rw [hkept, h.joinBlocks_bare]

/-- What holds nothing but one element is written as the element. -/
theorem joinBlocks_only {name tag : String} {place : Place} {attributes : List Attribute}
    {children : List Node} {lead trail : Nat} (h : IsBlockText text)
    (hnode : (writeNode dialect place [] [] (.element tag attributes children)).text = framed lead text trail) :
    joinBlocks (keptTexts name none [.element tag attributes children]
      (writeNodes dialect place [] [.element tag attributes children])) = framed lead text trail := by
  have hkept : keptTexts name none [.element tag attributes children]
      (writeNodes dialect place [] [.element tag attributes children]) = [framed lead text trail] :=
    keptTexts_element rfl (framed_ne_nil h.ne_nil lead trail) hnode
  rw [hkept, h.joinBlocks_framed]

/-- The frame of a page adds nothing to what its body is written as, and the line feeds around that go. -/
theorem writeDocument_body {nodes : List Node} {lead trail : Nat} (h : IsBlockText text)
    (hbody : joinBlocks (keptTexts "body" none nodes (writeNodes dialect (bodyPlace nodes) [] nodes))
      = framed lead text trail) : writeDocument dialect (document nodes) = text := by
  have hinside := (text_writeNode_frame (Or.inr rfl) (Place.outside.inside _) rfl [] [] nodes).trans hbody
  have hhtml := (text_writeNode_frame (Or.inl rfl) .outside rfl [] [] _).trans (joinBlocks_only h hinside)
  rw [writeDocument, document, joinBlocks_only h hhtml, h.trimNewlines_framed]

/-- **A page of blocks is written as their texts with one empty line between them.** -/
theorem writeDocument_page (h : ∀ b ∈ block :: blocks, b.IsSound)
    (htexts : ∀ b ∈ block :: blocks, IsBlockText (shown b))
    (hwrites : ∀ b ∈ block :: blocks, ∀ earlier later,
      (writeNode dialect (bodyPlace (block.node :: restNodes blocks)) earlier later b.node).text
        = padded (shown b)) :
    writeDocument dialect (document (block.node :: restNodes blocks))
      = joinWith emptyLine ((block :: blocks).map shown) := by
  have hjoin : joinBlocks ((block :: blocks).map fun b => padded (shown b))
      = padded (joinWith emptyLine ((block :: blocks).map shown)) := by
    rw [← joinBlocks_padded (by simp) (by simpa using htexts), List.map_map]
    rfl
  rw [padded_eq_framed] at hjoin
  exact writeDocument_body (isBlockText_joinWith emptyLine (by simp) (by simpa using htexts))
    ((congrArg joinBlocks (keptTexts_page h hwrites)).trans hjoin)

/-- **A page that holds blocks is written as their texts**, one empty line between them, in the normal form. -/
theorem writePage_page (h : ∀ b ∈ block :: blocks, b.IsSound) (htexts : ∀ b ∈ block :: blocks, IsBlockText (shown b))
    (hwrites : ∀ b ∈ block :: blocks, ∀ earlier later,
      (writeNode dialect (bodyPlace (block.node :: restNodes blocks)) earlier later b.node).text
        = padded (shown b)) :
    writePage dialect (unlines ((block :: blocks).map TextBlock.html))
      = tidy (joinWith emptyLine ((block :: blocks).map shown)) := by
  have hblank : isBlankText (unlines ((block :: blocks).map TextBlock.html)) = false := by
    have hbracket : '<' ∈ unlines ((block :: blocks).map TextBlock.html) := by
      cases blocks <;> exact List.mem_cons_self
    exact List.all_eq_false.mpr ⟨'<', hbracket, by decide⟩
  rw [writePage, hblank, if_neg (by decide), parse_page block h, clean_page block h,
    writeDocument_page h htexts hwrites]

/-! ### The conversion -/

/-- What a page of a wiki is rendered under when it is converted. -/
def conversionContext (page : List Char) : Wiki.Context := ⟨page, true, false⟩

theorem exists_records (dialect : Dialect) (logger : String) (html : List Char) :
    ∃ records, Conversion.writePage dialect logger (some html) = .ok (writePage dialect html, records) := by
  simp only [Conversion.writePage]
  split
  next hblank => exact ⟨[], by rw [writePage, if_pos hblank]⟩
  next => exact ⟨_, rfl⟩

/-- Converting a wiki page is writing what it is rendered to. -/
theorem convert_wiki {source : Engine} (hsource : Rendering.choose source.dialect source.override = .ok .wiki)
    (page text : List Char) (target : Engine) :
    Conversion.convert page source target (some text)
      = .ok (writePage target.dialect (Wiki.renderPage (conversionContext page) text)) := by
  obtain ⟨records, hwrite⟩ := exists_records target.dialect Conversion.logger
    (Wiki.renderPage (conversionContext page) text)
  rw [conversionContext] at hwrite
  simp only [Conversion.convert, hsource, Conversion.render, Conversion.renderWiki, bind, Except.bind, hwrite, pure,
    Except.pure]
  rfl

/-- **A wiki page that is rendered as blocks is converted to their texts**, one empty line between them. -/
theorem convert_page {source target : Engine}
    (hsource : Rendering.choose source.dialect source.override = .ok .wiki)
    (htarget : target.dialect = .markdown)
    {page content : List Char}
    (hrender : Wiki.renderPage (conversionContext page) content
      = unlines ((block :: blocks).map TextBlock.html))
    (h : ∀ b ∈ block :: blocks, b.IsSound) (htexts : ∀ b ∈ block :: blocks, IsBlockText (shown b))
    (hwrites : ∀ b ∈ block :: blocks, ∀ earlier later,
      (writeNode .markdown (bodyPlace (block.node :: restNodes blocks)) earlier later b.node).text
        = padded (shown b)) :
    Conversion.convert page source target (some content)
      = .ok (tidy (joinWith emptyLine ((block :: blocks).map shown))) := by
  rw [convert_wiki hsource, hrender, htarget, writePage_page h htexts hwrites]

end WikiMigration.Writing

namespace WikiMigration.Conversion

/-- The engine of a dialect, with nothing else to it. -/
def plainEngine (dialect : Dialect) : Engine := ⟨dialect, ⟨false, []⟩, ⟨false, []⟩, ⟨false, []⟩, false, none⟩

end WikiMigration.Conversion
