/-
Preformatted text on its way from a wiki page to a Markdown page.

The lines between the two marks come through as one fenced block.  They are read as they are, written
as they are, and then meet the normal form of the page, which is made for prose and knows of no fences:
blanks at the end of a line go, and of neighbouring blank lines one is left.  Whatever has neither comes
through verbatim.
-/
import WikiMigration.Proofs.Writing.Blocks

namespace WikiMigration.Wiki

open Text

variable {lines : List (List Char)} {line : List Char}

/-! ### The page -/

/-- The page that holds the lines as preformatted text. -/
def preformattedPage (lines : List (List Char)) : List Char :=
  unlines (preformattedMark :: lines ++ [preformattedEnd])

/-- A line as a page gives it. -/
def lineRead (line : List Char) : List Char := line.filter (· != '\x00')

/-- Lines of text that stay inside the marks and have something in the first and the last of them. -/
structure ArePreformatted (lines : List (List Char)) : Prop where
  ne_nil : lines ≠ []
  whole : ∀ line ∈ lines, '\n' ∉ line ∧ '\r' ∉ line
  inside : ∀ line ∈ lines.map lineRead, hasInfix preformattedEnd line = false
  first : ∀ line ∈ (lines.map lineRead).head?, isBlankText line = false
  last : ∀ line ∈ (lines.map lineRead).getLast?, isBlankText line = false

theorem filter_unlines {p : Char → Bool} (hp : p '\n' = true) (lines : List (List Char)) :
    (unlines lines).filter p = unlines (lines.map (List.filter p)) := by
  induction lines with
  | nil => rfl
  | cons line rest ih =>
    by_cases hrest : rest = []
    · subst hrest
      rfl
    · rw [unlines_cons line hrest, List.map_cons, unlines_cons _ (by simpa using hrest), ← ih]
      simp [hp]

theorem whole_lineRead (h : ∀ line ∈ lines, '\n' ∉ line ∧ '\r' ∉ line) :
    ∀ line ∈ lines.map lineRead, '\n' ∉ line ∧ '\r' ∉ line := by
  intro line hline
  obtain ⟨raw, hraw, rfl⟩ := List.mem_map.mp hline
  exact ⟨fun hmem => (h raw hraw).1 (List.mem_of_mem_filter hmem),
    fun hmem => (h raw hraw).2 (List.mem_of_mem_filter hmem)⟩

/-- The lines of a page that is given by its lines. -/
theorem pageLines_unlines (hne : lines ≠ []) (h : ∀ line ∈ lines, '\n' ∉ line ∧ '\r' ∉ line) :
    pageLines (unlines lines) = lines.map lineRead := by
  have hread := whole_lineRead h
  have hreturn : '\r' ∉ unlines (lines.map lineRead) := by
    intro hmem
    obtain ⟨line, hline, hin⟩ := mem_unlines (by decide) hmem
    exact (hread line hline).2 hin
  rw [pageLines, filter_unlines (by decide)]
  show Text.lines (normalizeNewlines (unlines (lines.map lineRead))) = lines.map lineRead
  rw [normalizeNewlines_eq_self hreturn,
    lines_unlines (by simpa using hne) fun line hline => (hread line hline).1]

/-- Inside preformatted text every line is taken as it is, up to the end. -/
theorem fragmentsFrom_preformatted (read : List (List Char))
    (h : ∀ line ∈ lines, hasInfix preformattedEnd line = false) :
    fragmentsFrom { Pending.empty with preformatted := some read } (lines ++ [preformattedEnd])
      = [.preformatted (read ++ lines) true] := by
  induction lines generalizing read with
  | nil =>
    rw [List.append_nil]
    rfl
  | cons line rest ih =>
    have hcut : cut? preformattedEnd line = none := by
      simpa [hasInfix] using h line List.mem_cons_self
    have hstep : Pending.step { Pending.empty with preformatted := some read } line
        = ({ Pending.empty with preformatted := some (read ++ [line]) }, []) := by
      simp [Pending.step, Pending.stepPreformatted, hcut]
    rw [List.cons_append, fragmentsFrom, hstep]
    simpa using ih (read ++ [line]) fun l hl => h l (List.mem_cons_of_mem line hl)

/-- The page is one fragment of preformatted text. -/
theorem fragmentsOf_preformattedPage (h : ArePreformatted lines) :
    fragmentsOf (preformattedPage lines) = [.preformatted (lines.map lineRead) true] := by
  have hwhole : ∀ line ∈ preformattedMark :: lines ++ [preformattedEnd], '\n' ∉ line ∧ '\r' ∉ line := by
    intro line hline
    rcases List.mem_append.mp hline with hline | hline
    · rcases List.mem_cons.mp hline with rfl | hline
      · decide
      · exact h.whole line hline
    · obtain rfl := List.mem_singleton.mp hline
      decide
  rw [fragmentsOf, preformattedPage, pageLines_unlines (by simp) hwhole]
  have hopening : Pending.step .empty (lineRead preformattedMark)
      = ({ Pending.empty with preformatted := some [] }, []) := by decide
  have hend : lineRead preformattedEnd = preformattedEnd := by decide
  rw [List.cons_append, List.map_cons, List.map_append, fragmentsFrom, hopening, List.map_singleton, hend]
  exact fragmentsFrom_preformatted [] h.inside

theorem render_preformatted (context : Context) (lines : List (List Char)) (closed : Bool) :
    (Fragment.preformatted lines closed).render context = Html.TextBlock.html ⟨"pre", unlines lines⟩ := by
  have hopen : "<pre>".toList = Html.startTagText "pre" := by decide
  have hclose : "</pre>".toList = Html.endTagText "pre" := by decide
  exact congrArg₂ (fun front behind => front ++ Html.escape (unlines lines) ++ behind) hopen hclose

/-- The page is rendered as one block. -/
theorem renderPage_preformattedPage (context : Context) (h : ArePreformatted lines) :
    renderPage context (preformattedPage lines)
      = unlines ([⟨"pre", unlines (lines.map lineRead)⟩].map Html.TextBlock.html) := by
  rw [renderPage, fragmentsOf_preformattedPage h, List.map_singleton, render_preformatted, List.map_singleton]

end WikiMigration.Wiki

namespace WikiMigration.Conversion

open Text Html Wiki Writing

variable {lines : List (List Char)} {line : List Char}

/-! ### The block -/

/-- The mark that opens and closes preformatted text. -/
def fence : List Char := "```".toList

/-- The lines in the normal form of a page: without blanks at their ends, and of neighbouring blank ones
the first. -/
def tidied (lines : List (List Char)) : List (List Char) :=
  (lines.map trimRight).destutter NotBothBlank

/-- Whether the line closes preformatted text: blanks at its end aside, no more than three spaces, and then
the mark or a longer one. -/
def closesFence (line : List Char) : Bool :=
  let text := trimRight line
  let marks := text.dropWhile (· == ' ')
  text.length - marks.length ≤ 3 && 3 ≤ marks.length && marks.all (· == '`')

/-- The lines inside the preformatted text that starts a text, and those behind it. -/
def fenced? : List (List Char) → Option (List (List Char) × List (List Char))
  | [] => none
  | first :: rest =>
    let inside := rest.takeWhile fun line => !closesFence line
    match rest.drop inside.length with
    | [] => none
    | _ :: behind => if first == fence then some (inside, behind) else none

/-- The first line that is read, and what stands behind it. -/
theorem exists_first (h : ArePreformatted lines) :
    ∃ first rest, unlines (lines.map lineRead) = first ++ rest ∧ '\n' ∉ first ∧ isBlankText first = false := by
  have hne : lines.map lineRead ≠ [] := by simpa using h.ne_nil
  obtain ⟨first, others, heq⟩ := List.exists_cons_of_ne_nil hne
  have hfeed : '\n' ∉ first := (whole_lineRead h.whole first (heq ▸ List.mem_cons_self)).1
  have hblank := h.first first (by rw [heq]; rfl)
  by_cases hothers : others = []
  · exact ⟨first, [], by rw [heq, hothers, List.append_nil]; rfl, hfeed, hblank⟩
  · exact ⟨first, _, by rw [heq, unlines_cons first hothers], hfeed, hblank⟩

theorem isSound_preformatted (h : ArePreformatted lines) :
    TextBlock.IsSound ⟨"pre", unlines (lines.map lineRead)⟩ := by
  refine isSound_unlines (Or.inr rfl) ?_ fun line hline c hc => ?_
  · obtain ⟨first, others, heq⟩ := List.exists_cons_of_ne_nil (by simpa using h.ne_nil : lines.map lineRead ≠ [])
    exact ⟨first, heq ▸ List.mem_cons_self, h.first first (by rw [heq]; rfl)⟩
  · refine ⟨fun heq => (whole_lineRead h.whole line hline).2 (heq ▸ hc), ?_⟩
    obtain ⟨raw, -, rfl⟩ := List.mem_map.mp hline
    simpa using (List.mem_filter.mp hc).2

/-- The blanks that are taken off the end of preformatted text. -/
def isEdge (c : Char) : Bool := c == ' ' || c == '\n'

theorem isBlank_of_isEdge {c : Char} (h : isEdge c = true) : isBlank c = true := by
  simp only [isEdge, Bool.or_eq_true, beq_iff_eq] at h
  rcases h with rfl | rfl <;> decide

theorem withoutOuterLines_eq {text first rest : List Char} (htext : text = first ++ rest)
    (hfirst : '\n' ∉ first) (hblank : isBlankText first = false) :
    Markdown.withoutOuterLines text = trimRightWith isEdge text := by
  have hedge : '\n' ∉ text.takeWhile isEdge := by
    have hstops : (first.takeWhile isEdge).length ≠ first.length := by
      intro hlength
      have hall := List.takeWhile_eq_self_iff.mp ((List.takeWhile_prefix isEdge).eq_of_length hlength)
      obtain ⟨c, hc, hfilled⟩ := List.all_eq_false.mp hblank
      exact hfilled (isBlank_of_isEdge (hall c hc))
    rw [htext, List.takeWhile_append, if_neg hstops]
    exact fun hmem => hfirst ((List.takeWhile_sublist isEdge).subset hmem)
  show trimRightWith isEdge (if (text.takeWhile isEdge).contains '\n' then _ else text) = _
  rw [if_neg (by simpa using hedge)]

/-- What preformatted text is written as, inside its empty lines. -/
def fencedText (text : List Char) : List Char :=
  fence ++ '\n' :: (trimRightWith isEdge text ++ '\n' :: fence)

theorem isBlockText_fencedText (text : List Char) : IsBlockText (fencedText text) := by
  have hmark : Trimmed (· == '\n') fence := trimmed_of_all (by decide)
  have htext := hmark.around hmark (by decide) (by decide) ('\n' :: trimRightWith isEdge text ++ ['\n'])
  rw [fencedText]
  exact ⟨by simp [fence], by simpa using htext⟩

theorem writePreformatted_eq (h : ArePreformatted lines) :
    Markdown.writePreformatted (unlines (lines.map lineRead))
      = padded (fencedText (unlines (lines.map lineRead))) := by
  obtain ⟨first, rest, heq, hfeed, hblank⟩ := exists_first h
  have hempty : (unlines (lines.map lineRead)).isEmpty = false := by
    simpa using (isSound_preformatted h).text_ne_nil
  have hopen : "\n\n```\n".toList = emptyLine ++ fence ++ ['\n'] := by decide
  have hclose : "\n```\n\n".toList = '\n' :: fence ++ emptyLine := by decide
  rw [Markdown.writePreformatted, hempty, if_neg (by decide), withoutOuterLines_eq heq hfeed hblank]
  refine (congrArg₂ (fun front behind => front ++ trimRightWith isEdge _ ++ behind) hopen hclose).trans ?_
  simp [padded, fencedText]

theorem text_writeNode_preformatted (h : ArePreformatted lines) (place : Writing.Place)
    (earlier later : List Node) :
    (writeNode .markdown place earlier later (TextBlock.node ⟨"pre", unlines (lines.map lineRead)⟩)).text
      = padded (fencedText (unlines (lines.map lineRead))) := by
  have sound := isSound_preformatted h
  have hinner : writeText .markdown
      (place.inside ⟨"pre", [], [.text (unlines (lines.map lineRead))]⟩) none none
        (unlines (lines.map lineRead))
      = unlines (lines.map lineRead) := by
    have htrims : trimsAt "pre" none = false := by decide
    simp [writeText, Writing.Place.inside, Writing.Place.isCode, Writing.Place.parentName, htrims]
  obtain ⟨rows, hrows⟩ := exists_rows_writeNode sound sound.text_ne_nil hinner earlier later
  rw [hrows]
  exact (congrArg Markdown.writePreformatted (by simp [joinTexts])).trans (writePreformatted_eq h)

/-! ### The result -/

/-- What is taken off the end of the text is taken off the end of its last line. -/
theorem exists_lines_trimRightWith (h : ArePreformatted lines) :
    ∃ left, trimRightWith isEdge (unlines (lines.map lineRead)) = unlines left ∧ left ≠ [] ∧
      (∀ line ∈ left, '\n' ∉ line) ∧ left.map trimRight = (lines.map lineRead).map trimRight := by
  have hne : lines.map lineRead ≠ [] := by simpa using h.ne_nil
  obtain ⟨init, last, hsplit⟩ : ∃ init last, lines.map lineRead = init ++ [last] :=
    ⟨_, _, (List.dropLast_append_getLast hne).symm⟩
  have hfeed : ∀ line ∈ init ++ [last], '\n' ∉ line := fun line hline =>
    (whole_lineRead h.whole line (hsplit ▸ hline)).1
  have hfilled : ∃ c ∈ last, isEdge c = false := by
    obtain ⟨c, hc, hblank⟩ := List.all_eq_false.mp (h.last last (by rw [hsplit]; simp))
    exact ⟨c, hc, Bool.eq_false_iff.mpr fun hedge => hblank (isBlank_of_isEdge hedge)⟩
  refine ⟨init ++ [trimRightWith isEdge last], ?_, by simp, fun line hline => ?_, ?_⟩
  · rw [hsplit, unlines_concat, unlines_concat, trimRightWith_append hfilled]
  · rcases List.mem_append.mp hline with hline | hline
    · exact hfeed line (List.mem_append_left _ hline)
    · obtain rfl := List.mem_singleton.mp hline
      exact fun hin => hfeed last (by simp) (mem_of_mem_trimRightWith hin)
  · have hlast : trimRight (trimRightWith isEdge last) = trimRight last :=
      trimRightWith_trimRightWith (fun _ => isBlank_of_isEdge) last
    rw [hsplit, List.map_append, List.map_append, List.map_singleton, List.map_singleton, hlast]

/-- In the normal form of a page the fences stay where they are. -/
theorem tidy_fencedText (h : ArePreformatted lines) :
    tidy (fencedText (unlines (lines.map lineRead)))
      = unlines (fence :: tidied (lines.map lineRead) ++ [fence, []]) := by
  obtain ⟨left, htrim, hne, hfeed, hleft⟩ := exists_lines_trimRightWith h
  have htext : fencedText (unlines (lines.map lineRead)) = unlines (fence :: (left ++ [fence])) := by
    rw [fencedText, htrim, unlines_cons fence (by simp), unlines_append hne (by simp)]
    rfl
  have hwhole : ∀ line ∈ fence :: (left ++ [fence]), '\n' ∉ line := by
    intro line hline
    rcases List.mem_cons.mp hline with rfl | hline
    · decide
    rcases List.mem_append.mp hline with hline | hline
    · exact hfeed line hline
    · obtain rfl := List.mem_singleton.mp hline
      decide
  have hfence : trimRight fence = fence := by decide
  have hblank : isBlankLine fence = false := by decide
  have hkept : ((fence :: (left ++ [fence])).map trimRight).destutter NotBothBlank
      = fence :: (tidied (lines.map lineRead) ++ [fence]) := by
    rw [List.map_cons, List.map_append, List.map_singleton, hfence, destutter_cons hblank,
      destutter_concat hblank, hleft, tidied]
  have hends : IsBlockText (unlines (fence :: (tidied (lines.map lineRead) ++ [fence]))) := by
    have hmark : Trimmed (· == '\n') fence := trimmed_of_all (by decide)
    have hfenced := hmark.around hmark (by decide) (by decide)
      ('\n' :: (tidied (lines.map lineRead)).flatMap (· ++ ['\n']))
    rw [unlines_cons fence (by simp), unlines_concat]
    exact ⟨by simp [fence], by simpa using hfenced⟩
  have hkeep : trimNewlines (unlines (fence :: (tidied (lines.map lineRead) ++ [fence])))
      = unlines (fence :: (tidied (lines.map lineRead) ++ [fence])) := hends.trimmed.trimWith_eq_self
  have hline := @unlines_concat_nil (fence :: (tidied (lines.map lineRead) ++ [fence])) (by simp)
  rw [htext, tidy_unlines (by simp) hwhole, hkept, hkeep, if_neg (by simpa using hends.ne_nil), ← hline]
  simp

/-- Preformatted text is converted to one block, whose lines are the lines in the normal form of a page. -/
theorem convert_preformattedPage {source target : Engine}
    (hsource : Rendering.choose source.dialect source.override = .ok .wiki)
    (htarget : target.dialect = .markdown)
    (page : List Char) (h : ArePreformatted lines) :
    convert page source target (some (preformattedPage lines))
      = .ok (unlines (fence :: tidied (lines.map lineRead) ++ [fence, []])) := by
  have hconvert := @convert_page ⟨"pre", unlines (lines.map lineRead)⟩ [] (fun b => fencedText b.text)
    source target hsource htarget page _
    (renderPage_preformattedPage (conversionContext page) h) (by simpa using isSound_preformatted h)
    (by simpa using isBlockText_fencedText _)
    (by simpa using fun earlier later => text_writeNode_preformatted h _ earlier later)
  exact hconvert.trans (congrArg Except.ok (tidy_fencedText h))

theorem closesFence_trimRight (line : List Char) : closesFence (trimRight line) = closesFence line := by
  have htwice : trimRight (trimRight line) = trimRight line := trimRightWith_trimRightWith (fun _ h => h) line
  rw [closesFence, htwice, closesFence]

theorem mem_tidied {lines : List (List Char)} (h : line ∈ tidied lines) :
    ∃ raw ∈ lines, trimRight raw = line :=
  List.mem_map.mp ((List.destutter_sublist NotBothBlank _).subset h)

/-- Between its fences the block is read up to the end, if no line looks like a fence. -/
theorem fenced?_lines (hfeed : ∀ line ∈ lines, '\n' ∉ line)
    (hopen : ∀ line ∈ lines, closesFence line = false) :
    fenced? (Text.lines (unlines (fence :: lines ++ [fence, []]))) = some (lines, [[]]) := by
  have hwhole : ∀ line ∈ fence :: lines ++ [fence, []], '\n' ∉ line := by
    intro line hline
    simp only [List.mem_append, List.mem_cons, List.not_mem_nil, or_false] at hline
    rcases hline with (rfl | hline) | rfl | rfl
    · decide
    · exact hfeed line hline
    · decide
    · decide
  have hinside : (lines ++ [fence, []]).takeWhile (fun line => !closesFence line) = lines := by
    rw [List.takeWhile_append_of_pos fun line hline => by rw [hopen line hline]; rfl,
      List.takeWhile_cons_of_neg (by decide), List.append_nil]
  rw [lines_unlines (by simp) hwhole, List.cons_append, fenced?, hinside, List.drop_left]
  simp

/-- **Preformatted text survives conversion.**  The page becomes one fenced block with nothing behind it.
What is between the fences are the lines in order, without blanks at their ends and with one blank line in
the place of several; lines that have neither are kept as they are. -/
theorem preformatted_text_survives {source target : Engine}
    (hsource : Rendering.choose source.dialect source.override = .ok .wiki)
    (htarget : target.dialect = .markdown)
    (page : List Char) (h : ArePreformatted lines)
    (hopen : ∀ line ∈ lines.map lineRead, closesFence line = false) :
    ∃ text kept, convert page source target (some (preformattedPage lines)) = .ok text ∧
      fenced? (Text.lines text) = some (kept, [[]]) ∧
      kept = ((lines.map lineRead).map trimRight).destutter NotBothBlank ∧
      ((∀ line ∈ lines.map lineRead, trimRight line = line) → (lines.map lineRead).IsChain NotBothBlank →
        kept = lines.map lineRead) := by
  refine ⟨_, tidied (lines.map lineRead), convert_preformattedPage hsource htarget page h, ?_, rfl, ?_⟩
  · refine fenced?_lines (fun line hline => ?_) fun line hline => ?_
    · obtain ⟨read, hread, rfl⟩ := mem_tidied hline
      exact fun hin => (whole_lineRead h.whole read hread).1 (mem_of_mem_trimRight hin)
    · obtain ⟨read, hread, rfl⟩ := mem_tidied hline
      rw [closesFence_trimRight, hopen read hread]
  · intro htrimmed hchain
    rw [tidied, List.map_congr_left htrimmed, List.map_id', List.destutter_of_isChain _ _ hchain]

/-- Two pieces of a program with an empty line between them. -/
def programLines : List (List Char) :=
  ["if x < 1:".toList, "    y = [\x7b\x7d]".toList, [], "# \x00 ~end".toList]

theorem programLines_survive :
    ArePreformatted programLines ∧ (∀ line ∈ programLines.map lineRead, closesFence line = false) ∧
      ∃ text kept, convert [] (plainEngine .jspwiki) (plainEngine .markdown) (some (preformattedPage programLines))
          = .ok text ∧
        fenced? (Text.lines text) = some (kept, [[]]) ∧
        kept = ((programLines.map lineRead).map trimRight).destutter NotBothBlank ∧
        ((∀ line ∈ programLines.map lineRead, trimRight line = line) →
          (programLines.map lineRead).IsChain NotBothBlank → kept = programLines.map lineRead) := by
  have held : ArePreformatted programLines := by constructor <;> decide
  have hopen : ∀ line ∈ programLines.map lineRead, closesFence line = false := by decide
  exact ⟨held, hopen, preformatted_text_survives rfl rfl [] held hopen⟩

/-- Lines with blanks at an end and two empty lines in a row. -/
def raggedLines : List (List Char) := ["a  ".toList, [], [], "b".toList]

/-- The normal form of the page reaches into preformatted text. -/
theorem ragged_lines_are_tidied :
    ArePreformatted raggedLines ∧ (∀ line ∈ raggedLines, closesFence line = false) ∧
      ∃ text, convert [] (plainEngine .jspwiki) (plainEngine .markdown) (some (preformattedPage raggedLines))
          = .ok text ∧
        fenced? (Text.lines text) = some (["a".toList, [], "b".toList], [[]]) ∧
        ∀ behind, fenced? (Text.lines text) ≠ some (raggedLines, behind) := by
  have held : ArePreformatted raggedLines := by constructor <;> decide
  have hread : fenced? (Text.lines "```\na\n\nb\n```\n".toList) = some (["a".toList, [], "b".toList], [[]]) := by
    decide
  refine ⟨held, by decide, "```\na\n\nb\n```\n".toList, by decide +kernel, hread, fun behind => ?_⟩
  rw [hread]
  exact fun heq => absurd (Prod.mk.inj (Option.some.inj heq)).1 (by decide)

end WikiMigration.Conversion
