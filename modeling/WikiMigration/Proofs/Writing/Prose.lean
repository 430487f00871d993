/-
Plain prose on its way from a wiki page to a Markdown page.

Every pass leaves prose alone but for its blanks: those within a line become single spaces, those at its
ends go, and any number of blank lines between two paragraphs becomes one.  So the page has the words of
the text in their order, on the lines and in the paragraphs they stood in.
-/
import WikiMigration.Proofs.Html.Words
import WikiMigration.Proofs.Wiki.Prose
import WikiMigration.Proofs.Writing.Blocks

namespace WikiMigration.Conversion

open Text Html Wiki Writing

variable {c : Char} {text line : List Char} {lines : List (List Char)}

/-! ### Blanks -/

/-- The line with its words, one space between two of them. -/
def squeezed (line : List Char) : List Char := unwords (words line)

/-- Nothing, or the space behind the last word of a line, is to be written. -/
def IsSoft (pending : Option Bool) : Prop := pending = none ∨ pending = some false

/-- The spaces are the only blanks of the line. -/
def HasSpacesOnly (line : List Char) : Prop := ∀ c ∈ line, isBlank c = true → c = ' '

theorem collapseRunsFrom_space (pending : Option Bool) (rest : List Char) :
    collapseRunsFrom pending (' ' :: rest) = collapseRunsFrom (some (pending.getD false)) rest := by
  have hpending : (pending.getD false || ' ' == '\n' || ' ' == '\r') = pending.getD false := by
    simp
  rw [collapseRunsFrom, if_pos (by decide), hpending]

theorem collapseRunsFrom_solid (hc : isBlank c = false) (pending : Option Bool) (rest : List Char) :
    collapseRunsFrom pending (c :: rest)
      = (pending.map runBlank).toList ++ c :: collapseRunsFrom none rest := by
  rw [collapseRunsFrom, if_neg fun hrun => Bool.false_ne_true (hc.symm.trans (isBlank_of_isRunBlank hrun))]

/-- Spaces only are merged with the blank before them. -/
theorem collapseRunsFrom_spaces (h : HasSpacesOnly line) (hblank : isBlankText line = true)
    (broken : Bool) (tail : List Char) :
    collapseRunsFrom (some broken) (line ++ tail) = collapseRunsFrom (some broken) tail := by
  induction line with
  | nil => rfl
  | cons c rest ih =>
    have hall : isBlank c = true ∧ isBlankText rest = true := by simpa [isBlankText] using hblank
    obtain rfl := h c List.mem_cons_self hall.1
    rw [List.cons_append, collapseRunsFrom_space]
    exact ih (fun d hd => h d (List.mem_cons_of_mem _ hd)) hall.2

/-- The line is written with its words, one space between two of them. -/
structure Collapses (line : List Char) : Prop where
  /-- The start of the first word has been read. -/
  inside : ∀ read, read ≠ [] → ∃ pending, IsSoft pending ∧ ∀ tail,
    read.reverse ++ collapseRunsFrom none (line ++ tail)
      = unwords (wordsFrom read line) ++ collapseRunsFrom pending tail
  /-- A blank has been read. -/
  behind : isBlankText line = false → ∀ broken, ∃ pending, IsSoft pending ∧ ∀ tail,
    collapseRunsFrom (some broken) (line ++ tail)
      = runBlank broken :: squeezed line ++ collapseRunsFrom pending tail

theorem collapses_nil : Collapses [] where
  inside read hread := by
    refine ⟨none, Or.inl rfl, fun tail => ?_⟩
    rw [wordsFrom, if_neg (by simpa using hread)]
    rfl
  behind := nofun

theorem Collapses.space (h : Collapses line) (hspaces : HasSpacesOnly line) : Collapses (' ' :: line) where
  inside read hread := by
    have hwords : wordsFrom read (' ' :: line) = read.reverse :: words line := by
      rw [wordsFrom_blank read (by decide), wordsFrom, if_neg (by simpa using hread)]
      rfl
    by_cases hblank : isBlankText line = true
    · refine ⟨some false, Or.inr rfl, fun tail => ?_⟩
      rw [hwords, words_of_blank hblank, List.cons_append, collapseRunsFrom_space]
      exact congrArg (read.reverse ++ ·) (collapseRunsFrom_spaces hspaces hblank false tail)
    · obtain ⟨pending, hsoft, htail⟩ := h.behind (by simpa using hblank) false
      have hne : words line ≠ [] := words_ne_nil (by simpa using hblank)
      refine ⟨pending, hsoft, fun tail => ?_⟩
      rw [hwords, unwords, joinWith_cons _ _ hne, List.cons_append, collapseRunsFrom_space]
      refine (congrArg (read.reverse ++ ·) (htail tail)).trans ?_
      simp [squeezed, unwords, runBlank]
  behind hfilled broken := by
    have hspace : isBlankText (' ' :: line) = isBlankText line := rfl
    obtain ⟨pending, hsoft, htail⟩ := h.behind (hspace ▸ hfilled) broken
    refine ⟨pending, hsoft, fun tail => ?_⟩
    rw [List.cons_append, collapseRunsFrom_space]
    exact htail tail

theorem Collapses.solid (h : Collapses line) (hc : isBlank c = false) : Collapses (c :: line) where
  inside read hread := by
    obtain ⟨pending, hsoft, htail⟩ := h.inside (c :: read) (by simp)
    refine ⟨pending, hsoft, fun tail => ?_⟩
    have hwords : wordsFrom read (c :: line) = wordsFrom (c :: read) line := by
      rw [wordsFrom, if_neg (by simp [hc])]
    rw [hwords, ← htail tail, List.cons_append, collapseRunsFrom_solid hc]
    simp
  behind _ broken := by
    obtain ⟨pending, hsoft, htail⟩ := h.inside [c] (by simp)
    refine ⟨pending, hsoft, fun tail => ?_⟩
    have hwords : words (c :: line) = wordsFrom [c] line := by
      rw [words, wordsFrom, if_neg (by simp [hc])]
    rw [squeezed, hwords, List.cons_append, List.cons_append, ← htail tail, collapseRunsFrom_solid hc]
    rfl

theorem collapses_line (h : HasSpacesOnly line) : Collapses line := by
  induction line with
  | nil => exact collapses_nil
  | cons c rest ih =>
    have hspaces : HasSpacesOnly rest := fun d hd => h d (List.mem_cons_of_mem c hd)
    by_cases hc : isBlank c = true
    · obtain rfl := h c List.mem_cons_self hc
      exact (ih hspaces).space hspaces
    · exact (ih hspaces).solid (by simpa using hc)

theorem collapseRunsFrom_feed {pending : Option Bool} (h : IsSoft pending) (rest : List Char) :
    collapseRunsFrom pending ('\n' :: rest) = collapseRunsFrom (some true) rest := by
  rcases h with rfl | rfl <;> rfl

/-- The lines of a paragraph are written with their words, and perhaps a space behind the last one. -/
theorem collapseRunsFrom_unlines (hne : lines ≠ []) (h : ∀ line ∈ lines, HasSpacesOnly line)
    (hfilled : ∀ line ∈ lines, isBlankText line = false) (broken : Bool) :
    ∃ pending, IsSoft pending ∧ collapseRunsFrom (some broken) (unlines lines)
      = runBlank broken :: unlines (lines.map squeezed) ++ collapseRunsFrom pending [] := by
  induction lines generalizing broken with
  | nil => exact absurd rfl hne
  | cons line rest ih =>
    obtain ⟨pending, hsoft, htail⟩ := (collapses_line (h line List.mem_cons_self)).behind
      (hfilled line List.mem_cons_self) broken
    by_cases hrest : rest = []
    · subst hrest
      refine ⟨pending, hsoft, ?_⟩
      have hline := htail []
      rwa [List.append_nil] at hline
    · obtain ⟨last, hlast, hrest'⟩ := ih hrest (fun l hl => h l (List.mem_cons_of_mem line hl))
        (fun l hl => hfilled l (List.mem_cons_of_mem line hl)) true
      refine ⟨last, hlast, ?_⟩
      rw [unlines_cons line hrest, htail, collapseRunsFrom_feed hsoft, hrest', List.map_cons,
        unlines_cons _ (by simpa using hrest)]
      simp [runBlank]

theorem squeezed_filled (h : isBlankText line = false) :
    squeezed line ≠ [] ∧ Trimmed isBlank (squeezed line) :=
  trimmed_unwords (words_ne_nil h) fun _ hword => isWord_of_mem_words hword

/-- Lines as they are written, one under the other. -/
theorem trimmed_squeezed (hne : lines ≠ []) (hfilled : ∀ line ∈ lines, isBlankText line = false) :
    unlines (lines.map squeezed) ≠ [] ∧ Trimmed isBlank (unlines (lines.map squeezed)) :=
  trimmed_joinWith ['\n'] (by simpa using hne)
    (by simpa using fun line hline => squeezed_filled (hfilled line hline))

/-- Whether a blank stands before a text makes no difference behind the blanks at its front. -/
theorem trimLeftWith_collapseRuns (text : List Char) :
    trimLeftWith isRunBlank (collapseRuns text)
      = trimLeftWith isRunBlank (collapseRunsFrom (some false) text) := by
  cases text with
  | nil => rfl
  | cons c rest =>
    by_cases hc : isRunBlank c = true
    · rw [collapseRuns, collapseRunsFrom, if_pos hc, collapseRunsFrom, if_pos hc]
      rfl
    · rw [collapseRuns, collapseRunsFrom, if_neg hc, collapseRunsFrom, if_neg hc]
      rfl

/-- What the text of a paragraph is written as. -/
theorem trim_collapseRuns (hne : lines ≠ []) (h : ∀ line ∈ lines, HasSpacesOnly line)
    (hfilled : ∀ line ∈ lines, isBlankText line = false) :
    trimRight (trimLeftWith isRunBlank (collapseRuns (unlines lines))) = unlines (lines.map squeezed) := by
  obtain ⟨pending, hsoft, hcollapsed⟩ := collapseRunsFrom_unlines hne h hfilled false
  obtain ⟨hsome, htrimmed⟩ := trimmed_squeezed hne hfilled
  have hright : trimRight (unlines (lines.map squeezed)) = unlines (lines.map squeezed) :=
    trimRightWith_eq_self htrimmed.last
  have hleft : trimLeftWith isRunBlank
      (runBlank false :: unlines (lines.map squeezed) ++ collapseRunsFrom pending [])
      = unlines (lines.map squeezed) ++ collapseRunsFrom pending [] := by
    refine (List.dropWhile_cons_of_pos (by decide)).trans (trimLeftWith_eq_self fun c hc => ?_)
    have hhead : c ∈ (unlines (lines.map squeezed)).head? := by
      rw [← List.head?_append_of_ne_nil _ hsome]
      exact hc
    exact (htrimmed.mono fun _ => isBlank_of_isRunBlank).head c hhead
  rw [trimLeftWith_collapseRuns, hcollapsed, hleft]
  rcases hsoft with rfl | rfl
  · exact (congrArg trimRight (List.append_nil _)).trans hright
  · have hspace : trimRight (unlines (lines.map squeezed) ++ [' '])
        = trimRight (unlines (lines.map squeezed)) := by
      rw [trimRight, trimRightWith, List.reverse_append]
      rfl
    exact hspace.trans hright

theorem mem_collapseRunsFrom {pending : Option Bool} (h : c ∈ collapseRunsFrom pending text) :
    c = ' ' ∨ c = '\n' ∨ c ∈ text := by
  have hpending : ∀ {pending : Option Bool}, c ∈ (pending.map runBlank).toList → c = ' ' ∨ c = '\n' := by
    rintro (_ | _ | _) hc
    · cases hc
    · exact Or.inl (List.mem_singleton.mp hc)
    · exact Or.inr (List.mem_singleton.mp hc)
  induction text generalizing pending with
  | nil => exact (hpending h).imp_right Or.inl
  | cons d rest ih =>
    have hrest : ∀ {pending}, c ∈ collapseRunsFrom pending rest → c = ' ' ∨ c = '\n' ∨ c ∈ d :: rest :=
      fun hc => (ih hc).imp_right fun hc => hc.imp_right (List.mem_cons_of_mem d)
    rw [collapseRunsFrom] at h
    split at h
    · exact hrest h
    · rcases List.mem_append.mp h with h | h
      · exact (hpending h).imp_right Or.inl
      · rcases List.mem_cons.mp h with rfl | h
        · exact Or.inr (Or.inr List.mem_cons_self)
        · exact hrest h

/-! ### Escaping -/

theorem escapeUnderscoresFrom_eq_self (h : '_' ∉ text) (inside : Bool) :
    escapeUnderscoresFrom inside text = text := by
  induction text generalizing inside with
  | nil => rfl
  | cons c rest ih =>
    have hc : (c == '_') = false := beq_false_of_ne fun heq => h (heq ▸ List.mem_cons_self)
    rw [escapeUnderscoresFrom, hc, Bool.false_and, if_neg (by decide),
      ih fun hmem => h (List.mem_cons_of_mem c hmem)]

/-- Without asterisks and low lines nothing is escaped. -/
theorem escapeMarkdown_eq_self (hstar : '*' ∉ text) (hlow : '_' ∉ text) : escapeMarkdown text = text := by
  have hasterisks : escapeAsterisks text = text := by
    have hplain : ∀ c ∈ text, (if c == '*' then ['\\', '*'] else [c]) = [c] := fun c hc =>
      if_neg (by simpa using fun heq : c = '*' => hstar (heq ▸ hc))
    rw [escapeAsterisks, List.flatMap_congr hplain]
    exact List.flatMap_singleton' text
  rw [escapeMarkdown, hasterisks, escapeUnderscoresFrom_eq_self hlow]

/-- A line that starts with prose, but not with a digit, has no marker at its front. -/
theorem escapeMarkdownLine_eq_self
    (h : ∀ c ∈ line.head?, isProseChar c = true ∧ c ≠ ' ' ∧ isDigit c = false) :
    escapeMarkdownLine line = line := by
  cases line with
  | nil => rfl
  | cons c rest =>
    obtain ⟨hc, hspace, hdigit⟩ := h c rfl
    have htab : (c == '\t') = false := ne_of_isProseChar hc (by decide)
    have hindent : (c :: rest).takeWhile isIndent = [] :=
      List.takeWhile_cons_of_neg (by simp [isIndent, hspace, ne_of_beq_false htab])
    have hdecimal : (c :: rest).takeWhile isDecimal = [] :=
      List.takeWhile_cons_of_neg (by rw [isDecimal_of_isProseChar hc, hdigit]; decide)
    have hsign : ∀ d ∈ ['-', '=', '+', '>', '#'], (c == d) = false := fun d hd =>
      ne_of_isProseChar hc (by simpa using List.all_eq_true.mp (by decide : ['-', '=', '+', '>', '#'].all
        fun d => !isProseChar d) d hd)
    have hmarker : markerLength? (c :: rest) = none := by
      rw [markerLength?, hsign '-' (by simp), hsign '=' (by simp), hsign '+' (by simp), hsign '>' (by simp),
        hsign '#' (by simp)]
      simp [hdecimal]
    simp only [escapeMarkdownLine, hindent, List.length_nil, List.drop_zero, hmarker]

/-! ### A paragraph -/

/-- Lines of prose, none of them blank, and none with a digit behind its spaces. -/
structure IsParagraph (lines : List (List Char)) : Prop where
  ne_nil : lines ≠ []
  prose : ∀ line ∈ lines, IsProseLine line
  filled : ∀ line ∈ lines, isBlankText line = false
  openings : ∀ line ∈ lines, ∀ c ∈ (line.dropWhile (· == ' ')).head?, isDigit c = false

theorem isBlank_eq_of_isProseChar (h : isProseChar c = true) : isBlank c = (c == ' ') := by
  by_cases hc : c = ' '
  · subst hc
    decide
  · rw [isBlank_of_isProseChar h hc, beq_false_of_ne hc]

theorem hasSpacesOnly_of_prose (h : IsProseLine line) : HasSpacesOnly line := fun c hc hblank => by
  rw [isBlank_eq_of_isProseChar (h c hc)] at hblank
  exact beq_iff_eq.mp hblank

theorem prose_squeezed (h : IsProseLine line) : IsProseLine (squeezed line) := fun c hc => by
  rcases mem_of_mem_unwords hc with rfl | hin
  · decide
  · exact h c hin

theorem dropWhile_of_prose (h : IsProseLine line) : line.dropWhile isBlank = line.dropWhile (· == ' ') := by
  induction line with
  | nil => rfl
  | cons c rest ih =>
    rw [List.dropWhile_cons, List.dropWhile_cons, isBlank_eq_of_isProseChar (h c List.mem_cons_self),
      ih fun d hd => h d (List.mem_cons_of_mem c hd)]

/-- A paragraph of the rendered page. -/
def proseBlock (lines : List (List Char)) : TextBlock := ⟨"p", unlines lines⟩

/-- What a paragraph of the rendered page is written as. -/
def proseText (block : TextBlock) : List Char := unlines ((Text.lines block.text).map squeezed)

namespace IsParagraph

theorem proseText_eq (h : IsParagraph lines) :
    proseText (proseBlock lines) = unlines (lines.map squeezed) := by
  rw [proseText, proseBlock,
    lines_unlines h.ne_nil fun line hline => (h.prose line hline).not_mem (by decide)]

/-- A line is written from the first character that is no space. -/
theorem head_squeezed (h : IsParagraph lines) (hline : line ∈ lines) :
    ∀ c ∈ (squeezed line).head?, isProseChar c = true ∧ c ≠ ' ' ∧ isDigit c = false := by
  intro c hc
  obtain ⟨first, more, rest, hfirst, hwords⟩ := exists_words (h.filled line hline)
  have hhead : (squeezed line).head? = some first := by
    rw [squeezed, hwords]
    cases rest <;> rfl
  obtain rfl : first = c := Option.some.inj (hhead.symm.trans hc)
  have hprose := prose_squeezed (h.prose line hline) first (List.mem_of_head? hc)
  rw [dropWhile_of_prose (h.prose line hline)] at hfirst
  have hsolid := List.head?_dropWhile_not (· == ' ') line
  rw [hfirst] at hsolid
  exact ⟨hprose, by simpa using hsolid, h.openings line hline first hfirst⟩

theorem trimmed (h : IsParagraph lines) :
    unlines (lines.map squeezed) ≠ [] ∧ Trimmed isBlank (unlines (lines.map squeezed)) :=
  trimmed_squeezed h.ne_nil h.filled

theorem isBlockText (h : IsParagraph lines) : IsBlockText (unlines (lines.map squeezed)) :=
  ⟨h.trimmed.1, h.trimmed.2.mono fun c hc => by rw [beq_iff_eq.mp hc]; decide⟩

theorem isKeptLine (h : IsParagraph lines) : ∀ line ∈ lines.map squeezed, IsKeptLine line := by
  intro line hline
  obtain ⟨raw, hraw, rfl⟩ := List.mem_map.mp hline
  obtain ⟨hne, htrimmed⟩ := squeezed_filled (h.filled raw hraw)
  have hprose := prose_squeezed (h.prose raw hraw)
  exact ⟨hne, htrimmed, fun heq => hprose.not_mem (by decide) (heq ▸ List.mem_singleton_self '>'),
    hprose.not_mem (by decide)⟩

theorem escapeLineStarts_eq (h : IsParagraph lines) :
    escapeLineStarts .markdown (unlines (lines.map squeezed)) = unlines (lines.map squeezed) := by
  have hlines : (lines.map squeezed).map escapeMarkdownLine = lines.map squeezed := by
    rw [List.map_map]
    exact List.map_congr_left fun line hline => escapeMarkdownLine_eq_self (h.head_squeezed hline)
  rw [escapeLineStarts, lines_unlines (by simpa using h.ne_nil) fun line hline =>
    (h.isKeptLine line hline).whole, hlines]

/-- The text inside the paragraph's element. -/
theorem writeText_eq (h : IsParagraph lines) {place : Writing.Place}
    (hpreformatted : place.preformatted = false) (hverbatim : place.verbatim = false)
    (hparent : place.parentName = "p") :
    writeText .markdown place none none (unlines lines) = unlines (lines.map squeezed) := by
  have hno : ∀ {sign : Char}, isProseChar sign = false → sign ≠ '\n' →
      sign ∉ collapseRuns (unlines lines) := by
    intro sign hsign hfeed hmem
    rcases mem_collapseRunsFrom hmem with rfl | heq | hmem
    · cases hsign
    · exact hfeed heq
    · obtain ⟨line, hline, hin⟩ := mem_unlines hfeed hmem
      exact (h.prose line hline).not_mem hsign hin
  have hescape : escape .markdown (collapseRuns (unlines lines)) = collapseRuns (unlines lines) :=
    escapeMarkdown_eq_self (hno (by decide) (by decide)) (hno (by decide) (by decide))
  have htrims : trimsAt "p" none = true := by decide
  rw [writeText, hpreformatted, hverbatim, hparent, htrims]
  simp only [Bool.false_eq_true, if_false, if_true, hescape]
  exact trim_collapseRuns h.ne_nil (fun line hline => hasSpacesOnly_of_prose (h.prose line hline)) h.filled

theorem isSound (h : IsParagraph lines) : (proseBlock lines).IsSound := by
  refine isSound_unlines (Or.inl rfl) ?_ fun line hline c hc => ?_
  · obtain ⟨line, rest, rfl⟩ := List.exists_cons_of_ne_nil h.ne_nil
    exact ⟨line, List.mem_cons_self, h.filled line List.mem_cons_self⟩
  · have hprose := h.prose line hline c hc
    exact ⟨ne_of_beq_false (ne_of_isProseChar hprose (by decide)),
      ne_of_beq_false (ne_of_isProseChar hprose (by decide))⟩

/-- The paragraph is written with its lines squeezed. -/
theorem text_writeNode (h : IsParagraph lines) (nodes earlier later : List Node) :
    (writeNode .markdown (bodyPlace nodes) earlier later (proseBlock lines).node).text
      = padded (unlines (lines.map squeezed)) := by
  have hinner := @writeText_eq lines h ((bodyPlace nodes).inside ⟨"p", [], [.text (unlines lines)]⟩)
    rfl rfl rfl
  have hjoined := joinBlocks_text "p" h.isBlockText h.isSound.isBlankText hinner
  exact text_writeNode_paragraph hjoined h.escapeLineStarts_eq h.trimmed.1 h.trimmed.2 earlier later

end IsParagraph

/-! ### A page -/

theorem isParagraph_of_mem (h : IsProse text) (hlines : lines ∈ paragraphsOf text) : IsParagraph lines where
  ne_nil := (mem_paragraphsOf hlines).1
  prose line hline := h.isProseLine ((mem_paragraphsOf hlines).2 line hline).1
  filled line hline := ((mem_paragraphsOf hlines).2 line hline).2
  openings line hline := h.openings line ((mem_paragraphsOf hlines).2 line hline).1

section Paragraphs

variable {paragraphs : List (List (List Char))}

/-- The lines of the page that paragraphs are written to. -/
def pageOf (paragraphs : List (List (List Char))) : List (List Char) :=
  [[]].intercalate (paragraphs.map (List.map squeezed))

theorem flatMap_words_pageOf (paragraphs : List (List (List Char))) :
    (pageOf paragraphs).flatMap words = paragraphs.flatten.flatMap words := by
  have hwords : ∀ lines : List (List Char), (lines.map squeezed).flatMap words = lines.flatMap words := by
    intro lines
    rw [List.flatMap_map]
    exact List.flatMap_congr fun line _ => words_unwords_words line
  induction paragraphs with
  | nil => rfl
  | cons first rest ih =>
    cases rest with
    | nil => simp [pageOf, hwords]
    | cons next others =>
      rw [pageOf, List.map_cons, List.map_cons, List.intercalate_cons_cons, List.flatten_cons,
        List.flatMap_append, List.flatMap_append, List.flatMap_append, hwords, ← ih]
      simp [pageOf, words, wordsFrom]

theorem isKeptLine_of_mem (h : ∀ lines ∈ paragraphs, IsParagraph lines) :
    ∀ block ∈ paragraphs.map (List.map squeezed), ∀ line ∈ block, IsKeptLine line := by
  intro block hblock
  obtain ⟨lines, hlines, rfl⟩ := List.mem_map.mp hblock
  exact (h lines hlines).isKeptLine

/-- Paragraphs are in the normal form of a page, but for the line feed at its end. -/
theorem tidy_pageOf (hne : paragraphs ≠ []) (h : ∀ lines ∈ paragraphs, IsParagraph lines) :
    tidy (joinWith emptyLine (paragraphs.map fun lines => unlines (lines.map squeezed)))
      = unlines (pageOf paragraphs ++ [[]]) := by
  have htidy := @tidy_blocks (paragraphs.map (List.map squeezed)) (by simpa using hne)
    (by simpa using fun lines hlines => (h lines hlines).ne_nil) (isKeptLine_of_mem h)
  rwa [List.map_map] at htidy

end Paragraphs

/-- Blank lines have no words. -/
theorem flatMap_words_filter (lines : List (List Char)) :
    (lines.filter fun line => !isBlankText line).flatMap words = lines.flatMap words := by
  induction lines with
  | nil => rfl
  | cons line rest ih =>
    by_cases hblank : isBlankText line = true
    · rw [List.filter_cons_of_neg (by simp [hblank]), List.flatMap_cons, words_of_blank hblank, ih,
        List.nil_append]
    · rw [List.filter_cons_of_pos (by simpa using hblank), List.flatMap_cons, List.flatMap_cons, ih]

/-- Prose is converted to its paragraphs, one empty line between two of them and a line feed behind the
last. -/
theorem convert_prose {source target : Engine}
    (hsource : Rendering.choose source.dialect source.override = .ok .wiki)
    (htarget : target.dialect = .markdown)
    (page : List Char) (h : IsProse text) :
    convert page source target (some text) = .ok (unlines (pageOf (paragraphsOf text) ++ [[]])) := by
  have hrender := renderPage_prose (conversionContext page) h
  have hparagraphs : ∀ lines ∈ paragraphsOf text, IsParagraph lines := fun _ => isParagraph_of_mem h
  generalize paragraphsOf text = paragraphs at hrender hparagraphs
  cases paragraphs with
  | nil =>
    rw [convert_wiki hsource, hrender, htarget]
    rfl
  | cons first rest =>
    have hblocks : ∀ block ∈ proseBlock first :: rest.map proseBlock,
        ∃ lines, IsParagraph lines ∧ proseBlock lines = block := fun block hblock => by
      obtain ⟨lines, hlines, heq⟩ := List.mem_map.mp (List.map_cons.symm ▸ hblock)
      exact ⟨lines, hparagraphs lines hlines, heq⟩
    have hconvert := @convert_page (proseBlock first) (rest.map proseBlock) proseText source target hsource
      htarget page text
      (by rw [hrender, List.map_cons, List.map_cons, List.map_map]; rfl)
      (fun block hblock => by
        obtain ⟨lines, hparagraph, rfl⟩ := hblocks block hblock
        exact hparagraph.isSound)
      (fun block hblock => by
        obtain ⟨lines, hparagraph, rfl⟩ := hblocks block hblock
        exact hparagraph.proseText_eq ▸ hparagraph.isBlockText)
      (fun block hblock earlier later => by
        obtain ⟨lines, hparagraph, rfl⟩ := hblocks block hblock
        exact hparagraph.proseText_eq ▸ hparagraph.text_writeNode _ earlier later)
    have htexts : (proseBlock first :: rest.map proseBlock).map proseText
        = (first :: rest).map fun lines => unlines (lines.map squeezed) := by
      rw [← List.map_cons, List.map_map]
      exact List.map_congr_left fun lines hlines => (hparagraphs lines hlines).proseText_eq
    rw [hconvert, htexts, tidy_pageOf (List.cons_ne_nil first rest) hparagraphs]

/-- **Prose round-trips.**  The page has the words of the text in their order.  Its paragraphs are those of
the text, on the lines they stood on, with single spaces between their words and one empty line between two
of them. -/
theorem prose_round_trips {source target : Engine}
    (hsource : Rendering.choose source.dialect source.override = .ok .wiki)
    (htarget : target.dialect = .markdown)
    (page : List Char) (h : IsProse text) :
    ∃ written, convert page source target (some text) = .ok written ∧
      words written = words text ∧
      Text.lines written
        = [[]].intercalate ((paragraphsOf text).map (List.map fun line => unwords (words line))) ++ [[]] := by
  refine ⟨_, convert_prose hsource htarget page h, ?_, lines_unlines (by simp) fun line hline => ?_⟩
  · rw [words_unlines, List.flatMap_append, flatMap_words_pageOf, flatten_paragraphsOf, flatMap_words_filter,
      ← words_unlines, unlines_lines]
    exact List.append_nil _
  · rcases List.mem_append.mp hline with hline | hline
    · exact not_mem_intercalate (isKeptLine_of_mem fun _ => isParagraph_of_mem h) line hline
    · obtain rfl := List.mem_singleton.mp hline
      exact List.not_mem_nil

example : convert [] (plainEngine .jspwiki) (plainEngine .markdown)
    (some "  Hello,  there. \n What, 5?\n\n   \n\nNext 1. 2.\n\n".toList)
      = .ok "Hello, there.\nWhat, 5?\n\nNext 1. 2.\n".toList := by
  decide +kernel

/-- Two paragraphs with ragged lines and several blank lines between them. -/
def greeting : List Char := "  Hello,  there. \n What, 5?\n\n   \n\nNext 1. 2.\n\n".toList

theorem greeting_round_trips :
    IsProse greeting ∧
      ∃ written, convert [] (plainEngine .jspwiki) (plainEngine .markdown) (some greeting) = .ok written ∧
        words written = words greeting ∧
        Text.lines written
          = [[]].intercalate ((paragraphsOf greeting).map (List.map fun line => unwords (words line))) ++ [[]] :=
  have hprose : IsProse greeting := by decide
  ⟨hprose, prose_round_trips rfl rfl [] hprose⟩

end WikiMigration.Conversion
