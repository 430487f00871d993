/-
What the normal form of a page is.

A text is in normal form if it is empty, or starts and ends with a line that is not empty and has one line feed
behind it; no line has blanks at its end, and no blank line has another one behind it.  Tidying leaves exactly
these texts alone, and it makes one of every text.  It cuts lines off at their ends and leaves blank lines out,
so that all other lines come through, in their order.

That a tidied text needs no more tidying is not obvious from the order of the steps: the line feeds at the ends
go after the blank lines between, and a line feed is added last.  What is left after the first of these steps is
a stretch of the lines that were kept, so its lines have among them only neighbours that were neighbours before;
and the line behind the added line feed is empty, so whether or not it is kept it goes with the line feeds.
-/
import WikiMigration.Proofs.Writing.Blocks

namespace WikiMigration.Writing

open Text

variable {text body line : List Char} {kept : List (List Char)}

/-! ### Texts in normal form -/

/-- The lines of a text that have a line feed behind them. -/
def endedLines (text : List Char) : List (List Char) := (lines text).dropLast

/-- The lines that are not blank. -/
def filledLines (kept : List (List Char)) : List (List Char) := kept.filter fun line => !isBlankLine line

/-- A text in the normal form of a page. -/
structure IsTidy (text : List Char) : Prop where
  /-- There is no line feed at the front. -/
  start : text.head? ≠ some '\n'
  /-- There is one line feed at the end, and no second one before it. -/
  final : text = [] ∨ ∃ front c, c ≠ '\n' ∧ text = front ++ [c, '\n']
  cut : ∀ line ∈ lines text, ∀ c ∈ line.getLast?, isBlank c = false
  spaced : (endedLines text).IsChain NotBothBlank

/-! ### Lines and line feeds -/

theorem lines_feed (text : List Char) : lines (text ++ ['\n']) = lines text ++ [[]] := lines_append text []

theorem lines_replicate_append (count : Nat) (text : List Char) :
    lines (List.replicate count '\n' ++ text) = List.replicate count [] ++ lines text := by
  induction count with
  | zero => rfl
  | succ count ih =>
    rw [List.replicate_succ, List.cons_append, List.replicate_succ, List.cons_append, ← ih]
    exact lines_append [] _

theorem lines_append_replicate (text : List Char) (count : Nat) :
    lines (text ++ List.replicate count '\n') = lines text ++ List.replicate count [] := by
  induction count with
  | zero => simp
  | succ count ih =>
    rw [List.replicate_succ', ← List.append_assoc, lines_feed, ih, List.replicate_succ', List.append_assoc]

theorem lines_framed (lead : Nat) (text : List Char) (trail : Nat) :
    lines (framed lead text trail) = List.replicate lead [] ++ lines text ++ List.replicate trail [] := by
  rw [framed, lines_append_replicate, lines_replicate_append]

theorem endedLines_feed (text : List Char) : endedLines (text ++ ['\n']) = lines text := by
  rw [endedLines, lines_feed, List.dropLast_concat]

/-- What the line feeds are taken off from the ends of has them there. -/
theorem exists_framed (text : List Char) : ∃ lead trail, text = framed lead (trimNewlines text) trail := by
  have hfeeds : ∀ cs : List Char, ∃ n, cs.takeWhile (· == '\n') = List.replicate n '\n' := fun cs =>
    ⟨_, List.eq_replicate_of_mem fun c hc => by simpa using List.mem_takeWhile_imp hc⟩
  obtain ⟨lead, hlead⟩ := hfeeds text
  obtain ⟨trail, htrail⟩ := hfeeds (text.dropWhile (· == '\n')).reverse
  have hfront : text = List.replicate lead '\n' ++ text.dropWhile (· == '\n') := by
    rw [← hlead, List.takeWhile_append_dropWhile]
  have hback : text.dropWhile (· == '\n') = trimNewlines text ++ List.replicate trail '\n' := by
    rw [← List.reverse_reverse (text.dropWhile _), ← List.takeWhile_append_dropWhile (p := (· == '\n'))
      (l := (text.dropWhile _).reverse), htrail, List.reverse_append, List.reverse_replicate]
    rfl
  exact ⟨lead, trail, by rw [framed, List.append_assoc, ← hback, ← hfront]⟩

/-! ### Blank lines -/

/-- Blanks at its end make no line blank that is not. -/
theorem isBlankLine_trimRight (line : List Char) : isBlankLine (trimRight line) = isBlankLine line := by
  have htrim : trim (trimRight line) = trim line := trimWith_trimRightWith isBlank line
  rw [isBlankLine, htrim, isBlankLine]

theorem filledLines_map_trimRight (kept : List (List Char)) :
    filledLines (kept.map trimRight) = (filledLines kept).map trimRight := by
  rw [filledLines, List.filter_map, filledLines]
  exact congrArg _ (List.filter_congr fun line _ => congrArg _ (isBlankLine_trimRight line))

theorem filledLines_collapse (afterBlank : Bool) (kept : List (List Char)) :
    filledLines (collapseBlankLines afterBlank kept) = filledLines kept := by
  fun_induction collapseBlankLines afterBlank kept with
  | case1 => rfl
  | case2 afterBlank line rest blank hpassed ih =>
    have hblank : isBlankLine line = true := (Bool.and_eq_true_iff.mp hpassed).1
    rw [ih, filledLines, filledLines, List.filter_cons_of_neg (by simp [hblank])]
  | case3 afterBlank line rest blank hkept ih => simp only [filledLines, List.filter_cons] at ih ⊢; rw [ih]

theorem filledLines_framed (lead : Nat) (text : List Char) (trail : Nat) :
    filledLines (lines (framed lead text trail)) = filledLines (lines text) := by
  have hempty : ∀ count, filledLines (List.replicate count []) = [] := fun count =>
    List.filter_eq_nil_iff.mpr fun line hline => by
      rw [List.eq_of_mem_replicate hline]
      decide
  rw [lines_framed, filledLines, List.filter_append, List.filter_append]
  exact (congrArg₂ (· ++ _ ++ ·) (hempty lead) (hempty trail)).trans (by simp [filledLines])

/-- Of a line that is put at the end it is only asked whether it stays. -/
theorem collapseBlankLines_concat (afterBlank : Bool) (kept : List (List Char)) (last : List Char) :
    ∃ behind, (behind = [] ∨ behind = [last]) ∧
      collapseBlankLines afterBlank (kept ++ [last]) = collapseBlankLines afterBlank kept ++ behind := by
  fun_induction collapseBlankLines afterBlank kept with
  | case1 afterBlank =>
    rw [List.nil_append, collapseBlankLines]
    split
    · exact ⟨[], Or.inl rfl, rfl⟩
    · exact ⟨[last], Or.inr rfl, rfl⟩
  | case2 afterBlank line rest blank hpassed ih =>
    obtain ⟨behind, hbehind, hrest⟩ := ih
    exact ⟨behind, hbehind, by rw [List.cons_append, collapseBlankLines, if_pos hpassed, hrest]⟩
  | case3 afterBlank line rest blank hkept ih =>
    obtain ⟨behind, hbehind, hrest⟩ := ih
    exact ⟨behind, hbehind, by rw [List.cons_append, collapseBlankLines, if_neg hkept, hrest, List.cons_append]⟩

/-! ### Tidying -/

/-- The lines of a text that are kept in its normal form, and perhaps an empty one before and behind them. -/
def keptLines (text : List Char) : List (List Char) := collapseBlankLines false ((lines text).map trimRight)

theorem isChain_keptLines (text : List Char) : (keptLines text).IsChain NotBothBlank := by
  rw [keptLines, collapseBlankLines_eq_destutter]
  exact List.isChain_destutter NotBothBlank _

theorem exists_of_mem_keptLines (h : line ∈ keptLines text) : ∃ raw ∈ lines text, trimRight raw = line := by
  rw [keptLines, collapseBlankLines_eq_destutter] at h
  exact List.mem_map.mp ((List.destutter_sublist NotBothBlank _).subset h)

theorem lines_unlines_keptLines (text : List Char) : lines (unlines (keptLines text)) = keptLines text := by
  refine lines_unlines ?_ fun line hline => ?_
  · rw [keptLines, collapseBlankLines_eq_destutter, Ne, List.destutter_eq_nil, List.map_eq_nil_iff]
    exact splitAt_ne_nil '\n' text
  · obtain ⟨raw, hraw, rfl⟩ := exists_of_mem_keptLines hline
    exact fun hmem => not_mem_of_mem_splitAt hraw (mem_of_mem_trimRight hmem)

/-- A text in normal form is empty, or a text without line feeds at its ends with one behind it. -/
theorem isTidy_iff : IsTidy text ↔ text = [] ∨ ∃ body, IsBlockText body ∧
    (∀ line ∈ lines body, ∀ c ∈ line.getLast?, isBlank c = false) ∧ (lines body).IsChain NotBothBlank ∧
    text = body ++ ['\n'] := by
  constructor
  · intro h
    refine h.final.imp_right ?_
    rintro ⟨front, c, hc, rfl⟩
    have hfeed : front ++ [c, '\n'] = (front ++ [c]) ++ ['\n'] := List.append_cons front c ['\n']
    rw [hfeed] at h ⊢
    have hcut := h.cut
    have hspaced := h.spaced
    have hstart := h.start
    rw [lines_feed] at hcut
    rw [endedLines_feed] at hspaced
    rw [List.head?_append_of_ne_nil _ (by simp)] at hstart
    refine ⟨front ++ [c], ⟨by simp, ⟨fun d hd => ?_, fun d hd => ?_⟩⟩,
      fun line hline => hcut line (List.mem_append_left _ hline), hspaced, rfl⟩
    · simpa using fun heq : d = '\n' => hstart (heq ▸ hd)
    · rw [List.getLast?_concat] at hd
      obtain rfl := Option.some.inj hd
      simpa using hc
  · rintro (rfl | ⟨body, hbody, hcut, hspaced, rfl⟩)
    · exact ⟨by simp, Or.inl rfl, by decide, by decide⟩
    · have hfinal : body = body.dropLast ++ [body.getLast hbody.ne_nil] := (List.dropLast_append_getLast _).symm
      have hlast := hbody.trimmed.last _ (List.getLast?_eq_some_getLast hbody.ne_nil)
      refine ⟨fun hhead => ?_, Or.inr ⟨body.dropLast, _, by simpa using hlast, ?_⟩, fun line hline => ?_, ?_⟩
      · rw [List.head?_append_of_ne_nil _ hbody.ne_nil] at hhead
        exact absurd (hbody.trimmed.head _ hhead) (by decide)
      · rw [List.append_cons body.dropLast, ← hfinal]
      · rw [lines_feed, List.mem_append, List.mem_singleton] at hline
        rcases hline with hline | rfl
        · exact hcut line hline
        · exact fun c hc => absurd hc (by simp)
      · rwa [endedLines_feed]

/-- **Tidying gives a text in normal form.** -/
theorem isTidy_tidy (text : List Char) : IsTidy (tidy text) := by
  obtain ⟨lead, trail, hframed⟩ := exists_framed (unlines (keptLines text))
  have hkept : keptLines text = List.replicate lead [] ++ lines (trimNewlines (unlines (keptLines text)))
      ++ List.replicate trail [] := by
    rw [← lines_framed, ← hframed, lines_unlines_keptLines]
  rw [isTidy_iff, tidy, ← keptLines]
  split
  · exact Or.inl rfl
  next hne =>
    have hchain := isChain_keptLines text
    rw [hkept] at hchain
    refine Or.inr ⟨trimNewlines _, ⟨by simpa using hne, trimmed_trimWith _ _⟩, fun line hline c hc => ?_,
      hchain.left_of_append.right_of_append, rfl⟩
    have hmem : line ∈ keptLines text := hkept ▸ List.mem_append_left _ (List.mem_append_right _ hline)
    obtain ⟨raw, -, rfl⟩ := exists_of_mem_keptLines hmem
    exact last_trimRightWith isBlank raw c hc

/-- **A text in normal form is left alone.** -/
theorem IsTidy.tidy_eq_self (h : IsTidy text) : tidy text = text := by
  rcases isTidy_iff.mp h with rfl | ⟨body, hbody, hcut, hspaced, rfl⟩
  · decide
  have hlines : (lines (body ++ ['\n'])).map trimRight = lines body ++ [[]] := by
    rw [lines_feed, List.map_append]
    exact congrArg (· ++ _) ((List.map_congr_left fun line hline => trimRightWith_eq_self (hcut line hline)).trans
      (List.map_id _))
  have hchain : collapseBlankLines false (lines body) = lines body := by
    rw [collapseBlankLines_eq_destutter]
    exact List.destutter_of_isChain NotBothBlank _ hspaced
  -- The line behind the last line feed is kept or not, and is empty.
  obtain ⟨behind, hbehind, hkept⟩ := collapseBlankLines_concat false (lines body) []
  have hbody' : trimNewlines (unlines (lines body ++ behind)) = body := by
    have hne : lines body ≠ [] := splitAt_ne_nil '\n' body
    rcases hbehind with rfl | rfl
    · rw [List.append_nil, unlines_lines]
      exact hbody.trimmed.trimWith_eq_self
    · have hframed : trimNewlines (framed 0 body 1) = body := hbody.trimNewlines_framed
      rwa [unlines_concat_nil hne, unlines_lines]
  rw [tidy, hlines, hkept, hchain, hbody', if_neg (by simpa using hbody.ne_nil)]

/-- The lines that are not blank come through, without the blanks at their ends. -/
theorem filledLines_tidy (text : List Char) :
    filledLines (lines (tidy text)) = (filledLines (lines text)).map trimRight := by
  have hkept : filledLines (keptLines text) = (filledLines (lines text)).map trimRight := by
    rw [keptLines, filledLines_collapse, filledLines_map_trimRight]
  obtain ⟨lead, trail, hframed⟩ := exists_framed (unlines (keptLines text))
  rw [← hkept, ← lines_unlines_keptLines, hframed, filledLines_framed, tidy, ← keptLines]
  split
  next hempty => rw [List.isEmpty_iff.mp hempty]
  next => exact filledLines_framed 0 _ 1

/-- **Tidying computes a normal form.**  A tidied text is in normal form, those that are in normal form are the ones
that tidying leaves alone, and of the lines exactly the ones that are not blank come through. -/
theorem tidy_normal_form (text : List Char) :
    tidy (tidy text) = tidy text ∧ IsTidy (tidy text) ∧ (tidy text = text ↔ IsTidy text) ∧
      filledLines (lines (tidy text)) = (filledLines (lines text)).map trimRight :=
  ⟨(isTidy_tidy text).tidy_eq_self, isTidy_tidy text, ⟨fun h => h ▸ isTidy_tidy text, IsTidy.tidy_eq_self⟩,
    filledLines_tidy text⟩

end WikiMigration.Writing
