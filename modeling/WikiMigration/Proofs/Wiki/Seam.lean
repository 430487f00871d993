/-
A blank line between two pages.

Two pages with a blank line between them are read one after the other, as long as the first one leaves no style
block and no preformatted text open.  The blank line ends the paragraph, the table and the lists of the first
page, and then nothing is open that the second page could continue.  Where the first page ends with a carriage
return, that character and the line feed behind it end one line, and the blank line is the last line of the first
page.
-/
import WikiMigration.Proofs.Text.Lines
import WikiMigration.Proofs.Wiki.Nesting

namespace WikiMigration.Wiki

open Text

variable {first : List Char}

/-! ### Lines at the seam -/

/-- Two line feeds behind a text stay two line feeds, and the text in front of them reads as before, but for the
end of a line that its last carriage return may have made. -/
theorem normalizeNewlines_seam (first second : List Char) :
    ∃ front, (normalizeNewlines first = front ∨ normalizeNewlines first = front ++ ['\n']) ∧
      normalizeNewlines (first ++ '\n' :: '\n' :: second) = front ++ '\n' :: '\n' :: normalizeNewlines second := by
  fun_induction normalizeNewlines first with
  | case1 => exact ⟨[], Or.inl rfl, by simp [normalizeNewlines]⟩
  | case2 rest ih =>
    obtain ⟨front, hfront, hseam⟩ := ih
    refine ⟨'\n' :: front, ?_, ?_⟩
    · rcases hfront with hfront | hfront
      · exact Or.inl (by rw [hfront])
      · exact Or.inr (by rw [hfront]; rfl)
    · simp only [List.cons_append, normalizeNewlines, hseam]
  | case3 c rest hrest ih =>
    by_cases hlast : c = '\r' ∧ rest = []
    · -- the carriage return takes the first of the two line feeds
      obtain ⟨rfl, rfl⟩ := hlast
      exact ⟨[], Or.inr (by simp [normalizeNewlines]), by simp [normalizeNewlines]⟩
    · have hhead : c = '\r' → (rest ++ '\n' :: '\n' :: second).head? ≠ some '\n' := by
        intro hc
        cases rest with
        | nil => exact absurd ⟨hc, rfl⟩ hlast
        | cons d more =>
          intro hd
          obtain rfl : d = '\n' := by simpa using hd
          exact hrest more hc rfl
      obtain ⟨front, hfront, hseam⟩ := ih
      refine ⟨(if c == '\r' then '\n' else c) :: front, ?_, ?_⟩
      · rcases hfront with hfront | hfront
        · exact Or.inl (by rw [hfront])
        · exact Or.inr (by rw [hfront]; rfl)
      · rw [List.cons_append, normalizeNewlines_cons hhead, hseam, List.cons_append]

/-- The blank line at the seam stands behind the lines of the first page, or is the last of them. -/
theorem pageLines_seam (first second : List Char) :
    ∃ front, (pageLines first = front ∨ pageLines first = front ++ [[]]) ∧
      pageLines (first ++ "\n\n".toList ++ second) = front ++ [] :: pageLines second := by
  obtain ⟨front, hfront, hseam⟩ :=
    normalizeNewlines_seam (first.filter (· != '\x00')) (second.filter (· != '\x00'))
  refine ⟨lines front, ?_, ?_⟩
  · unfold pageLines
    rcases hfront with hfront | hfront
    · exact Or.inl (by rw [hfront])
    · exact Or.inr (by rw [hfront, lines_append]; rfl)
  · have hfilter : (first ++ "\n\n".toList ++ second).filter (· != '\x00') =
        first.filter (· != '\x00') ++ '\n' :: '\n' :: second.filter (· != '\x00') := by
      simp
    unfold pageLines
    rw [hfilter, hseam, lines_append]
    rfl

/-! ### Nothing is open behind a blank line -/

/-- Every style block that the page opens is closed by a line of it, and so is its preformatted text. -/
structure IsClosed (page : List Char) : Prop where
  styles : (readLines .empty (pageLines page)).1.styles = 0
  preformatted : (readLines .empty (pageLines page)).1.preformatted = none

theorem step_blank {pending : Pending} (h : pending.preformatted = none) :
    pending.step [] = (pending.withoutBlocks, pending.blocksEnd) := by
  have hkind : LineKind.of (pending.styles != 0) [] = .blank := by
    cases pending.styles != 0 <;> decide
  rw [Pending.step, h]
  simp only [Pending.stepLine, hkind]

/-- What a blank line leaves open was open before it. -/
theorem closed_of_step_blank {pending : Pending} (hstyles : (pending.step []).1.styles = 0)
    (hpreformatted : (pending.step []).1.preformatted = none) :
    pending.styles = 0 ∧ pending.preformatted = none := by
  cases hread : pending.preformatted with
  | some read =>
    rw [Pending.step, hread] at hpreformatted
    cases hpreformatted
  | none =>
    rw [step_blank hread] at hstyles
    exact ⟨hstyles, rfl⟩

theorem finish_of_closed {pending : Pending} (hstyles : pending.styles = 0)
    (hpreformatted : pending.preformatted = none) : pending.finish = pending.blocksEnd := by
  simp [Pending.finish, hstyles, hpreformatted]

theorem withoutBlocks_of_closed {pending : Pending} (hstyles : pending.styles = 0)
    (hpreformatted : pending.preformatted = none) : pending.withoutBlocks = .empty := by
  simp [Pending.withoutBlocks, Pending.empty, hstyles, hpreformatted]

/-- The lines in front of the blank line leave no style block and no preformatted text open, and the first page
ends with what they leave. -/
theorem IsClosed.front (h : IsClosed first) {front : List (List Char)}
    (hfront : pageLines first = front ∨ pageLines first = front ++ [[]]) :
    (readLines .empty front).1.styles = 0 ∧ (readLines .empty front).1.preformatted = none ∧
      fragmentsOf first = written front ++ (readLines .empty front).1.blocksEnd := by
  rcases hfront with hfront | hfront
  · have hstyles := h.styles
    have hpreformatted := h.preformatted
    rw [hfront] at hstyles hpreformatted
    refine ⟨hstyles, hpreformatted, ?_⟩
    have hall : pageLines first = front ++ [] := hfront.trans (List.append_nil front).symm
    rw [fragmentsOf_eq hall, fragmentsFrom,
      finish_of_closed hstyles hpreformatted]
  · have hstyles := h.styles
    have hpreformatted := h.preformatted
    rw [hfront, readLines_append] at hstyles hpreformatted
    obtain ⟨hstyles, hpreformatted⟩ := closed_of_step_blank hstyles hpreformatted
    refine ⟨hstyles, hpreformatted, ?_⟩
    rw [fragmentsOf_eq hfront, fragmentsFrom, step_blank hpreformatted]
    simp only [fragmentsFrom, withoutBlocks_of_closed hstyles hpreformatted]
    simp [Pending.finish, Pending.blocksEnd, Pending.paragraphEnd, Pending.tableEnd, closeLists, Pending.empty]

/-- **The fragments of two pages are those of the first and then those of the second.** -/
theorem IsClosed.fragmentsOf_seam (h : IsClosed first) (second : List Char) :
    fragmentsOf (first ++ "\n\n".toList ++ second) = fragmentsOf first ++ fragmentsOf second := by
  obtain ⟨front, hfront, hseam⟩ := pageLines_seam first second
  obtain ⟨hstyles, hpreformatted, hfirst⟩ := h.front hfront
  rw [fragmentsOf_eq hseam, fragmentsFrom, step_blank hpreformatted]
  simp only [withoutBlocks_of_closed hstyles hpreformatted]
  rw [hfirst, List.append_assoc, fragmentsOf]

/-! ### The two pages as HTML -/

theorem render_ne_nil (context : Context) (fragment : Fragment) : fragment.render context ≠ [] := by
  rw [← text_fragment]
  cases fragment <;> simp [Fragment.marks, within, Mark.text]

/-- Texts that are filled are joined to a text that is filled. -/
theorem unlines_ne_nil {pieces : List (List Char)} (hne : pieces ≠ []) (h : ∀ piece ∈ pieces, piece ≠ []) :
    unlines pieces ≠ [] := by
  intro hnil
  obtain ⟨piece, rest, rfl⟩ := List.exists_cons_of_ne_nil hne
  have hinfix := infix_unlines (List.mem_cons_self (a := piece) (l := rest))
  rw [hnil] at hinfix
  exact h piece List.mem_cons_self (List.infix_nil.mp hinfix)

/-- Two parts that are each joined of filled texts, one below the other; a part without texts is left out. -/
theorem unlines_parts {front back : List (List Char)} (hfront : ∀ piece ∈ front, piece ≠ [])
    (hback : ∀ piece ∈ back, piece ≠ []) :
    unlines (front ++ back) = unlines ([unlines front, unlines back].filter (· ≠ [])) := by
  have hnil : unlines ([] : List (List Char)) = [] := rfl
  by_cases hf : front = []
  · subst hf
    by_cases hb : back = []
    · subst hb
      rfl
    · have hne := unlines_ne_nil hb hback
      rw [List.filter_cons_of_neg (by simp [hnil]), List.filter_cons_of_pos (by simpa using hne)]
      rfl
  · have hne := unlines_ne_nil hf hfront
    rw [List.filter_cons_of_pos (by simpa using hne)]
    by_cases hb : back = []
    · subst hb
      rw [List.append_nil, List.filter_cons_of_neg (by simp [hnil])]
      rfl
    · have hne' := unlines_ne_nil hb hback
      rw [unlines_append hf hb, List.filter_cons_of_pos (by simpa using hne'), List.filter_nil,
        unlines_cons _ (by simp)]
      rfl

/-- **A blank line separates.**  A page that closes what it opens, a blank line and another page are rendered as
the two pages, each as if it stood alone, one below the other; a page that gives nothing is left out.  The notices
are those of the first page and then those of the second. -/
theorem blank_line_separates (h : IsClosed first) (context : Context) (second : List Char) :
    renderPage context (first ++ "\n\n".toList ++ second) =
        unlines ([renderPage context first, renderPage context second].filter (· ≠ [])) ∧
      pageNotices (first ++ "\n\n".toList ++ second) = pageNotices first ++ pageNotices second := by
  have hfilled : ∀ (fragments : List Fragment), ∀ piece ∈ fragments.map (Fragment.render context), piece ≠ [] := by
    intro fragments piece hpiece
    obtain ⟨fragment, -, rfl⟩ := List.mem_map.mp hpiece
    exact render_ne_nil context fragment
  constructor
  · rw [renderPage, h.fragmentsOf_seam second, List.map_append]
    exact unlines_parts (hfilled _) (hfilled _)
  · rw [pageNotices, h.fragmentsOf_seam second, List.flatMap_append]
    rfl

/-- A style block that is closed, a list that is not, and a list behind it. -/
theorem lists_separated :
    IsClosed "%%note\n/%\n* a\r".toList ∧
      renderPage ⟨"Main".toList, true, false⟩ ("%%note\n/%\n* a\r".toList ++ "\n\n".toList ++ "** b".toList) =
        unlines ([renderPage ⟨"Main".toList, true, false⟩ "%%note\n/%\n* a\r".toList,
          renderPage ⟨"Main".toList, true, false⟩ "** b".toList].filter (· ≠ [])) :=
  have hclosed : IsClosed "%%note\n/%\n* a\r".toList := ⟨by decide, by decide⟩
  ⟨hclosed, (blank_line_separates hclosed ⟨"Main".toList, true, false⟩ "** b".toList).1⟩

end WikiMigration.Wiki
