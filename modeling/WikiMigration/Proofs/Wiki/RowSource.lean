/-
A row and its cells.

Splitting a row loses nothing: its cells, each behind its mark, are the row again, but for a last piece of blanks
that may be left out.  And it splits nowhere it should not: a bar that is part of a cell has a tilde right before
it, or stands within brackets that are open in that cell.

Both come from one description of how a row is read within a cell.  A character is kept, a bar only behind a tilde
or within brackets; any other bar starts the next cell, and that happens with no bracket open.
-/
import WikiMigration.Proofs.Wiki.Reading
import WikiMigration.Proofs.Wiki.TableRow

namespace WikiMigration.Wiki

open Text

variable {c : Char} {depth : Nat} {isHeader : Bool} {read rest text content inner : List Char} {cell : Cell}
  {cells : List Cell}

/-! ### Brackets -/

theorem openBehind_append (depth : Nat) (xs ys : List Char) :
    openBehind depth (xs ++ ys) = openBehind (openBehind depth xs) ys := List.foldl_append

/-- How many closing brackets of a text match an opening one, if `depth` brackets are open in front of it. -/
def matchedBrackets (depth : Nat) : List Char → Nat
  | [] => 0
  | c :: rest =>
    if c == '[' then matchedBrackets (depth + 1) rest
    else if c == ']' && depth != 0 then matchedBrackets (depth - 1) rest + 1
    else matchedBrackets depth rest

/-- An opening bracket is matched or still open. -/
theorem openBehind_add_matchedBrackets (depth : Nat) (text : List Char) :
    openBehind depth text + matchedBrackets depth text = depth + text.count '[' := by
  induction text generalizing depth with
  | nil => rfl
  | cons c rest ih =>
    have hstep : openBehind depth (c :: rest) = openBehind (openBehind depth [c]) rest := openBehind_append depth [c] rest
    rw [hstep, matchedBrackets]
    by_cases hopen : c = '['
    · subst hopen
      have h := ih (depth + 1)
      simp only [openBehind, List.foldl_cons, List.foldl_nil, beq_self_eq_true, if_true, List.count_cons_self] at h ⊢
      omega
    by_cases hclose : c = ']'
    · subst hclose
      have h := ih (depth - 1)
      by_cases hdepth : depth = 0
      · subst hdepth
        simpa [openBehind] using h
      · simp only [openBehind, List.foldl_cons, List.foldl_nil] at h ⊢
        simp [hdepth] at h ⊢
        omega
    · have h := ih depth
      simpa [openBehind, hopen, hclose] using h

theorem openBehind_ne_zero_iff (text : List Char) :
    openBehind 0 text ≠ 0 ↔ matchedBrackets 0 text < text.count '[' := by
  have h := openBehind_add_matchedBrackets 0 text
  omega

/-! ### Reading within a cell -/

/-- How the rest of a row is read from within a cell.  `read` is what the cell holds so far, last character first,
and `depth` counts the brackets that are open. -/
inductive ReadsCells : Nat → Bool → List Char → List Char → List Cell → Prop
  | ends (depth : Nat) (isHeader : Bool) (read : List Char) :
      ReadsCells depth isHeader read [] (lastCell (some isHeader) read)
  | keeps {depth : Nat} {isHeader : Bool} {read rest : List Char} {cells : List Cell} {c : Char}
      (hbar : c = '|' → read.head? = some '~' ∨ depth ≠ 0)
      (h : ReadsCells (openBehind depth [c]) isHeader (c :: read) rest cells) :
      ReadsCells depth isHeader read (c :: rest) cells
  | starts (next : Bool) {isHeader : Bool} {read rest : List Char} {cells : List Cell}
      (htilde : read.head? ≠ some '~') (h : ReadsCells 0 next [] rest cells) :
      ReadsCells 0 isHeader read (cellMark next ++ rest) (⟨isHeader, read.reverse⟩ :: cells)

/-- The splitting of a row reads it this way. -/
theorem readsCells_cellsFrom (hfresh : read.head? = some '~' → rest.head? ≠ some '|') :
    ReadsCells depth isHeader read rest (cellsFrom depth (some isHeader) read rest) := by
  generalize hkind : some isHeader = kind
  fun_induction cellsFrom depth kind read rest generalizing isHeader with
  | case1 depth kind read => exact hkind ▸ .ends depth isHeader read
  | case2 depth kind read rest ih =>
    -- the tilde is kept, and then the bar behind it
    exact .keeps (by simp) (.keeps (fun _ => Or.inl rfl) (ih (by simp) hkind))
  | case3 depth kind read rest hdepth ih =>
    subst hkind
    obtain rfl := beq_iff_eq.mp hdepth
    exact .starts true (fun h => hfresh h rfl) (ih (by simp) rfl)
  | case4 depth kind read rest hdepth ih =>
    have hdepth : depth ≠ 0 := by simpa using hdepth
    exact .keeps (fun _ => Or.inr hdepth) (.keeps (fun _ => Or.inr hdepth) (ih (by simp) hkind))
  | case5 depth kind read rest hsingle hdepth ih =>
    subst hkind
    obtain rfl := beq_iff_eq.mp hdepth
    exact .starts false (fun h => hfresh h rfl) (ih (by simp) rfl)
  | case6 depth kind read rest hsingle hdepth ih =>
    have hdepth : depth ≠ 0 := by simpa using hdepth
    exact .keeps (fun _ => Or.inr hdepth) (ih (by simp) hkind)
  | case7 depth kind read c rest hescaped _ hbar =>
    rename_i ih
    refine .keeps (fun h => absurd h hbar) (ih (fun htilde hhead => ?_) hkind)
    obtain ⟨others, rfl⟩ := List.head?_eq_some_iff.mp hhead
    exact hescaped others (Option.some.inj htilde) rfl

/-! ### Nothing is lost -/

/-- A cell as it stands in its row: its mark and its content. -/
def Cell.source (cell : Cell) : List Char := cellMark cell.isHeader ++ cell.content

/-- The last piece of a row that is no cell: there is none, or it is a mark with blanks behind it. -/
def IsDroppedPiece (piece : List Char) : Prop :=
  piece = [] ∨ ∃ isHeader blanks, isBlankText blanks = true ∧ piece = cellMark isHeader ++ blanks

theorem ReadsCells.source (h : ReadsCells depth isHeader read rest cells) :
    ∃ piece, IsDroppedPiece piece ∧
      cells.flatMap Cell.source ++ piece = cellMark isHeader ++ (read.reverse ++ rest) := by
  induction h with
  | ends depth isHeader read =>
    rw [lastCell]
    split
    next hblank =>
      have hblanks : isBlankText read.reverse = true := by simpa [isBlankText] using hblank
      exact ⟨_, Or.inr ⟨isHeader, _, hblanks, rfl⟩, by simp⟩
    next => exact ⟨[], Or.inl rfl, by simp [Cell.source]⟩
  | keeps _ _ ih =>
    obtain ⟨piece, hpiece, hsource⟩ := ih
    exact ⟨piece, hpiece, by simpa using hsource⟩
  | starts next _ _ ih =>
    obtain ⟨piece, hpiece, hsource⟩ := ih
    refine ⟨piece, hpiece, ?_⟩
    rw [List.flatMap_cons, List.append_assoc, hsource]
    simp [Cell.source]

/-! ### Which bars are kept -/

/-- Every bar of the content has a tilde right before it, or more opening brackets than closing ones that match
them. -/
def HoldsBars (content : List Char) : Prop :=
  ∀ inner more, content = inner ++ '|' :: more →
    inner.getLast? = some '~' ∨ matchedBrackets 0 inner < inner.count '['

theorem holdsBars_nil : HoldsBars [] := fun inner more h => by simp at h

theorem HoldsBars.concat (h : HoldsBars content)
    (hbar : c = '|' → content.getLast? = some '~' ∨ openBehind 0 content ≠ 0) : HoldsBars (content ++ [c]) := by
  intro inner more heq
  rcases List.eq_nil_or_concat more with rfl | ⟨others, d, rfl⟩
  · obtain ⟨rfl, hc⟩ := List.append_inj' heq rfl
    exact (hbar (List.cons.inj hc).1).imp_right (openBehind_ne_zero_iff content).mp
  · rw [List.concat_eq_append, ← List.cons_append, ← List.append_assoc] at heq
    exact h inner others (List.append_inj' heq rfl).1

theorem ReadsCells.holdsBars (h : ReadsCells depth isHeader read rest cells)
    (hdepth : depth = openBehind 0 read.reverse) (hread : HoldsBars read.reverse) (hcell : cell ∈ cells) :
    HoldsBars cell.content := by
  induction h with
  | ends depth isHeader read =>
    rw [lastCell] at hcell
    split at hcell
    · cases hcell
    · obtain rfl := List.mem_singleton.mp hcell
      exact hread
  | @keeps depth isHeader read rest cells c hbar _ ih =>
    rw [List.reverse_cons, openBehind_append, ← hdepth] at ih
    refine ih rfl (hread.concat fun hc => ?_) hcell
    rw [List.getLast?_reverse, ← hdepth]
    exact hbar hc
  | starts next _ _ ih =>
    rcases List.mem_cons.mp hcell with rfl | hcell
    · exact hread
    · exact ih rfl holdsBars_nil hcell

/-! ### The cells of a row -/

/-- A row that starts with a bar is read from within its first cell. -/
theorem readsCells_splitRow (rest : List Char) :
    ∃ isHeader behind, '|' :: rest = cellMark isHeader ++ behind ∧
      ReadsCells 0 isHeader [] behind (splitRow ('|' :: rest)) := by
  by_cases hdouble : ∃ behind, rest = '|' :: behind
  · obtain ⟨behind, rfl⟩ := hdouble
    exact ⟨true, behind, rfl, readsCells_cellsFrom (by simp)⟩
  · have hsplit : splitRow ('|' :: rest) = cellsFrom 0 (some false) [] rest := by
      rw [splitRow, cellsFrom]
      · rfl
      · exact fun behind h => hdouble ⟨behind, h⟩
    exact ⟨false, rest, rfl, hsplit ▸ readsCells_cellsFrom (by simp)⟩

/-- **Splitting a row loses nothing.**  The cells of a row, each behind its mark, are the row, but for a last piece of
a mark and blanks that may be dropped; and every bar within a cell has a tilde right before it, or stands behind more
opening brackets of its cell than closing ones that match them. -/
theorem cells_make_up_row (rest : List Char) :
    (∃ piece, IsDroppedPiece piece ∧ (splitRow ('|' :: rest)).flatMap Cell.source ++ piece = '|' :: rest) ∧
      ∀ cell ∈ splitRow ('|' :: rest), HoldsBars cell.content := by
  obtain ⟨isHeader, behind, hrow, hreads⟩ := readsCells_splitRow rest
  constructor
  · obtain ⟨piece, hpiece, hsource⟩ := hreads.source
    exact ⟨piece, hpiece, hsource.trans hrow.symm⟩
  · exact fun cell hcell => hreads.holdsBars rfl holdsBars_nil hcell

end WikiMigration.Wiki
