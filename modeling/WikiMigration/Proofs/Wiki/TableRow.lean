/-
The cells of a row, read back from what was written.

A row is written with a mark before each cell and a space on each side of its markup, in which every bar is made
literal.  It is read by splitting it at the bars outside brackets.  So the cells are those that were written exactly
if every one but the last closes the brackets that it opens.  Where one does not, its neighbours are swallowed.
-/
import WikiMigration.Proofs.Writing.Letters
import WikiMigration.Wiki.TableRow

namespace WikiMigration.Wiki

open Text Writing

variable {c : Char} {depth : Nat} {cell : Option Bool} {isHeader : Bool} {read rest text : List Char}
  {first next : Cell} {row : List Cell}

/-! ### One step -/

/-- How many brackets are open behind a text. -/
def openBehind (depth : Nat) (text : List Char) : Nat :=
  text.foldl (fun depth c => if c == '[' then depth + 1 else if c == ']' then depth - 1 else depth) depth

theorem cellsFrom_char (hbar : c ≠ '|') (htilde : c = '~' → rest.head? ≠ some '|') :
    cellsFrom depth cell read (c :: rest) =
      cellsFrom (if c == '[' then depth + 1 else if c == ']' then depth - 1 else depth) cell (c :: read) rest := by
  rw [cellsFrom]
  · rintro others rfl rfl
    exact htilde rfl rfl
  · rintro others rfl
    exact absurd rfl hbar
  · exact hbar

theorem cellsFrom_other (hbar : c ∉ ['|', '~', '[', ']']) :
    cellsFrom depth cell read (c :: rest) = cellsFrom depth cell (c :: read) rest := by
  simp only [List.mem_cons, List.not_mem_nil, or_false, not_or] at hbar
  rw [cellsFrom_char hbar.1 fun h => absurd h hbar.2.1, if_neg (by simpa using hbar.2.2.1),
    if_neg (by simpa using hbar.2.2.2)]

/-! ### The markup of a cell -/

/-- Markup with its bars made literal. -/
def withLiteralBars (markup : List Char) : List Char := replaceAll ['|'] "~|".toList markup

theorem withLiteralBars_bar (rest : List Char) : withLiteralBars ('|' :: rest) = '~' :: '|' :: withLiteralBars rest :=
  @replaceAll_found ['|'] "~|".toList (by decide) rest

theorem withLiteralBars_cons (hc : c ≠ '|') (rest : List Char) :
    withLiteralBars (c :: rest) = c :: withLiteralBars rest := replaceAll_of_ne hc []

theorem withLiteralBars_of_not_mem (h : '|' ∉ text) : withLiteralBars text = text := by
  induction text with
  | nil => rfl
  | cons c rest ih =>
    rw [List.mem_cons, not_or] at h
    rw [withLiteralBars_cons (Ne.symm h.1), ih h.2]

theorem withLiteralBars_append (xs ys : List Char) :
    withLiteralBars (xs ++ ys) = withLiteralBars xs ++ withLiteralBars ys := by
  rw [withLiteralBars, withLiteralBars, withLiteralBars, replaceAll_char, replaceAll_char, replaceAll_char,
    List.flatMap_append]

theorem mem_withLiteralBars (h : c ∈ withLiteralBars text) : c = '~' ∨ c ∈ text := by
  rw [withLiteralBars, replaceAll_char] at h
  obtain ⟨d, hd, hc⟩ := List.mem_flatMap.mp h
  split at hc
  next hbar =>
    rcases (by simpa using hc : c = '~' ∨ c = '|') with rfl | rfl
    · exact Or.inl rfl
    · exact Or.inr (hbar ▸ hd)
  next => exact Or.inr (List.mem_singleton.mp hc ▸ hd)

/-- No bar comes first. -/
theorem head?_withLiteralBars (hrest : rest.head? ≠ some '|') (text : List Char) :
    (withLiteralBars text ++ rest).head? ≠ some '|' := by
  cases text with
  | nil => exact hrest
  | cons c others =>
    by_cases hc : c = '|'
    · rw [hc, withLiteralBars_bar]
      exact fun h => absurd (Option.some.inj h) (by decide)
    · rw [withLiteralBars_cons hc]
      exact fun h => hc (Option.some.inj h)

/-- Making bars literal puts no blank at the ends. -/
theorem trimmed_withLiteralBars (h : Trimmed isBlank text) : Trimmed isBlank (withLiteralBars text) where
  head d hd := by
    cases text with
    | nil => cases hd
    | cons c rest =>
      by_cases hc : c = '|'
      · rw [hc, withLiteralBars_bar] at hd
        cases hd
        decide
      · rw [withLiteralBars_cons hc] at hd
        exact h.head d hd
  last d hd := by
    rcases List.eq_nil_or_concat text with rfl | ⟨init, c, rfl⟩
    · cases hd
    · rw [List.concat_eq_append] at hd h
      by_cases hc : c = '|'
      · have hbar : withLiteralBars ['|'] = ['~'] ++ ['|'] := withLiteralBars_bar []
        rw [hc, withLiteralBars_append, hbar, ← List.append_assoc, List.getLast?_concat] at hd
        cases hd
        decide
      · have hlast : withLiteralBars [c] = [c] := withLiteralBars_cons hc []
        rw [withLiteralBars_append, hlast, List.getLast?_concat] at hd
        exact h.last d (by rw [List.getLast?_concat]; exact hd)

/-- Markup with literal bars is read into its cell. -/
theorem cellsFrom_markup (hrest : rest.head? ≠ some '|') (markup : List Char) :
    cellsFrom depth cell read (withLiteralBars markup ++ rest) =
      cellsFrom (openBehind depth markup) cell ((withLiteralBars markup).reverse ++ read) rest := by
  induction markup generalizing depth read with
  | nil => rfl
  | cons c others ih =>
    by_cases hc : c = '|'
    · subst hc
      rw [withLiteralBars_bar, List.cons_append, List.cons_append, cellsFrom, ih]
      simp [openBehind]
    · rw [withLiteralBars_cons hc, List.cons_append,
        cellsFrom_char hc fun _ => head?_withLiteralBars hrest others, ih]
      simp [openBehind]

/-! ### A row -/

/-- The mark that starts a cell. -/
def cellMark (isHeader : Bool) : List Char := if isHeader then ['|', '|'] else ['|']

/-- The markup of a cell as it is written. -/
def Cell.written (cell : Cell) : List Char := withLiteralBars cell.content

/-- A cell with its mark. -/
def Cell.marked (cell : Cell) : List Char := cellMark cell.isHeader ++ ' ' :: cell.written

/-- Cells behind another one. -/
def markedCells (row : List Cell) : List Char := row.flatMap fun cell => ' ' :: cell.marked

theorem head?_markedCells (row : List Cell) : (markedCells row).head? ≠ some '|' := by
  cases row with
  | nil => exact nofun
  | cons cell row => exact fun h => absurd (Option.some.inj h) (by decide)

theorem cellsFrom_mark_closed : cellsFrom 0 cell read (cellMark isHeader ++ ' ' :: rest) =
    endedCell cell read ++ cellsFrom 0 (some isHeader) [' '] rest := by
  have hspace : cellsFrom 0 (some isHeader) [] (' ' :: rest) = cellsFrom 0 (some isHeader) [' '] rest :=
    cellsFrom_other (by decide)
  rw [← hspace]
  cases isHeader with
  | true => exact cellsFrom.eq_3 0 cell read (' ' :: rest)
  | false =>
    show cellsFrom 0 cell read ('|' :: ' ' :: rest) = _
    rw [cellsFrom]
    · rfl
    · exact fun _ h => absurd (List.cons.inj h).1 (by decide)

theorem cellsFrom_mark_open (hdepth : depth ≠ 0) : cellsFrom depth cell read (cellMark isHeader ++ ' ' :: rest) =
    cellsFrom depth cell (' ' :: (cellMark isHeader ++ read)) rest := by
  have hspace : ∀ read, cellsFrom depth cell read (' ' :: rest) = cellsFrom depth cell (' ' :: read) rest :=
    fun _ => cellsFrom_other (by decide)
  rw [← hspace]
  cases isHeader with
  | true =>
    show cellsFrom depth cell read ('|' :: '|' :: ' ' :: rest) = _
    rw [cellsFrom, if_neg (by simpa using hdepth)]
    rfl
  | false =>
    show cellsFrom depth cell read ('|' :: ' ' :: rest) = _
    rw [cellsFrom, if_neg (by simpa using hdepth)]
    · rfl
    · exact fun _ h => absurd (List.cons.inj h).1 (by decide)

/-- What was read of a cell when its markup has been read, last character first. -/
def Cell.readUp (cell : Cell) : List Char := cell.written.reverse ++ [' ']

/-- A cell is read up to the cells behind it. -/
theorem cellsFrom_written (depth : Nat) (cell : Option Bool) (read : List Char) (first : Cell) (row : List Cell) :
    cellsFrom depth cell read (first.written ++ markedCells row) =
      cellsFrom (openBehind depth first.content) cell (first.written.reverse ++ read) (markedCells row) :=
  cellsFrom_markup (head?_markedCells row) first.content

/-- The line of a row. -/
def rowLine : List Cell → List Char
  | [] => []
  | first :: row => first.marked ++ markedCells row

theorem splitRow_rowLine (first : Cell) (row : List Cell) : splitRow (rowLine (first :: row)) =
    cellsFrom (openBehind 0 first.content) (some first.isHeader) first.readUp (markedCells row) := by
  rw [splitRow, rowLine, Cell.marked, List.append_assoc, List.cons_append, cellsFrom_mark_closed, cellsFrom_written]
  rfl

/-- Outside brackets the next cell begins. -/
theorem cellsFrom_markedCells_closed : cellsFrom 0 (some isHeader) read (markedCells (next :: row)) =
    ⟨isHeader, (' ' :: read).reverse⟩ ::
      cellsFrom (openBehind 0 next.content) (some next.isHeader) next.readUp (markedCells row) := by
  have hsplit : markedCells (next :: row) = ' ' :: (cellMark next.isHeader ++ ' ' :: (next.written ++ markedCells row)) := by
    simp [markedCells, Cell.marked]
  rw [hsplit, cellsFrom_other (by decide), cellsFrom_mark_closed, cellsFrom_written]
  rfl

/-- Inside brackets it is swallowed. -/
theorem cellsFrom_markedCells_open (hdepth : depth ≠ 0) :
    ∃ depth' read', cellsFrom depth (some isHeader) read (markedCells (next :: row)) =
      cellsFrom depth' (some isHeader) read' (markedCells row) := by
  have hsplit : markedCells (next :: row) = ' ' :: (cellMark next.isHeader ++ ' ' :: (next.written ++ markedCells row)) := by
    simp [markedCells, Cell.marked]
  rw [hsplit, cellsFrom_other (by decide), cellsFrom_mark_open hdepth, cellsFrom_written]
  exact ⟨_, _, rfl⟩

/-! ### The cells that are read -/

/-- Every bracket is closed before the next cell begins. -/
def ClosesBrackets (row : List Cell) : Prop := ∀ cell ∈ row.dropLast, openBehind 0 cell.content = 0

instance (row : List Cell) : Decidable (ClosesBrackets row) := by
  unfold ClosesBrackets
  infer_instance

theorem closesBrackets_cons : ClosesBrackets (first :: next :: row) ↔
    openBehind 0 first.content = 0 ∧ ClosesBrackets (next :: row) := by
  rw [ClosesBrackets, List.dropLast_cons_cons, List.forall_mem_cons, ClosesBrackets]

/-- The cell without the blanks around it. -/
def Cell.trimmed (cell : Cell) : Cell := ⟨cell.isHeader, trim cell.content⟩

/-- There is something in the cell, and no blank at its ends. -/
def Cell.IsFilled (cell : Cell) : Prop := cell.content ≠ [] ∧ Trimmed isBlank cell.content

theorem Cell.IsFilled.trimmed_written (h : first.IsFilled) : Trimmed isBlank first.written :=
  trimmed_withLiteralBars h.2

theorem Cell.IsFilled.written_ne_nil (h : first.IsFilled) : first.written ≠ [] := by
  obtain ⟨c, others, hcontent⟩ := List.exists_cons_of_ne_nil h.1
  rw [Cell.written, hcontent]
  by_cases hc : c = '|'
  · rw [hc, withLiteralBars_bar]
    exact List.cons_ne_nil _ _
  · rw [withLiteralBars_cons hc]
    exact List.cons_ne_nil _ _

theorem Cell.IsFilled.isBlankText_readUp (h : first.IsFilled) : isBlankText first.readUp = false := by
  obtain ⟨c, others, hwritten⟩ := List.exists_cons_of_ne_nil h.written_ne_nil
  have hc := h.trimmed_written.head c (by rw [hwritten]; rfl)
  rw [Cell.readUp, hwritten, isBlankText]
  simp [hc]

/-- The spaces around the markup are not part of it. -/
theorem Cell.IsFilled.trim_readUp (h : first.IsFilled) {behind : List Char} (hbehind : behind.all isBlank = true) :
    trim (' ' :: (first.written ++ behind)) = first.written := by
  have hleft : trimLeftWith isBlank (' ' :: (first.written ++ behind)) = first.written ++ behind := by
    obtain ⟨c, others, hwritten⟩ := List.exists_cons_of_ne_nil h.written_ne_nil
    have hc := h.trimmed_written.head c (by rw [hwritten]; rfl)
    rw [hwritten, trimLeftWith, List.dropWhile_cons_of_pos (by decide)]
    exact List.dropWhile_cons_of_neg (by simp [hc])
  have hbehind' : behind.reverse.dropWhile isBlank = [] := by simpa using hbehind
  have hright : first.written.reverse.dropWhile isBlank = first.written.reverse :=
    trimLeftWith_eq_self (by simpa using h.trimmed_written.last)
  rw [trim, trimWith, hleft, trimRightWith, List.reverse_append, List.dropWhile_append, hbehind', List.isEmpty_nil,
    if_pos rfl, hright, List.reverse_reverse]

/-- If the brackets are closed, the cells are read that were written. -/
theorem cellsFrom_closed (hfilled : ∀ cell ∈ first :: row, cell.IsFilled) (h : ClosesBrackets (first :: row)) :
    (cellsFrom (openBehind 0 first.content) (some first.isHeader) first.readUp (markedCells row)).map Cell.trimmed =
      (first :: row).map fun cell => ⟨cell.isHeader, cell.written⟩ := by
  induction row generalizing first with
  | nil =>
    have hfirst := hfilled first List.mem_cons_self
    have hread : first.readUp.reverse = ' ' :: (first.written ++ []) := by simp [Cell.readUp]
    show (lastCell (some first.isHeader) first.readUp).map Cell.trimmed = _
    rw [lastCell, if_neg (by rw [hfirst.isBlankText_readUp]; decide), hread, List.map_singleton, Cell.trimmed,
      hfirst.trim_readUp rfl]
    rfl
  | cons next row ih =>
    obtain ⟨hopen, hrow⟩ := closesBrackets_cons.mp h
    have hread : (' ' :: first.readUp).reverse = ' ' :: (first.written ++ [' ']) := by simp [Cell.readUp]
    rw [hopen, cellsFrom_markedCells_closed, List.map_cons, ih (fun c hc => hfilled c (List.mem_cons_of_mem _ hc)) hrow,
      hread, Cell.trimmed, (hfilled first List.mem_cons_self).trim_readUp (by decide)]
    rfl

/-- No more cells are read than there are. -/
theorem length_cellsFrom_le (depth : Nat) (isHeader : Bool) (read : List Char) (row : List Cell) :
    (cellsFrom depth (some isHeader) read (markedCells row)).length ≤ row.length + 1 := by
  induction row generalizing depth isHeader read with
  | nil =>
    show (lastCell (some isHeader) read).length ≤ 1
    unfold lastCell
    dsimp only
    split <;> simp
  | cons next row ih =>
    by_cases hdepth : depth = 0
    · subst hdepth
      rw [cellsFrom_markedCells_closed]
      exact Nat.succ_le_succ (ih _ _ _)
    · obtain ⟨depth', read', heq⟩ := @cellsFrom_markedCells_open depth isHeader read next row hdepth
      rw [heq]
      exact (ih depth' isHeader read').trans (by simp)

/-- If a bracket is left open, fewer are read. -/
theorem length_cellsFrom_lt (h : ¬ ClosesBrackets (first :: row)) :
    (cellsFrom (openBehind 0 first.content) (some first.isHeader) first.readUp (markedCells row)).length <
      (first :: row).length := by
  induction row generalizing first with
  | nil => exact absurd (fun _ hc => nomatch hc) h
  | cons next row ih =>
    by_cases hopen : openBehind 0 first.content = 0
    · rw [hopen, cellsFrom_markedCells_closed]
      exact Nat.succ_lt_succ (ih fun hrow => h (closesBrackets_cons.mpr ⟨hopen, hrow⟩))
    · obtain ⟨depth', read', heq⟩ := @cellsFrom_markedCells_open _ first.isHeader first.readUp next row hopen
      rw [heq]
      exact Nat.lt_succ_of_le (length_cellsFrom_le depth' first.isHeader read' row)

/-- **A row that closes its brackets is split into the cells that were written.** -/
theorem splitRow_of_closed (hne : row ≠ []) (hfilled : ∀ cell ∈ row, cell.IsFilled) (h : ClosesBrackets row) :
    (splitRow (rowLine row)).map Cell.trimmed = row.map fun cell => ⟨cell.isHeader, cell.written⟩ := by
  obtain ⟨first, others, rfl⟩ := List.exists_cons_of_ne_nil hne
  rw [splitRow_rowLine, cellsFrom_closed hfilled h]

/-- **A row that does not is split into fewer.** -/
theorem length_splitRow_of_open (h : ¬ ClosesBrackets row) : (splitRow (rowLine row)).length < row.length := by
  cases row with
  | nil => exact absurd (fun _ hc => nomatch hc) h
  | cons first others =>
    rw [splitRow_rowLine]
    exact length_cellsFrom_lt h

end WikiMigration.Wiki
