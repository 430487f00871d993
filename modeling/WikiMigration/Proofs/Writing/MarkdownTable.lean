/-
Markdown tables, read by their bars.

A table is written row by row from the texts of its cells, each row filled up to the width of the widest, with a line
of dashes under the first.  A bar divides cells if an even number of backslashes stands before it.  Each bar of a cell
gets one backslash, and so no bar of a cell divides where the number before it was even: then every line of the table
has as many cells as the widest row, with the texts of its own row in them.  A bar of a cell that stands behind an odd
number of backslashes divides the cell that it is in.
-/
import WikiMigration.Proofs.Html.Forest
import WikiMigration.Proofs.Writing.Backslash
import WikiMigration.Proofs.Writing.Letters
import WikiMigration.Writing.Page

namespace WikiMigration.Writing

open Text Html

variable {dialect : Dialect} {place : Place} {text rest : List Char} {cells : List (List Char)}

/-! ### Elements and where they stand -/

mutual

/-- The elements with one of the names within a node that stands at a place, each with its own place, in document
order. -/
def placedInNode (names : List String) (place : Place) : Node → List (Place × Element)
  | .element name attributes children =>
    (if names.contains name then [(place, ⟨name, attributes, children⟩)] else [])
      ++ placedIn names (place.inside ⟨name, attributes, children⟩) children
  | .text _ => []
  | .aside _ => []
  | .comment _ => []
  | .doctype _ => []

/-- The elements with one of the names within some nodes that stand at a place, each with its own place, in document
order. -/
def placedIn (names : List String) (place : Place) : List Node → List (Place × Element)
  | [] => []
  | node :: rest => placedInNode names place node ++ placedIn names place rest

end

/-- The text of a cell on one line, as it is before its bars get their backslashes. -/
def lineOfCell (dialect : Dialect) (cell : Place × Element) : List Char :=
  trim (collapseBlanks (cellTexts cell.2.children
    (writeNodes dialect (cell.1.insideCell cell.2) [] cell.2.children)).flatten)

/-- The text with a backslash before every bar. -/
def escapeBars (text : List Char) : List Char := replaceAll ['|'] "\\|".toList text

/-- A cell as it is put into its row. -/
def putCell (dialect : Dialect) (cell : Place × Element) : WrittenCell :=
  ⟨cell.2.name == "th", escapeBars (lineOfCell dialect cell)⟩

/-- The cells of a row. -/
def cellsOfRow (row : Place × Element) : List (Place × Element) :=
  placedIn ["td", "th"] (row.1.inside row.2) row.2.children

theorem isCell_eq (name : String) : Place.isCell name = ["td", "th"].contains name := by
  rw [Place.isCell, List.contains_cons, List.contains_cons, List.contains_nil, Bool.or_false]

/-- **The cells that are handed on are those in the nodes**, wherever they stand. -/
theorem cells_writeNodes (dialect : Dialect) (nodes : List Node) : ∀ (place : Place) (before : List Node),
    (writeNodes dialect place before nodes).flatMap Written.cells =
      (placedIn ["td", "th"] place nodes).map (putCell dialect) := by
  induction nodes using forest_induction with
  | nil => exact fun _ _ => rfl
  | element name attributes children rest hchildren hrest =>
    intro place before
    rw [writeNodes, List.flatMap_cons, hrest, placedIn, placedInNode, List.map_append, List.map_append, ← hchildren _ []]
    congr 1
    simp only [writeNode, isCell_eq]
    split <;> rfl
  | leaf node rest hleaf hrest =>
    intro place before
    rw [writeNodes, List.flatMap_cons, hrest, placedIn]
    cases node with
    | element => cases hleaf
    | text | aside | comment | doctype => rfl

/-- **The rows that are handed on are those in the nodes**, each with its cells. -/
theorem rows_writeNodes (dialect : Dialect) (nodes : List Node) : ∀ (place : Place) (before : List Node),
    (writeNodes dialect place before nodes).flatMap Written.rows =
      ((placedIn ["tr"] place nodes).map cellsOfRow).map fun row => row.map (putCell dialect) := by
  induction nodes using forest_induction with
  | nil => exact fun _ _ => rfl
  | element name attributes children rest hchildren hrest =>
    intro place before
    rw [writeNodes, List.flatMap_cons, hrest, placedIn, placedInNode]
    simp only [List.map_append]
    rw [← hchildren _ []]
    congr 1
    by_cases hrow : name = "tr"
    · subst hrow
      simp [writeNode, Place.isCell, cellsOfRow, cells_writeNodes]
    · simp [writeNode, hrow]
  | leaf node rest hleaf hrest =>
    intro place before
    rw [writeNodes, List.flatMap_cons, hrest, placedIn]
    cases node with
    | element => cases hleaf
    | text | aside | comment | doctype => rfl

/-- The texts of the cells of a table, row by row; rows without cells are left out. -/
def tableTexts (dialect : Dialect) (place : Place) (table : Element) : List (List (List Char)) :=
  (((placedIn ["tr"] (place.inside table) table.children).map cellsOfRow).map fun row =>
    row.map (lineOfCell dialect)).filter fun row => !row.isEmpty

/-! ### Rows -/

/-- The number of cells in the widest row. -/
def widest (texts : List (List (List Char))) : Nat := texts.foldr (fun row width => max row.length width) 0

/-- The texts of a row with their bars escaped, filled up to a width. -/
def filledRow (width : Nat) (row : List (List Char)) : List (List Char) :=
  row.map escapeBars ++ List.replicate (width - row.length) []

/-- The rows of a Markdown table, with that of dashes under the first. -/
def tableRows (texts : List (List (List Char))) : List (List (List Char)) :=
  match texts with
  | [] => []
  | first :: rest =>
    filledRow (widest texts) first :: List.replicate (widest texts) "---".toList :: rest.map (filledRow (widest texts))

theorem filledRows_put (rows : List (List (Place × Element))) :
    filledRows (rows.map fun row => row.map (putCell dialect)) =
      (rows.filter fun row => !row.isEmpty).map fun row => row.map (putCell dialect) := by
  rw [filledRows, List.filter_map]
  simp [Function.comp_def]

theorem markdownTableLines_put (rows : List (List (Place × Element))) :
    markdownTableLines (rows.map fun row => row.map (putCell dialect)) =
      (tableRows (rows.map fun row => row.map (lineOfCell dialect))).map markdownRow := by
  have hwidth : tableWidth (rows.map fun row => row.map (putCell dialect)) =
      widest (rows.map fun row => row.map (lineOfCell dialect)) := by
    simp [tableWidth, widest, List.foldr_map]
  have hrow : ∀ (width : Nat) (row : List (Place × Element)),
      paddedRow width (row.map (putCell dialect)) = filledRow width (row.map (lineOfCell dialect)) := by
    simp [paddedRow, filledRow, putCell, Function.comp_def]
  cases rows with
  | nil => rfl
  | cons first others =>
    rw [List.map_cons] at hwidth ⊢
    simp only [markdownTableLines, hwidth, hrow]
    simp [tableRows, hrow, Function.comp_def]

/-- A table is written from the texts of its cells. -/
theorem text_writeNode_table (place : Place) (before behind : List Node) (attributes : List Attribute)
    (children : List Node) (h : tableTexts .markdown place ⟨"table", attributes, children⟩ ≠ []) :
    (writeNode .markdown place before behind (.element "table" attributes children)).text =
      "\n\n".toList
        ++ unlines ((tableRows (tableTexts .markdown place ⟨"table", attributes, children⟩)).map markdownRow)
        ++ "\n\n".toList := by
  have hlines : ∀ rows : List (List (Place × Element)), markdownTableLines (filledRows (rows.map fun row =>
      row.map (putCell .markdown))) =
        (tableRows ((rows.map fun row => row.map (lineOfCell .markdown)).filter fun row => !row.isEmpty)).map
          markdownRow := by
    intro rows
    rw [filledRows_put, markdownTableLines_put, List.filter_map]
    simp [Function.comp_def]
  have hne : tableRows (tableTexts .markdown place ⟨"table", attributes, children⟩) ≠ [] := by
    cases htexts : tableTexts .markdown place ⟨"table", attributes, children⟩ with
    | nil => exact absurd htexts h
    | cons first others => exact List.cons_ne_nil _ _
  have htext : (writeNode .markdown place before behind (.element "table" attributes children)).text =
      markdownTable ((writeNodes .markdown (place.inside ⟨"table", attributes, children⟩) [] children).flatMap
        Written.rows) := rfl
  rw [htext, rows_writeNodes, markdownTable, hlines, ← tableTexts, if_neg (by simpa using hne)]

/-! ### Reading bars -/

/-- How many backslashes stand in a row behind a character, for those that stand in a row before it. -/
def slashesBehind (slashes : Nat) (c : Char) : Nat := if c == '\\' then slashes + 1 else 0

/-- The pieces between the bars that an even number of backslashes stands before; `slashes` counts those that stand
right before the text. -/
def barPiecesFrom (slashes : Nat) : List Char → List (List Char)
  | [] => [[]]
  | c :: rest =>
    if c == '|' && slashes % 2 == 0 then [] :: barPiecesFrom 0 rest
    else (barPiecesFrom (slashesBehind slashes c) rest).modifyHead (c :: ·)

/-- The pieces between the bars that an even number of backslashes stands before. -/
def barPieces (text : List Char) : List (List Char) := barPiecesFrom 0 text

/-- Every bar of the text has an even number of backslashes before it. -/
def HasBareBars (text : List Char) : Prop := ∀ before after, text = before ++ '|' :: after → Even (backslashesAtEnd before)

theorem barPiecesFrom_ne_nil (slashes : Nat) (text : List Char) : barPiecesFrom slashes text ≠ [] := by
  cases text with
  | nil => exact List.cons_ne_nil _ _
  | cons c rest =>
    rw [barPiecesFrom]
    split
    · exact List.cons_ne_nil _ _
    · simpa using barPiecesFrom_ne_nil (slashesBehind slashes c) rest

theorem modifyHead_append {α : Type} {f : α → α} {xs : List α} (h : xs ≠ []) (ys : List α) :
    (xs ++ ys).modifyHead f = xs.modifyHead f ++ ys := by
  cases xs with
  | nil => exact absurd rfl h
  | cons x xs => rfl

/-- A bar that an even number of backslashes stands before ends a piece. -/
theorem barPiecesFrom_bar (slashes : Nat) (text rest : List Char) (h : text.foldl slashesBehind slashes % 2 = 0) :
    barPiecesFrom slashes (text ++ '|' :: rest) = barPiecesFrom slashes text ++ barPieces rest := by
  induction text generalizing slashes with
  | nil =>
    rw [List.foldl_nil] at h
    simp [barPiecesFrom, h, barPieces]
  | cons c more ih =>
    rw [List.cons_append, barPiecesFrom, barPiecesFrom]
    by_cases hbar : (c == '|' && slashes % 2 == 0) = true
    · have hc : c = '|' := by simpa using (Bool.and_eq_true_iff.mp hbar).1
      rw [List.foldl_cons, hc] at h
      rw [if_pos hbar, if_pos hbar, List.cons_append, ih 0 h]
    · rw [if_neg hbar, if_neg hbar, ih _ h, modifyHead_append (barPiecesFrom_ne_nil _ _)]

/-- A text that no bar divides is its only piece. -/
theorem barPiecesFrom_of_length (slashes : Nat) (h : (barPiecesFrom slashes text).length = 1) :
    barPiecesFrom slashes text = [text] := by
  induction text generalizing slashes with
  | nil => rfl
  | cons c rest ih =>
    rw [barPiecesFrom] at h ⊢
    split at h
    · have hne := List.length_pos_of_ne_nil (barPiecesFrom_ne_nil 0 rest)
      rw [List.length_cons] at h
      omega
    · next hbar =>
      rw [List.length_modifyHead] at h
      rw [if_neg hbar, ih _ h]
      rfl

theorem foldl_slashesBehind (text : List Char) : text.foldl slashesBehind 0 = backslashesAtEnd text := by
  induction text using List.reverseRecOn with
  | nil => rfl
  | append_singleton before c ih =>
    rw [List.foldl_append, ih, List.foldl_cons, List.foldl_nil, slashesBehind]
    by_cases hc : c = '\\'
    · rw [hc, backslashesAtEnd_concat]
      rfl
    · rw [if_neg (by simpa using hc), backslashesAtEnd_eq_zero (by simpa using hc)]

/-! ### Cells in their row -/

theorem escapeBars_bar (rest : List Char) : escapeBars ('|' :: rest) = '\\' :: '|' :: escapeBars rest :=
  replaceAll_found (by simp) rest

theorem escapeBars_cons (hc : c ≠ '|') (rest : List Char) : escapeBars (c :: rest) = c :: escapeBars rest :=
  replaceAll_of_ne hc []

/-- A bar that is not the first character stands behind the first. -/
theorem even_slashes_cons {slashes : Nat} (hc : c = '|' → Even slashes) :
    (∀ before after, c :: rest = before ++ '|' :: after → Even (before.foldl slashesBehind slashes)) ↔
      ∀ before after, rest = before ++ '|' :: after → Even (before.foldl slashesBehind (slashesBehind slashes c)) := by
  refine ⟨fun h before after hsplit => h (c :: before) after (by rw [hsplit]; rfl), fun h before after hsplit => ?_⟩
  cases before with
  | nil => exact hc (List.cons.inj hsplit).1
  | cons d before =>
    obtain ⟨rfl, hrest⟩ := List.cons.inj hsplit
    exact h before after hrest

/-- **A bar of a cell divides it if an odd number of backslashes stood before**, for it gets one more. -/
theorem length_barPiecesFrom_escapeBars (slashes : Nat) (text : List Char) :
    (barPiecesFrom slashes (escapeBars text ++ [' '])).length = 1 ↔
      ∀ before after, text = before ++ '|' :: after → Even (before.foldl slashesBehind slashes) := by
  induction text generalizing slashes with
  | nil => simp [escapeBars, replaceAll, replaceFrom, barPiecesFrom]
  | cons c rest ih =>
    by_cases hc : c = '|'
    · subst hc
      rw [escapeBars_bar]
      by_cases heven : slashes % 2 = 0
      · have hodd : (slashes + 1) % 2 ≠ 0 := by omega
        have hpieces : (barPiecesFrom slashes ('\\' :: '|' :: escapeBars rest ++ [' '])).length =
            (barPiecesFrom 0 (escapeBars rest ++ [' '])).length := by
          simp [barPiecesFrom, slashesBehind, hodd]
        rw [hpieces, ih 0, even_slashes_cons fun _ => Nat.even_iff.mpr heven]
        rfl
      · have heven' : (slashes + 1) % 2 = 0 := by omega
        have hpieces : (barPiecesFrom slashes ('\\' :: '|' :: escapeBars rest ++ [' '])).length =
            (barPiecesFrom 0 (escapeBars rest ++ [' '])).length + 1 := by
          simp [barPiecesFrom, slashesBehind, heven']
        have hne := List.length_pos_of_ne_nil (barPiecesFrom_ne_nil 0 (escapeBars rest ++ [' ']))
        rw [hpieces]
        refine ⟨fun h => by omega, fun h => absurd (Nat.even_iff.mp (h [] rest rfl)) heven⟩
    · have hpieces : (barPiecesFrom slashes (escapeBars (c :: rest) ++ [' '])).length =
          (barPiecesFrom (slashesBehind slashes c) (escapeBars rest ++ [' '])).length := by
        rw [escapeBars_cons hc, List.cons_append, barPiecesFrom, if_neg (by simp [hc]), List.length_modifyHead]
      rw [hpieces, ih, even_slashes_cons fun h => absurd h hc]

/-- A cell in its row is one piece if its bars are bare. -/
theorem length_barPieces_spaced (text : List Char) :
    (barPieces (spaced (escapeBars text))).length = 1 ↔ HasBareBars text := by
  have hpieces : (barPieces (spaced (escapeBars text))).length = (barPiecesFrom 0 (escapeBars text ++ [' '])).length := by
    rw [barPieces, spaced, List.cons_append, barPiecesFrom, if_neg (by decide), List.length_modifyHead]
    rfl
  rw [hpieces, length_barPiecesFrom_escapeBars, HasBareBars]
  simp only [foldl_slashesBehind]

theorem markdownRow_eq (h : cells ≠ []) : markdownRow cells = '|' :: cells.flatMap fun cell => spaced cell ++ ['|'] := by
  induction cells with
  | nil => exact absurd rfl h
  | cons cell others ih =>
    cases others with
    | nil => simp [markdownRow, joinWith, spaced]
    | cons next more =>
      have hmore : ' ' :: (joinWith " | ".toList (next :: more) ++ " |".toList) =
          (next :: more).flatMap fun cell => spaced cell ++ ['|'] :=
        (List.cons.inj (ih (List.cons_ne_nil next more))).2
      rw [List.flatMap_cons, ← hmore, markdownRow, joinWith_cons _ _ (List.cons_ne_nil next more)]
      simp [spaced]

/-- **The pieces of a row are those of its cells**, with nothing before its first bar and behind its last. -/
theorem barPieces_markdownRow (h : cells ≠ []) :
    barPieces (markdownRow cells) = [] :: cells.flatMap (fun cell => barPieces (spaced cell)) ++ [[]] := by
  have hcells : ∀ cells : List (List Char), barPieces (cells.flatMap fun cell => spaced cell ++ ['|']) =
      cells.flatMap (fun cell => barPieces (spaced cell)) ++ [[]] := by
    intro cells
    induction cells with
    | nil => rfl
    | cons cell others ih =>
      have hlast : (spaced cell).getLast? ≠ some '\\' := by
        rw [spaced, List.getLast?_concat]
        decide
      have heven : (spaced cell).foldl slashesBehind 0 % 2 = 0 := by
        rw [foldl_slashesBehind, backslashesAtEnd_eq_zero hlast]
      rw [List.flatMap_cons, List.flatMap_cons, List.append_assoc, List.singleton_append, List.append_assoc, ← ih]
      exact barPiecesFrom_bar 0 (spaced cell) _ heven
  rw [markdownRow_eq h, List.cons_append, ← hcells]
  rfl

/-- As many pieces as cells are one piece for each. -/
theorem length_flatMap_eq_iff {α β : Type} {xs : List α} {f : α → List β} (hne : ∀ x ∈ xs, f x ≠ []) :
    ((xs.flatMap f).length = xs.length) ↔ ∀ x ∈ xs, (f x).length = 1 := by
  have hle : ∀ {xs : List α}, (∀ x ∈ xs, f x ≠ []) → xs.length ≤ (xs.flatMap f).length := by
    intro xs hne
    induction xs with
    | nil => exact Nat.le_refl 0
    | cons x xs ih =>
      have hfirst := List.length_pos_of_ne_nil (hne x List.mem_cons_self)
      have hothers := ih fun y hy => hne y (List.mem_cons_of_mem x hy)
      rw [List.flatMap_cons, List.length_append, List.length_cons]
      omega
  induction xs with
  | nil => simp
  | cons x xs ih =>
    have hothers : ∀ y ∈ xs, f y ≠ [] := fun y hy => hne y (List.mem_cons_of_mem x hy)
    have hfirst := List.length_pos_of_ne_nil (hne x List.mem_cons_self)
    have hmore := hle hothers
    rw [List.forall_mem_cons, List.flatMap_cons, List.length_append, List.length_cons]
    refine ⟨fun h => ⟨by omega, (ih hothers).mp (by omega)⟩, fun h => ?_⟩
    have hrest := (ih hothers).mpr h.2
    omega

/-- The cells that a line is divided into by its bars. -/
def barCells (line : List Char) : List (List Char) := (barPieces line).tail.dropLast

theorem barCells_markdownRow (h : cells ≠ []) :
    barCells (markdownRow cells) = cells.flatMap fun cell => barPieces (spaced cell) := by
  rw [barCells, barPieces_markdownRow h, List.cons_append, List.tail_cons, List.dropLast_concat]

/-- A row is read with as many cells as it has if each of them is one piece. -/
theorem length_barCells_markdownRow (h : cells ≠ []) :
    (barCells (markdownRow cells)).length = cells.length ↔ ∀ cell ∈ cells, (barPieces (spaced cell)).length = 1 := by
  rw [barCells_markdownRow h]
  exact length_flatMap_eq_iff fun cell _ => barPiecesFrom_ne_nil 0 (spaced cell)

theorem barCells_of_length (h : cells ≠ []) (hone : ∀ cell ∈ cells, (barPieces (spaced cell)).length = 1) :
    barCells (markdownRow cells) = cells.map spaced := by
  rw [barCells_markdownRow h, List.map_eq_flatMap]
  exact List.flatMap_congr fun cell hcell => barPiecesFrom_of_length 0 (hone cell hcell)

/-! ### The table -/

section Table

variable {row : List (List Char)} {texts : List (List (List Char))}

theorem length_le_widest (h : row ∈ texts) : row.length ≤ widest texts := by
  induction texts with
  | nil => cases h
  | cons first others ih =>
    rcases List.mem_cons.mp h with rfl | h
    · exact Nat.le_max_left _ _
    · exact (ih h).trans (Nat.le_max_right _ _)

theorem length_filledRow (h : row ∈ texts) : (filledRow (widest texts) row).length = widest texts := by
  have hle := length_le_widest h
  rw [filledRow, List.length_append, List.length_map, List.length_replicate]
  omega

theorem mem_tableRows (hne : texts ≠ []) : cells ∈ tableRows texts ↔
    cells = List.replicate (widest texts) "---".toList ∨ ∃ row ∈ texts, cells = filledRow (widest texts) row := by
  obtain ⟨first, others, rfl⟩ := List.exists_cons_of_ne_nil hne
  rw [tableRows, List.mem_cons, List.mem_cons, List.mem_map, List.exists_mem_cons_iff, or_left_comm]
  simp only [eq_comm]

/-- Every cell of a filled row is one piece if the bars of its texts are bare. -/
theorem forall_filledRow (width : Nat) (row : List (List Char)) :
    (∀ cell ∈ filledRow width row, (barPieces (spaced cell)).length = 1) ↔ ∀ text ∈ row, HasBareBars text := by
  have hblank : (barPieces (spaced [])).length = 1 := by decide
  rw [filledRow, List.forall_mem_append, List.forall_mem_map]
  refine ⟨fun h text htext => (length_barPieces_spaced text).mp (h.1 text htext), fun h => ⟨?_, ?_⟩⟩
  · exact fun text htext => (length_barPieces_spaced text).mpr (h text htext)
  · exact fun cell hcell => List.eq_of_mem_replicate hcell ▸ hblank

theorem forall_tableRows (hne : texts ≠ []) :
    (∀ cells ∈ tableRows texts, ∀ cell ∈ cells, (barPieces (spaced cell)).length = 1) ↔
      ∀ row ∈ texts, ∀ text ∈ row, HasBareBars text := by
  have hdashes : (barPieces (spaced "---".toList)).length = 1 := by decide
  refine ⟨fun h row hrow => (forall_filledRow _ row).mp (h _ ((mem_tableRows hne).mpr (.inr ⟨row, hrow, rfl⟩))), ?_⟩
  intro h cells hcells
  rcases (mem_tableRows hne).mp hcells with rfl | ⟨row, hrow, rfl⟩
  · exact fun cell hcell => List.eq_of_mem_replicate hcell ▸ hdashes
  · exact (forall_filledRow _ row).mpr (h row hrow)

theorem length_of_mem_tableRows (hne : texts ≠ []) (h : cells ∈ tableRows texts) : cells.length = widest texts := by
  rcases (mem_tableRows hne).mp h with rfl | ⟨row, hrow, rfl⟩
  · exact List.length_replicate
  · exact length_filledRow hrow

/-- The lines are a table of the texts, that has as many columns as the widest row of them. -/
structure IsTableOf (texts : List (List (List Char))) (lines : List (List Char)) : Prop where
  oneLine : ∀ line ∈ lines, '\n' ∉ line
  count : lines.length = texts.length + 1
  dashes : lines[1]? = some (markdownRow (List.replicate (widest texts) "---".toList))
  rectangular : (∀ line ∈ lines, (barCells line).length = widest texts) ↔
    ∀ row ∈ texts, ∀ text ∈ row, HasBareBars text
  cells : (∀ row ∈ texts, ∀ text ∈ row, HasBareBars text) →
    lines.map barCells = (tableRows texts).map fun cells => cells.map spaced

theorem feed_not_mem_markdownRow (h : ∀ cell ∈ cells, '\n' ∉ cell) : '\n' ∉ markdownRow cells := by
  intro hmem
  rcases List.mem_append.mp hmem with hmem | hmem
  · rcases List.mem_append.mp hmem with hmem | hmem
    · exact absurd hmem (by decide)
    · rcases mem_joinWith hmem with hmem | ⟨cell, hcell, hmem⟩
      · exact absurd hmem (by decide)
      · exact h cell hcell hmem
  · exact absurd hmem (by decide)

theorem feed_not_mem_escapeBars (h : '\n' ∉ text) : '\n' ∉ escapeBars text := by
  rw [escapeBars, replaceAll_char]
  intro hmem
  obtain ⟨c, hc, hmem⟩ := List.mem_flatMap.mp hmem
  split at hmem
  · exact absurd hmem (by decide)
  · exact h (List.mem_singleton.mp hmem ▸ hc)

theorem isTableOf_tableRows (hne : texts ≠ []) (hfilled : ∀ row ∈ texts, row ≠ [])
    (hfeed : ∀ row ∈ texts, ∀ text ∈ row, '\n' ∉ text) : IsTableOf texts ((tableRows texts).map markdownRow) := by
  have hwidth : 0 < widest texts := by
    obtain ⟨first, others, rfl⟩ := List.exists_cons_of_ne_nil hne
    exact (List.length_pos_of_ne_nil (hfilled first List.mem_cons_self)).trans_le (length_le_widest List.mem_cons_self)
  have hcells : ∀ cells ∈ tableRows texts, cells ≠ [] := fun cells h =>
    List.ne_nil_of_length_pos (length_of_mem_tableRows hne h ▸ hwidth)
  constructor
  case oneLine =>
    intro line hline
    obtain ⟨cells, h, rfl⟩ := List.mem_map.mp hline
    refine feed_not_mem_markdownRow fun cell hcell => ?_
    rcases (mem_tableRows hne).mp h with rfl | ⟨row, hrow, rfl⟩
    · rw [List.eq_of_mem_replicate hcell]
      decide
    · rcases List.mem_append.mp hcell with hcell | hcell
      · obtain ⟨text, htext, rfl⟩ := List.mem_map.mp hcell
        exact feed_not_mem_escapeBars (hfeed row hrow text htext)
      · rw [List.eq_of_mem_replicate hcell]
        exact List.not_mem_nil
  case count =>
    obtain ⟨first, others, rfl⟩ := List.exists_cons_of_ne_nil hne
    simp [tableRows]
  case dashes =>
    obtain ⟨first, others, rfl⟩ := List.exists_cons_of_ne_nil hne
    rfl
  case rectangular =>
    rw [List.forall_mem_map, ← forall_tableRows hne]
    refine forall₂_congr fun cells h => ?_
    rw [← length_of_mem_tableRows hne h]
    exact length_barCells_markdownRow (hcells cells h)
  case cells =>
    intro hbare
    rw [List.map_map]
    exact List.map_congr_left fun cells h =>
      barCells_of_length (hcells cells h) ((forall_tableRows hne).mpr hbare cells h)

end Table

/-- A text on one line holds no line break. -/
theorem feed_not_mem_collapseFrom (pending : Bool) (text : List Char) : '\n' ∉ collapseFrom pending text := by
  induction text generalizing pending with
  | nil => cases pending <;> decide
  | cons c rest ih =>
    rw [collapseFrom]
    split
    · exact ih true
    · next hc =>
      have hne : '\n' ≠ c := fun h => hc (h ▸ by decide)
      split
      · simp [hne, ih]
      · simp [hne, ih]

/-- **A table is rectangular if no bar of a cell stands behind an odd number of backslashes.**  It has a line for every
row with cells and one of dashes under the first.  Where all bars of the cells are bare, every line has as many cells
as the widest row, and they are the texts of its row with their bars escaped, and blanks behind them. -/
theorem table_rectangular_iff (place : Place) (before behind : List Node) (attributes : List Attribute)
    (children : List Node) (h : tableTexts .markdown place ⟨"table", attributes, children⟩ ≠ []) :
    ∃ lines, (writeNode .markdown place before behind (.element "table" attributes children)).text =
        "\n\n".toList ++ unlines lines ++ "\n\n".toList ∧
      IsTableOf (tableTexts .markdown place ⟨"table", attributes, children⟩) lines := by
  refine ⟨_, text_writeNode_table place before behind attributes children h, isTableOf_tableRows h ?_ ?_⟩
  · intro row hrow
    simpa using (List.mem_filter.mp hrow).2
  · intro row hrow text htext
    obtain ⟨cells, -, rfl⟩ := List.mem_map.mp (List.mem_filter.mp hrow).1
    obtain ⟨cell, -, rfl⟩ := List.mem_map.mp htext
    exact fun hmem => feed_not_mem_collapseFrom false _ (mem_of_mem_trim hmem)

/-- A row of a table, for the texts of its cells. -/
def rowOf (texts : List String) : Node :=
  .element "tr" [] (texts.map fun text => .element "td" [] [.text text.toList])

/-- A row that is short is filled up, and a bar gets a backslash. -/
theorem ragged_table_filled :
    tableTexts .markdown .outside ⟨"table", [], [rowOf ["a", "b|c"], rowOf ["d"]]⟩ =
        [["a".toList, "b|c".toList], ["d".toList]] ∧
      ∃ lines, (writeNode .markdown .outside [] [] (.element "table" [] [rowOf ["a", "b|c"], rowOf ["d"]])).text =
          "\n\n".toList ++ unlines lines ++ "\n\n".toList ∧
        IsTableOf (tableTexts .markdown .outside ⟨"table", [], [rowOf ["a", "b|c"], rowOf ["d"]]⟩) lines :=
  ⟨by decide, table_rectangular_iff .outside [] [] [] _ (by decide)⟩

/-- A backslash of a cell pairs with the one before a bar: the only cell of the table is written as two. -/
theorem bar_behind_backslash_divides :
    widest (tableTexts .markdown .outside ⟨"table", [], [rowOf ["a\\|b"]]⟩) = 1 ∧
      (writeNode .markdown .outside [] [] (.element "table" [] [rowOf ["a\\|b"]])).text =
        "\n\n".toList ++ unlines ["| a\\\\|b |".toList, "| --- |".toList] ++ "\n\n".toList ∧
      barCells "| a\\\\|b |".toList = [" a\\\\".toList, "b ".toList] := by
  decide

end WikiMigration.Writing
