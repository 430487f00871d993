/-
Tables on their way to a wiki page and back.

Every row of a table is written as one line, with a mark before each cell, and the line is read as a row again.
The table comes back if no bracket of a cell swallows the next one, and every cell comes back.
-/
import WikiMigration.Proofs.Writing.WikiCell

namespace WikiMigration.Conversion

open Text Html Wiki Writing

variable {c : Char} {line : List Char} {cell first : Cell} {nodes children : List Node} {lines : List (List Char)}

section Lines

variable {row : List Cell}

/-! ### The line of a row -/

/-- A bar that was given a backslash gets a tilde instead. -/
theorem replaceAll_bars (text : List Char) :
    replaceAll "\\|".toList "~|".toList (replaceAll ['|'] "\\|".toList text) = withLiteralBars text := by
  have hmark : "\\|".toList = ['\\', '|'] := by decide
  rw [hmark]
  induction text with
  | nil => rfl
  | cons c rest ih =>
    by_cases hbar : c = '|'
    · subst hbar
      have hslash : replaceAll ['|'] ['\\', '|'] ('|' :: rest) = ['\\', '|'] ++ replaceAll ['|'] ['\\', '|'] rest :=
        replaceAll_found (by decide) rest
      rw [hslash, replaceAll_found (by decide), ih, withLiteralBars_bar]
      rfl
    · -- What follows a backslash of the text is no bar, for every bar has a backslash of its own.
      have hhead : (replaceAll ['|'] ['\\', '|'] rest).head? ≠ some '|' := by
        rw [replaceAll_char]
        cases rest with
        | nil => exact nofun
        | cons d others =>
          rw [List.flatMap_cons]
          by_cases hd : d = '|'
          · rw [if_pos hd]
            exact fun h => absurd (Option.some.inj h) (by decide)
          · rw [if_neg hd]
            exact fun h => hd (Option.some.inj h)
      have hkept : ¬ ['\\', '|'] <+: c :: replaceAll ['|'] ['\\', '|'] rest := by
        intro hprefix
        obtain ⟨behind, hbehind⟩ := (List.cons_prefix_cons.mp hprefix).2
        exact hhead (by rw [← hbehind]; rfl)
      rw [replaceAll_of_ne hbar, replaceAll_kept hkept, withLiteralBars_cons hbar, ih]

/-- A cell of markup as it is put into its row. -/
def asWritten (cell : Cell) : WrittenCell := ⟨cell.isHeader, cellText cell.content⟩

theorem wikiCell_asWritten (h : IsTextLine cell.content) : wikiCell (asWritten cell) = cell.marked ++ [' '] := by
  have htext : cellText cell.content = replaceAll ['|'] "\\|".toList cell.content := by
    rw [cellText, collapseBlanks_eq_self (fun _ => h.eq_space) h.single, h.trim_eq]
  rw [wikiCell, asWritten, htext, replaceAll_bars]
  rfl

theorem isFilled (h : IsTextLine cell.content) : cell.IsFilled := ⟨h.ne_nil, h.trimmed⟩

theorem getLast?_rowLine (hfilled : ∀ cell ∈ first :: row, cell.IsFilled) :
    ∀ c ∈ (rowLine (first :: row)).getLast?, isBlank c = false := by
  induction row generalizing first with
  | nil =>
    have hfirst := hfilled first List.mem_cons_self
    have hline : rowLine [first] = (cellMark first.isHeader ++ [' ']) ++ first.written := by
      simp [rowLine, markedCells, Cell.marked]
    rw [hline, List.getLast?_append_of_ne_nil _ hfirst.written_ne_nil]
    exact hfirst.trimmed_written.last
  | cons next row ih =>
    have hline : rowLine (first :: next :: row) = (first.marked ++ [' ']) ++ rowLine (next :: row) := by
      simp [rowLine, markedCells]
    have hne : rowLine (next :: row) ≠ [] := by
      rw [rowLine, Cell.marked]
      simp
    rw [hline, List.getLast?_append_of_ne_nil _ hne]
    exact ih fun c hc => hfilled c (List.mem_cons_of_mem _ hc)

theorem head?_rowLine (hne : row ≠ []) : (rowLine row).head? = some '|' := by
  obtain ⟨first, others, rfl⟩ := List.exists_cons_of_ne_nil hne
  rw [rowLine, Cell.marked, cellMark]
  cases first.isHeader <;> rfl

/-- **A row is written as one line**, each cell with its mark. -/
theorem wikiRow_eq (hne : row ≠ []) (h : ∀ cell ∈ row, IsTextLine cell.content) :
    wikiRow (row.map asWritten) = rowLine row := by
  obtain ⟨first, others, rfl⟩ := List.exists_cons_of_ne_nil hne
  have hcells : ∀ row : List Cell, (∀ cell ∈ row, IsTextLine cell.content) →
      ' ' :: (row.map asWritten).flatMap wikiCell = markedCells row ++ [' '] := by
    intro row hrow
    induction row with
    | nil => rfl
    | cons cell row ih =>
      rw [List.map_cons, List.flatMap_cons, wikiCell_asWritten (hrow cell List.mem_cons_self), List.append_assoc,
        List.singleton_append, ih fun c hc => hrow c (List.mem_cons_of_mem _ hc)]
      simp [markedCells]
  have hline : ((first :: others).map asWritten).flatMap wikiCell = rowLine (first :: others) ++ [' '] := by
    rw [List.map_cons, List.flatMap_cons, wikiCell_asWritten (h first List.mem_cons_self), List.append_assoc,
      List.singleton_append, hcells others fun c hc => h c (List.mem_cons_of_mem _ hc), rowLine, List.append_assoc]
  have hlast := getLast?_rowLine fun cell hcell => isFilled (h cell hcell)
  rw [wikiRow, hline, trimRight, trimRightWith, List.reverse_append]
  exact trimRightWith_eq_self hlast

theorem not_mem_rowLine (htilde : c ≠ '~') (hbar : c ≠ '|') (hspace : c ≠ ' ') (h : ∀ cell ∈ row, c ∉ cell.content) :
    c ∉ rowLine row := by
  have hmarked : ∀ cell ∈ row, c ∉ cell.marked := by
    intro cell hcell hmem
    rcases List.mem_append.mp hmem with hmem | hmem
    · unfold cellMark at hmem
      split at hmem <;> simp [hbar] at hmem
    · rcases List.mem_cons.mp hmem with rfl | hmem
      · exact hspace rfl
      · exact h cell hcell ((mem_withLiteralBars hmem).resolve_left htilde)
  cases row with
  | nil => exact List.not_mem_nil
  | cons first row =>
    intro hmem
    rcases List.mem_append.mp hmem with hmem | hmem
    · exact hmarked first List.mem_cons_self hmem
    · obtain ⟨cell, hcell, hmem⟩ := List.mem_flatMap.mp hmem
      rcases List.mem_cons.mp hmem with rfl | hmem
      · exact hspace rfl
      · exact hmarked cell (List.mem_cons_of_mem first hcell) hmem

end Lines

/-! ### The table -/

/-- A cell of a table. -/
structure TableCell where
  isHeader : Bool
  content : Content

namespace TableCell

/-- The cell with its markup. -/
def inMarkup (cell : TableCell) : Cell := ⟨cell.isHeader, cell.content.markup⟩

/-- The cell with its HTML. -/
def inHtml (cell : TableCell) : Cell := ⟨cell.isHeader, cell.content.html⟩

end TableCell

/-- The name of a cell's element. -/
def cellName (isHeader : Bool) : String := if isHeader then "th" else "td"

/-- The nodes hold cells, and between them only text. -/
inductive HoldsCells : List Node → List TableCell → Prop
  | nil : HoldsCells [] []
  | text (content : List Char) {nodes : List Node} {row : List TableCell} (rest : HoldsCells nodes row) :
    HoldsCells (.text content :: nodes) row
  | cell (isHeader : Bool) (attributes : List Attribute) {content : Content} {children nodes : List Node}
    {row : List TableCell} (inside : content.IsIn children) (rest : HoldsCells nodes row) :
    HoldsCells (.element (cellName isHeader) attributes children :: nodes) (⟨isHeader, content⟩ :: row)

/-- The nodes hold rows of cells, in the parts of a table or not, and between them only text. -/
inductive HoldsRows : List Node → List (List TableCell) → Prop
  | nil : HoldsRows [] []
  | text (content : List Char) {nodes : List Node} {rows : List (List TableCell)} (rest : HoldsRows nodes rows) :
    HoldsRows (.text content :: nodes) rows
  | row (attributes : List Attribute) {children nodes : List Node} {row : List TableCell}
    {rows : List (List TableCell)} (cells : HoldsCells children row) (rest : HoldsRows nodes rows) :
    HoldsRows (.element "tr" attributes children :: nodes) (row :: rows)
  | part {name : String} (attributes : List Attribute) {children nodes : List Node}
    {inner rows : List (List TableCell)} (isPart : name ∈ ["thead", "tbody", "tfoot"]) (inside : HoldsRows children inner)
    (rest : HoldsRows nodes rows) : HoldsRows (.element name attributes children :: nodes) (inner ++ rows)

section Nodes

variable {name : String} (place : Writing.Place) (before behind : List Node) (attributes : List Attribute)
  (children : List Node)

theorem rows_element (hname : name ≠ "tr") :
    (writeNode .jspwiki place before behind (.element name attributes children)).rows =
      (writeNodes .jspwiki (place.inside ⟨name, attributes, children⟩) [] children).flatMap Written.rows := by
  rw [writeNode]
  exact if_neg (by simpa using hname)

theorem rows_tableRow :
    (writeNode .jspwiki place before behind (.element "tr" attributes children)).rows =
      (writeNodes .jspwiki (place.inside ⟨"tr", attributes, children⟩) [] children).flatMap Written.cells ::
        (writeNodes .jspwiki (place.inside ⟨"tr", attributes, children⟩) [] children).flatMap Written.rows := by
  rw [writeNode]
  have hcell : Place.isCell "tr" = false := by decide
  simp [hcell]

end Nodes

variable {row : List TableCell} {rows : List (List TableCell)}

theorem cells_cell {content : Content} (h : content.IsIn children) (fit : content.IsFit) (place : Writing.Place)
    (before behind : List Node) (isHeader : Bool) (attributes : List Attribute) :
    (writeNode .jspwiki place before behind (.element (cellName isHeader) attributes children)).cells =
      [asWritten (TableCell.inMarkup ⟨isHeader, content⟩)] := by
  have htext := @h.text_cell _ _ (place.insideCell ⟨cellName isHeader, attributes, children⟩) fit rfl rfl
  have hcells := (h.none_inside (place.inside ⟨cellName isHeader, attributes, children⟩)).1
  have hheader : (cellName isHeader == "th") = isHeader := by cases isHeader <;> decide
  have hcell : Place.isCell (cellName isHeader) = true := by cases isHeader <;> decide
  rw [writeNode]
  simp only [hcell, if_true, hcells, htext, hheader]
  rfl

/-- The cells that nodes hold are written, and there are no rows among them. -/
theorem cells_writeNodes (h : HoldsCells nodes row) (fit : ∀ cell ∈ row, cell.content.IsFit) (place : Writing.Place)
    (before : List Node) :
    (writeNodes .jspwiki place before nodes).flatMap Written.cells = (row.map TableCell.inMarkup).map asWritten ∧
      (writeNodes .jspwiki place before nodes).flatMap Written.rows = [] := by
  induction h generalizing before with
  | nil => exact ⟨rfl, rfl⟩
  | text content rest ih =>
    obtain ⟨hcells, hrows⟩ := ih fit (.text content :: before)
    rw [writeNodes, List.flatMap_cons, List.flatMap_cons, hcells, hrows, writeNode]
    exact ⟨rfl, rfl⟩
  | @cell isHeader attributes content children nodes row inside rest ih =>
    obtain ⟨hcells, hrows⟩ := ih (fun c hc => fit c (List.mem_cons_of_mem _ hc))
      (.element (cellName isHeader) attributes children :: before)
    have hname : cellName isHeader ≠ "tr" := by cases isHeader <;> decide
    have hfirst : content.IsFit := fit ⟨isHeader, content⟩ List.mem_cons_self
    rw [writeNodes, List.flatMap_cons, List.flatMap_cons, hcells, hrows, cells_cell inside hfirst,
      rows_element _ _ _ _ _ hname, (inside.none_inside _).2]
    exact ⟨rfl, rfl⟩

/-- The rows that nodes hold are written. -/
theorem rows_writeNodes (h : HoldsRows nodes rows) (fit : ∀ row ∈ rows, ∀ cell ∈ row, cell.content.IsFit)
    (place : Writing.Place) (before : List Node) :
    (writeNodes .jspwiki place before nodes).flatMap Written.rows =
      rows.map fun row => (row.map TableCell.inMarkup).map asWritten := by
  induction h generalizing place before with
  | nil => rfl
  | text content rest ih =>
    rw [writeNodes, List.flatMap_cons, ih fit, writeNode]
    rfl
  | row attributes cells rest ih =>
    have hcells := cells_writeNodes cells (fit _ List.mem_cons_self)
    rw [writeNodes, List.flatMap_cons, ih fun r hr => fit r (List.mem_cons_of_mem _ hr), rows_tableRow,
      (hcells _ []).1, (hcells _ []).2]
    rfl
  | @part name attributes children nodes inner rows isPart inside rest ih ihrest =>
    have hname : name ≠ "tr" := by
      rintro rfl
      exact absurd isPart (by decide)
    rw [writeNodes, List.flatMap_cons, rows_element _ _ _ _ _ hname,
      ih (fun r hr => fit r (List.mem_append_left _ hr)), ihrest (fun r hr => fit r (List.mem_append_right _ hr)),
      List.map_append]

/-- A table with something in all its cells. -/
structure IsTable (rows : List (List TableCell)) : Prop where
  ne_nil : rows ≠ []
  rows_ne_nil : ∀ row ∈ rows, row ≠ []
  fit : ∀ row ∈ rows, ∀ cell ∈ row, cell.content.IsFit

theorem isTextLine_inMarkup (fit : ∀ cell ∈ row, cell.content.IsFit) :
    ∀ cell ∈ row.map TableCell.inMarkup, IsTextLine cell.content :=
  List.forall_mem_map.mpr fun cell hcell => (fit cell hcell).isTextLine_markup

/-- The line that a row of a table is written as. -/
def tableLine (row : List TableCell) : List Char := rowLine (row.map TableCell.inMarkup)

/-- **A table is written row by row**, each row as a line. -/
theorem text_table (h : HoldsRows nodes rows) (table : IsTable rows) (place : Writing.Place)
    (before behind : List Node) (attributes : List Attribute) :
    (writeNode .jspwiki place before behind (.element "table" attributes nodes)).text =
      padded (unlines (rows.map tableLine)) := by
  have hrows := rows_writeNodes h table.fit (place.inside ⟨"table", attributes, nodes⟩) []
  have hfilled : filledRows (rows.map fun row => (row.map TableCell.inMarkup).map asWritten) =
      rows.map fun row => (row.map TableCell.inMarkup).map asWritten := by
    refine List.filter_eq_self.mpr (List.forall_mem_map.mpr fun row hrow => ?_)
    simpa using table.rows_ne_nil row hrow
  have hlines : (rows.map fun row => (row.map TableCell.inMarkup).map asWritten).map wikiRow = rows.map tableLine := by
    rw [List.map_map]
    exact List.map_congr_left fun row hrow => wikiRow_eq (by simpa using table.rows_ne_nil row hrow)
      (isTextLine_inMarkup (table.fit row hrow))
  rw [writeNode]
  show wikiTable (if ("table" == "tr") = true then _ else _) = _
  rw [if_neg (by decide), hrows, wikiTable, hfilled, hlines, if_neg (by simpa using table.ne_nil)]
  rfl

/-! ### Reading the lines -/

/-- The lines of rows are collected into one table. -/
theorem fragmentsFrom_rows (hrows : ∀ line ∈ lines, LineKind.of false line = .row) (read rest : List (List Char)) :
    fragmentsFrom ⟨[], read, [], 0, none⟩ (lines ++ rest) = fragmentsFrom ⟨[], read ++ lines, [], 0, none⟩ rest := by
  induction lines generalizing read with
  | nil => rw [List.append_nil]; rfl
  | cons line more ih =>
    have hstep : Pending.step ⟨[], read, [], 0, none⟩ line = (⟨[], read ++ [line], [], 0, none⟩, []) := by
      have hline : LineKind.of ((0 : Nat) != 0) line = .row := hrows line List.mem_cons_self
      show Pending.stepLine _ line = _
      rw [Pending.stepLine]
      dsimp only
      rw [hline]
      rfl
    rw [List.cons_append, fragmentsFrom, hstep]
    show fragmentsFrom ⟨[], read ++ [line], [], 0, none⟩ (more ++ rest) = _
    rw [ih fun l hl => hrows l (List.mem_cons_of_mem line hl), List.append_assoc, List.singleton_append]

/-- Rows with empty lines around them are read as one table. -/
theorem fragmentsOf_rows (hne : lines ≠ []) (hrows : ∀ line ∈ lines, LineKind.of false line = .row)
    (hclean : ∀ line ∈ lines, '\x00' ∉ line ∧ '\r' ∉ line ∧ '\n' ∉ line) :
    fragmentsOf (padded (unlines lines)) = [.table lines] := by
  have hpadded : padded (unlines lines) = unlines ([[], []] ++ (lines ++ [[], []])) := by
    rw [unlines_append (by simp) (by simp), unlines_append hne (by simp)]
    simp [padded, emptyLine, unlines, joinWith]
  have hmem : ∀ c, c ≠ '\n' → (∀ line ∈ lines, c ∉ line) → c ∉ padded (unlines lines) := by
    intro c hc hlines hmem
    rw [hpadded] at hmem
    obtain ⟨piece, hpiece, hin⟩ := mem_unlines hc hmem
    simp only [List.mem_append, List.mem_cons, List.not_mem_nil, or_false, or_self] at hpiece
    rcases hpiece with rfl | hpiece | rfl
    · cases hin
    · exact hlines piece hpiece hin
    · cases hin
  have hkept : (padded (unlines lines)).filter (· != '\x00') = padded (unlines lines) :=
    List.filter_eq_self.mpr fun c hc => by
      simpa using fun heq : c = '\x00' => hmem _ (by decide) (fun line hline => (hclean line hline).1) (heq ▸ hc)
  have hnormal : normalizeNewlines (padded (unlines lines)) = padded (unlines lines) :=
    normalizeNewlines_eq_self (hmem _ (by decide) fun line hline => (hclean line hline).2.1)
  have hpieces : ∀ piece ∈ [[], []] ++ (lines ++ [[], []]), '\n' ∉ piece := by
    intro piece hpiece
    simp only [List.mem_append, List.mem_cons, List.not_mem_nil, or_false, or_self] at hpiece
    rcases hpiece with rfl | hpiece | rfl
    · exact List.not_mem_nil
    · exact (hclean piece hpiece).2.2
    · exact List.not_mem_nil
  rw [fragmentsOf, pageLines, hkept, hnormal, hpadded, lines_unlines (by simp) hpieces]
  show fragmentsFrom ⟨[], [], [], 0, none⟩ (lines ++ [[], []]) = [.table lines]
  rw [fragmentsFrom_rows hrows]
  obtain ⟨line, more, rfl⟩ := List.exists_cons_of_ne_nil hne
  rfl

/-- The line of a row is read as a row. -/
theorem lineKind_rowLine {row : List Cell} (hne : row ≠ []) (h : ∀ cell ∈ row, IsTextLine cell.content) :
    LineKind.of false (rowLine row) = .row := by
  have hhead := head?_rowLine hne
  obtain ⟨first, others, rfl⟩ := List.exists_cons_of_ne_nil hne
  have hlast := getLast?_rowLine fun cell hcell => isFilled (h cell hcell)
  obtain ⟨more, hline⟩ := List.head?_eq_some_iff.mp hhead
  have htrimmed : Trimmed isBlank (rowLine (first :: others)) :=
    ⟨fun c hc => by rw [hhead] at hc; cases hc; decide, hlast⟩
  rw [lineKind_of (by rw [hline]; simp) htrimmed (by rw [hline]; simp) (by rw [hline]; rfl), if_pos hhead]

/-! ### What is read -/

/-- A cell as a page shows it. -/
def shownCell (context : Context) (cell : Cell) : Cell := ⟨cell.isHeader, renderInline context (trim cell.content)⟩

/-- The table that a page shows, if it shows one table and nothing else. -/
def shownTable? (context : Context) (page : List Char) : Option (List (List Cell)) :=
  match fragmentsOf page with
  | [.table lines] => some (lines.map fun line => (splitRow line).map (shownCell context))
  | _ => none

/-- The HTML of a cell. -/
def cellHtml (cell : Cell) : List Char :=
  ("<" ++ cellName cell.isHeader ++ ">").toList ++ cell.content ++ ("</" ++ cellName cell.isHeader ++ ">").toList

/-- The HTML of a row. -/
def rowHtml (row : List Cell) : List Char := "<tr>".toList ++ row.flatMap cellHtml ++ "</tr>".toList

/-- The element of a table around its rows. -/
def inTable (rows : List Char) : List Char :=
  "<table class=\"wikitable\" border=\"1\">".toList ++ rows ++ "</table>".toList

/-- The HTML of a table. -/
def tableHtml (rows : List (List Cell)) : List Char := inTable (rows.flatMap rowHtml)

theorem render_cell (context : Context) (cell : Cell) : cell.render context = cellHtml (shownCell context cell) := by
  obtain ⟨isHeader, content⟩ := cell
  cases isHeader <;> simp [Cell.render, cellHtml, cellName, shownCell]

theorem render_row (context : Context) (line : List Char) :
    renderRow context line = rowHtml ((splitRow line).map (shownCell context)) := by
  have hcells : (splitRow line).flatMap (Cell.render context) = ((splitRow line).map (shownCell context)).flatMap cellHtml := by
    rw [List.flatMap_map, List.flatMap_congr fun cell _ => render_cell context cell]
  exact congrArg (fun cells => "<tr>".toList ++ cells ++ "</tr>".toList) hcells

theorem render_table (context : Context) (lines : List (List Char)) : (Fragment.table lines).render context =
    tableHtml (lines.map fun line => (splitRow line).map (shownCell context)) := by
  have hrender : (Fragment.table lines).render context = inTable (lines.flatMap (renderRow context)) := rfl
  rw [hrender, tableHtml, List.flatMap_map, List.flatMap_congr fun line _ => render_row context line]

/-- What a page shows is its HTML. -/
theorem renderPage_of_shownTable? {context : Context} {page : List Char} {rows : List (List Cell)}
    (h : shownTable? context page = some rows) :
    renderPage context page = tableHtml rows := by
  unfold shownTable? at h
  split at h
  next lines heq =>
    rw [← Option.some.inj h, ← render_table, renderPage, heq]
    rfl
  · cases h

/-- A row of a table comes back: its brackets are closed, and every cell comes back. -/
def IsKeptRow (row : List TableCell) : Prop :=
  ClosesBrackets (row.map TableCell.inMarkup) ∧ ∀ cell ∈ row, cell.content.IsKept

theorem shown_tableLine_iff {context : Context} (hne : row ≠ []) (fit : ∀ cell ∈ row, cell.content.IsFit)
    (heditor : ∀ cell ∈ row, cell.content.isLink = true → context.editorMode = true) :
    (splitRow (tableLine row)).map (shownCell context) = row.map TableCell.inHtml ↔ IsKeptRow row := by
  have hshown : (splitRow (tableLine row)).map (shownCell context) =
      ((splitRow (tableLine row)).map Cell.trimmed).map fun cell => ⟨cell.isHeader, renderInline context cell.content⟩ := by
    rw [List.map_map]
    rfl
  by_cases hclosed : ClosesBrackets (row.map TableCell.inMarkup)
  · have hcell : ∀ cell ∈ row, ((⟨cell.isHeader, renderInline context (withLiteralBars cell.content.markup)⟩ : Cell) =
        cell.inHtml ↔ cell.content.IsKept) := by
      intro cell hcell
      rw [← (fit cell hcell).renderInline_iff (heditor cell hcell), TableCell.inHtml, Cell.mk.injEq]
      exact and_iff_right rfl
    have hfilled : ∀ cell ∈ row.map TableCell.inMarkup, cell.IsFilled := fun cell hcell =>
      isFilled (isTextLine_inMarkup fit cell hcell)
    rw [hshown, tableLine, splitRow_of_closed (by simpa using hne) hfilled hclosed, List.map_map, List.map_map,
      List.map_inj_left, IsKeptRow, and_iff_right hclosed]
    exact forall₂_congr hcell
  · refine iff_of_false (fun heq => ?_) fun h => hclosed h.1
    have hlength := congrArg List.length heq
    rw [List.length_map, List.length_map] at hlength
    have hfewer := length_splitRow_of_open hclosed
    rw [List.length_map] at hfewer
    exact absurd hlength (Nat.ne_of_lt hfewer)

/-- **A table is read back exactly if its rows come back**: every cell closes its brackets, and holds a text without
a style.  It is then shown with the same rows, the same cells in each row, their kinds, and what they hold.  For
links the page must be shown in the mode in which they keep the names of pages. -/
theorem table_protected (context : Context) (h : HoldsRows nodes rows) (table : IsTable rows)
    (heditor : ∀ row ∈ rows, ∀ cell ∈ row, cell.content.isLink = true → context.editorMode = true)
    (place : Writing.Place) (before behind : List Node) (attributes : List Attribute) :
    (shownTable? context (writeNode .jspwiki place before behind (.element "table" attributes nodes)).text =
        some (rows.map (List.map TableCell.inHtml)) ↔ ∀ row ∈ rows, IsKeptRow row) ∧
    ((∀ row ∈ rows, IsKeptRow row) →
      renderPage context (writeNode .jspwiki place before behind (.element "table" attributes nodes)).text =
        tableHtml (rows.map (List.map TableCell.inHtml))) := by
  rw [text_table h table]
  have hclean : ∀ line ∈ rows.map tableLine, '\x00' ∉ line ∧ '\r' ∉ line ∧ '\n' ∉ line := by
    refine List.forall_mem_map.mpr fun row hrow => ?_
    have hlines := isTextLine_inMarkup (table.fit row hrow)
    exact ⟨not_mem_rowLine (by decide) (by decide) (by decide) fun cell hcell hmem => ((hlines cell hcell).chars _ hmem).1 rfl,
      not_mem_rowLine (by decide) (by decide) (by decide) fun cell hcell => (hlines cell hcell).not_mem (by decide) (by decide),
      not_mem_rowLine (by decide) (by decide) (by decide) fun cell hcell => (hlines cell hcell).not_mem (by decide) (by decide)⟩
  have hread : fragmentsOf (padded (unlines (rows.map tableLine))) = [.table (rows.map tableLine)] :=
    fragmentsOf_rows (by simpa using table.ne_nil) (List.forall_mem_map.mpr fun row hrow =>
      lineKind_rowLine (by simpa using table.rows_ne_nil row hrow) (isTextLine_inMarkup (table.fit row hrow))) hclean
  have hshown : shownTable? context (padded (unlines (rows.map tableLine))) =
      some (rows.map fun row => (splitRow (tableLine row)).map (shownCell context)) := by
    rw [shownTable?, hread]
    show some ((rows.map tableLine).map fun line => (splitRow line).map (shownCell context)) = _
    rw [List.map_map]
    rfl
  have hiff : shownTable? context (padded (unlines (rows.map tableLine))) =
      some (rows.map (List.map TableCell.inHtml)) ↔ ∀ row ∈ rows, IsKeptRow row := by
    rw [hshown, Option.some.injEq, List.map_inj_left]
    exact forall₂_congr fun row hrow =>
      shown_tableLine_iff (table.rows_ne_nil row hrow) (table.fit row hrow) (heditor row hrow)
  exact ⟨hiff, fun hclear => renderPage_of_shownTable? (hiff.mpr hclear)⟩

/-- A table with a head and a body. -/
def smallTable : List Node :=
  [.element "thead" [] [.element "tr" [] [.element "th" [] [.text "Name".toList], .element "th" [] [.text "a|b".toList]]],
    .text ['\n'],
    .element "tbody" []
      [.element "tr" [] [.element "td" [] [.text "~[x]] | 5%".toList], .element "td" [] [.text "[z".toList]]]]

/-- The cells of it. -/
def smallRows : List (List TableCell) :=
  [[⟨true, .text "Name".toList⟩, ⟨true, .text "a|b".toList⟩],
    [⟨false, .text "~[x]] | 5%".toList⟩, ⟨false, .text "[z".toList⟩]]

theorem smallTable_protected :
    HoldsRows smallTable smallRows ∧ IsTable smallRows ∧
      renderPage plainContext (writeNode .jspwiki .outside [] [] (.element "table" [] smallTable)).text =
        tableHtml (smallRows.map (List.map TableCell.inHtml)) := by
  have holds : HoldsRows smallTable smallRows :=
    .part [] (by decide) (.row [] (.cell true [] (.text _) (.cell true [] (.text _) .nil)) .nil)
      (.text _ (.part [] (by decide) (.row [] (.cell false [] (.text _) (.cell false [] (.text _) .nil)) .nil) .nil))
  have table : IsTable smallRows := ⟨by decide, by decide, by decide +kernel⟩
  have hclosed : ∀ row ∈ smallRows, ClosesBrackets (row.map TableCell.inMarkup) := by decide +kernel
  have hkept : ∀ row ∈ smallRows, ∀ cell ∈ row, cell.content.IsKept := by
    simp only [smallRows, List.forall_mem_cons, List.not_mem_nil, false_implies, implies_true, and_true, Content.IsKept]
    exact ⟨⟨not_hasStyle (by decide +kernel), not_hasStyle (by decide +kernel)⟩, not_hasStyle (by decide +kernel),
      not_hasStyle (by decide +kernel)⟩
  exact ⟨holds, table, (table_protected plainContext holds table (fun _ _ _ _ _ => rfl) .outside [] [] []).2
    fun row hrow => ⟨hclosed row hrow, hkept row hrow⟩⟩

/-- A link does not come through: the bar in it is made literal with the others. -/
theorem link_not_protected :
    renderPage plainContext (writeNode .jspwiki .outside [] [] (.element "table" []
        [.element "tr" [] [.element "td" []
          [.element "a" [⟨"class", "wikipage".toList⟩, ⟨"href", "Page".toList⟩] [.text "text".toList]]]])).text ≠
      tableHtml [[⟨false, "<a class=\"wikipage\" href=\"Page\">text</a>".toList⟩]] := by
  decide +kernel

end WikiMigration.Conversion
