/-
The elements of a page.

A fragment is written as tags with text between them, and the text of inline markup is taken as it comes.
Reading the tags of a page keeps the elements that are open.  Each is known by its tag and by the number of
elements opened before it, so that two elements with the same tag can be told apart.
-/
import WikiMigration.Wiki.Page

namespace WikiMigration.Wiki

open Text

/-! ### Tags -/

/-- The tags that blocks are made of. -/
inductive BlockTag where
  | ul
  | ol
  | li
  | div
  | p
  | table
  | tr
  | th
  | td
  | dl
  | dt
  | dd
  | pre
  | heading (level : Nat)
  deriving DecidableEq, Repr

/-- The name of a tag. -/
def BlockTag.name : BlockTag → List Char
  | .ul => "ul".toList
  | .ol => "ol".toList
  | .li => "li".toList
  | .div => "div".toList
  | .p => "p".toList
  | .table => "table".toList
  | .tr => "tr".toList
  | .th => "th".toList
  | .td => "td".toList
  | .dl => "dl".toList
  | .dt => "dt".toList
  | .dd => "dd".toList
  | .pre => "pre".toList
  | .heading level => 'h' :: (Nat.repr level).toList

/-- Whether the tag is that of a list. -/
def BlockTag.isList : BlockTag → Bool
  | .ul | .ol => true
  | _ => false

/-- The tag of a kind of list. -/
def ListKind.blockTag : ListKind → BlockTag
  | .bulleted => .ul
  | .numbered => .ol

/-- A tag, or text between tags. -/
inductive Mark where
  | opening (tag : BlockTag) (attributes : List Char)
  | closing (tag : BlockTag)
  | content (text : List Char)
  deriving DecidableEq, Repr

/-- A mark as HTML. -/
def Mark.text : Mark → List Char
  | .opening tag attributes => '<' :: tag.name ++ attributes ++ ['>']
  | .closing tag => "</".toList ++ tag.name ++ ['>']
  | .content text => text

/-! ### The marks of a page -/

/-- Marks between the two tags of an element. -/
def within (tag : BlockTag) (attributes : List Char) (marks : List Mark) : List Mark :=
  .opening tag attributes :: marks ++ [.closing tag]

/-- The attribute of a style block. -/
def styleAttribute (style : List Char) : List Char :=
  match style with
  | '(' :: inner => " style=\"".toList ++ Html.escapeAttribute inner.dropLast ++ ['"']
  | _ => " class=\"".toList ++ Html.escapeAttribute style ++ ['"']

/-- The marks of a cell. -/
def Cell.marks (context : Context) (cell : Cell) : List Mark :=
  within (if cell.isHeader then .th else .td) [] [.content (renderInline context (trim cell.content))]

/-- The marks of a row. -/
def rowMarks (context : Context) (row : List Char) : List Mark :=
  within .tr [] ((splitRow row).flatMap (Cell.marks context))

/-- The marks of a fragment. -/
def Fragment.marks (context : Context) : Fragment → List Mark
  | .paragraph lines => within .p [] [.content (unlines (lines.map (renderInline context)))]
  | .table rows =>
    within .table " class=\"wikitable\" border=\"1\"".toList (rows.flatMap (rowMarks context))
  | .listOpening kind => [.opening kind.blockTag []]
  | .listClosing kind => [.closing .li, .closing kind.blockTag]
  | .itemClosing => [.closing .li]
  | .itemOpening => [.opening .li []]
  | .item content => [.opening .li [], .content (renderInline context content)]
  | .preformatted lines _ => within .pre [] [.content (Html.escape (unlines lines))]
  | .rule => [.content "<hr />".toList]
  | .heading level title =>
    within (.heading level) (" id=\"".toList ++ sectionId context title ++ ['"'])
      [.content (renderInline context title ++ "<a class=\"hashlink\" href=\"#".toList
        ++ sectionId context title ++ "\">#</a>".toList)]
  | .definition term meaning =>
    within .dl [] ((if term.isEmpty then [] else within .dt [] [.content (renderInline context term)])
      ++ within .dd [] [.content (renderInline context meaning)])
  | .styleOpening style => [.opening .div (styleAttribute style)]
  | .styleClosing => [.closing .div]

/-- The marks of fragments, each on lines of its own. -/
def pageMarks (context : Context) : List Fragment → List Mark
  | [] => []
  | [fragment] => fragment.marks context
  | fragment :: rest => fragment.marks context ++ .content ['\n'] :: pageMarks context rest

theorem text_within (tag : BlockTag) (attributes : List Char) (marks : List Mark) :
    (within tag attributes marks).flatMap Mark.text =
      '<' :: tag.name ++ attributes ++ '>' :: marks.flatMap Mark.text
        ++ "</".toList ++ tag.name ++ ['>'] := by
  simp [within, Mark.text]

@[simp] theorem text_ofText (text : List Char) : (Piece.ofText text).flatMap Piece.text = text := by
  simp [Piece.ofText, List.flatMap_map, Piece.text]

@[simp] theorem text_escapeAttributePieces (text : List Char) :
    (escapeAttributePieces (Piece.ofText text)).flatMap Piece.text = Html.escapeAttribute text := by
  simp only [escapeAttributePieces, Piece.ofText, List.flatMap_map, List.flatMap_assoc,
    Html.escapeAttribute]
  congr 1
  funext c
  simp [Piece.text]

/-- The opening tag of a style block has the style as its attribute. -/
theorem text_openStyle (style : List Char) :
    (openStyle "div" (Piece.ofText style)).flatMap Piece.text =
      "<div".toList ++ styleAttribute style ++ ['>'] := by
  unfold styleAttribute
  split
  next inner =>
    have hinner : (Piece.ofText inner).dropLast = Piece.ofText inner.dropLast :=
      List.map_dropLast.symm
    show (Piece.ofText _ ++ escapeAttributePieces (Piece.ofText inner).dropLast
      ++ Piece.ofText _).flatMap Piece.text = _
    rw [hinner]
    simp
  next hother =>
    have hopen : openStyle "div" (Piece.ofText style) = Piece.ofText ("<" ++ "div" ++ " class=\"").toList
        ++ escapeAttributePieces (Piece.ofText style) ++ Piece.ofText "\">".toList := by
      cases style with
      | nil => rfl
      | cons c rest =>
        have hc : c ≠ '(' := fun hc => hother rest (by rw [hc])
        simp [openStyle, Piece.ofText, hc]
    rw [hopen]
    simp

theorem text_cell (context : Context) (cell : Cell) :
    (cell.marks context).flatMap Mark.text = cell.render context := by
  unfold Cell.render Cell.marks
  rw [text_within]
  cases cell.isHeader <;> simp [BlockTag.name, Mark.text]

theorem text_row (context : Context) (row : List Char) :
    (rowMarks context row).flatMap Mark.text = renderRow context row := by
  unfold rowMarks renderRow
  rw [text_within, List.flatMap_assoc]
  simp [BlockTag.name, text_cell]

/-- A fragment is written as its marks. -/
theorem text_fragment (context : Context) (fragment : Fragment) :
    (fragment.marks context).flatMap Mark.text = fragment.render context := by
  unfold Fragment.render
  cases fragment with
  | paragraph lines => simp [Fragment.marks, text_within, BlockTag.name, Mark.text]
  | table rows => simp [Fragment.marks, text_within, BlockTag.name, List.flatMap_assoc, text_row]
  | listOpening kind =>
    cases kind <;> simp [Fragment.marks, ListKind.blockTag, ListKind.tag, BlockTag.name, Mark.text]
  | listClosing kind =>
    cases kind <;> simp [Fragment.marks, ListKind.blockTag, ListKind.tag, BlockTag.name, Mark.text]
  | itemClosing => simp [Fragment.marks, BlockTag.name, Mark.text]
  | itemOpening => simp [Fragment.marks, BlockTag.name, Mark.text]
  | item content => simp [Fragment.marks, BlockTag.name, Mark.text]
  | preformatted lines closed => simp [Fragment.marks, text_within, BlockTag.name, Mark.text]
  | rule => simp [Fragment.marks, Mark.text]
  | heading level title => simp [Fragment.marks, text_within, BlockTag.name, Mark.text]
  | definition term meaning =>
    cases hterm : term.isEmpty <;> simp [Fragment.marks, text_within, BlockTag.name, Mark.text, hterm]
  | styleOpening style =>
    simp only [text_openStyle]
    simp [Fragment.marks, BlockTag.name, Mark.text]
  | styleClosing => simp [Fragment.marks, BlockTag.name, Mark.text]

/-- A page is written as the marks of its fragments. -/
theorem text_pageMarks (context : Context) (fragments : List Fragment) :
    (pageMarks context fragments).flatMap Mark.text =
      unlines (fragments.map (Fragment.render context)) := by
  induction fragments with
  | nil => rfl
  | cons fragment rest ih =>
    cases rest with
    | nil => exact text_fragment context fragment
    | cons next rest =>
      have hjoin : unlines ((fragment :: next :: rest).map (Fragment.render context)) =
          fragment.render context ++ ['\n'] ++ unlines ((next :: rest).map (Fragment.render context)) :=
        rfl
      rw [hjoin, ← ih, ← text_fragment]
      simp [pageMarks, Mark.text]

/-! ### Reading -/

/-- An element, known by its tag and by how many were opened before it. -/
structure Element where
  tag : BlockTag
  serial : Nat
  deriving DecidableEq, Repr

/-- How many elements were opened, and those that are open, the innermost first. -/
structure Reading where
  opened : Nat
  stack : List Element
  deriving DecidableEq, Repr

/-- Nothing is read yet. -/
def Reading.start : Reading := ⟨0, []⟩

/-- Reads a mark; only the innermost element can be closed. -/
def Reading.step (reading : Reading) : Mark → Option Reading
  | .opening tag _ => some ⟨reading.opened + 1, ⟨tag, reading.opened⟩ :: reading.stack⟩
  | .closing tag =>
    match reading.stack with
    | [] => none
    | element :: stack => if element.tag = tag then some ⟨reading.opened, stack⟩ else none
  | .content _ => some reading

/-- Reads marks, if every tag that closes an element finds it open. -/
def Reading.along (reading : Reading) : List Mark → Option Reading
  | [] => some reading
  | mark :: marks => (reading.step mark).bind fun reading => reading.along marks

/-- What is read of a page up to the end of some fragments. -/
def readingOf (context : Context) (fragments : List Fragment) : Option Reading :=
  Reading.start.along (pageMarks context fragments)

/-- The lists that are open, the outermost first. -/
def Reading.lists (reading : Reading) : List Element :=
  (reading.stack.filter fun element => element.tag.isList).reverse

/-- The marks can be read, from one state to another. -/
def Reads (marks : List Mark) (r r' : Reading) : Prop := r.along marks = some r'

variable {r r' r₁ r₂ : Reading} {marks marks' : List Mark} {n : Nat} {stack : List Element}
  {tag : BlockTag}

@[simp] theorem reads_nil : Reads [] r r' ↔ r = r' := by
  simp [Reads, Reading.along]

@[simp] theorem reads_opening {attributes : List Char} :
    Reads (.opening tag attributes :: marks) ⟨n, stack⟩ r' ↔
      Reads marks ⟨n + 1, ⟨tag, n⟩ :: stack⟩ r' := Iff.rfl

@[simp] theorem reads_closing {element : Element} (h : element.tag = tag) :
    Reads (.closing tag :: marks) ⟨n, element :: stack⟩ r' ↔ Reads marks ⟨n, stack⟩ r' := by
  simp [Reads, Reading.along, Reading.step, h]

@[simp] theorem reads_content {text : List Char} :
    Reads (.content text :: marks) r r' ↔ Reads marks r r' := Iff.rfl

theorem reads_append : Reads (marks ++ marks') r r' ↔ ∃ r₁, Reads marks r r₁ ∧ Reads marks' r₁ r' := by
  induction marks generalizing r with
  | nil => simp
  | cons mark marks ih =>
    cases hstep : r.step mark with
    | none => simp [Reads, Reading.along, hstep]
    | some next => simpa [Reads, Reading.along, hstep] using ih (r := next)

theorem Reads.append (h : Reads marks r r₁) (h' : Reads marks' r₁ r₂) : Reads (marks ++ marks') r r₂ :=
  reads_append.mpr ⟨r₁, h, h'⟩

/-- The text between fragments does not matter. -/
theorem reads_pageMarks {context : Context} {fragments : List Fragment} :
    Reads (pageMarks context fragments) r r' ↔
      Reads (fragments.flatMap (Fragment.marks context)) r r' := by
  induction fragments generalizing r with
  | nil => rfl
  | cons fragment rest ih =>
    cases rest with
    | nil => simp [pageMarks]
    | cons next rest =>
      have hnewline : ∀ r, Reads (.content ['\n'] :: pageMarks context (next :: rest)) r r' ↔
          Reads ((next :: rest).flatMap (Fragment.marks context)) r r' := fun r => ih
      show Reads (fragment.marks context ++ .content ['\n'] :: pageMarks context (next :: rest)) r r' ↔ _
      rw [List.flatMap_cons, reads_append, reads_append]
      simp only [hnewline]

/-! ### Marks that leave nothing open -/

/-- Read from anywhere, the marks open some elements and close them all. -/
def Whole (marks : List Mark) : Prop :=
  ∀ n stack, ∃ m, n ≤ m ∧ Reads marks ⟨n, stack⟩ ⟨m, stack⟩

theorem whole_nil : Whole [] := fun n _ => ⟨n, n.le_refl, rfl⟩

theorem whole_content (text : List Char) : Whole [.content text] := fun n _ => ⟨n, n.le_refl, rfl⟩

theorem Whole.append (h : Whole marks) (h' : Whole marks') : Whole (marks ++ marks') := by
  intro n stack
  obtain ⟨m, hm, hreads⟩ := h n stack
  obtain ⟨m', hm', hreads'⟩ := h' m stack
  exact ⟨m', by omega, hreads.append hreads'⟩

theorem Whole.within (h : Whole marks) (tag : BlockTag) (attributes : List Char) :
    Whole (within tag attributes marks) := by
  intro n stack
  obtain ⟨m, hm, hreads⟩ := h (n + 1) (⟨tag, n⟩ :: stack)
  refine ⟨m, by omega, ?_⟩
  exact reads_opening.mpr (hreads.append ((reads_closing rfl).mpr rfl))

theorem whole_flatMap {α : Type} {f : α → List Mark} {xs : List α} (h : ∀ x ∈ xs, Whole (f x)) :
    Whole (xs.flatMap f) := by
  induction xs with
  | nil => exact whole_nil
  | cons x xs ih =>
    rw [List.flatMap_cons]
    exact (h x (by simp)).append (ih fun y hy => h y (by simp [hy]))

/-- Whether a fragment is a block of its own: all are that are no part of a list. -/
def Fragment.standsAlone : Fragment → Bool
  | .listOpening _ | .listClosing _ | .itemClosing | .itemOpening | .item _ => false
  | _ => true

/-- Whether a fragment leaves a style block open, or closes one. -/
def Fragment.turnsStyle : Fragment → Bool
  | .styleOpening _ | .styleClosing => true
  | _ => false

theorem whole_row (context : Context) (row : List Char) : Whole (rowMarks context row) :=
  (whole_flatMap fun _ _ => (whole_content _).within _ _).within _ _

/-- A block of its own that neither opens nor closes a style block leaves nothing open. -/
theorem whole_marks (context : Context) {fragment : Fragment} (halone : fragment.standsAlone = true)
    (hstyle : fragment.turnsStyle = false) : Whole (fragment.marks context) := by
  cases fragment with
  | listOpening | listClosing | itemClosing | itemOpening | item => cases halone
  | styleOpening | styleClosing => cases hstyle
  | paragraph | preformatted | heading => exact (whole_content _).within _ _
  | rule => exact whole_content _
  | table rows => exact (whole_flatMap fun row _ => whole_row context row).within _ _
  | definition term meaning =>
    refine (Whole.append ?_ ((whole_content _).within _ _)).within _ _
    split
    · exact whole_nil
    · exact (whole_content _).within _ _

end WikiMigration.Wiki
