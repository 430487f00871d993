/-
Pages of nested lists.

A page of item lines is a row of lists, and every item has the lists within it.  The lists of a page are put
together from its last line on: what is still to come behind a line is, for every list that is open there, the
lists that its last item still gets and the items that follow it, and then the lists of the page that follow.
One line more changes this at one place only.

The lines of the lists, with an empty line behind each list of the page, are read as the same lists again.
-/
import WikiMigration.Proofs.Wiki.Nesting
import WikiMigration.Proofs.Writing.WikiProse

namespace WikiMigration.Wiki

open Text

/-! ### Lists -/

/-- The text of an item: a line of prose. -/
structure ItemText where
  text : List Char
  line : Conversion.IsTextLine text
  prose : IsProseLine text

/-- Words of letters, with single spaces between them, are the text of an item. -/
def ItemText.ofWords (words : List (List Char)) (hne : words ≠ [])
    (h : ∀ word ∈ words, word ≠ [] ∧ ∀ c ∈ word, isLatin c = true) : ItemText where
  text := Html.unwords words
  line := by
    have hsolid : ∀ {c : Char}, isLatin c = true → c ≠ '\x00' ∧ isBlank c = false := by
      intro c hlatin
      have hprose : isProseChar c = true := by simp [isProseChar, hlatin]
      refine ⟨ne_of_beq_false (ne_of_isProseChar hprose (by decide)), isBlank_of_isProseChar hprose ?_⟩
      rintro rfl
      cases hlatin
    have hwords : ∀ word ∈ words, Html.IsWord word := fun word hword =>
      ⟨(h word hword).1, fun c hc => (hsolid ((h word hword).2 c hc)).2⟩
    obtain ⟨hsome, htrimmed⟩ := Html.trimmed_unwords hne hwords
    refine ⟨hsome, fun c hc => ?_, htrimmed.mono fun c hc => by rw [beq_iff_eq.mp hc]; decide,
      Html.single_unwords hwords⟩
    rcases mem_joinWith hc with hc | ⟨word, hword, hc⟩
    · rw [List.mem_singleton.mp hc]
      decide
    · have hc := hsolid ((h word hword).2 c hc)
      exact ⟨hc.1, fun hblank => absurd (hblank.symm.trans hc.2) (by decide)⟩
  prose c hc := by
    rcases mem_joinWith hc with hc | ⟨word, hword, hc⟩
    · rw [List.mem_singleton.mp hc]
      decide
    · simp [isProseChar, (h word hword).2 c hc]

mutual

/-- The items of a list, at least one, each with its text and the lists within it. -/
inductive Items where
  | last (text : ItemText) (lists : Lists)
  | cons (text : ItemText) (lists : Lists) (rest : Items)

/-- Lists one behind the other. -/
inductive Lists where
  | nil
  | cons (kind : ListKind) (items : Items) (rest : Lists)

end

mutual

/-- The fragments of items; the closing of the last one belongs to the list. -/
def Items.fragments : Items → List Fragment
  | .last text lists => .item text.text :: lists.fragments
  | .cons text lists rest => .item text.text :: (lists.fragments ++ .itemClosing :: rest.fragments)

/-- The fragments of lists. -/
def Lists.fragments : Lists → List Fragment
  | .nil => []
  | .cons kind items rest => .listOpening kind :: (items.fragments ++ .listClosing kind :: rest.fragments)

end

/-- The line of an item within lists of the given kinds, outermost first. -/
def itemLine (kinds : List ListKind) (text : ItemText) : List Char :=
  kinds.map ListKind.marker ++ ' ' :: text.text

mutual

/-- The lines of the items of a list; the kinds are those of the list and of all around it. -/
def Items.lines (kinds : List ListKind) : Items → List (List Char)
  | .last text lists => itemLine kinds text :: lists.lines kinds
  | .cons text lists rest => itemLine kinds text :: (lists.lines kinds ++ rest.lines kinds)

/-- The lines of lists within an item; the kinds are those of the lists around it. -/
def Lists.lines (kinds : List ListKind) : Lists → List (List Char)
  | .nil => []
  | .cons kind items rest => items.lines (kinds ++ [kind]) ++ rest.lines kinds

end

/-- A list of the page. -/
structure PageList where
  kind : ListKind
  items : Items

/-- The fragments of a list of the page. -/
def PageList.fragments (list : PageList) : List Fragment :=
  .listOpening list.kind :: (list.items.fragments ++ [.listClosing list.kind])

/-- The lines of a list of the page. -/
def PageList.lines (list : PageList) : List (List Char) := list.items.lines [list.kind]

/-- The page from here on has only blank lines and lines of items.  No item skips a level: all its kinds but the last
are those of the first lists that are open before it. -/
inductive IsListPage : List ListKind → List (List Char) → Prop
  | nil (kinds : List ListKind) : IsListPage kinds []
  | blank (kinds : List ListKind) {line : List Char} {rest : List (List Char)} (hblank : isBlankText line = true)
    (hrest : IsListPage [] rest) : IsListPage kinds (line :: rest)
  | item {kinds kinds' : List ListKind} {rest : List (List Char)} (text : ItemText) (hne : kinds' ≠ [])
    (hlevel : kinds'.dropLast <+: kinds) (hrest : IsListPage kinds' rest) :
    IsListPage kinds (itemLine kinds' text :: rest)

/-! ### Lines of items -/

section ItemLine

variable {kinds : List ListKind}

theorem marker_isMarker (kind : ListKind) : (kind.marker == '*' || kind.marker == '#') = true := by
  cases kind <;> rfl

theorem ofMarker_marker (kind : ListKind) : ListKind.ofMarker kind.marker = kind := by
  cases kind <;> rfl

/-- No other character is a marker. -/
theorem marker_ne {c : Char} (hstar : c ≠ '*') (hnumber : c ≠ '#') (kind : ListKind) : kind.marker ≠ c := by
  cases kind
  · exact Ne.symm hstar
  · exact Ne.symm hnumber

theorem markers_itemLine (kinds : List ListKind) (text : ItemText) :
    (itemLine kinds text).takeWhile (fun c => c == '*' || c == '#') = kinds.map ListKind.marker := by
  rw [itemLine, List.takeWhile_append_of_pos, List.takeWhile_cons_of_neg (by decide), List.append_nil]
  intro c hc
  obtain ⟨kind, -, rfl⟩ := List.mem_map.mp hc
  exact marker_isMarker kind

theorem itemLine_of_ne_nil (hne : kinds ≠ []) (text : ItemText) :
    ∃ more, itemLine kinds text = (kinds.head hne).marker :: more := by
  obtain ⟨kind, others, rfl⟩ := List.exists_cons_of_ne_nil hne
  exact ⟨_, rfl⟩

/-- A line of an item starts with a marker and ends with its text. -/
theorem trimmed_itemLine (hne : kinds ≠ []) (text : ItemText) : Trimmed isBlank (itemLine kinds text) where
  head c hc := by
    obtain ⟨more, hline⟩ := itemLine_of_ne_nil hne text
    rw [hline] at hc
    obtain rfl := Option.some.inj hc
    cases kinds.head hne <;> decide
  last c hc := by
    rw [itemLine, List.getLast?_append_of_ne_nil _ (List.cons_ne_nil _ _),
      List.getLast?_cons_of_ne_nil text.line.ne_nil] at hc
    exact text.line.trimmed.last c hc

section FirstChar

variable {d : Char} (hne : kinds ≠ []) (hstar : d ≠ '*') (hnumber : d ≠ '#') (text : ItemText)

include hne hstar hnumber

theorem after?_itemLine (mark : List Char) : after? (d :: mark) (itemLine kinds text) = none := by
  obtain ⟨more, hline⟩ := itemLine_of_ne_nil hne text
  rw [Option.eq_none_iff_forall_ne_some, hline]
  exact fun behind hbehind => marker_ne hstar hnumber _ (List.cons.inj (after?_eq_some.mp hbehind)).1

theorem takeWhile_itemLine : (itemLine kinds text).takeWhile (· == d) = [] := by
  obtain ⟨more, hline⟩ := itemLine_of_ne_nil hne text
  rw [hline]
  exact List.takeWhile_cons_of_neg (by simpa using marker_ne hstar hnumber _)

end FirstChar

/-- The kinds of the lists and the text of the item are read from the markers and from what is behind them. -/
theorem item?_itemLine (hne : kinds ≠ []) (text : ItemText) : item? (itemLine kinds text) = some (kinds, text.text) := by
  have hcontent : trimLeft (' ' :: text.text) = text.text := by
    rw [trimLeft, trimLeftWith, List.dropWhile_cons_of_pos (by decide)]
    exact trimLeftWith_eq_self text.line.trimmed.head
  have hkinds : (kinds.map ListKind.marker).map ListKind.ofMarker = kinds := by
    rw [List.map_map]
    exact (List.map_congr_left fun kind _ => ofMarker_marker kind).trans (List.map_id' kinds)
  have hmarkers : (kinds.map ListKind.marker).isEmpty = false := by simpa using hne
  unfold item?
  rw [markers_itemLine]
  simp only [hmarkers, Bool.false_eq_true, if_false, hkinds]
  rw [itemLine, List.drop_left, hcontent]

/-- **The line of an item is read as the item.** -/
theorem kind_itemLine (hne : kinds ≠ []) (text : ItemText) :
    LineKind.of false (itemLine kinds text) = .item kinds text.text := by
  have hstripped : trim (itemLine kinds text) = itemLine kinds text := (trimmed_itemLine hne text).trimWith_eq_self
  obtain ⟨more, hline⟩ := itemLine_of_ne_nil hne text
  have hmark : after? preformattedMark (itemLine kinds text) = none :=
    after?_itemLine hne (by decide) (by decide) text _
  have hstyle : styleOpening? (itemLine kinds text) = none := by
    have hnone : after? "%%".toList (itemLine kinds text) = none := after?_itemLine hne (by decide) (by decide) text _
    rw [styleOpening?, hnone]
  have hempty : (itemLine kinds text).isEmpty = false := by rw [hline]; rfl
  have hrow : ((itemLine kinds text).head? == some '|') = false := by
    rw [hline, beq_eq_false_iff_ne]
    exact fun heq => marker_ne (by decide) (by decide) _ (Option.some.inj heq)
  have hrule : isRule (itemLine kinds text) = false := by
    rw [isRule, takeWhile_itemLine hne (by decide) (by decide)]
    rfl
  have hheading : heading? (itemLine kinds text) = none := by
    rw [heading?, takeWhile_itemLine hne (by decide) (by decide)]
    rfl
  unfold LineKind.of
  simp only [hstripped, hmark, hempty, hrow, hstyle, hrule, hheading, item?_itemLine hne text, Option.filter_none,
    Bool.and_false, Bool.false_eq_true, if_false]

end ItemLine

/-! ### Reading lines of items -/

section Reading

variable {kinds' deeper : List ListKind} {kind : ListKind} {line : List Char}

/-- Between two item lines nothing but lists is open. -/
def Pending.inLists (kinds : List ListKind) : Pending := ⟨[], [], kinds, 0, none⟩

theorem fragmentsFrom_blank (hblank : isBlankText line = true) (kinds : List ListKind) (rest : List (List Char)) :
    fragmentsFrom (.inLists kinds) (line :: rest) = closeLists kinds ++ fragmentsFrom (.inLists []) rest := by
  have hstripped : trim line = [] := List.isEmpty_iff.mp ((isEmpty_trimWith isBlank line).trans hblank)
  have hkind : LineKind.of false line = .blank := by
    simp [LineKind.of, hstripped, after?, preformattedMark]
  rw [fragmentsFrom]
  show ((Pending.inLists kinds).stepLine line).2 ++ fragmentsFrom ((Pending.inLists kinds).stepLine line).1 rest = _
  have hstep : (Pending.inLists kinds).stepLine line =
      ((Pending.inLists kinds).withoutBlocks, (Pending.inLists kinds).blocksEnd) := by
    have hkind : LineKind.of ((Pending.inLists kinds).styles != 0) line = .blank := hkind
    rw [Pending.stepLine, hkind]
  rw [hstep]
  rfl

theorem fragmentsFrom_nil (kinds : List ListKind) : fragmentsFrom (.inLists kinds) [] = closeLists kinds :=
  List.append_nil _

theorem fragmentsFrom_item (hne : kinds' ≠ []) (kinds : List ListKind) (text : ItemText) (rest : List (List Char)) :
    fragmentsFrom (.inLists kinds) (itemLine kinds' text :: rest) =
      itemFragments kinds kinds' text.text ++ fragmentsFrom (.inLists kinds') rest := by
  have hkind := kind_itemLine hne text
  rw [fragmentsFrom]
  show ((Pending.inLists kinds).stepLine _).2 ++ fragmentsFrom ((Pending.inLists kinds).stepLine _).1 rest = _
  rw [@stepLine_item (.inLists kinds) _ _ _ hkind]
  rfl

theorem sharedDepth_nil (lists : List ListKind) : sharedDepth lists [] = 0 := by
  cases lists <;> rfl

theorem sharedDepth_append (base xs ys : List ListKind) :
    sharedDepth (base ++ xs) (base ++ ys) = base.length + sharedDepth xs ys := by
  induction base with
  | nil => exact (Nat.zero_add _).symm
  | cons kind base ih =>
    rw [List.cons_append, List.cons_append, sharedDepth, if_pos rfl, ih, List.length_cons]
    omega

/-- An item in an open list closes the lists within that list, and its item. -/
theorem itemFragments_next (base deeper : List ListKind) (kind : ListKind) (content : List Char) :
    itemFragments (base ++ kind :: deeper) (base ++ [kind]) content =
      closeLists deeper ++ [.itemClosing, .item content] := by
  have hshared : sharedDepth (base ++ kind :: deeper) (base ++ [kind]) = base.length + 1 := by
    rw [sharedDepth_append, sharedDepth, if_pos rfl, sharedDepth_nil]
  have hdrop : (base ++ kind :: deeper).drop (base.length + 1) = deeper := by simp [List.drop_append]
  simp [itemFragments, hshared, hdrop]

/-- An item of another kind closes all lists within its own and opens one. -/
theorem itemFragments_first (base : List ListKind) (hdeeper : deeper.head? ≠ some kind) (content : List Char) :
    itemFragments (base ++ deeper) (base ++ [kind]) content =
      closeLists deeper ++ [.listOpening kind, .item content] := by
  have hshared : sharedDepth (base ++ deeper) (base ++ [kind]) = base.length := by
    rw [sharedDepth_append]
    cases deeper with
    | nil => rfl
    | cons other deeper => rw [sharedDepth, if_neg fun heq => hdeeper (congrArg some heq), Nat.add_zero]
  simp [itemFragments, hshared, openLists]

end Reading

/-! ### What is still to come -/

/-- What is still to come in an open list: the lists that its last item gets, and the items that follow it. -/
structure OpenList where
  kind : ListKind
  lists : Lists
  items : Option Items

/-- The fragments of what is still to come in a list, with its closing. -/
def OpenList.fragments (list : OpenList) : List Fragment :=
  list.lists.fragments ++ (list.items.elim [] fun items => .itemClosing :: items.fragments) ++ [.listClosing list.kind]

/-- The lists of the given kinds, innermost first, in which nothing is still to come. -/
def ended (kinds : List ListKind) : List OpenList := kinds.reverse.map fun kind => ⟨kind, .nil, none⟩

/-- What is still to come in the open lists, innermost first, and on the page. -/
structure Remainder where
  opened : List OpenList
  page : List PageList

/-- The kinds of the open lists, outermost first. -/
def Remainder.kinds (remainder : Remainder) : List ListKind := (remainder.opened.map OpenList.kind).reverse

/-- The fragments of what is still to come. -/
def Remainder.fragments (remainder : Remainder) : List Fragment :=
  remainder.opened.flatMap OpenList.fragments ++ remainder.page.flatMap PageList.fragments

/-- The lines of what is still to come in open lists, innermost first, with an empty line behind the outermost. -/
def openLines : List OpenList → List (List Char)
  | [] => []
  | list :: outer =>
    let kinds := ((list :: outer).map OpenList.kind).reverse
    list.lists.lines kinds ++ list.items.elim [] (Items.lines kinds) ++ (if outer.isEmpty then [[]] else []) ++
      openLines outer

/-- The lines of lists of the page, with an empty line behind each. -/
def linesOf (page : List PageList) : List (List Char) := page.flatMap fun list => list.lines ++ [[]]

/-- The lines of what is still to come. -/
def Remainder.lines (remainder : Remainder) : List (List Char) :=
  openLines remainder.opened ++ linesOf remainder.page

/-- The remainder is that of lines, and its own lines are read alike. -/
structure Remainder.IsOf (remainder : Remainder) (kinds : List ListKind) (lines : List (List Char)) : Prop where
  kinds_eq : remainder.kinds = kinds
  reads : fragmentsFrom (.inLists kinds) lines = remainder.fragments
  reads_lines : fragmentsFrom (.inLists kinds) remainder.lines = remainder.fragments

/-! ### One line more -/

section Ended

variable {opened : List OpenList}

theorem kinds_ended (kinds : List ListKind) : (ended kinds).map OpenList.kind = kinds.reverse := by
  rw [ended, List.map_map]
  exact List.map_id' _

theorem fragments_ended (kinds : List ListKind) : (ended kinds).flatMap OpenList.fragments = closeLists kinds := by
  rw [ended, List.flatMap_map]
  exact (List.map_eq_flatMap ..).symm

/-- Lists in which nothing is to come add no lines to those around them. -/
theorem openLines_ended_append (hne : opened ≠ []) (kinds : List ListKind) :
    openLines (ended kinds ++ opened) = openLines opened := by
  rw [ended]
  induction kinds.reverse with
  | nil => rfl
  | cons kind more ih =>
    have houter : ((more.map fun kind => (⟨kind, .nil, none⟩ : OpenList)) ++ opened).isEmpty = false := by simp [hne]
    rw [List.map_cons, List.cons_append, openLines, houter, ih]
    rfl

/-- The empty line behind them closes them. -/
theorem fragmentsFrom_ended (kinds : List ListKind) (rest : List (List Char)) :
    fragmentsFrom (.inLists kinds) (openLines (ended kinds) ++ rest) =
      closeLists kinds ++ fragmentsFrom (.inLists []) rest := by
  rcases kinds with _ | ⟨kind, more⟩
  · rfl
  · have hended : ended (kind :: more) = ended more ++ [⟨kind, .nil, none⟩] := by simp [ended]
    have hlines : openLines (ended (kind :: more)) = [[]] := by
      rw [hended, openLines_ended_append (by simp)]
      rfl
    rw [hlines]
    exact fragmentsFrom_blank (by decide) _ rest

end Ended

/-- An item before others. -/
def Items.before (text : ItemText) (lists : Lists) : Option Items → Items
  | none => .last text lists
  | some rest => .cons text lists rest

theorem fragments_before (text : ItemText) (lists : Lists) (items : Option Items) :
    (Items.before text lists items).fragments =
      .item text.text :: (lists.fragments ++ items.elim [] fun items => .itemClosing :: items.fragments) := by
  cases items with
  | none => rw [Items.before, Items.fragments, Option.elim, List.append_nil]
  | some rest => rw [Items.before, Items.fragments]; rfl

theorem lines_before (kinds : List ListKind) (text : ItemText) (lists : Lists) (items : Option Items) :
    (Items.before text lists items).lines kinds =
      itemLine kinds text :: (lists.lines kinds ++ items.elim [] (Items.lines kinds)) := by
  cases items with
  | none => rw [Items.before, Items.lines, Option.elim, List.append_nil]
  | some rest => rw [Items.before, Items.lines]; rfl

namespace Remainder.IsOf

variable {remainder remainder' : Remainder} {kinds kinds' : List ListKind} {lines : List (List Char)} {line : List Char}

/-- At the end of the page nothing is to come. -/
theorem nil (kinds : List ListKind) : Remainder.IsOf ⟨ended kinds, []⟩ kinds [] where
  kinds_eq := by rw [Remainder.kinds, kinds_ended, List.reverse_reverse]
  reads := by
    rw [fragmentsFrom_nil, Remainder.fragments, fragments_ended]
    exact (List.append_nil _).symm
  reads_lines := by
    rw [Remainder.fragments, fragments_ended]
    exact fragmentsFrom_ended kinds []

/-- A blank line ends the open lists. -/
theorem blank (h : remainder.IsOf [] lines) (kinds : List ListKind) (hblank : isBlankText line = true) :
    Remainder.IsOf ⟨ended kinds, remainder.page⟩ kinds (line :: lines) := by
  obtain ⟨opened, page⟩ := remainder
  obtain rfl : opened = [] := by simpa [Remainder.kinds] using h.kinds_eq
  refine ⟨by rw [Remainder.kinds, kinds_ended, List.reverse_reverse], ?_, ?_⟩
  · rw [fragmentsFrom_blank hblank, h.reads, Remainder.fragments, Remainder.fragments, fragments_ended]
    rfl
  · have hlines := h.reads_lines
    rw [Remainder.lines, Remainder.fragments] at hlines ⊢
    rw [fragmentsFrom_ended, fragments_ended]
    exact congrArg _ hlines

/-- A remainder that has one line more is that of one line more. -/
theorem of_line (h : remainder.IsOf kinds' lines) (hne : kinds' ≠ []) (text : ItemText) (hkinds : remainder'.kinds = kinds)
    (hfragments : remainder'.fragments = itemFragments kinds kinds' text.text ++ remainder.fragments)
    (hlines : remainder'.lines = itemLine kinds' text :: remainder.lines) :
    remainder'.IsOf kinds (itemLine kinds' text :: lines) := by
  refine ⟨hkinds, ?_, ?_⟩
  · rw [fragmentsFrom_item hne, h.reads, hfragments]
  · rw [hlines, fragmentsFrom_item hne, h.reads_lines, hfragments]

/-- An item outside the open lists is the first one of a list of the page.  Its line has an empty line before it where
the lists that it closes are closed by one. -/
theorem first {deeper : List ListKind} {kind : ListKind} {lists : Lists} {items : Option Items} {page : List PageList}
    (h : Remainder.IsOf ⟨[⟨kind, lists, items⟩], page⟩ [kind] lines) (text : ItemText) (hfirst : deeper.head? ≠ some kind) :
    Remainder.IsOf ⟨ended deeper, ⟨kind, .before text lists items⟩ :: page⟩ deeper (itemLine [kind] text :: lines) := by
  have hfragments : (⟨ended deeper, ⟨kind, .before text lists items⟩ :: page⟩ : Remainder).fragments = closeLists deeper ++
      ([.listOpening kind, .item text.text] ++ (⟨[⟨kind, lists, items⟩], page⟩ : Remainder).fragments) := by
    simp [PageList.fragments, Remainder.fragments, OpenList.fragments, fragments_ended, fragments_before]
  have hlines : linesOf (⟨kind, .before text lists items⟩ :: page) =
      itemLine [kind] text :: (⟨[⟨kind, lists, items⟩], page⟩ : Remainder).lines := by
    simp [linesOf, PageList.lines, Remainder.lines, openLines, lines_before]
  have hopened : ∀ {deeper : List ListKind}, deeper.head? ≠ some kind →
      itemFragments deeper [kind] text.text = closeLists deeper ++ [.listOpening kind, .item text.text] := fun h =>
    itemFragments_first [] h text.text
  refine ⟨by rw [Remainder.kinds, kinds_ended, List.reverse_reverse], ?_, ?_⟩
  · rw [fragmentsFrom_item (List.cons_ne_nil _ _), h.reads, hopened hfirst, hfragments, List.append_assoc]
  · rw [Remainder.lines, fragmentsFrom_ended, hlines, fragmentsFrom_item (List.cons_ne_nil _ _), h.reads_lines,
      hopened (by simp), hfragments]
    rfl

/-- **A line more is an item more**: of the innermost list that stays open, or of a new list there. -/
theorem item (h : remainder.IsOf kinds' lines) (hne : kinds' ≠ []) (hlevel : kinds'.dropLast <+: kinds) (text : ItemText) :
    ∃ remainder' : Remainder, remainder'.IsOf kinds (itemLine kinds' text :: lines) := by
  have hkinds' := h.kinds_eq
  obtain ⟨opened, page⟩ := remainder
  obtain ⟨⟨kind, lists, items⟩, outer, rfl⟩ : ∃ list outer, opened = list :: outer := by
    refine List.exists_cons_of_ne_nil fun hnil => hne ?_
    rw [← hkinds', hnil]
    rfl
  obtain rfl : (outer.map OpenList.kind).reverse ++ [kind] = kinds' := by simpa [Remainder.kinds] using hkinds'
  rw [List.dropLast_concat] at hlevel
  obtain ⟨deeper, rfl⟩ := hlevel
  by_cases hnext : deeper.head? = some kind
  · obtain ⟨inner, rfl⟩ := List.head?_eq_some_iff.mp hnext
    refine ⟨⟨ended inner ++ ⟨kind, .nil, some (.before text lists items)⟩ :: outer, page⟩, h.of_line hne text ?_ ?_ ?_⟩
    · simp [Remainder.kinds, kinds_ended]
    · rw [itemFragments_next]
      simp [Remainder.fragments, OpenList.fragments, fragments_ended, fragments_before, Lists.fragments]
    · rw [Remainder.lines, openLines_ended_append (List.cons_ne_nil _ _)]
      simp [Remainder.lines, openLines, lines_before, Lists.lines]
  · cases outer with
    | nil => exact ⟨_, h.first text hnext⟩
    | cons list outer =>
      refine ⟨⟨ended deeper ++ ⟨list.kind, .cons kind (.before text lists items) list.lists, list.items⟩ :: outer, page⟩,
        h.of_line hne text ?_ ?_ ?_⟩
      · simp [Remainder.kinds, kinds_ended]
      · rw [itemFragments_first _ hnext]
        simp [Remainder.fragments, OpenList.fragments, fragments_ended, fragments_before, Lists.fragments]
      · rw [Remainder.lines, openLines_ended_append (List.cons_ne_nil _ _)]
        simp [Remainder.lines, openLines, lines_before, Lists.lines]

end Remainder.IsOf

theorem exists_remainder {kinds : List ListKind} {lines : List (List Char)} (h : IsListPage kinds lines) :
    ∃ remainder : Remainder, remainder.IsOf kinds lines := by
  induction h with
  | nil kinds => exact ⟨_, .nil kinds⟩
  | blank kinds hblank _ ih => exact ih.imp' _ fun remainder h => h.blank kinds hblank
  | item text hne hlevel _ ih =>
    obtain ⟨remainder, h⟩ := ih
    exact h.item hne hlevel text

/-- **The lists of a page are read again from their own lines.** -/
theorem exists_page {lines : List (List Char)} (h : IsListPage [] lines) :
    ∃ page : List PageList, fragmentsFrom .empty lines = page.flatMap PageList.fragments ∧
      fragmentsFrom .empty (linesOf page) = page.flatMap PageList.fragments := by
  obtain ⟨⟨opened, page⟩, hkinds, hreads, hlines⟩ := exists_remainder h
  obtain rfl : opened = [] := by simpa [Remainder.kinds] using hkinds
  exact ⟨page, hreads, hlines⟩

end WikiMigration.Wiki
