/-
Lists on their way to a wiki page and back.

An item is written as its line, with the lines of the items within it behind, and these already have all their
markers.  A list is written as its items, with the line feeds around it that its place asks for.  So the page has the
lines of its lists, with an empty line between two of them, and they are read as the same lists again.
-/
import WikiMigration.Proofs.Html.Lists
import WikiMigration.Proofs.Writing.Blocks

namespace WikiMigration.Wiki

open Text Html Writing

/-! ### Lines of lists -/

section ListLines

variable {kinds : List ListKind} {line : List Char} {lines : List (List Char)}

/-- The line is one of an item within lists. -/
def IsListLine (line : List Char) : Prop := ∃ kinds text, kinds ≠ [] ∧ line = itemLine kinds text

mutual

theorem Items.isListLine : ∀ (items : Items) {kinds : List ListKind}, kinds ≠ [] →
    ∀ line ∈ items.lines kinds, IsListLine line
  | .last text lists, kinds, hne => by
    rw [Items.lines, List.forall_mem_cons]
    exact ⟨⟨kinds, text, hne, rfl⟩, lists.isListLine kinds⟩
  | .cons text lists rest, kinds, hne => by
    rw [Items.lines, List.forall_mem_cons, List.forall_mem_append]
    exact ⟨⟨kinds, text, hne, rfl⟩, lists.isListLine kinds, rest.isListLine hne⟩

theorem Lists.isListLine : ∀ (lists : Lists) (kinds : List ListKind), ∀ line ∈ lists.lines kinds, IsListLine line
  | .nil, kinds => by simp [Lists.lines]
  | .cons kind items rest, kinds => by
    rw [Lists.lines, List.forall_mem_append]
    exact ⟨items.isListLine (by simp), rest.isListLine kinds⟩

end

theorem lines_ne_nil (items : Items) (kinds : List ListKind) : items.lines kinds ≠ [] := by
  cases items <;> simp [Items.lines]

theorem IsListLine.isKeptLine (h : IsListLine line) : IsKeptLine line := by
  obtain ⟨kinds, text, hne, rfl⟩ := h
  obtain ⟨more, hline⟩ := itemLine_of_ne_nil hne text
  refine ⟨by simp [hline], trimmed_itemLine hne text, ?_, ?_⟩
  · rw [hline]
    exact fun heq => marker_ne (by decide) (by decide) _ (List.cons.inj heq).1
  · have hmarkers : '\n' ∉ kinds.map ListKind.marker := fun hmem => by
      obtain ⟨kind, -, heq⟩ := List.mem_map.mp hmem
      exact marker_ne (by decide) (by decide) kind heq
    simpa [itemLine, hmarkers] using text.prose.not_mem (by decide)

theorem IsListLine.isItemLine (h : IsListLine line) : Writing.Wiki.isItemLine line = true := by
  obtain ⟨kinds, text, hne, rfl⟩ := h
  have hmarkers : (kinds.map ListKind.marker).isEmpty = false := by simpa using hne
  rw [Writing.Wiki.isItemLine, markers_itemLine, hmarkers, itemLine, List.drop_left]
  rfl

theorem ItemText.isKeptLine (text : ItemText) : IsKeptLine text.text where
  ne_nil := text.line.ne_nil
  trimmed := text.line.trimmed
  unquoted heq := text.prose.not_mem (by decide) (heq ▸ List.mem_singleton_self '>')
  whole := text.prose.not_mem (by decide)

theorem Items.isKeptLine (items : Items) (hne : kinds ≠ []) : ∀ line ∈ items.lines kinds, IsKeptLine line :=
  fun line hline => (items.isListLine hne line hline).isKeptLine

theorem Items.isBlockText (items : Items) (hne : kinds ≠ []) : IsBlockText (unlines (items.lines kinds)) :=
  isBlockText_unlines (lines_ne_nil items kinds) (items.isKeptLine hne)

/-- Items within an item keep their lines. -/
theorem itemLines_eq (h : ∀ line ∈ lines, IsListLine line) (current : List Char) :
    Writing.Wiki.itemLines current lines = current :: lines := by
  induction lines generalizing current with
  | nil => rfl
  | cons line rest ih =>
    rw [List.forall_mem_cons] at h
    rw [Writing.Wiki.itemLines, if_pos h.1.isItemLine, ih h.2]

end ListLines

/-! ### Writing lists -/

section Writing

variable {place : Writing.Place} {kinds : List ListKind} {kind : ListKind} {children before behind earlier : List Node}

/-- The place is within lists of the given kinds, outermost first, and its text is running text. -/
structure IsAt (place : Writing.Place) (kinds : List ListKind) : Prop where
  verbatim : place.verbatim = false
  preformatted : place.preformatted = false
  within : place.isWithin "pre" = false
  markers : (place.parents.reverse.filterMap fun e =>
    if e.name == "ul" then some '*' else if e.name == "ol" then some '#' else none) = kinds.map ListKind.marker

theorem isAt_body (nodes : List Node) : IsAt (bodyPlace nodes) [] := ⟨rfl, rfl, rfl, rfl⟩

theorem IsAt.inside_item (h : IsAt place kinds) (children : List Node) :
    IsAt (place.inside ⟨"li", [], children⟩) kinds where
  verbatim := by simp [Writing.Place.inside, h.verbatim, Writing.Place.isCode]
  preformatted := by simp [Writing.Place.inside, h.preformatted]
  within := by simpa [Writing.Place.inside, Writing.Place.isWithin] using h.within
  markers := by simpa [Writing.Place.inside] using h.markers

theorem IsAt.inside_list (h : IsAt place kinds) (kind : ListKind) (children : List Node) :
    IsAt (place.inside ⟨kind.tag, [], children⟩) (kinds ++ [kind]) where
  verbatim := by cases kind <;> simp [Writing.Place.inside, h.verbatim, Writing.Place.isCode, ListKind.tag]
  preformatted := by cases kind <;> simp [Writing.Place.inside, h.preformatted, ListKind.tag]
  within := by cases kind <;> simpa [Writing.Place.inside, Writing.Place.isWithin, ListKind.tag] using h.within
  markers := by
    have hmarkers := h.markers
    cases kind <;> simp_all [Writing.Place.inside, ListKind.tag, ListKind.marker]

theorem IsAt.itemMarkers (h : IsAt place kinds) (hne : kinds ≠ []) :
    Writing.Wiki.itemMarkers place = kinds.map ListKind.marker := by
  rw [Writing.Wiki.itemMarkers, h.markers]
  exact if_neg (by simpa using hne)

/-- An item is written as its line, with those of the items within it behind. -/
theorem writeItem_eq (h : IsAt place kinds) (hne : kinds ≠ []) (text : ItemText) {lines : List (List Char)}
    (hlines : ∀ line ∈ lines, IsListLine line) :
    Writing.Wiki.writeItem place (unlines (text.text :: lines)) = unlines (itemLine kinds text :: lines) ++ ['\n'] := by
  have hkept : ∀ line ∈ text.text :: lines, IsKeptLine line :=
    List.forall_mem_cons.mpr ⟨text.isKeptLine, fun line hline => (hlines line hline).isKeptLine⟩
  have htrim : trim (unlines (text.text :: lines)) = unlines (text.text :: lines) :=
    (trimmed_unlines (List.cons_ne_nil _ _) hkept).2.trimWith_eq_self
  have hfilled : (text.text :: lines).filter (fun line => !isBlankText line) = text.text :: lines :=
    List.filter_eq_self.mpr fun line hline => by rw [(hkept line hline).isBlankText, Bool.not_false]
  rw [Writing.Wiki.writeItem, htrim, lines_unlines (List.cons_ne_nil _ _) fun line hline => (hkept line hline).whole,
    hfilled]
  show Writing.Wiki.itemMarkers place ++ ' ' :: unlines (Writing.Wiki.itemLines text.text lines) ++ ['\n'] = _
  rw [itemLines_eq hlines, h.itemMarkers hne, unlines_cons_eq_flatMap, unlines_cons_eq_flatMap, itemLine]
  simp

/-- The text of an item is written without the line feed behind it. -/
theorem writeText_item (h : IsAt place kinds) (hparent : place.parentName = "li") (text : ItemText) {after : Option Node}
    (hafter : trimsAt "li" after = true) : writeText .jspwiki place none after text.fed = text.text := by
  have hcollapsed : collapseRuns text.fed = text.fed := text.line.collapseRuns_append ['\n']
  have hescaped : escape .jspwiki text.fed = text.fed := escapeWiki_eq_self fun c hc => by
    have hmark : ∀ c ∈ "~[_'\x7b\\".toList, isProseChar c = false ∧ c ≠ '\n' := by decide
    simpa [ItemText.fed, (hmark c hc).2] using text.prose.not_mem (hmark c hc).1
  have hleft : trimLeftWith isRunBlank text.fed = text.fed := trimLeftWith_eq_self fun c hc => by
    rw [ItemText.fed, List.head?_append_of_ne_nil _ text.line.ne_nil] at hc
    exact (text.line.trimmed.mono fun _ => isBlank_of_isRunBlank).head c hc
  have hright : trimRight text.fed = text.text := trimRight_feed text.line.trimmed
  have hbefore : trimsAt "li" none = true := by decide
  rw [writeText, h.preformatted, h.verbatim, hparent, hbefore, hafter]
  simp only [Bool.false_eq_true, if_false, if_true, hcollapsed, hescaped, hleft, hright]

/-- The lists of an item are written as their lines, each behind a line feed. -/
def Lists.AreWritten (lists : Lists) : Prop :=
  ∀ {place : Writing.Place} {kinds : List ListKind}, IsAt place kinds → place.inItem = true → ∀ before earlier,
    joinBlocksFrom 0 (keptTexts "li" before lists.nodes (writeNodes .jspwiki place earlier lists.nodes))
      = (lists.lines kinds).flatMap ('\n' :: ·)

/-- The items of a list are written as their lines, behind the line feeds that wait. -/
def Items.AreWritten (items : Items) : Prop :=
  ∀ {place : Writing.Place} {kinds : List ListKind}, IsAt place kinds → kinds ≠ [] → ∀ parent pending before earlier,
    joinBlocksFrom pending (keptTexts parent before items.nodes (writeNodes .jspwiki place earlier items.nodes))
      = framed pending (unlines (items.lines kinds)) 1

theorem trimsAround_list (kind : ListKind) (children : List Node) :
    trimsAround (some (.element kind.tag [] children)) = true := by
  cases kind <;> simp [trimsAround, ListKind.tag, trimsInside]

theorem trimsAround_item (children : List Node) : trimsAround (some (.element "li" [] children)) = true := by
  simp [trimsAround, trimsInside]

/-- An item is written as its lines. -/
theorem text_writeNode_item (h : IsAt place kinds) (hne : kinds ≠ []) (text : ItemText) {lists : Lists}
    (hlists : lists.AreWritten) (before behind : List Node) :
    (writeNode .jspwiki place before behind (.element "li" [] (.text text.fed :: lists.nodes))).text
      = framed 0 (unlines (itemLine kinds text :: lists.lines kinds)) 1 := by
  have hinside := h.inside_item (.text text.fed :: lists.nodes)
  have hafter : trimsAt "li" lists.nodes.head? = true := by
    cases lists with
    | nil => decide
    | cons kind items rest =>
      rw [Lists.nodes, List.head?_cons, trimsAt, trimsAround_list, Bool.true_or]
  have hwritten := writeText_item hinside rfl text hafter
  have hfilled : isBlankText text.fed = false := by
    obtain ⟨c, hc, hsolid⟩ := text.line.filled
    exact List.all_eq_false.mpr ⟨c, List.mem_append_left _ hc, by simp [hsolid]⟩
  have htext : IsBlockText text.text := isBlockText_unlines (List.cons_ne_nil text.text []) (by simpa using text.isKeptLine)
  have hjoined : joinBlocks (keptTexts "li" none (.text text.fed :: lists.nodes) (writeNodes .jspwiki
      (place.inside ⟨"li", [], .text text.fed :: lists.nodes⟩) [] (.text text.fed :: lists.nodes)))
      = unlines (text.text :: lists.lines kinds) := by
    rw [keptTexts_text hfilled text.line.ne_nil hwritten, joinBlocks, ← framed_zero text.text, htext.joinBlocksFrom_framed,
      hlists hinside (by simp [Writing.Place.inside]), framed_zero, unlines_cons_eq_flatMap]
    rfl
  rw [writeNode]
  show Writing.Wiki.writeItem place (joinTexts place "li" _) = _
  rw [joinTexts, h.within, if_neg (by decide), hjoined, writeItem_eq h hne text (lists.isListLine kinds)]
  rfl

/-- Where the text of a list comes from. -/
theorem text_writeNode_list (h : IsAt place kinds) (kind : ListKind) {items : Items} (hitems : items.AreWritten)
    (before behind : List Node) :
    (writeNode .jspwiki place before behind (.element kind.tag [] items.nodes)).text
      = writeList place behind (unlines (items.lines (kinds ++ [kind])) ++ ['\n']) := by
  have hinside := h.inside_list kind items.nodes
  have hjoined : joinBlocks (keptTexts kind.tag none items.nodes (writeNodes .jspwiki
      (place.inside ⟨kind.tag, [], items.nodes⟩) [] items.nodes)) = unlines (items.lines (kinds ++ [kind])) ++ ['\n'] :=
    hitems hinside (by simp) kind.tag 0 none []
  have hname : (kind.tag == "pre") = false := by cases kind <;> rfl
  have hwritten : ∀ text rows, writeElement .jspwiki place before behind ⟨kind.tag, [], items.nodes⟩ text rows
      = writeList place behind text := by
    have hlevel : ∀ kind : ListKind, Markdown.headingLevel? kind.tag = none := fun kind => by
      cases kind <;> decide +kernel
    have hlevel := hlevel kind
    cases kind <;> simp_all [writeElement, Writing.Wiki.writeElement, writeShared, ListKind.tag]
  rw [writeNode, hwritten, joinTexts, hname, h.within, Bool.or_self, if_neg (by decide), hjoined]

/-- A list within an item is written behind a line feed. -/
theorem text_writeNode_inner (h : IsAt place kinds) (hitem : place.inItem = true) (kind : ListKind) {items : Items}
    (hitems : items.AreWritten) (before behind : List Node) :
    (writeNode .jspwiki place before behind (.element kind.tag [] items.nodes)).text
      = framed 1 (unlines (items.lines (kinds ++ [kind]))) 0 := by
  have hright : trimRight (unlines (items.lines (kinds ++ [kind])) ++ ['\n']) = unlines (items.lines (kinds ++ [kind])) :=
    trimRight_feed (trimmed_unlines (lines_ne_nil items _) (items.isKeptLine (by simp))).2
  rw [text_writeNode_list h kind hitems, writeList, hitem, if_pos rfl, hright]
  simp [framed]

/-- The first item is written behind the line feeds that wait, and one waits behind it. -/
theorem joinBlocksFrom_item (h : IsAt place kinds) (hne : kinds ≠ []) (text : ItemText) {lists : Lists}
    (hlists : lists.AreWritten) (parent : String) (pending : Nat) (before : Option Node) (earlier nodes : List Node) :
    joinBlocksFrom pending (keptTexts parent before
        (.text ['\n'] :: .element "li" [] (.text text.fed :: lists.nodes) :: nodes)
        (writeNodes .jspwiki place earlier (.text ['\n'] :: .element "li" [] (.text text.fed :: lists.nodes) :: nodes)))
      = List.replicate pending '\n' ++ unlines (itemLine kinds text :: lists.lines kinds) ++
        joinBlocksFrom 1 (keptTexts parent (some (.element "li" [] (.text text.fed :: lists.nodes))) nodes
          (writeNodes .jspwiki place (.element "li" [] (.text text.fed :: lists.nodes) :: .text ['\n'] :: earlier)
            nodes)) := by
  have hblock : IsBlockText (unlines (itemLine kinds text :: lists.lines kinds)) := by
    refine isBlockText_unlines (List.cons_ne_nil _ _) (List.forall_mem_cons.mpr ⟨?_, fun line hline => ?_⟩)
    · exact IsListLine.isKeptLine ⟨kinds, text, hne, rfl⟩
    · exact (lists.isListLine kinds line hline).isKeptLine
  have hfeed : trimsAt parent (some (.element "li" [] (.text text.fed :: lists.nodes))) = true := by
    rw [trimsAt, trimsAround_item, Bool.true_or]
  rw [keptTexts_feed (Or.inr hfeed),
    keptTexts_element rfl (framed_ne_nil hblock.ne_nil 0 1) (text_writeNode_item h hne text hlists _ _),
    hblock.joinBlocksFrom_framed, feedsBetween_zero]

theorem Items.AreWritten.last (text : ItemText) {lists : Lists} (hlists : lists.AreWritten) :
    (Items.last text lists).AreWritten := by
  intro place kinds h hne parent pending before earlier
  rw [Items.nodes, joinBlocksFrom_item h hne text hlists, Items.lines]
  rfl

theorem Items.AreWritten.cons (text : ItemText) {lists : Lists} (hlists : lists.AreWritten) {rest : Items}
    (hrest : rest.AreWritten) : (Items.cons text lists rest).AreWritten := by
  intro place kinds h hne parent pending before earlier
  have hlines : unlines (itemLine kinds text :: (lists.lines kinds ++ rest.lines kinds)) =
      unlines (itemLine kinds text :: lists.lines kinds) ++ '\n' :: unlines (rest.lines kinds) :=
    unlines_append (List.cons_ne_nil _ _) (lines_ne_nil rest kinds)
  rw [Items.nodes, joinBlocksFrom_item h hne text hlists, hrest h hne, Items.lines, hlines]
  simp [framed]

theorem Lists.AreWritten.nil : Lists.nil.AreWritten := fun _ _ _ _ => rfl

theorem Lists.AreWritten.cons (kind : ListKind) {items : Items} (hitems : items.AreWritten) {rest : Lists}
    (hrest : rest.AreWritten) : (Lists.cons kind items rest).AreWritten := by
  intro place kinds h hitem before earlier
  have hne := lines_ne_nil items (kinds ++ [kind])
  have hblock : IsBlockText (unlines (items.lines (kinds ++ [kind]))) := items.isBlockText (by simp)
  obtain ⟨line, lines, hlines⟩ := List.exists_cons_of_ne_nil hne
  rw [Lists.nodes, keptTexts_element rfl (framed_ne_nil hblock.ne_nil 1 0) (text_writeNode_inner h hitem kind hitems _ _),
    keptTexts_feed (Or.inl (by rw [trimsAt, trimsAround_list, Bool.true_or])), hblock.joinBlocksFrom_framed, hrest h hitem,
    Lists.lines, hlines, unlines_cons_eq_flatMap]
  simp [feedsBetween]

-- One induction over items and lists, as they hold each other: its hypotheses are the writing of what is within, at
-- any place and behind anything.
mutual

/-- **Items are written as their lines.** -/
theorem Items.areWritten : ∀ items : Items, items.AreWritten
  | .last text lists => Items.AreWritten.last text lists.areWritten
  | .cons text lists rest => Items.AreWritten.cons text lists.areWritten rest.areWritten

theorem Lists.areWritten : ∀ lists : Lists, lists.AreWritten
  | .nil => Lists.AreWritten.nil
  | .cons kind items rest => Lists.AreWritten.cons kind items.areWritten rest.areWritten

end

end Writing

/-! ### A page of lists, written -/

section WrittenPage

variable {place : Writing.Place} {page : List PageList} {list : PageList} {rest : List PageList}

theorem isKeptLine_of_mem_map : ∀ block ∈ page.map PageList.lines, ∀ line ∈ block, IsKeptLine line := by
  intro block hblock line hline
  obtain ⟨list, -, rfl⟩ := List.mem_map.mp hblock
  exact list.items.isKeptLine (List.cons_ne_nil _ _) line hline

theorem isBlockText_lines (list : PageList) : IsBlockText (unlines list.lines) :=
  list.items.isBlockText (List.cons_ne_nil _ _)

/-- Behind a list of the page nothing but lists follows, so it is written with one line feed behind it. -/
theorem text_writeNode_outer (h : IsAt place []) (hitem : place.inItem = false) (list : PageList)
    (before : List Node) (rest : List PageList) :
    (writeNode .jspwiki place before (rest.flatMap fun next => [.text ['\n'], next.node]) list.node).text
      = framed 2 (unlines list.lines) 1 := by
  have hfollowed : (((rest.flatMap fun next => [Node.text ['\n'], next.node]).find? isContent).map fun node =>
      !isList node).getD false = false := by
    cases rest with
    | nil => rfl
    | cons next others =>
      have hlist : isList next.node = true := by
        obtain ⟨kind, items⟩ := next
        cases kind <;> simp [isList, PageList.node, Node.name?, ListKind.tag]
      have hblank : isContent (.text ['\n']) = false := by decide
      have hcontent : isContent next.node = true := rfl
      simp [hblank, hcontent, hlist]
  rw [PageList.node, text_writeNode_list h list.kind list.items.areWritten, writeList, hitem, if_neg (by decide)]
  simp only [hfollowed, Bool.false_eq_true, if_false, List.append_nil, List.nil_append]
  simp [framed, PageList.lines]

/-- The lists of the page are written with one empty line between two of them. -/
theorem joinBlocksFrom_page (h : IsAt place []) (hitem : place.inItem = false) {pending : Nat}
    (hpending : feedsBetween pending 2 = 2) (before : Option Node) (earlier : List Node) :
    joinBlocksFrom pending (keptTexts "body" before (pageNodes (list :: rest))
      (writeNodes .jspwiki place earlier (pageNodes (list :: rest))))
      = framed 2 (joinWith emptyLine ((list :: rest).map fun next => unlines next.lines)) 1 := by
  have hlist := isBlockText_lines list
  induction rest generalizing list pending before earlier with
  | nil =>
    rw [pageNodes, keptTexts_element rfl (framed_ne_nil hlist.ne_nil 2 1) (text_writeNode_outer h hitem list _ []),
      hlist.joinBlocksFrom_framed, hpending]
    rfl
  | cons next others ih =>
    have hfeed : trimsAt "body" (some list.node) = true := by
      rw [trimsAt, PageList.node, trimsAround_list, Bool.true_or]
    have hnodes : pageNodes (list :: next :: others) = list.node :: .text ['\n'] :: pageNodes (next :: others) := rfl
    have hjoin : joinWith emptyLine ((list :: next :: others).map fun next => unlines next.lines) =
        unlines list.lines ++ emptyLine ++ joinWith emptyLine ((next :: others).map fun next => unlines next.lines) :=
      joinWith_cons _ _ (List.cons_ne_nil _ _)
    have hwritten : (writeNode .jspwiki place earlier (.text ['\n'] :: pageNodes (next :: others)) list.node).text =
        framed 2 (unlines list.lines) 1 := text_writeNode_outer h hitem list earlier (next :: others)
    rw [hnodes, keptTexts_element rfl (framed_ne_nil hlist.ne_nil 2 1) hwritten, hlist.joinBlocksFrom_framed, hpending,
      keptTexts_feed (Or.inl hfeed), ih rfl _ _ (isBlockText_lines next), hjoin]
    simp [framed, emptyLine]

/-- **A page of lists is written as their lines**, with an empty line between two lists. -/
theorem writePage_lists (context : Context) (list : PageList) (rest : List PageList) :
    writePage .jspwiki (unlines ((list :: rest).map (PageList.html context)))
      = unlines ([[]].intercalate ((list :: rest).map PageList.lines) ++ [[]]) := by
  have hblank : isBlankText (unlines ((list :: rest).map (PageList.html context))) = false := by
    have hbracket : '<' ∈ unlines ((list :: rest).map (PageList.html context)) := by
      rw [List.map_cons, unlines_cons_eq_flatMap, html_eq]
      exact List.mem_cons_self
    exact List.all_eq_false.mpr ⟨'<', hbracket, by decide⟩
  have hjoined : IsBlockText (joinWith emptyLine ((list :: rest).map fun next => unlines next.lines)) :=
    isBlockText_joinWith emptyLine (by simp) (by simpa using
      ⟨isBlockText_lines list, fun next _ => isBlockText_lines next⟩)
  have hwritten := writeDocument_body hjoined
    (joinBlocksFrom_page (isAt_body (pageNodes (list :: rest))) rfl rfl none [])
  have htidy := @tidy_blocks ((list :: rest).map PageList.lines) (by simp)
    (by simpa using ⟨lines_ne_nil list.items _, fun next _ => lines_ne_nil next.items _⟩) isKeptLine_of_mem_map
  rw [List.map_map] at htidy
  rw [writePage, hblank, if_neg (by decide), parse_lists, clean_lists, hwritten]
  exact htidy

theorem IsListLine.not_mem {line : List Char} (h : IsListLine line) {c : Char} (hc : c ∈ normalizedChars) : c ∉ line := by
  obtain ⟨kinds, text, -, rfl⟩ := h
  have hchars : ∀ c ∈ normalizedChars, isProseChar c = false ∧ c ≠ ' ' ∧ c ≠ '*' ∧ c ≠ '#' := by decide
  obtain ⟨hprose, hspace, hstar, hnumber⟩ := hchars c hc
  simpa [itemLine, hspace, marker_ne hstar hnumber] using text.prose.not_mem hprose

theorem intercalate_concat (hne : page ≠ []) :
    [[]].intercalate (page.map PageList.lines) ++ [[]] = linesOf page := by
  induction page with
  | nil => exact absurd rfl hne
  | cons list rest ih =>
    cases rest with
    | nil => simp [linesOf]
    | cons next others =>
      rw [List.map_cons, List.map_cons, List.intercalate_cons_cons, List.append_assoc, ← List.map_cons,
        ih (List.cons_ne_nil _ _)]
      simp [linesOf]

/-- The lines of the page are those of its lists, with an empty line behind each. -/
theorem pageLines_written (hne : page ≠ []) :
    pageLines (unlines ([[]].intercalate (page.map PageList.lines) ++ [[]])) = linesOf page := by
  have hlines : ∀ line ∈ [[]].intercalate (page.map PageList.lines) ++ [[]],
      line = [] ∨ IsListLine line := by
    intro line hline
    rcases List.mem_append.mp hline with hline | hline
    · refine (mem_intercalate hline).imp_right fun ⟨block, hblock, hmem⟩ => ?_
      obtain ⟨list, -, rfl⟩ := List.mem_map.mp hblock
      exact list.items.isListLine (List.cons_ne_nil _ _) line hmem
    · exact Or.inl (List.mem_singleton.mp hline)
  have hno : ∀ {c : Char}, c ∈ normalizedChars → c ∉ unlines ([[]].intercalate (page.map PageList.lines) ++ [[]]) := by
    intro c hc hmem
    have hfeed : c ≠ '\n' := by
      rintro rfl
      exact absurd hc (by decide)
    obtain ⟨line, hline, hmem⟩ := mem_unlines hfeed hmem
    rcases hlines line hline with rfl | hline
    · exact List.not_mem_nil hmem
    · exact hline.not_mem hc hmem
  rw [pageLines_eq (hno (by decide)) (hno (by decide)), ← intercalate_concat hne]
  refine lines_unlines (by simp) fun line hline => ?_
  rcases hlines line hline with rfl | hline
  · exact List.not_mem_nil
  · exact hline.isKeptLine.whole

end WrittenPage

end WikiMigration.Wiki

namespace WikiMigration.Conversion

open Text Wiki Writing

/-- **Nested lists round-trip.**  A page of blank lines and items, none of which skips a level, is converted to a page of
the wiki that is rendered alike. -/
theorem lists_round_trip {source target : Engine} (hsource : Rendering.choose source.dialect source.override = .ok .wiki)
    (htarget : target.dialect = .jspwiki) (page : List Char) {text : List Char} (h : IsListPage [] (pageLines text))
    (context : Context) :
    ∃ markup, convert page source target (some text) = .ok markup ∧ renderPage context markup = renderPage context text := by
  obtain ⟨lists, hreads, hread⟩ := exists_page h
  have hfragments : fragmentsOf text = lists.flatMap PageList.fragments := hreads
  refine ⟨_, convert_wiki hsource page text target, ?_⟩
  rw [renderPage_lists hfragments, htarget, renderPage_lists hfragments]
  cases lists with
  | nil => rfl
  | cons list rest =>
    rw [writePage_lists]
    refine renderPage_lists ?_
    rw [fragmentsOf, pageLines_written (List.cons_ne_nil list rest)]
    exact hread

/-- A page with lists of both kinds within a list, and two lists behind it. -/
def nestedPage : List Char := "* a\n** b c\n*# d\n* e\n# f\n\n \n# g\n".toList

theorem isListPage_nested : IsListPage [] (pageLines nestedPage) := by
  have hlines : pageLines nestedPage = ["* a".toList, "** b c".toList, "*# d".toList, "* e".toList, "# f".toList, [], [' '],
      "# g".toList, []] := by decide +kernel
  rw [hlines]
  refine @IsListPage.item [] [.bulleted] _ (.ofWords ["a".toList] (by decide) (by decide)) (by decide) (by decide) ?_
  refine @IsListPage.item _ [.bulleted, .bulleted] _ (.ofWords ["b".toList, "c".toList] (by decide) (by decide)) (by decide)
    (by decide) ?_
  refine @IsListPage.item _ [.bulleted, .numbered] _ (.ofWords ["d".toList] (by decide) (by decide)) (by decide)
    (by decide) ?_
  refine @IsListPage.item _ [.bulleted] _ (.ofWords ["e".toList] (by decide) (by decide)) (by decide) (by decide) ?_
  refine @IsListPage.item _ [.numbered] _ (.ofWords ["f".toList] (by decide) (by decide)) (by decide) (by decide) ?_
  refine .blank _ (by decide) (.blank _ (by decide) ?_)
  refine @IsListPage.item _ [.numbered] _ (.ofWords ["g".toList] (by decide) (by decide)) (by decide) (by decide) ?_
  exact .blank _ (by decide) (.nil _)

theorem nested_round_trips :
    IsListPage [] (pageLines nestedPage) ∧
      ∃ markup, convert [] (plainEngine .jspwiki) (plainEngine .jspwiki) (some nestedPage) = .ok markup ∧
        renderPage plainContext markup = renderPage plainContext nestedPage :=
  ⟨isListPage_nested, lists_round_trip rfl rfl [] isListPage_nested plainContext⟩

end WikiMigration.Conversion
