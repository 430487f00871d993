/-
Lists on a rendered page.

Every fragment of a list stands on a line of its own, so between two tags there is the text of an item or a line
feed, and no tag closes an element but its own.  What is read within a list goes into the list, whatever follows, and
the page is read as a body with the elements of its lists.  There is nothing to clean on it.
-/
import WikiMigration.Proofs.Html.Linked
import WikiMigration.Proofs.Writing.ListTree

namespace WikiMigration.Html

open Text

/-! ### Reading elements within elements -/

/-- Reading the text takes the tree in work from one to the other, whatever follows. -/
def ReadsTo (text : List Char) (b b' : Builder) : Prop :=
  ∀ rest, (tokensOf (text ++ rest)).foldl Builder.step b = (tokensOf rest).foldl Builder.step b'

variable {text text' : List Char} {b b' b'' : Builder}

theorem ReadsTo.append (h : ReadsTo text b b') (h' : ReadsTo text' b' b'') : ReadsTo (text ++ text') b b'' := fun rest => by
  rw [List.append_assoc, h, h']

/-- Without references a text is read as it is. -/
theorem readReferences_eq_self (h : '&' ∉ text) : readReferences false text = text := by
  induction text with
  | nil => rfl
  | cons c rest ih =>
    rw [List.mem_cons, not_or] at h
    rw [readReferences_cons false (Ne.symm h.1), ih h.2]

/-- Text that is read as it is and kept: there is more in it than blanks, or it is a line feed. -/
structure IsKeptText (text : List Char) : Prop where
  ne_nil : text ≠ []
  plain : '<' ∉ text ∧ '&' ∉ text
  kept : text.all isTagBlank = false ∨ text = ['\n']

theorem isKeptText_feed : IsKeptText ['\n'] := ⟨by decide, by decide, Or.inr rfl⟩

theorem IsKeptText.keptText (h : IsKeptText text) (b : Builder) : b.keptText text = text := by
  unfold Builder.keptText
  rcases h.kept with hall | rfl
  · rw [hall, Bool.and_false, if_neg (by decide)]
  · split <;> rfl

theorem IsKeptText.tokensOf (h : IsKeptText text) (rest : List Char) :
    tokensOf (text ++ '<' :: rest) = .text text :: tokensOf ('<' :: rest) := by
  rw [tokensOf_text h.ne_nil h.plain.1, readReferences_eq_self h.plain.2]

/-- The tags of lists and their items. -/
def listTagNames : List String := ["ul", "ol", "li"]

variable {name : String}

theorem isPlainTag_list (h : name ∈ listTagNames) : IsPlainTag name := by
  simp only [listTagNames, List.mem_cons, List.not_mem_nil, or_false] at h
  rcases h with rfl | rfl | rfl <;>
    exact ⟨List.all_eq_true.mp (by decide), ⟨_, _, rfl, by decide⟩, by decide, by decide⟩

/-- The tree in work inside open elements of the body, with text read behind the last tag. -/
def Builder.within (stack : List OpenElement) (text : List Char) : Builder := ⟨stack, [], text, true, false, true, 0⟩

/-- The open element with a node more in it. -/
def OpenElement.add (e : OpenElement) (node : Node) : OpenElement := { e with children := node :: e.children }

variable {e : OpenElement} {stack : List OpenElement}

/-- Text among the open elements is text of the page. -/
def ArePageElements (stack : List OpenElement) : Prop := ∀ e ∈ stack, holdsAsides e.name = false

theorem ArePageElements.cons (h : ArePageElements stack) (he : holdsAsides e.name = false) :
    ArePageElements (e :: stack) := List.forall_mem_cons.mpr ⟨he, h⟩

theorem holdsAsides_list (h : name ∈ listTagNames) : holdsAsides name = false := by
  simp only [listTagNames, List.mem_cons, List.not_mem_nil, or_false] at h
  rcases h with rfl | rfl | rfl <;> decide

theorem IsKeptText.textNode (h : IsKeptText text) {b : Builder} (hpage : ArePageElements b.stack) :
    b.textNode text = .text text := by
  rw [Builder.textNode_of_page hpage, h.keptText]

/-- The element is the body or one within it. -/
def OpenElement.IsInside (e : OpenElement) : Prop := e.name ≠ "html" ∧ e.name ≠ "head"

theorem isInside_list (h : name ∈ listTagNames) (children : List Node) : OpenElement.IsInside ⟨name, [], children⟩ := by
  simp only [listTagNames, List.mem_cons, List.not_mem_nil, or_false] at h
  rcases h with rfl | rfl | rfl <;> simp [OpenElement.IsInside]

/-- Text before a tag is read up to the tag. -/
theorem ReadsTo.behind {tag : List Char} (htag : ReadsTo tag (.within (e :: stack) text) b)
    (hbracket : ∃ more, tag = '<' :: more) (hinside : e.IsInside) (h : IsKeptText text) :
    ReadsTo (text ++ tag) (.within (e :: stack) []) b := by
  obtain ⟨more, rfl⟩ := hbracket
  intro rest
  have hstep : (Builder.within (e :: stack) []).addText text = .within (e :: stack) text := by
    simp [Builder.addText, Builder.within, h.ne_nil, Builder.isOutside, Builder.top?, hinside.1, hinside.2]
  rw [List.append_assoc, List.cons_append, h.tokensOf, List.foldl_cons, Builder.step, hstep]
  exact htag rest

/-- A start tag opens an element behind the text. -/
theorem readsTo_startTag (h : IsKeptText text) (hname : name ∈ listTagNames) (hpage : ArePageElements (e :: stack))
    (hopen : closes name e.name = false) :
    ReadsTo (startTagText name) (.within (e :: stack) text) (.within (⟨name, [], []⟩ :: e.add (.text text) :: stack) []) := by
  intro rest
  have hnode := h.textNode (b := ⟨e :: stack, [], text, true, false, true, 0⟩) hpage
  have hstep : (Builder.within (e :: stack) text).startTag name [] false =
      .within (⟨name, [], []⟩ :: e.add (.text text) :: stack) [] := by
    simp only [listTagNames, List.mem_cons, List.not_mem_nil, or_false] at hname
    rcases hname with rfl | rfl | rfl <;>
      simp [Builder.startTag, Builder.within, Builder.autoClose, Builder.closedBy, hopen, Builder.popMany,
        Builder.supplyFrame, isHeadElement, Builder.isMisplaced, isVoid, Builder.push, Builder.flush, h.ne_nil,
        hnode, Builder.add, OpenElement.add]
  rw [(isPlainTag_list hname).tokensOf_startTag, List.foldl_cons, Builder.step, hstep]

/-- An end tag closes the innermost element. -/
theorem readsTo_endTag (hname : name ∈ listTagNames) (children : List Node) (e : OpenElement) (stack : List OpenElement) :
    ReadsTo (endTagText name) (.within (⟨name, [], children⟩ :: e :: stack) [])
      (.within (e.add (.element name [] children.reverse) :: stack) []) := by
  intro rest
  have hstep : (Builder.within (⟨name, [], children⟩ :: e :: stack) []).endTag name =
      .within (e.add (.element name [] children.reverse) :: stack) [] := by
    simp [Builder.endTag, Builder.within, Builder.closedByEnd, Builder.popMany, Builder.pop, Builder.flush, Builder.add,
      OpenElement.add]
  rw [(isPlainTag_list hname).tokensOf_endTag, List.foldl_cons, Builder.step, hstep]

/-- Text before it is the last child of the element. -/
theorem readsTo_text_endTag (h : IsKeptText text) (hname : name ∈ listTagNames) (hpage : ArePageElements (e :: stack))
    (children : List Node) :
    ReadsTo (endTagText name) (.within (⟨name, [], children⟩ :: e :: stack) text)
      (.within (e.add (.element name [] (children.reverse ++ [.text text])) :: stack) []) := by
  intro rest
  have hnode := h.textNode (b := ⟨⟨name, [], children⟩ :: e :: stack, [], text, true, false, true, 0⟩)
    (hpage.cons (holdsAsides_list hname))
  have hstep : (Builder.within (⟨name, [], children⟩ :: e :: stack) text).endTag name =
      .within (e.add (.element name [] (children.reverse ++ [.text text])) :: stack) [] := by
    simp [Builder.endTag, Builder.within, Builder.closedByEnd, Builder.popMany, Builder.pop, Builder.flush, h.ne_nil,
      hnode, Builder.add, OpenElement.add]
  rw [(isPlainTag_list hname).tokensOf_endTag, List.foldl_cons, Builder.step, hstep]

end WikiMigration.Html

namespace WikiMigration.Wiki

open Text Html Writing

/-! ### The elements of lists -/

theorem tag_mem (kind : ListKind) : kind.tag ∈ listTagNames := by cases kind <;> simp [ListKind.tag, listTagNames]

section Rendering

variable (context : Context) (kind : ListKind)

theorem render_listOpening : (Fragment.listOpening kind).render context = startTagText kind.tag := by
  cases kind <;> rfl

theorem render_itemClosing : Fragment.itemClosing.render context = endTagText "li" := rfl

theorem render_listClosing : (Fragment.listClosing kind).render context = endTagText "li" ++ endTagText kind.tag := by
  cases kind <;> rfl

theorem render_item (text : ItemText) : (Fragment.item text.text).render context = startTagText "li" ++ text.text := by
  show "<li>".toList ++ renderInline context text.text = _
  rw [renderInline_prose context text.prose]
  rfl

/-- Fragments as HTML, each with a line feed behind it. -/
def feed (fragments : List Fragment) : List Char := fragments.flatMap fun fragment => fragment.render context ++ ['\n']

@[simp] theorem feed_nil : feed context [] = [] := rfl

@[simp] theorem feed_cons (fragment : Fragment) (fragments : List Fragment) :
    feed context (fragment :: fragments) = fragment.render context ++ '\n' :: feed context fragments := by
  simp [feed]

@[simp] theorem feed_append (fragments fragments' : List Fragment) :
    feed context (fragments ++ fragments') = feed context fragments ++ feed context fragments' :=
  List.flatMap_append

end Rendering

/-- The text inside the element of an item. -/
def ItemText.fed (text : ItemText) : List Char := text.text ++ ['\n']

theorem ItemText.isKeptText (text : ItemText) : IsKeptText text.fed where
  ne_nil := by simp [fed]
  plain := by
    have hno : ∀ {c : Char}, isProseChar c = false → c ≠ '\n' → c ∉ text.fed := fun hc hfeed => by
      simpa [fed, hfeed] using text.prose.not_mem hc
    exact ⟨hno (by decide) (by decide), hno (by decide) (by decide)⟩
  kept := by
    obtain ⟨c, hc, hsolid⟩ := text.line.filled
    exact Or.inl (Builder.all_isTagBlank_of_filled ⟨c, List.mem_append_left _ hc, hsolid⟩)

mutual

/-- The children of the element of a list. -/
def Items.nodes : Items → List Node
  | .last text lists => [.text ['\n'], .element "li" [] (.text text.fed :: lists.nodes)]
  | .cons text lists rest => .text ['\n'] :: .element "li" [] (.text text.fed :: lists.nodes) :: rest.nodes

/-- The children of the element of an item, behind its text. -/
def Lists.nodes : Lists → List Node
  | .nil => []
  | .cons kind items rest => .element kind.tag [] items.nodes :: .text ['\n'] :: rest.nodes

end

/-- The element of a list of the page. -/
def PageList.node (list : PageList) : Node := .element list.kind.tag [] list.items.nodes

/-- The start tag of an item opens its element within that of the list. -/
theorem readsTo_itemOpening (kind : ListKind) (done : List Node) {stack : List OpenElement} (hpage : ArePageElements stack) :
    ReadsTo (['\n'] ++ startTagText "li") (.within (⟨kind.tag, [], done⟩ :: stack) [])
      (.within (⟨"li", [], []⟩ :: ⟨kind.tag, [], .text ['\n'] :: done⟩ :: stack) []) :=
  have hopen : closes "li" kind.tag = false := by cases kind <;> decide
  have hlist : ArePageElements (⟨kind.tag, [], done⟩ :: stack) := hpage.cons (holdsAsides_list (tag_mem kind))
  (readsTo_startTag isKeptText_feed (by decide) hlist hopen).behind ⟨_, rfl⟩ (isInside_list (tag_mem kind) done)
    isKeptText_feed

mutual

/-- **The items of a list are read as the children of its element.** -/
theorem Items.readsTo (context : Context) (kind : ListKind) :
    ∀ (items : Items) (done : List Node) {stack : List OpenElement}, ArePageElements stack →
      ReadsTo ('\n' :: feed context items.fragments ++ endTagText "li") (.within (⟨kind.tag, [], done⟩ :: stack) [])
        (.within (⟨kind.tag, [], items.nodes.reverse ++ done⟩ :: stack) [])
  | .last text lists, done, stack, hpage => by
    have hlist := hpage.cons (e := ⟨kind.tag, [], .text ['\n'] :: done⟩) (holdsAsides_list (tag_mem kind))
    have hitem := (readsTo_itemOpening kind done hpage).append (lists.readsTo context text.isKeptText [] hlist)
    simpa [Items.fragments, Items.nodes, render_item, ItemText.fed, OpenElement.add] using hitem
  | .cons text lists rest, done, stack, hpage => by
    have hlist := hpage.cons (e := ⟨kind.tag, [], .text ['\n'] :: done⟩) (holdsAsides_list (tag_mem kind))
    have hitem := (readsTo_itemOpening kind done hpage).append (lists.readsTo context text.isKeptText [] hlist)
    have hrest := hitem.append (rest.readsTo context kind _ hpage)
    simpa [Items.fragments, Items.nodes, render_item, render_itemClosing, ItemText.fed, OpenElement.add] using hrest

/-- The lists of an item are read as the children of its element. -/
theorem Lists.readsTo (context : Context) {text : List Char} (h : IsKeptText text) :
    ∀ (lists : Lists) (done : List Node) {e : OpenElement} {stack : List OpenElement}, ArePageElements (e :: stack) →
      ReadsTo (text ++ feed context lists.fragments ++ endTagText "li") (.within (⟨"li", [], done⟩ :: e :: stack) [])
        (.within (e.add (.element "li" [] (done.reverse ++ .text text :: lists.nodes)) :: stack) [])
  | .nil, done, e, stack, hpage => by
    have hli : "li" ∈ listTagNames := by decide
    have hend := (readsTo_text_endTag h hli hpage done).behind ⟨_, rfl⟩ (isInside_list hli done) h
    simpa [Lists.fragments, Lists.nodes] using hend
  | .cons kind items rest, done, e, stack, hpage => by
    have hopen : closes kind.tag "li" = false := by cases kind <;> decide
    have hli : "li" ∈ listTagNames := by decide
    have hopening := (readsTo_startTag h (tag_mem kind) (hpage.cons (e := ⟨"li", [], done⟩) (holdsAsides_list hli))
      hopen).behind ⟨_, rfl⟩ (isInside_list hli done) h
    have hitem := hpage.cons (e := ⟨"li", [], .text text :: done⟩) (holdsAsides_list hli)
    have hitems := hopening.append (items.readsTo context kind [] hitem)
    have hlist := hitems.append (readsTo_endTag (tag_mem kind) _ _ _)
    have hrest := hlist.append (rest.readsTo context isKeptText_feed _ hpage)
    simpa [Lists.fragments, Lists.nodes, render_listOpening, render_listClosing, OpenElement.add] using hrest

end

/-! ### A page of lists -/

/-- A list of the page as HTML. -/
def PageList.html (context : Context) (list : PageList) : List Char := unlines (list.fragments.map (Fragment.render context))

/-- The children of the body of a page of lists. -/
def pageNodes : List PageList → List Node
  | [] => []
  | list :: rest => list.node :: rest.flatMap fun next => [.text ['\n'], next.node]

section Page

variable {context : Context} {page : List PageList}

theorem html_eq (context : Context) (list : PageList) :
    list.html context = startTagText list.kind.tag ++
      ('\n' :: feed context list.items.fragments ++ endTagText "li" ++ endTagText list.kind.tag) := by
  have hfragments : list.fragments.map (Fragment.render context) =
      (Fragment.listOpening list.kind :: list.items.fragments).map (Fragment.render context) ++
        [(Fragment.listClosing list.kind).render context] := by
    simp [PageList.fragments]
  have hfeed : ((Fragment.listOpening list.kind :: list.items.fragments).map (Fragment.render context)).flatMap
      (· ++ ['\n']) = feed context (Fragment.listOpening list.kind :: list.items.fragments) := List.flatMap_map ..
  rw [PageList.html, hfragments, unlines_concat, hfeed, feed_cons, render_listOpening, render_listClosing]
  simp

/-- The lists of a page are rendered one under the other. -/
theorem renderPage_lists {text : List Char} (h : fragmentsOf text = page.flatMap PageList.fragments) :
    renderPage context text = unlines (page.map (PageList.html context)) := by
  rw [renderPage, h, List.map_flatMap]
  exact unlines_flatMap fun list _ => by simp [PageList.fragments]

/-- The body of the page, with the children that were read so far. -/
def bodyStack (children : List Node) : List OpenElement := [⟨"body", [], children⟩, ⟨"html", [], []⟩]

theorem arePageElements_bodyStack (children : List Node) : ArePageElements (bodyStack children) := by
  simp [ArePageElements, bodyStack, holdsAsides]

/-- Behind its start tag a list is read as its element. -/
theorem readsTo_list (context : Context) (list : PageList) (done : List Node) :
    ReadsTo ('\n' :: feed context list.items.fragments ++ endTagText "li" ++ endTagText list.kind.tag)
      (.within (⟨list.kind.tag, [], []⟩ :: bodyStack done) []) (.within (bodyStack (list.node :: done)) []) := by
  have hlist := (list.items.readsTo context list.kind [] (arePageElements_bodyStack done)).append
    (readsTo_endTag (tag_mem list.kind) _ _ [⟨"html", [], []⟩])
  simpa [PageList.node, bodyStack, OpenElement.add] using hlist

/-- The start tag of the first list supplies the frame of the page. -/
theorem readsTo_first (kind : ListKind) :
    ReadsTo (startTagText kind.tag) .empty (.within (⟨kind.tag, [], []⟩ :: bodyStack []) []) := by
  intro rest
  have hstep : Builder.empty.startTag kind.tag [] false = .within (⟨kind.tag, [], []⟩ :: bodyStack []) [] := by
    cases kind <;>
      simp [ListKind.tag, Builder.startTag, Builder.empty, Builder.autoClose, Builder.closedBy, Builder.popMany,
        Builder.supplyFrame, Builder.isOpen, isHeadElement, Builder.isMisplaced, isVoid, Builder.push, Builder.flush,
        Builder.within, bodyStack]
  rw [(isPlainTag_list (tag_mem kind)).tokensOf_startTag, List.foldl_cons, Builder.step, hstep]

/-- The lists that follow are read behind a line feed each. -/
theorem readsTo_rest (context : Context) (page : List PageList) (done : List Node) :
    ReadsTo ((page.map (PageList.html context)).flatMap ('\n' :: ·)) (.within (bodyStack done) [])
      (.within (bodyStack ((page.flatMap fun next => [.text ['\n'], next.node]).reverse ++ done)) []) := by
  induction page generalizing done with
  | nil => exact fun rest => rfl
  | cons list others ih =>
    have hopen : closes list.kind.tag "body" = false := by cases list.kind <;> decide
    have hinside : OpenElement.IsInside ⟨"body", [], done⟩ := ⟨by simp, by simp⟩
    have hopening : ReadsTo (['\n'] ++ startTagText list.kind.tag) (.within (bodyStack done) [])
        (.within (⟨list.kind.tag, [], []⟩ :: bodyStack (.text ['\n'] :: done)) []) :=
      (readsTo_startTag isKeptText_feed (tag_mem list.kind) (arePageElements_bodyStack done) hopen).behind ⟨_, rfl⟩
        hinside isKeptText_feed
    have hlist := (hopening.append (readsTo_list context list _)).append (ih _)
    simpa [html_eq] using hlist

theorem readsTo_page (context : Context) (list : PageList) (rest : List PageList) :
    ReadsTo (unlines ((list :: rest).map (PageList.html context))) .empty
      (.within (bodyStack (pageNodes (list :: rest)).reverse) []) := by
  have hpage := ((readsTo_first list.kind).append (readsTo_list context list [])).append
    (readsTo_rest context rest [list.node])
  rw [List.map_cons, unlines_cons_eq_flatMap, html_eq]
  simpa [pageNodes] using hpage

/-- The fragments that lists are made of. -/
inductive IsListFragment : Fragment → Prop
  | opening (kind : ListKind) : IsListFragment (.listOpening kind)
  | closing (kind : ListKind) : IsListFragment (.listClosing kind)
  | itemClosing : IsListFragment .itemClosing
  | item (text : ItemText) : IsListFragment (.item text.text)

mutual

theorem Items.isListFragment : ∀ (items : Items), ∀ fragment ∈ items.fragments, IsListFragment fragment
  | .last text lists => by
    rw [Items.fragments, List.forall_mem_cons]
    exact ⟨.item text, lists.isListFragment⟩
  | .cons text lists rest => by
    rw [Items.fragments, List.forall_mem_cons, List.forall_mem_append, List.forall_mem_cons]
    exact ⟨.item text, lists.isListFragment, .itemClosing, rest.isListFragment⟩

theorem Lists.isListFragment : ∀ (lists : Lists), ∀ fragment ∈ lists.fragments, IsListFragment fragment
  | .nil => by simp [Lists.fragments]
  | .cons kind items rest => by
    rw [Lists.fragments, List.forall_mem_cons, List.forall_mem_append, List.forall_mem_cons]
    exact ⟨.opening kind, items.isListFragment, .closing kind, rest.isListFragment⟩

end

theorem IsListFragment.not_mem_render {fragment : Fragment} (h : IsListFragment fragment) (context : Context) {c : Char}
    (hc : c ∈ normalizedChars) : c ∉ fragment.render context := by
  have htags : ∀ name ∈ listTagNames, ∀ c ∈ normalizedChars, c ∉ startTagText name ∧ c ∉ endTagText name := by decide
  cases h with
  | opening kind =>
    rw [render_listOpening]
    exact (htags _ (tag_mem kind) c hc).1
  | closing kind =>
    rw [render_listClosing, List.mem_append, not_or]
    exact ⟨(htags "li" (by decide) c hc).2, (htags _ (tag_mem kind) c hc).2⟩
  | itemClosing =>
    rw [render_itemClosing]
    exact (htags "li" (by decide) c hc).2
  | item text =>
    have hprose : ∀ c ∈ normalizedChars, isProseChar c = false := by decide
    rw [render_item, List.mem_append, not_or]
    exact ⟨(htags "li" (by decide) c hc).1, text.prose.not_mem (hprose c hc)⟩

theorem not_mem_html_lists {c : Char} (hc : c ∈ normalizedChars) :
    c ∉ unlines (page.map (PageList.html context)) := by
  have hfeed : c ≠ '\n' := by
    rintro rfl
    exact absurd hc (by decide)
  intro hmem
  obtain ⟨html, hhtml, hmem⟩ := mem_unlines hfeed hmem
  obtain ⟨list, -, rfl⟩ := List.mem_map.mp hhtml
  obtain ⟨rendered, hrendered, hmem⟩ := mem_unlines hfeed hmem
  obtain ⟨fragment, hfragment, rfl⟩ := List.mem_map.mp hrendered
  refine IsListFragment.not_mem_render ?_ context hc hmem
  rw [PageList.fragments, List.mem_cons, List.mem_append, List.mem_singleton] at hfragment
  rcases hfragment with rfl | hfragment | rfl
  · exact .opening _
  · exact list.items.isListFragment fragment hfragment
  · exact .closing _

/-- **A page of lists is read as a body with the elements of the lists.** -/
theorem parse_lists (context : Context) (list : PageList) (rest : List PageList) :
    parse (unlines ((list :: rest).map (PageList.html context))) = document (pageNodes (list :: rest)) := by
  have hreads := readsTo_page context list rest []
  rw [List.append_nil, tokensOf_nil, List.foldl_nil] at hreads
  rw [parse, tokens_eq (not_mem_html_lists (by decide)), map_shownChar (not_mem_html_lists (by decide)), hreads]
  simp [Builder.finish, Builder.within, bodyStack, Builder.flush, Builder.popMany, Builder.pop, Builder.add, document]

section Nodes

variable {P : Node → Prop} (htext : ∀ content, P (.text content))
  (helement : ∀ name ∈ listTagNames, ∀ children, (∀ child ∈ children, P child) → P (.element name [] children))

include htext helement

mutual

/-- What holds of text, and of a list or an item if it holds of the children, holds of all nodes of lists. -/
theorem Items.forall_nodes : ∀ (items : Items), ∀ node ∈ items.nodes, P node
  | .last text lists => by
    rw [Items.nodes, List.forall_mem_cons, List.forall_mem_singleton]
    exact ⟨htext _, helement "li" (by decide) _ (List.forall_mem_cons.mpr ⟨htext _, lists.forall_nodes⟩)⟩
  | .cons text lists rest => by
    rw [Items.nodes, List.forall_mem_cons, List.forall_mem_cons]
    exact ⟨htext _, helement "li" (by decide) _ (List.forall_mem_cons.mpr ⟨htext _, lists.forall_nodes⟩),
      rest.forall_nodes⟩

theorem Lists.forall_nodes : ∀ (lists : Lists), ∀ node ∈ lists.nodes, P node
  | .nil => by simp [Lists.nodes]
  | .cons kind items rest => by
    rw [Lists.nodes, List.forall_mem_cons, List.forall_mem_cons]
    exact ⟨helement kind.tag (tag_mem kind) _ items.forall_nodes, htext _, rest.forall_nodes⟩

end

theorem forall_pageNodes (page : List PageList) : ∀ node ∈ pageNodes page, P node := by
  have hlist : ∀ list : PageList, P list.node := fun list =>
    helement _ (tag_mem list.kind) _ (list.items.forall_nodes htext helement)
  cases page with
  | nil => exact fun node hnode => nomatch hnode
  | cons list rest =>
    rw [pageNodes, List.forall_mem_cons]
    refine ⟨hlist list, fun node hnode => ?_⟩
    obtain ⟨next, -, hnode⟩ := List.mem_flatMap.mp hnode
    rcases List.mem_cons.mp hnode with rfl | hnode
    · exact htext _
    · exact List.mem_singleton.mp hnode ▸ hlist next

end Nodes

/-- **There is nothing to clean on a page of lists.** -/
theorem clean_lists (page : List PageList) : clean (document (pageNodes page)) = document (pageNodes page) := by
  have hmap : ∀ f : String → List Attribute → List Attribute, (∀ name, f name [] = []) →
      mapAttributes f (document (pageNodes page)) = document (pageNodes page) := fun f hf =>
    mapAttributes_document hf (forall_pageNodes (fun _ => rfl)
      (fun name _ children h => by rw [Node.mapAttributes, hf, mapAttributes_eq_self h]) page)
  have hdrop : ∀ p : Html.Element → Bool, (∀ name ∈ listTagNames, ∀ children, p ⟨name, [], children⟩ = false) →
      ∀ node ∈ pageNodes page, node.dropElements p = [node] := fun p hp =>
    forall_pageNodes (fun _ => rfl) (fun name hname children h => by
      rw [Node.dropElements, hp name hname, if_neg (by decide), dropElements_eq_self h]) page
  have hundecorated := dropElements_document (fun _ => rfl) rfl
    (hdrop isDecoration fun name _ children => isDecoration_plain name children)
  have hwrapper : ∀ name ∈ listTagNames, ∀ children, isEmptyWrapper ⟨name, [], children⟩ = false := by
    intro name hname children
    simp only [listTagNames, List.mem_cons, List.not_mem_nil, or_false] at hname
    rcases hname with rfl | rfl | rfl <;> rfl
  rw [clean, undecorated, hundecorated, hmap dropSectionId fun _ => rfl, hmap cleanAddresses cleanAddresses_nil]
  exact dropElements_document (fun _ => rfl) rfl (hdrop isEmptyWrapper hwrapper)

end Page

end WikiMigration.Wiki
