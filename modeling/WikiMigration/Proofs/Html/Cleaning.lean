/-
What cleaning takes out of a page.

Only two of the steps take something out: the first drops the decoration of the editor with all that is in it, the
last drops the wrappers that hold nothing.  The steps between them change attributes, and by taking the anchor of a
section away they may leave a wrapper without any.  A wrapper that is dropped holds no element, so every other element
of the undecorated page is still there, in its place, and so is every character of the page's text.  An aside is no
text of the page: a wrapper is taken for empty even if it holds one, and then the aside is lost.
-/
import WikiMigration.Html.Clean
import WikiMigration.Html.Tree
import WikiMigration.Proofs.Html.Forest

namespace WikiMigration.Html

open Text

variable {p : Element → Bool} {node : Node} {e : Element}

/-! ### Attributes that are changed -/

section Attributes

variable (f : String → List Attribute → List Attribute)

theorem mapAttributes_leaf (h : node.isElement = false) : node.mapAttributes f = node := by
  cases node with
  | element => cases h
  | text | aside | comment | doctype => rfl

theorem any_isElement_mapAttributes (nodes : List Node) :
    (mapAttributes f nodes).any Node.isElement = nodes.any Node.isElement := by
  induction nodes with
  | nil => rfl
  | cons node rest ih =>
    rw [mapAttributes, List.any_cons, List.any_cons, ih]
    cases node <;> rfl

/-- Attributes are no text. -/
theorem textsOf_mapAttributes (nodes : List Node) : textsOf (mapAttributes f nodes) = textsOf nodes := by
  induction nodes using forest_induction with
  | nil => rfl
  | element name attributes children rest hchildren hrest =>
    rw [mapAttributes, textsOf, Node.mapAttributes, Node.texts, hchildren, hrest, textsOf, Node.texts]
  | leaf node rest hleaf hrest => rw [mapAttributes, mapAttributes_leaf f hleaf, textsOf, hrest, textsOf]

theorem contentOf_mapAttributes (nodes : List Node) : contentOf (mapAttributes f nodes) = contentOf nodes := by
  induction nodes using forest_induction with
  | nil => rfl
  | element name attributes children rest hchildren hrest =>
    rw [mapAttributes, contentOf, Node.mapAttributes, Node.content, hchildren, hrest, contentOf, Node.content]
  | leaf node rest hleaf hrest => rw [mapAttributes, mapAttributes_leaf f hleaf, contentOf, hrest, contentOf]

/-- The element with its attributes changed, and those of all that is in it. -/
def Element.mapAttributes (e : Element) : Element :=
  ⟨e.name, f e.name e.attributes, Html.mapAttributes f e.children⟩

theorem elementsOf_mapAttributes (nodes : List Node) :
    elementsOf (mapAttributes f nodes) = (elementsOf nodes).map (Element.mapAttributes f) := by
  induction nodes using forest_induction with
  | nil => rfl
  | element name attributes children rest hchildren hrest =>
    rw [mapAttributes, elementsOf, Node.mapAttributes, Node.elements, hchildren, hrest, elementsOf, Node.elements,
      List.map_append, List.map_cons]
    rfl
  | leaf node rest hleaf hrest =>
    rw [mapAttributes, mapAttributes_leaf f hleaf, elementsOf, elements_of_leaf hleaf, hrest, elementsOf,
      elements_of_leaf hleaf, List.nil_append, List.nil_append]

end Attributes

/-! ### Elements that are dropped -/

theorem dropElements_leaf (h : node.isElement = false) : node.dropElements p = [node] := by
  cases node with
  | element => cases h
  | text | aside | comment | doctype => rfl

/-- Elements of the sort hold no elements. -/
def AreChildless (p : Element → Bool) : Prop := ∀ e, p e = true → elementsOf e.children = []

/-- **Dropping elements that hold no elements leaves all others**, in their order. -/
theorem tags_dropElements (h : AreChildless p) (nodes : List Node) :
    (elementsOf (dropElements p nodes)).map Element.tag = ((elementsOf nodes).filter (!p ·)).map Element.tag := by
  induction nodes using forest_induction with
  | nil => rfl
  | element name attributes children rest hchildren hrest =>
    rw [dropElements, Node.dropElements, elementsOf_append, List.map_append, hrest, elementsOf, Node.elements,
      List.filter_append, List.map_append, List.filter_cons]
    cases hp : p ⟨name, attributes, children⟩ with
    | true =>
      have hnone : elementsOf children = [] := h _ hp
      simp [hnone, elementsOf]
    | false => simp [elementsOf, Node.elements, hchildren, Element.tag]
  | leaf node rest hleaf hrest =>
    rw [dropElements, dropElements_leaf hleaf, List.singleton_append, elementsOf, elements_of_leaf hleaf, elementsOf,
      elements_of_leaf hleaf, List.nil_append, List.nil_append, hrest]

/-- Dropping elements without text leaves the text. -/
theorem solid_innerText_dropElements (h : ∀ e, p e = true → solid (innerText e.children) = []) (nodes : List Node) :
    solid (innerText (dropElements p nodes)) = solid (innerText nodes) := by
  induction nodes using forest_induction with
  | nil => rfl
  | element name attributes children rest hchildren hrest =>
    rw [dropElements, Node.dropElements, innerText_append, solid_append, hrest, innerText_cons, solid_append]
    congr 1
    split
    next hp => exact (h _ hp).symm
    next =>
      rw [innerText_cons, Node.texts, Node.texts]
      simpa [innerText, textsOf] using hchildren
  | leaf node rest hleaf hrest =>
    rw [dropElements, dropElements_leaf hleaf, List.singleton_append, innerText_cons, innerText_cons, solid_append,
      solid_append, hrest]

theorem contentOf_dropElements_sublist (p : Element → Bool) (nodes : List Node) :
    (solid (contentOf (dropElements p nodes))).Sublist (solid (contentOf nodes)) := by
  induction nodes using forest_induction with
  | nil => exact List.Sublist.refl _
  | element name attributes children rest hchildren hrest =>
    rw [dropElements, Node.dropElements, contentOf_append, solid_append, contentOf, Node.content, solid_append]
    refine List.Sublist.append ?_ hrest
    split
    next => exact List.nil_sublist _
    next => simpa [contentOf, Node.content] using hchildren
  | leaf node rest hleaf hrest =>
    rw [dropElements, dropElements_leaf hleaf, List.singleton_append, contentOf, contentOf, solid_append, solid_append]
    exact (List.Sublist.refl _).append hrest

/-- Two texts one after the other come from two that hold them only if each does. -/
theorem append_eq_append_of_sublist {front front' back back' : List Char} (hfront : front.Sublist front')
    (hback : back.Sublist back') : front ++ back = front' ++ back' ↔ front = front' ∧ back = back' := by
  refine ⟨fun h => ?_, fun h => by rw [h.1, h.2]⟩
  have hlength := congrArg List.length h
  rw [List.length_append, List.length_append] at hlength
  have hle := hfront.length_le
  have hle' := hback.length_le
  exact ⟨hfront.eq_of_length (by omega), hback.eq_of_length (by omega)⟩

/-- **Dropping elements that hold no elements leaves all that can be read** exactly if nothing can be read in them. -/
theorem solid_contentOf_dropElements_iff (h : AreChildless p) (nodes : List Node) :
    solid (contentOf (dropElements p nodes)) = solid (contentOf nodes) ↔
      ∀ e ∈ elementsOf nodes, p e = true → isBlankText (contentOf e.children) = true := by
  induction nodes using forest_induction with
  | nil => simp [dropElements, elementsOf]
  | element name attributes children rest hchildren hrest =>
    have hsublist := contentOf_dropElements_sublist p
    rw [dropElements, Node.dropElements, contentOf_append, solid_append, contentOf, Node.content, solid_append,
      elementsOf, Node.elements, List.forall_mem_append, List.forall_mem_cons]
    cases hp : p ⟨name, attributes, children⟩ with
    | true =>
      have hnone : elementsOf children = [] := h _ hp
      have hempty : solid (contentOf []) = [] := rfl
      have hsame : [] = solid (contentOf children) ↔ solid (contentOf children) = [] := eq_comm
      rw [if_pos rfl, hempty, append_eq_append_of_sublist (List.nil_sublist _) (hsublist rest), hrest, hnone, hsame,
        solid_eq_nil]
      simp
    | false =>
      have hinner : contentOf [.element name attributes (dropElements p children)] =
          contentOf (dropElements p children) := List.append_nil _
      rw [if_neg Bool.false_ne_true, hinner, append_eq_append_of_sublist (hsublist children) (hsublist rest), hrest,
        hchildren]
      simp
  | leaf node rest hleaf hrest =>
    rw [dropElements, dropElements_leaf hleaf, List.singleton_append, contentOf, contentOf, solid_append, solid_append,
      List.append_right_inj, hrest, elementsOf, elements_of_leaf hleaf, List.nil_append]

/-! ### Wrappers -/

/-- Whether the element is a wrapper that has no attribute, or none but the anchor of a section, and that holds no
element and no text but blanks. -/
def isBareWrapper (e : Element) : Bool :=
  ["div", "span", "p"].contains e.name && (dropSectionId e.name e.attributes).isEmpty
    && !(e.children.any Node.isElement) && (textsOf e.children).all isBlankText

/-- The start tag of an element with the anchor of a section taken away, its address read back as a name and without
the classes of the engine. -/
def cleanedTag (e : Element) : String × List Attribute :=
  (e.name, cleanAddresses e.name (dropSectionId e.name e.attributes))

/-- The element of an undecorated page with all attributes cleaned. -/
def Element.cleaned (e : Element) : Element :=
  (e.mapAttributes dropSectionId).mapAttributes cleanAddresses

theorem elementsOf_undecorated (nodes : List Node) :
    elementsOf (undecorated nodes) = (elementsOf (dropElements isDecoration nodes)).map Element.cleaned := by
  rw [undecorated, elementsOf_mapAttributes, elementsOf_mapAttributes, List.map_map]
  rfl

theorem cleanAddresses_wrapper {name : String} (h : ["div", "span", "p"].contains name = true)
    (attributes : List Attribute) : cleanAddresses name attributes = attributes := by
  have hname : name ≠ "img" ∧ name ≠ "a" := by
    constructor <;> rintro rfl <;> exact absurd h (by decide)
  rw [cleanAddresses, if_neg (by simpa using hname.1), if_neg (by simpa using hname.2)]

/-- A wrapper is dropped for what it is on the undecorated page. -/
theorem isEmptyWrapper_cleaned (e : Element) : isEmptyWrapper e.cleaned = isBareWrapper e := by
  have hchildren : ∀ f g, (mapAttributes f (mapAttributes g e.children)).any Node.isElement =
      e.children.any Node.isElement := fun f g => by rw [any_isElement_mapAttributes, any_isElement_mapAttributes]
  have htexts : ∀ f g, textsOf (mapAttributes f (mapAttributes g e.children)) = textsOf e.children := fun f g => by
    rw [textsOf_mapAttributes, textsOf_mapAttributes]
  simp only [isEmptyWrapper, isBareWrapper, Element.cleaned, Element.mapAttributes, hchildren, htexts]
  cases hname : ["div", "span", "p"].contains e.name with
  | false => rfl
  | true => rw [cleanAddresses_wrapper hname]

theorem isEmptyWrapper_childless : AreChildless isEmptyWrapper := fun e he => by
  simp only [isEmptyWrapper, Bool.and_eq_true, Bool.not_eq_true'] at he
  exact elementsOf_eq_nil he.1.2

theorem innerText_of_isEmptyWrapper (h : isEmptyWrapper e = true) : solid (innerText e.children) = [] := by
  simp only [isEmptyWrapper, Bool.and_eq_true, List.all_eq_true] at h
  rw [solid_eq_nil, isBlankText, List.all_eq_true]
  intro c hc
  obtain ⟨text, htext, hmem⟩ := List.mem_flatten.mp hc
  exact List.all_eq_true.mp (h.2 text htext) c hmem

theorem contentOf_cleaned (e : Element) : contentOf e.cleaned.children = contentOf e.children := by
  simp only [Element.cleaned, Element.mapAttributes, contentOf_mapAttributes]

theorem isBareWrapper_link (h : ["a", "img"].contains e.name = true) : isBareWrapper e = false := by
  have hname : e.name = "a" ∨ e.name = "img" := by simpa using h
  rcases hname with hname | hname <;> simp [isBareWrapper, hname]

theorem contentOf_undecorated (nodes : List Node) :
    contentOf (undecorated nodes) = contentOf (dropElements isDecoration nodes) := by
  rw [undecorated, contentOf_mapAttributes, contentOf_mapAttributes]

/-! ### The page that is left -/

/-- **Cleaning takes out the decoration and bare wrappers, and nothing else.**  Of the page without its decoration all
elements but the bare wrappers are left in their order, the links and images among them all, with their tags cleaned.
All text of the page is left; what can be read in asides is left too exactly if no bare wrapper holds some of it. -/
theorem left_by_cleaning (nodes : List Node) :
    (elementsOf (clean nodes)).map Element.tag =
        ((elementsOf (dropElements isDecoration nodes)).filter (!isBareWrapper ·)).map cleanedTag ∧
      (elementsNamed ["a", "img"] (clean nodes)).map Element.tag =
        (elementsNamed ["a", "img"] (dropElements isDecoration nodes)).map cleanedTag ∧
      solid (innerText (clean nodes)) = solid (innerText (dropElements isDecoration nodes)) ∧
      (solid (contentOf (clean nodes)) = solid (contentOf (dropElements isDecoration nodes)) ↔
        ∀ e ∈ elementsOf (dropElements isDecoration nodes), isBareWrapper e = true →
          isBlankText (contentOf e.children) = true) := by
  have htags : (elementsOf (clean nodes)).map Element.tag =
      ((elementsOf (dropElements isDecoration nodes)).filter (!isBareWrapper ·)).map cleanedTag := by
    rw [clean, tags_dropElements isEmptyWrapper_childless, elementsOf_undecorated, List.filter_map, List.map_map]
    simp only [Function.comp_def, isEmptyWrapper_cleaned]
    rfl
  refine ⟨htags, ?_, ?_, ?_⟩
  · -- no wrapper is a link or an image, so all of these are among the elements that are left
    have hnamed := congrArg (List.filter fun tag => ["a", "img"].contains tag.1) htags
    rw [List.filter_map, List.filter_map, List.filter_filter] at hnamed
    rw [elementsNamed_eq_filter, elementsNamed_eq_filter]
    refine hnamed.trans (congrArg _ (List.filter_congr fun e _ => ?_))
    show (["a", "img"].contains e.name && !isBareWrapper e) = ["a", "img"].contains e.name
    cases hname : ["a", "img"].contains e.name with
    | false => rfl
    | true => rw [isBareWrapper_link hname]; rfl
  · rw [clean, solid_innerText_dropElements fun _ => innerText_of_isEmptyWrapper, undecorated]
    simp only [innerText, textsOf_mapAttributes]
  · rw [clean, ← contentOf_undecorated, solid_contentOf_dropElements_iff isEmptyWrapper_childless,
      elementsOf_undecorated, List.forall_mem_map]
    simp only [isEmptyWrapper_cleaned, contentOf_cleaned]

/-- The reading of a word is lost with the wrapper that it stands in. -/
theorem reading_lost :
    solid (contentOf (clean (parse "<p><ruby>a<rt><span>b</span></rt></ruby></p>".toList))) ≠
      solid (contentOf (dropElements isDecoration (parse "<p><ruby>a<rt><span>b</span></rt></ruby></p>".toList))) := by
  decide +kernel

end WikiMigration.Html
