/-
Trees, node by node.

Everything that is told of a document is told of a list of nodes: an element passes it from its children and from the
nodes behind it, any other node from the nodes behind it alone.  What a document holds is told in document order: its
elements, and all that can be read in it.
-/
import WikiMigration.Html.Node

namespace WikiMigration.Html

open Text

variable {nodes : List Node} {node : Node} {text : List Char}

/-- What holds of no nodes holds of all, if it passes from the children of an element and the nodes behind it, and
from the nodes behind any other node. -/
@[elab_as_elim]
theorem forest_induction {motive : List Node → Prop} (nil : motive [])
    (element : ∀ name attributes children rest, motive children → motive rest →
      motive (.element name attributes children :: rest))
    (leaf : ∀ node rest, node.isElement = false → motive rest → motive (node :: rest)) (nodes : List Node) :
    motive nodes :=
  @Node.rec_1 (fun node => ∀ rest, motive rest → motive (node :: rest)) motive
    (fun name attributes children hchildren rest hrest => element name attributes children rest hchildren hrest)
    (fun content rest => leaf (.text content) rest rfl) (fun content rest => leaf (.aside content) rest rfl)
    (fun content rest => leaf (.comment content) rest rfl) (fun content rest => leaf (.doctype content) rest rfl)
    nil (fun _ rest hnode hrest => hnode rest hrest) nodes

mutual

/-- The elements of a node, in document order. -/
def Node.elements : Node → List Element
  | .element name attributes children => ⟨name, attributes, children⟩ :: elementsOf children
  | .text _ => []
  | .aside _ => []
  | .comment _ => []
  | .doctype _ => []

/-- The elements of some nodes, in document order. -/
def elementsOf : List Node → List Element
  | [] => []
  | node :: rest => node.elements ++ elementsOf rest

end

mutual

/-- All that can be read in a node, in its asides too, in document order. -/
def Node.content : Node → List Char
  | .element _ _ children => contentOf children
  | .text content => content
  | .aside content => content
  | .comment _ => []
  | .doctype _ => []

/-- All that can be read in some nodes, in document order. -/
def contentOf : List Node → List Char
  | [] => []
  | node :: rest => node.content ++ contentOf rest

end

/-- The characters of a text that are no blanks. -/
def solid (text : List Char) : List Char := text.filter fun c => !isBlank c

/-- The start tag of an element: its name and its attributes. -/
def Element.tag (e : Element) : String × List Attribute := (e.name, e.attributes)

theorem solid_append (text rest : List Char) : solid (text ++ rest) = solid text ++ solid rest :=
  List.filter_append ..

theorem solid_eq_nil : solid text = [] ↔ isBlankText text = true := by
  simp [solid, isBlankText]

theorem innerText_cons (node : Node) (nodes : List Node) :
    innerText (node :: nodes) = node.texts.flatten ++ innerText nodes := List.flatten_append

theorem elements_of_leaf (h : node.isElement = false) : node.elements = [] := by
  cases node with
  | element => cases h
  | text | aside | comment | doctype => rfl

theorem elementsOf_append (nodes rest : List Node) : elementsOf (nodes ++ rest) = elementsOf nodes ++ elementsOf rest := by
  induction nodes with
  | nil => rfl
  | cons node more ih => rw [List.cons_append, elementsOf, elementsOf, ih, List.append_assoc]

theorem contentOf_append (nodes rest : List Node) : contentOf (nodes ++ rest) = contentOf nodes ++ contentOf rest := by
  induction nodes with
  | nil => rfl
  | cons node more ih => rw [List.cons_append, contentOf, contentOf, ih, List.append_assoc]

theorem innerText_append (nodes rest : List Node) : innerText (nodes ++ rest) = innerText nodes ++ innerText rest := by
  induction nodes with
  | nil => rfl
  | cons node more ih => rw [List.cons_append, innerText_cons, innerText_cons, ih, List.append_assoc]

/-- The elements of some names are picked from all elements. -/
theorem elementsNamed_eq_filter (names : List String) (nodes : List Node) :
    elementsNamed names nodes = (elementsOf nodes).filter fun e => names.contains e.name := by
  induction nodes using forest_induction with
  | nil => rfl
  | element name attributes children rest hchildren hrest =>
    rw [elementsNamed, Node.elementsNamed, elementsOf, Node.elements, List.cons_append, List.filter_cons,
      List.filter_append, ← hchildren, ← hrest]
    split <;> rfl
  | leaf node rest hleaf hrest =>
    rw [elementsNamed, elementsOf, elements_of_leaf hleaf, ← List.nil_append (elementsNamed names rest), hrest]
    cases node with
    | element => cases hleaf
    | text | aside | comment | doctype => rfl

theorem elementsOf_eq_nil (h : nodes.any Node.isElement = false) : elementsOf nodes = [] := by
  induction nodes with
  | nil => rfl
  | cons node rest ih =>
    rw [List.any_cons, Bool.or_eq_false_iff] at h
    rw [elementsOf, elements_of_leaf h.1, ih h.2, List.append_nil]

end WikiMigration.Html
