/-
The keys of the mappings that a text holds.

A mapping of a document is built entry by entry, and a later one takes the place of an earlier one with its
key, whether it was merged in or is the mapping's own.  So no mapping has a key twice, the document itself as
little as the mappings in it.
-/
import WikiMigration.Proofs.Action
import WikiMigration.Proofs.Data.Entries
import WikiMigration.Yaml.Value

namespace WikiMigration.Yaml

open Data

/-- Every value is the value of a node. -/
def OfNodes (entries : List (Scalar × Value)) : Prop :=
  ∀ entry ∈ entries, ∃ node, nodeValue node = .ok entry.2

theorem OfNodes.append {first second : List (Scalar × Value)} (h : OfNodes first) (h' : OfNodes second) :
    OfNodes (first ++ second) := by
  intro entry hmem
  rcases List.mem_append.mp hmem with hfirst | hsecond
  · exact h entry hfirst
  · exact h' entry hsecond

/-- What a mapping within itself leaves in a mapping that it is merged into. -/
theorem ofNodes_within (start mapping : Position) :
    OfNodes (if start = mapping then [] else [(.null, .scalar again)]) := by
  intro entry hmem
  split at hmem
  · cases hmem
  · obtain rfl := List.mem_singleton.mp hmem
    exact ⟨.within start, rfl⟩

mutual

theorem ofNodes_entryValues (start : Position) :
    ∀ (entries : List (Node × Node)) (merged own : List (Scalar × Value)),
      entryValues start entries = .ok (merged, own) → OfNodes merged ∧ OfNodes own
  | [], merged, own, h => by
    cases h
    exact ⟨fun entry hmem => absurd hmem List.not_mem_nil, fun entry hmem => absurd hmem List.not_mem_nil⟩
  | (key, value) :: rest, merged, own, h => by
    unfold entryValues at h
    split at h
    · obtain ⟨entries, hentries, h⟩ := bind_eq_ok.mp h
      obtain ⟨⟨merged', own'⟩, hrest, h⟩ := bind_eq_ok.mp h
      cases h
      obtain ⟨hmerged, hown⟩ := ofNodes_entryValues start rest _ _ hrest
      exact ⟨(ofNodes_mergedEntries start value _ hentries).append hmerged, hown⟩
    · obtain ⟨k, -, h⟩ := bind_eq_ok.mp h
      obtain ⟨v, hv, h⟩ := bind_eq_ok.mp h
      obtain ⟨⟨merged', own'⟩, hrest, h⟩ := bind_eq_ok.mp h
      cases h
      obtain ⟨hmerged, hown⟩ := ofNodes_entryValues start rest _ _ hrest
      refine ⟨hmerged, List.forall_mem_cons.mpr ⟨⟨value, hv⟩, hown⟩⟩

theorem ofNodes_mergedEntries (mapping : Position) :
    ∀ (node : Node) (entries : List (Scalar × Value)),
      mergedEntries mapping node = .ok entries → OfNodes entries
  | .scalar tag text start, entries, h => by cases h
  | .sequence tag items start, entries, h => ofNodes_mergedItems mapping items entries h
  | .mapping tag nodes start, entries, h => by
    unfold mergedEntries at h
    obtain ⟨⟨merged, own⟩, hnodes, h⟩ := bind_eq_ok.mp h
    cases h
    obtain ⟨hmerged, hown⟩ := ofNodes_entryValues start nodes _ _ hnodes
    exact hmerged.append hown
  | .within start, entries, h => by
    cases h
    exact ofNodes_within start mapping

theorem ofNodes_mergedItems (mapping : Position) :
    ∀ (items : List Node) (entries : List (Scalar × Value)),
      mergedItems mapping items = .ok entries → OfNodes entries
  | [], entries, h => by
    cases h
    exact fun entry hmem => absurd hmem List.not_mem_nil
  | .mapping tag nodes start :: rest, entries, h => by
    unfold mergedItems at h
    obtain ⟨⟨merged, own⟩, hnodes, h⟩ := bind_eq_ok.mp h
    obtain ⟨behind, hrest, h⟩ := bind_eq_ok.mp h
    cases h
    obtain ⟨hmerged, hown⟩ := ofNodes_entryValues start nodes _ _ hnodes
    exact (ofNodes_mergedItems mapping rest _ hrest).append (hmerged.append hown)
  | .within start :: rest, entries, h => by
    unfold mergedItems at h
    obtain ⟨behind, hrest, h⟩ := bind_eq_ok.mp h
    cases h
    exact (ofNodes_mergedItems mapping rest _ hrest).append (ofNodes_within start mapping)
  | .scalar tag text start :: rest, entries, h => by cases h
  | .sequence tag items start :: rest, entries, h => by cases h

end

/-- **A mapping has no key twice**, and its values are again values of nodes. -/
theorem distinct_nodeValue {node : Node} {entries : List (Scalar × Value)}
    (h : nodeValue node = .ok (.mapping entries)) : Distinct entries ∧ OfNodes entries := by
  cases node with
  | scalar tag text start =>
    unfold nodeValue at h
    cases hscalar : scalarValue tag text start with
    | ok s => rw [hscalar] at h; cases h
    | error e => rw [hscalar] at h; cases h
  | sequence tag items start =>
    unfold nodeValue at h
    split at h
    · cases hitems : itemValues items with
      | ok values => rw [hitems] at h; cases h
      | error e => rw [hitems] at h; cases h
    · cases h
  | within start => cases h
  | mapping tag nodes start =>
    unfold nodeValue at h
    split at h
    · obtain ⟨⟨merged, own⟩, hnodes, h⟩ := bind_eq_ok.mp h
      cases h
      obtain ⟨hmerged, hown⟩ := ofNodes_entryValues start nodes _ _ hnodes
      refine ⟨distinct_foldl_assign _ List.Pairwise.nil, fun entry hmem => ?_⟩
      rcases mem_foldl_assign hmem with hnil | ⟨source, hsource, hvalue⟩
      · cases hnil
      · rw [hvalue]
        exact hmerged.append hown source hsource
    · cases h

/-- No mapping of a document has a key twice, neither the document nor one of its sections. -/
theorem distinct_read {text : List Char} {entries : List (Scalar × Value)}
    (h : read text = .ok (.mapping entries)) :
    Distinct entries ∧ ∀ key own, (key, Value.mapping own) ∈ entries → Distinct own := by
  unfold read at h
  split at h
  · cases h
  · cases h
  · next node _ =>
    obtain ⟨distinct, nodes⟩ := distinct_nodeValue h
    refine ⟨distinct, fun key own hmem => ?_⟩
    obtain ⟨inner, hinner⟩ := nodes _ hmem
    exact (distinct_nodeValue hinner).1

end WikiMigration.Yaml
