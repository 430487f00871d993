/-
One step of a scan: a match is taken and passed over, or an item is kept.
-/
import WikiMigration.Text.Scan

namespace WikiMigration.Text

variable {ι α : Type} {pattern : Pattern ι α} {replacement : α → List ι}
variable {x : ι} {rest : List ι} {a : α} {n : Nat}

/-- Items that are passed over might as well not be there. -/
theorem partsFrom_eq (pattern : Pattern ι α) (skip : Nat) (items : List ι) :
    partsFrom pattern skip items = parts pattern (items.drop skip) := by
  induction skip generalizing items with
  | zero => rfl
  | succ skip ih =>
    cases items with
    | nil => rfl
    | cons x rest => exact ih rest

theorem parts_of_none (h : pattern (x :: rest) = none) :
    parts pattern (x :: rest) = .item x :: parts pattern rest := by
  rw [parts, partsFrom, h]
  rfl

theorem parts_of_some (h : pattern (x :: rest) = some (a, n + 1)) :
    parts pattern (x :: rest) = .found a :: parts pattern (rest.drop n) := by
  rw [parts, partsFrom, h]
  dsimp only
  rw [Nat.add_sub_cancel, partsFrom_eq]

theorem substitute_of_none (h : pattern (x :: rest) = none) :
    substitute pattern replacement (x :: rest) = x :: substitute pattern replacement rest := by
  rw [substitute, parts_of_none h, List.flatMap_cons, substitute]
  rfl

theorem substitute_of_some (h : pattern (x :: rest) = some (a, n + 1)) :
    substitute pattern replacement (x :: rest)
      = replacement a ++ substitute pattern replacement (rest.drop n) := by
  rw [substitute, parts_of_some h, List.flatMap_cons, substitute]

/-- Where nothing is found, every item is kept. -/
theorem parts_eq_items {items : List ι} (h : ∀ behind, behind <:+ items → behind ≠ [] → pattern behind = none) :
    parts pattern items = items.map .item := by
  induction items with
  | nil => rfl
  | cons x rest ih =>
    rw [parts_of_none (h _ List.suffix_rfl (List.cons_ne_nil x rest)),
      ih fun behind hbehind => h behind (hbehind.trans (List.suffix_cons x rest)), List.map_cons]

/-- What a part stands for, told of the items and of the matches. -/
def Part.weigh {β : Type} (item : ι → List β) (found : α → List β) : Part ι α → List β
  | .item x => item x
  | .found a => found a

/-- **A scan loses nothing.**  If every match stands for what the items under it stand for, then the parts of a list
stand for what its items do. -/
theorem flatMap_parts {β : Type} {item : ι → List β} {found : α → List β}
    (covers : ∀ xs a n, pattern xs = some (a, n) → 0 < n ∧ (xs.take n).flatMap item = found a) (xs : List ι) :
    (parts pattern xs).flatMap (Part.weigh item found) = xs.flatMap item := by
  induction hn : xs.length using Nat.strongRecOn generalizing xs with
  | _ n ih =>
    subst hn
    cases xs with
    | nil => rfl
    | cons x rest =>
      cases hfound : pattern (x :: rest) with
      | none =>
        rw [parts_of_none hfound, List.flatMap_cons, ih _ (by simp) rest rfl, List.flatMap_cons]
        rfl
      | some hit =>
        obtain ⟨a, n⟩ := hit
        obtain ⟨hpos, htake⟩ := covers _ _ _ hfound
        obtain ⟨m, rfl⟩ : ∃ m, n = m + 1 := ⟨n - 1, by omega⟩
        rw [parts_of_some hfound, List.flatMap_cons,
          ih _ (by rw [List.length_cons, List.length_drop]; omega) (rest.drop m) rfl]
        show found a ++ _ = _
        rw [← htake, ← List.flatMap_append, List.take_succ_cons, List.cons_append, List.take_append_drop]

/-- Two parts of a list are scanned apart, if at no place of the first the second makes a difference. -/
theorem parts_append {items others : List ι}
    (hfits : ∀ behind a n, pattern behind = some (a, n) → 0 < n ∧ n ≤ behind.length)
    (h : ∀ behind, behind <:+ items → behind ≠ [] → pattern (behind ++ others) = pattern behind) :
    parts pattern (items ++ others) = parts pattern items ++ parts pattern others := by
  induction hn : items.length using Nat.strongRecOn generalizing items with
  | _ n ih =>
    subst hn
    cases items with
    | nil => rfl
    | cons x rest =>
      have hfirst := h _ List.suffix_rfl (List.cons_ne_nil x rest)
      have hrest : ∀ m, parts pattern (rest.drop m ++ others) = parts pattern (rest.drop m) ++ parts pattern others := by
        refine fun m => ih _ ?_ (fun behind hbehind => h behind ?_) rfl
        · rw [List.length_drop, List.length_cons]
          omega
        · exact hbehind.trans ((List.drop_suffix m rest).trans (List.suffix_cons x rest))
      cases hfound : pattern (x :: rest) with
      | none =>
        have hnone : pattern (x :: (rest ++ others)) = none := hfirst.trans hfound
        rw [List.cons_append, parts_of_none hnone, parts_of_none hfound, List.cons_append]
        exact congrArg (Part.item x :: ·) (hrest 0)
      | some found =>
        obtain ⟨a, n⟩ := found
        obtain ⟨hpos, hlength⟩ := hfits _ _ _ hfound
        obtain ⟨m, rfl⟩ : ∃ m, n = m + 1 := ⟨n - 1, by omega⟩
        have hsome : pattern (x :: (rest ++ others)) = some (a, m + 1) := hfirst.trans hfound
        rw [List.cons_append, parts_of_some hsome, parts_of_some hfound, List.cons_append,
          List.drop_append_of_le_length (by rw [List.length_cons] at hlength; omega), hrest]

/-- What stands at a place of a joined list stands in one of its parts. -/
theorem exists_part_of_flatMap {β : Type} {source : α → List β} {ps : List α} {front behind : List β} {c : β}
    (h : ps.flatMap source = front ++ c :: behind) :
    ∃ earlier part later inner more, ps = earlier ++ part :: later ∧ source part = inner ++ c :: more ∧
      earlier.flatMap source ++ inner = front := by
  induction ps generalizing front with
  | nil => simp at h
  | cons part rest ih =>
    rw [List.flatMap_cons] at h
    rcases List.append_eq_append_iff.mp h with ⟨inner, rfl, hrest⟩ | ⟨inner, hpart, hbehind⟩
    · obtain ⟨earlier, within, later, inner', more, rfl, hsource, rfl⟩ := ih hrest
      exact ⟨part :: earlier, within, later, inner', more, rfl, hsource, by simp⟩
    · cases inner with
      | nil =>
        obtain ⟨earlier, within, later, inner', more, rfl, hsource, hfront⟩ := @ih [] hbehind.symm
        refine ⟨part :: earlier, within, later, inner', more, rfl, hsource, ?_⟩
        rw [List.flatMap_cons, List.append_assoc, hfront, hpart, List.append_nil, List.append_nil]
      | cons d others =>
        obtain ⟨rfl, -⟩ := List.cons.inj hbehind
        exact ⟨[], part, rest, front, others, rfl, hpart, rfl⟩

end WikiMigration.Text
