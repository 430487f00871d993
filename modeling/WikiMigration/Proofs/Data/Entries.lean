/-
Entries of mappings.

An entry is looked up by its key, and assigned to the place of the one that has its key already.  A list
that was built by assigning has no key twice.  Nearly all keys are texts, and for these keys to be the same
is to be equal; for others it is not even transitive, so what is said of all keys is said in the order in
which entries follow each other.
-/
import WikiMigration.Data.Value

namespace WikiMigration.Data

variable {entries : List (Scalar × Value)} {value : Value} {s t : String}

theorem sameKey_text (key : Scalar) (s : String) : key.sameKey (.text s) = decide (key = .text s) := by
  unfold Scalar.sameKey
  cases key.int? <;> cases key.number? <;> rfl

theorem text_sameKey (s : String) (key : Scalar) : (Scalar.text s).sameKey key = decide (.text s = key) := by
  unfold Scalar.sameKey
  cases key.int? <;> rfl

/-! ### Looking up what was assigned -/

theorem lookup_cons (key : Scalar) (entry : Scalar × Value) (rest : List (Scalar × Value)) :
    lookup key (entry :: rest) = if entry.1.sameKey key then some entry.2 else lookup key rest := rfl

theorem lookup_assign_self : lookup (.text s) (assign (.text s) value entries) = some value := by
  induction entries with
  | nil =>
    show (if (Scalar.text s).sameKey (.text s) then some value else none) = some value
    rw [sameKey_text, if_pos (by simp)]
  | cons entry rest ih =>
    unfold assign
    by_cases hkey : entry.1.sameKey (.text s) = true
    · rw [if_pos hkey, lookup_cons, if_pos hkey]
    · rw [if_neg hkey, lookup_cons, if_neg hkey, ih]

theorem lookup_assign_other {key : Scalar} (h : key ≠ .text s) :
    lookup (.text s) (assign key value entries) = lookup (.text s) entries := by
  induction entries with
  | nil =>
    show (if key.sameKey (.text s) then some value else none) = none
    rw [sameKey_text, if_neg (by simpa using h)]
  | cons entry rest ih =>
    unfold assign
    by_cases hkey : entry.1.sameKey key = true
    · rw [if_pos hkey, lookup_cons, lookup_cons]
      -- An entry with the same key as `key` does not have the text as its key.
      have hother : entry.1 ≠ .text s := by
        intro htext
        rw [htext, text_sameKey, decide_eq_true_eq] at hkey
        exact h hkey.symm
      have hnot : ¬ entry.1.sameKey (.text s) = true := by
        rw [sameKey_text]
        simpa using hother
      rw [if_neg hnot, if_neg hnot]
    · rw [if_neg hkey, lookup_cons, lookup_cons, ih]

theorem lookup_assign :
    lookup (.text s) (assign (.text t) value entries) =
      if s = t then some value else lookup (.text s) entries := by
  by_cases h : s = t
  · subst h
    rw [if_pos rfl, lookup_assign_self]
  · rw [if_neg h, lookup_assign_other (by simpa using Ne.symm h)]

/-- A text that is assigned changes no other key, of whatever kind. -/
theorem lookup_assign_text {key : Scalar} : lookup key (assign (.text s) value entries) =
    if key = .text s then some value else lookup key entries := by
  split
  next h => rw [h, lookup_assign_self]
  next h =>
    have hsame : (Scalar.text s).sameKey key = false := by
      rw [text_sameKey]
      simpa using Ne.symm h
    induction entries with
    | nil =>
      rw [assign, lookup_cons, hsame]
      rfl
    | cons entry rest ih =>
      unfold assign
      by_cases hkey : entry.1.sameKey (.text s) = true
      · have htext : entry.1 = .text s := by simpa [sameKey_text] using hkey
        rw [if_pos hkey, lookup_cons, lookup_cons, htext, hsame]
        rfl
      · rw [if_neg hkey, lookup_cons, lookup_cons, ih]

theorem mem_of_lookup (h : lookup (.text s) entries = some value) : (.text s, value) ∈ entries := by
  induction entries with
  | nil => cases h
  | cons entry rest ih =>
    rw [lookup_cons] at h
    by_cases hkey : entry.1.sameKey (.text s) = true
    · rw [if_pos hkey] at h
      rw [sameKey_text, decide_eq_true_eq] at hkey
      rw [← hkey, ← Option.some.inj h]
      exact List.mem_cons_self
    · rw [if_neg hkey] at h
      exact List.mem_cons_of_mem _ (ih h)

theorem lookup_eq_none_iff {key : Scalar} :
    lookup key entries = none ↔ ∀ entry ∈ entries, entry.1.sameKey key = false := by
  induction entries with
  | nil => simp [lookup]
  | cons entry rest ih =>
    rw [lookup_cons, List.forall_mem_cons, ← ih]
    by_cases hkey : entry.1.sameKey key = true
    · simp [hkey]
    · simp [hkey]

theorem mem_assign {key : Scalar} {entry : Scalar × Value} (h : entry ∈ assign key value entries) :
    entry ∈ entries ∨ entry.2 = value := by
  induction entries with
  | nil =>
    obtain rfl := List.mem_singleton.mp h
    exact Or.inr rfl
  | cons first rest ih =>
    unfold assign at h
    by_cases hkey : first.1.sameKey key = true
    · rw [if_pos hkey] at h
      rcases List.mem_cons.mp h with rfl | hrest
      · exact Or.inr rfl
      · exact Or.inl (List.mem_cons_of_mem _ hrest)
    · rw [if_neg hkey] at h
      rcases List.mem_cons.mp h with rfl | hrest
      · exact Or.inl List.mem_cons_self
      · exact (ih hrest).imp_left (List.mem_cons_of_mem _)

theorem mem_assign_of_other {key : Scalar} {entry : Scalar × Value} (hmem : entry ∈ entries)
    (hother : entry.1.sameKey key = false) : entry ∈ assign key value entries := by
  induction entries with
  | nil => cases hmem
  | cons first rest ih =>
    unfold assign
    rcases List.mem_cons.mp hmem with rfl | hrest
    · rw [if_neg (by simp [hother])]
      exact List.mem_cons_self
    · by_cases hkey : first.1.sameKey key = true
      · rw [if_pos hkey]
        exact List.mem_cons_of_mem _ hrest
      · rw [if_neg hkey]
        exact List.mem_cons_of_mem _ (ih hrest)

/-- What no key is the same as is added at the end. -/
theorem assign_of_lookup_eq_none {key : Scalar} (h : lookup key entries = none) :
    assign key value entries = entries ++ [(key, value)] := by
  induction entries with
  | nil => rfl
  | cons first rest ih =>
    rw [lookup_eq_none_iff, List.forall_mem_cons, ← lookup_eq_none_iff] at h
    unfold assign
    rw [if_neg (by simp [h.1]), ih h.2]
    rfl

/-- What holds of every key and of the new one holds of every key afterwards. -/
theorem forall_mem_assign {P : Scalar → Prop} {key : Scalar} (h : ∀ entry ∈ entries, P entry.1)
    (hkey : P key) : ∀ entry ∈ assign key value entries, P entry.1 := by
  induction entries with
  | nil => simpa [assign] using hkey
  | cons first rest ih =>
    rw [List.forall_mem_cons] at h
    unfold assign
    by_cases hsame : first.1.sameKey key = true
    · rw [if_pos hsame]
      exact List.forall_mem_cons.mpr h
    · rw [if_neg hsame]
      exact List.forall_mem_cons.mpr ⟨h.1, ih h.2⟩

/-- Assigning makes no other key the same as one that none was the same as. -/
theorem lookup_assign_eq_none {key other : Scalar} (h : lookup other entries = none)
    (hkey : key.sameKey other = false) : lookup other (assign key value entries) = none := by
  rw [lookup_eq_none_iff] at h ⊢
  exact forall_mem_assign (P := fun k => k.sameKey other = false) h hkey

/-! ### Entries without a key twice -/

/-- No key is the same as one before it. -/
def Distinct (entries : List (Scalar × Value)) : Prop :=
  entries.Pairwise fun entry later => entry.1.sameKey later.1 = false

theorem Distinct.assign (h : Distinct entries) (key : Scalar) (value : Value) :
    Distinct (Data.assign key value entries) := by
  induction entries with
  | nil => exact List.pairwise_singleton _ _
  | cons first rest ih =>
    obtain ⟨hfirst, hrest⟩ := List.pairwise_cons.mp h
    unfold Data.assign
    by_cases hkey : first.1.sameKey key = true
    · rw [if_pos hkey]
      exact List.pairwise_cons.mpr ⟨hfirst, hrest⟩
    · rw [if_neg hkey]
      have hbehind : ∀ entry ∈ Data.assign key value rest, first.1.sameKey entry.1 = false :=
        forall_mem_assign (P := fun k => first.1.sameKey k = false) hfirst (by simpa using hkey)
      exact List.pairwise_cons.mpr ⟨hbehind, ih hrest⟩

/-- Entries that are assigned one after the other have no key twice. -/
theorem distinct_foldl_assign (added : List (Scalar × Value)) (h : Distinct entries) :
    Distinct (added.foldl (fun all entry => assign entry.1 entry.2 all) entries) := by
  induction added generalizing entries with
  | nil => exact h
  | cons entry rest ih => exact ih (h.assign entry.1 entry.2)

theorem mem_foldl_assign {added : List (Scalar × Value)} {entry : Scalar × Value}
    (h : entry ∈ added.foldl (fun all entry => assign entry.1 entry.2 all) entries) :
    entry ∈ entries ∨ ∃ source ∈ added, entry.2 = source.2 := by
  induction added generalizing entries with
  | nil => exact Or.inl h
  | cons first rest ih =>
    rcases ih h with hmem | ⟨source, hsource, hvalue⟩
    · exact (mem_assign hmem).imp_right fun hvalue => ⟨first, List.mem_cons_self, hvalue⟩
    · exact Or.inr ⟨source, List.mem_cons_of_mem _ hsource, hvalue⟩

end WikiMigration.Data
