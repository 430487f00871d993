/-
What stands where in a tree that was changed, and what the names within a directory are.

A tree is kept as a list of places, but nothing that is proved about files speaks of that list: what
`put` and `cut` do is told place by place, and the names within a directory are told by the places one
name further on.  A tree is sound if it is one that a system of files can have: each place is listed
once, whatever stands somewhere stands in a directory, and has a name that a file can have.
-/
import WikiMigration.Files.Walk
import Mathlib.Data.List.Basic

namespace WikiMigration.Files

/-! ### Names and places -/

/-- Whether a name is one that a walk goes by, and not one that stays where it is or goes back. -/
structure Name.IsPlain (name : Name) : Prop where
  notEmpty : name ≠ []
  notSelf : name ≠ ['.']
  notParent : name ≠ ['.', '.']

theorem Name.IsPlain.not_self {name : Name} (h : Name.IsPlain name) :
    ¬ (name = [] ∨ name = ['.']) := by
  rintro (hempty | hself)
  · exact h.notEmpty hempty
  · exact h.notSelf hself

theorem Name.IsPlain.of_not_self {name : Name} (hself : ¬ (name = [] ∨ name = ['.']))
    (hparent : name ≠ ['.', '.']) : Name.IsPlain name :=
  ⟨fun h => hself (Or.inl h), fun h => hself (Or.inr h), hparent⟩

/-- Whether something can have the name. -/
structure Name.CanStand (name : Name) : Prop where
  plain : Name.IsPlain name
  short : isTooLong name = false

instance (name : Name) : Decidable (Name.IsPlain name) :=
  decidable_of_iff (name ≠ [] ∧ name ≠ ['.'] ∧ name ≠ ['.', '.'])
    ⟨fun h => ⟨h.1, h.2.1, h.2.2⟩, fun h => ⟨h.1, h.2, h.3⟩⟩

instance (name : Name) : Decidable (Name.CanStand name) :=
  decidable_of_iff (Name.IsPlain name ∧ isTooLong name = false)
    ⟨fun h => ⟨h.1, h.2⟩, fun h => ⟨h.1, h.2⟩⟩

theorem isWithin_iff {directory place : Location} :
    isWithin directory place = true ↔ directory <+: place := List.isPrefixOf_iff_prefix

/-- A place other than the root is one name further on than another place. -/
theorem Location.eq_nil_or_snoc (place : Location) :
    place = [] ∨ ∃ directory name, place = directory ++ [name] := by
  rcases List.eq_nil_or_concat place with h | ⟨directory, name, h⟩
  · exact Or.inl h
  · exact Or.inr ⟨directory, name, by rw [h, List.concat_eq_append]⟩

namespace Tree

/-! ### Putting and cutting -/

@[simp] theorem at?_nil (t : Tree) : t.at? [] = some .directory := rfl

theorem at?_of_ne_nil (t : Tree) {place : Location} (h : place ≠ []) :
    t.at? place = t.entries.lookup place := by
  cases place with
  | nil => exact absurd rfl h
  | cons name rest => rfl

theorem lookup_cons_eq {κ β : Type} [BEq κ] [LawfulBEq κ] [DecidableEq κ] (key place : κ) (value : β)
    (entries : List (κ × β)) :
    ((key, value) :: entries).lookup place = if place = key then some value
      else entries.lookup place := by
  by_cases h : place = key
  · subst h
    rw [List.lookup_cons_self, if_pos rfl]
  · have hne : (place == key) = false := by simpa using h
    rw [List.lookup_cons, hne, if_neg h]

theorem lookup_putIn (place other : Location) (entry : Entry)
    (entries : List (Location × Entry)) :
    (putIn place entry entries).lookup other =
      if other = place then some entry else entries.lookup other := by
  induction entries with
  | nil => rw [putIn, lookup_cons_eq]
  | cons first rest ih =>
    obtain ⟨key, old⟩ := first
    by_cases hkey : key = place
    · subst hkey
      rw [putIn, if_pos rfl, lookup_cons_eq, lookup_cons_eq]
      split <;> rfl
    · rw [putIn, if_neg hkey, lookup_cons_eq, lookup_cons_eq, ih]
      by_cases hother : other = place
      · subst hother
        simp [Ne.symm hkey]
      · simp [hother]

/-- What stands at a place once something is put somewhere. -/
theorem at?_put (t : Tree) {place : Location} (h : place ≠ []) (entry : Entry)
    (other : Location) :
    (t.put place entry).at? other = if other = place then some entry else t.at? other := by
  by_cases hother : other = []
  · subst hother
    rw [if_neg (Ne.symm h)]
    rfl
  · rw [at?_of_ne_nil _ hother, at?_of_ne_nil _ hother]
    exact lookup_putIn place other entry t.entries

@[simp] theorem at?_put_snoc (t : Tree) (directory : Location) (name : Name) (entry : Entry)
    (other : Location) :
    (t.put (directory ++ [name]) entry).at? other =
      if other = directory ++ [name] then some entry else t.at? other :=
  at?_put t (by simp) entry other

theorem lookup_filter_key {κ β : Type} [BEq κ] [LawfulBEq κ] [DecidableEq κ] (keep : κ → Bool) (place : κ)
    (entries : List (κ × β)) :
    (entries.filter fun e => keep e.1).lookup place =
      if keep place then entries.lookup place else none := by
  induction entries with
  | nil => simp
  | cons first rest ih =>
    obtain ⟨key, value⟩ := first
    by_cases hkey : keep key = true
    · rw [List.filter_cons_of_pos (by simpa using hkey), lookup_cons_eq, lookup_cons_eq, ih]
      by_cases hplace : place = key
      · simp [hplace, hkey]
      · simp [hplace]
    · rw [List.filter_cons_of_neg (by simpa using hkey), lookup_cons_eq, ih]
      by_cases hplace : place = key
      · simp [hplace, hkey]
      · simp [hplace]

theorem putIn_putIn (place : Location) (entry entry' : Entry)
    (entries : List (Location × Entry)) :
    putIn place entry' (putIn place entry entries) = putIn place entry' entries := by
  induction entries with
  | nil => simp [putIn]
  | cons first rest ih =>
    obtain ⟨key, old⟩ := first
    by_cases hkey : key = place
    · simp [putIn, hkey]
    · simp [putIn, hkey, ih]

/-- What is put somewhere last stays there. -/
@[simp] theorem put_put (t : Tree) (place : Location) (entry entry' : Entry) :
    (t.put place entry).put place entry' = t.put place entry' := by
  simp [put, putIn_putIn]

/-- What stands at a place once something is cut off. -/
theorem at?_cut (t : Tree) {place : Location} (h : place ≠ []) (other : Location) :
    (t.cut place).at? other = if place <+: other then none else t.at? other := by
  by_cases hother : other = []
  · subst hother
    rw [if_neg (fun hfront => h (List.prefix_nil.mp hfront))]
    rfl
  · rw [at?_of_ne_nil _ hother, at?_of_ne_nil _ hother]
    show (t.entries.filter fun e => !isWithin place e.1).lookup other = _
    rw [lookup_filter_key (fun key => !isWithin place key)]
    by_cases hwithin : place <+: other
    · simp [isWithin_iff.mpr hwithin, hwithin]
    · have hnot : isWithin place other = false := by
        simpa using mt isWithin_iff.mp hwithin
      simp [hnot, hwithin]

/-! ### Names within a directory -/

theorem nameWithin?_eq_some {directory place : Location} {name : Name} :
    nameWithin? directory place = some name ↔ place = directory ++ [name] := by
  induction directory generalizing place with
  | nil =>
    cases place with
    | nil => simp [nameWithin?]
    | cons first rest => cases rest <;> simp [nameWithin?]
  | cons d directory ih =>
    cases place with
    | nil => simp [nameWithin?]
    | cons p place =>
      by_cases hp : d = p
      · subst hp
        simp [nameWithin?, ih]
      · simp [nameWithin?, hp, Ne.symm hp]

theorem mem_names {t : Tree} {directory : Location} {name : Name} :
    name ∈ t.names directory ↔ ∃ e, t.at? (directory ++ [name]) = some e := by
  rw [at?_of_ne_nil _ (by simp), ← Option.isSome_iff_exists, List.lookup_isSome_iff]
  simp only [names, List.mem_mergeSort, List.mem_filterMap, nameWithin?_eq_some, beq_iff_eq]
  constructor
  · rintro ⟨e, he, hname⟩
    exact ⟨e, he, hname.symm⟩
  · rintro ⟨e, he, hname⟩
    exact ⟨e, he, hname.symm⟩

/-- The order in which names are listed. -/
theorem pairwise_names (t : Tree) (directory : Location) :
    (t.names directory).Pairwise (· ≤ ·) := by
  have h : (t.names directory).Pairwise fun a b => decide (a ≤ b) = true := by
    refine List.pairwise_mergeSort (fun a b c hab hbc => ?_) (fun a b => ?_) _
    · simpa using List.le_trans (by simpa using hab) (by simpa using hbc)
    · simpa using List.le_total a b
  exact h.imp fun hab => by simpa using hab

theorem nodup_filterMap_nameWithin? (directory : Location) {entries : List (Location × Entry)}
    (h : (entries.map Prod.fst).Nodup) :
    (entries.filterMap fun e => nameWithin? directory e.1).Nodup := by
  have hkeys : (entries.map Prod.fst).Pairwise (· ≠ ·) := h
  rw [List.pairwise_map] at hkeys
  refine List.Pairwise.filterMap _ ?_ hkeys
  intro a b hne n hn m hm hnm
  rw [nameWithin?_eq_some] at hn hm
  exact hne (by rw [hn, hm, hnm])

/-- A tree as a system of files has it. -/
structure Sound (t : Tree) : Prop where
  /-- Each place is listed once. -/
  once : (t.entries.map Prod.fst).Nodup
  /-- Whatever stands somewhere stands in a directory. -/
  housed : ∀ directory name e, t.at? (directory ++ [name]) = some e →
    t.at? directory = some .directory
  /-- Whatever stands somewhere has a name that a file can have. -/
  named : ∀ directory name e, t.at? (directory ++ [name]) = some e → Name.CanStand name

theorem mem_of_lookup {β : Type} {entries : List (Location × β)} {place : Location} {value : β}
    (h : entries.lookup place = some value) : (place, value) ∈ entries := by
  induction entries with
  | nil => cases h
  | cons first rest ih =>
    obtain ⟨key, old⟩ := first
    rw [lookup_cons_eq] at h
    split at h
    next heq =>
      rw [heq, Option.some.inj h]
      exact List.mem_cons_self
    next => exact List.mem_cons_of_mem _ (ih h)

/-- Whether a tree is one can be told by its entries. -/
theorem sound_of_entries {t : Tree} (once : (t.entries.map Prod.fst).Nodup)
    (all : ∀ e ∈ t.entries, t.at? e.1.dropLast = some .directory ∧
      Name.CanStand (e.1.getLastD [])) : t.Sound := by
  have hentry : ∀ directory name e, t.at? (directory ++ [name]) = some e →
      t.at? directory = some .directory ∧ Name.CanStand name := by
    intro directory name e he
    rw [at?_of_ne_nil _ (by simp)] at he
    have hmem := all _ (mem_of_lookup he)
    simpa using hmem
  exact ⟨once, fun directory name e he => (hentry directory name e he).1,
    fun directory name e he => (hentry directory name e he).2⟩

theorem Sound.nodup_names {t : Tree} (sound : t.Sound) (directory : Location) :
    (t.names directory).Nodup :=
  (List.mergeSort_perm _ _).nodup_iff.mpr (nodup_filterMap_nameWithin? directory sound.once)

/-- Lists of names in order, none twice, with the same names are the same list. -/
theorem eq_of_pairwise_le {xs ys : List Name} (hx : xs.Pairwise (· ≤ ·)) (hy : ys.Pairwise (· ≤ ·))
    (nx : xs.Nodup) (ny : ys.Nodup) (h : ∀ n, n ∈ xs ↔ n ∈ ys) : xs = ys := by
  have hperm : xs.Perm ys := (List.perm_ext_iff_of_nodup nx ny).mpr h
  exact hperm.eq_of_pairwise (fun a b _ _ hab hba => List.le_antisymm hab hba) hx hy

/-- The names of a class within a directory are told by what stands there under such names. -/
theorem Sound.filter_names_congr {t t' : Tree} (sound : t.Sound) (sound' : t'.Sound)
    {directory directory' : Location} {p : Name → Bool}
    (h : ∀ n, p n = true →
      ((t.at? (directory ++ [n])).isSome ↔ (t'.at? (directory' ++ [n])).isSome)) :
    (t.names directory).filter p = (t'.names directory').filter p := by
  refine eq_of_pairwise_le ((t.pairwise_names directory).filter p)
    ((t'.pairwise_names directory').filter p) ((sound.nodup_names directory).filter p)
    ((sound'.nodup_names directory').filter p) fun n => ?_
  rw [List.mem_filter, List.mem_filter]
  by_cases hp : p n = true
  · have hn := h n hp
    rw [Option.isSome_iff_exists, Option.isSome_iff_exists, ← mem_names, ← mem_names] at hn
    rw [hn]
  · simp [hp]

/-! ### Soundness of what is changed -/

theorem Sound.directory_of_behind {t : Tree} (sound : t.Sound) {directory rest : Location}
    {e : Entry} (hrest : rest ≠ []) (h : t.at? (directory ++ rest) = some e) :
    t.at? directory = some .directory := by
  induction rest generalizing directory with
  | nil => exact absurd rfl hrest
  | cons name rest ih =>
    rw [← List.singleton_append, ← List.append_assoc] at h
    cases rest with
    | nil =>
      rw [List.append_nil] at h
      exact sound.housed _ _ _ h
    | cons next rest =>
      exact sound.housed directory name _ (ih (by simp) h)

/-- Every name on the way to what stands somewhere is one that a file can have. -/
theorem Sound.canStand {t : Tree} (sound : t.Sound) {place : Location} {e : Entry}
    (h : t.at? place = some e) : ∀ n ∈ place, Name.CanStand n := by
  intro n hn
  obtain ⟨front, behind, rfl⟩ := List.append_of_mem hn
  rw [List.append_cons] at h
  by_cases hbehind : behind = []
  · rw [hbehind, List.append_nil] at h
    exact sound.named _ _ _ h
  · exact sound.named _ _ _ (sound.directory_of_behind hbehind h)

/-- A directory stands in a directory, and the root in itself. -/
theorem Sound.at?_dropLast {t : Tree} (sound : t.Sound) {directory : Location}
    (h : t.at? directory = some .directory) : t.at? directory.dropLast = some .directory := by
  rcases Location.eq_nil_or_snoc directory with rfl | ⟨home, name, rfl⟩
  · exact h
  · rw [List.dropLast_concat]
    exact sound.housed _ _ _ h

/-- Nothing stands within a place where there is no directory. -/
theorem Sound.at?_eq_none {t : Tree} (sound : t.Sound) {directory rest : Location}
    (hrest : rest ≠ []) (h : t.at? directory ≠ some .directory) :
    t.at? (directory ++ rest) = none := by
  cases hentry : t.at? (directory ++ rest) with
  | none => rfl
  | some e => exact absurd (sound.directory_of_behind hrest hentry) h

theorem Sound.at?_long {t : Tree} (sound : t.Sound) {directory : Location} {name : Name}
    (h : isTooLong name = true) : t.at? (directory ++ [name]) = none := by
  cases hentry : t.at? (directory ++ [name]) with
  | none => rfl
  | some e =>
    have hshort := (sound.named _ _ _ hentry).short
    rw [h] at hshort
    cases hshort

theorem Sound.names_eq_nil {t : Tree} (sound : t.Sound) {directory : Location}
    (h : t.at? directory ≠ some .directory) : t.names directory = [] := by
  refine List.eq_nil_iff_forall_not_mem.mpr fun n hn => ?_
  obtain ⟨e, he⟩ := mem_names.mp hn
  exact h (sound.housed _ _ _ he)

theorem map_fst_putIn (place : Location) (entry : Entry) (entries : List (Location × Entry)) :
    (putIn place entry entries).map Prod.fst =
      if place ∈ entries.map Prod.fst then entries.map Prod.fst
      else entries.map Prod.fst ++ [place] := by
  induction entries with
  | nil => simp [putIn]
  | cons first rest ih =>
    obtain ⟨key, old⟩ := first
    by_cases hkey : key = place
    · simp [putIn, hkey]
    · simp only [putIn, hkey, if_false, List.map_cons, ih, List.mem_cons, Ne.symm hkey, false_or]
      split <;> rfl

theorem nodup_put {t : Tree} (h : (t.entries.map Prod.fst).Nodup) (place : Location)
    (entry : Entry) : ((t.put place entry).entries.map Prod.fst).Nodup := by
  show ((putIn place entry t.entries).map Prod.fst).Nodup
  rw [map_fst_putIn]
  split
  next => exact h
  next hplace =>
    refine List.nodup_append.mpr ⟨h, by simp, ?_⟩
    rintro a ha b hb rfl
    rw [List.mem_singleton.mp hb] at ha
    exact hplace ha

/-- Something may be put in a directory under any name; only what takes the place of a directory has
to be one. -/
theorem Sound.put {t : Tree} (sound : t.Sound) {directory : Location} {name : Name} {entry : Entry}
    (hhome : t.at? directory = some .directory) (hname : Name.CanStand name)
    (hkind : t.at? (directory ++ [name]) = some .directory → entry = .directory) :
    (t.put (directory ++ [name]) entry).Sound := by
  refine ⟨nodup_put sound.once _ _, ?_, ?_⟩
  · intro d n e he
    rw [at?_put_snoc] at he ⊢
    have hd : t.at? d = some .directory := by
      split at he
      next heq => rwa [(List.append_inj' heq rfl).1]
      next => exact sound.housed d n e he
    split
    next heq => rw [hkind (heq ▸ hd)]
    next => exact hd
  · intro d n e he
    rw [at?_put_snoc] at he
    split at he
    next heq =>
      obtain rfl : n = name := by simpa using (List.append_inj' heq rfl).2
      exact hname
    next => exact sound.named d n e he

theorem Sound.cut {t : Tree} (sound : t.Sound) {place : Location} (h : place ≠ []) :
    (t.cut place).Sound := by
  refine ⟨?_, ?_, ?_⟩
  · exact sound.once.sublist (List.Sublist.map _ List.filter_sublist)
  · intro d n e he
    rw [at?_cut t h] at he ⊢
    split at he
    next => cases he
    next hwithin =>
      rw [if_neg fun hfront => hwithin (hfront.trans (List.prefix_append _ _))]
      exact sound.housed d n e he
  · intro d n e he
    rw [at?_cut t h] at he
    split at he
    next => cases he
    next => exact sound.named d n e he

end Tree

end WikiMigration.Files
