/-
What is seen through paths into a directory.

Where no links stand within a directory, a path into it that spells plain names is walked through the
directory alone.  So two trees that have the same within the directory cannot be told apart by such
paths, whatever they have elsewhere: where the paths lead, what is found there and what is listed is the
same, and so are the faults.
-/
import WikiMigration.Proofs.Files.Operation

namespace WikiMigration.Files.Tree

variable {t t' : Tree} {path : Path} {place : Location} {names : List Name}

/-! ### Walks without links -/

theorem walk_congr {here : Location} (followLast : Bool)
    (same : ∀ rest, t.at? (here ++ rest) = t'.at? (here ++ rest))
    (plain : ∀ n ∈ names, Name.IsPlain n) :
    t.walk followLast here names = t'.walk followLast here names := by
  induction names generalizing here with
  | nil => rfl
  | cons name rest ih =>
    have hplain : Name.IsPlain name := plain name (by simp)
    have ih' : t.walk followLast (here ++ [name]) rest = t'.walk followLast (here ++ [name]) rest := by
      refine ih (fun more => ?_) fun n hn => plain n (by simp [hn])
      rw [List.append_assoc]
      exact same _
    rw [walk_cons hplain.not_self hplain.notParent, walk_cons hplain.not_self hplain.notParent,
      same [name], ih']

/-- Plain names that are used up spell where they lead. -/
theorem Passes.straight {here place : Location} {left : List Name} (h : Passes t here names place left)
    (plain : ∀ n ∈ names, Name.IsPlain n) : ∃ used, names = used ++ left ∧ place = here ++ used := by
  induction h with
  | refl => exact ⟨[], rfl, (List.append_nil _).symm⟩
  | @step here next place name rest left step passes ih =>
    obtain ⟨hplain, hrest⟩ := List.forall_mem_cons.mp plain
    obtain ⟨used, rfl, rfl⟩ := ih hrest
    cases step with
    | self hself => exact absurd hself hplain.not_self
    | parent => exact absurd rfl hplain.notParent
    | child hname hentry => exact ⟨name :: used, rfl, (List.append_cons here name used).symm⟩

/-- A walk by plain names where no links are ends at the place that the names spell, or nowhere. -/
theorem walk_straight {here : Location} (followLast : Bool) (free : t.LinkFree here)
    (plain : ∀ n ∈ names, Name.IsPlain n) :
    t.walk followLast here names = .arrived (here ++ names) ∨
      ∃ fault, t.walk followLast here names = .blocked fault := by
  obtain ⟨place, left, passes, stops⟩ := walk_iff.mp (rfl : t.walk followLast here names = _)
  obtain ⟨used, rfl, rfl⟩ := passes.straight plain
  generalize t.walk followLast here (used ++ left) = result at stops
  cases stops with
  | done => exact Or.inl (by rw [List.append_nil])
  | last => exact Or.inl (by rw [List.append_assoc])
  | long | missing | file => exact Or.inr ⟨_, rfl⟩
  | @link name rest target hname hentry hlast =>
    exact absurd hentry (free.into used [name] target)

/-- How many links might be followed makes no difference then. -/
theorem follow_straight {here : Location} (followLast : Bool) (free : t.LinkFree here)
    (plain : ∀ n ∈ names, Name.IsPlain n) (links links' : Nat) :
    t.follow followLast links here names = t.follow followLast links' here names := by
  rcases walk_straight followLast free plain with hwalk | ⟨fault, hwalk⟩
  · rw [follow_of_arrived hwalk, follow_of_arrived hwalk]
  · rw [follow_of_blocked hwalk, follow_of_blocked hwalk]

theorem Standing.locate_straight (h : t.Standing path place) (free : t.LinkFree place)
    (plain : ∀ n ∈ names, Name.IsPlain n) {spot : Location}
    (hend : t.locate (path.into names) = .ok spot) : spot = place ++ names := by
  by_cases hnames : names = []
  · subst hnames
    rw [Path.into_nil, h.leads] at hend
    rw [List.append_nil]
    exact (Except.ok.inj hend).symm
  · obtain ⟨left, hleft⟩ := h.follow_into hnames true
    have hend' : t.follow true left place names = .ok spot := hleft ▸ hend
    rcases walk_straight true free plain with hwalk | ⟨fault, hwalk⟩
    · rw [follow_of_arrived hwalk] at hend'
      exact (Except.ok.inj hend').symm
    · rw [follow_of_blocked hwalk] at hend'
      cases hend'

/-! ### Trees that look alike -/

/-- Two trees in which the path leads to the same directory, with the same in it and no links. -/
structure Alike (t t' : Tree) (path : Path) (place : Location) : Prop where
  sound : t.Sound
  sound' : t'.Sound
  stands : t.Standing path place
  stands' : t'.Standing path place
  free : t.LinkFree place
  same : ∀ names, t.at? (place ++ names) = t'.at? (place ++ names)

namespace Alike

theorem free' (h : Alike t t' path place) : t'.LinkFree place := by
  intro names target
  rw [← h.same]
  exact h.free names target

theorem locate_eq (h : Alike t t' path place) (plain : ∀ n ∈ names, Name.IsPlain n) :
    t.locate (path.into names) = t'.locate (path.into names) := by
  by_cases hnames : names = []
  · rw [hnames, Path.into_nil, h.stands.leads, h.stands'.leads]
  · obtain ⟨left, hleft⟩ := h.stands.follow_into hnames true
    obtain ⟨left', hleft'⟩ := h.stands'.follow_into hnames true
    rw [locate, locate, hleft, hleft', follow_straight true h.free plain left left', follow, follow,
      walk_congr true h.same plain]
    rcases walk_straight true h.free' plain with hwalk | ⟨fault, hwalk⟩
    · rw [hwalk]
    · rw [hwalk]

theorem find_eq (h : Alike t t' path place) (plain : ∀ n ∈ names, Name.IsPlain n) :
    t.find (path.into names) = t'.find (path.into names) := by
  rw [find, find, ← h.locate_eq plain]
  cases hend : t.locate (path.into names) with
  | error fault => rfl
  | ok spot =>
    obtain rfl := h.stands.locate_straight h.free plain hend
    simp only [bind, Except.bind, h.same]

theorem isThere_eq (h : Alike t t' path place) (plain : ∀ n ∈ names, Name.IsPlain n) :
    t.isThere (path.into names) = t'.isThere (path.into names) := by
  rw [isThere, isThere, find?, find?, h.find_eq plain]

theorem isDirectory_eq (h : Alike t t' path place) (plain : ∀ n ∈ names, Name.IsPlain n) :
    t.isDirectory (path.into names) = t'.isDirectory (path.into names) := by
  rw [isDirectory, isDirectory, find?, find?, h.find_eq plain]

theorem size_eq (h : Alike t t' path place) (plain : ∀ n ∈ names, Name.IsPlain n) :
    t.size (path.into names) = t'.size (path.into names) := by
  rw [size, size, h.find_eq plain]

theorem read_eq (h : Alike t t' path place) (plain : ∀ n ∈ names, Name.IsPlain n) :
    t.read (path.into names) = t'.read (path.into names) := by
  rw [read, read, h.find_eq plain]

theorem names_eq (h : Alike t t' path place) (names : List Name) :
    t.names (place ++ names) = t'.names (place ++ names) := by
  refine eq_of_pairwise_le (t.pairwise_names _) (t'.pairwise_names _) (h.sound.nodup_names _)
    (h.sound'.nodup_names _) fun n => ?_
  rw [mem_names, mem_names, List.append_assoc, h.same]

theorem list_eq (h : Alike t t' path place) (plain : ∀ n ∈ names, Name.IsPlain n) :
    t.list (path.into names) = t'.list (path.into names) := by
  rw [list, list, ← h.locate_eq plain]
  cases hend : t.locate (path.into names) with
  | error fault => rfl
  | ok spot =>
    obtain rfl := h.stands.locate_straight h.free plain hend
    simp only [bind, Except.bind, h.same, h.names_eq]

end Alike

end WikiMigration.Files.Tree
