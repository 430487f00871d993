/-
What is made on the way to a directory.

If every name in a tree is of some kind, and every name in the targets of its links, then what a path of
such names leads to has a place that is spelt with such names, and so have the directories that are made
on the way.  And where a directory can be made, its path leads there as far as there is anything: if it
does not, nothing is made at all.
-/
import WikiMigration.Proofs.Files.Directories

namespace WikiMigration.Files

open Text

variable {P : Name → Prop}

/-! ### Names -/

/-- Where a walk ends, and what is left of it, is spelt with names of a kind. -/
def Walk.Spells (P : Name → Prop) : Walk → Prop
  | .arrived place => ∀ n ∈ place, P n
  | .diverted directory target rest =>
    (∀ n ∈ directory, P n) ∧ (∀ n ∈ splitAt '/' target, P n) ∧ ∀ n ∈ rest, P n
  | .blocked _ => True

namespace Tree

variable {t t₁ t' : Tree} {path : Path} {place : Location} {result : Option FileError × Tree}

/-- The names in the tree are of a kind, and so are those in the targets of its links. -/
structure Spells (P : Name → Prop) (t : Tree) : Prop where
  places : ∀ place entry, t.at? place = some entry → ∀ n ∈ place, P n
  links : ∀ place target, t.at? place = some (.link target) → ∀ n ∈ splitAt '/' target, P n

theorem forall_mem_snoc {here : Location} {name : Name} (hhere : ∀ n ∈ here, P n) (hname : P name) :
    ∀ n ∈ here ++ [name], P n :=
  List.forall_mem_append.mpr ⟨hhere, List.forall_mem_singleton.mpr hname⟩

theorem Step.spells {here next : Location} {name : Name} (h : Step t here name next)
    (hhere : ∀ n ∈ here, P n) (hname : P name) : ∀ n ∈ next, P n := by
  cases h with
  | self hself => exact hhere
  | parent => exact fun n hn => hhere n (List.dropLast_subset _ hn)
  | child hstand hentry => exact forall_mem_snoc hhere hname

theorem Passes.spells {here place : Location} {names left : List Name}
    (h : Passes t here names place left) (hhere : ∀ n ∈ here, P n) (hnames : ∀ n ∈ names, P n) :
    (∀ n ∈ place, P n) ∧ ∀ n ∈ left, P n := by
  induction h with
  | refl => exact ⟨hhere, hnames⟩
  | step step passes ih =>
    obtain ⟨hname, hrest⟩ := List.forall_mem_cons.mp hnames
    exact ih (step.spells hhere hname) hrest

theorem Stops.spells {followLast : Bool} {here : Location} {names : List Name} {result : Walk}
    (h : Stops t followLast here names result) (spells : t.Spells P) (hhere : ∀ n ∈ here, P n)
    (hnames : ∀ n ∈ names, P n) : result.Spells P := by
  cases h with
  | done => exact hhere
  | last => exact forall_mem_snoc hhere (hnames _ List.mem_cons_self)
  | link hname hentry hlast =>
    exact ⟨hhere, spells.links _ _ hentry, (List.forall_mem_cons.mp hnames).2⟩
  | long | missing | file => trivial

theorem Spells.walk {followLast : Bool} {here : Location} {names : List Name} (h : t.Spells P)
    (hhere : ∀ n ∈ here, P n) (hnames : ∀ n ∈ names, P n) :
    (t.walk followLast here names).Spells P := by
  obtain ⟨place, left, passes, stops⟩ := walk_iff.mp (rfl : t.walk followLast here names = _)
  obtain ⟨hplace, hleft⟩ := passes.spells hhere hnames
  exact stops.spells h hplace hleft

theorem Spells.follows {followLast : Bool} {links : Nat} {here : Location} {names : List Name}
    (h : t.Spells P) (follows : Follows t followLast links here names place) (hhere : ∀ n ∈ here, P n)
    (hnames : ∀ n ∈ names, P n) : ∀ n ∈ place, P n := by
  induction follows with
  | @arrived links here place names walks =>
    have hwalk := @Spells.walk P t followLast here names h hhere hnames
    rwa [walks] at hwalk
  | @diverted links here directory place names rest target walks follows ih =>
    have hwalk := @Spells.walk P t followLast here names h hhere hnames
    rw [walks] at hwalk
    obtain ⟨hdirectory, htarget, hrest⟩ := hwalk
    refine ih ?_ fun n hn => (List.mem_append.mp hn).elim (htarget n) (hrest n)
    rw [restart]
    split
    · simp
    · exact hdirectory

/-- **Where a path leads is spelt with the names of the path and of the tree.** -/
theorem Spells.locate (h : t.Spells P) (hpath : ∀ n ∈ path.names, P n) (hend : t.locate path = .ok place) :
    ∀ n ∈ place, P n := h.follows (follow_eq_ok.mp hend) (by simp) hpath

theorem Spells.locateSelf (h : t.Spells P) (hpath : ∀ n ∈ path.names, P n)
    (hend : t.locateSelf path = .ok place) : ∀ n ∈ place, P n :=
  h.follows (follow_eq_ok.mp hend) (by simp) hpath

/-- What is new is at one place, and no link. -/
theorem Spells.of_source {spot : Location} (h : t.Spells P) (hspot : ∀ n ∈ spot, P n)
    (source : ∀ other entry, t'.at? other = some entry →
      other = spot ∧ (∀ target, entry ≠ .link target) ∨ t.at? other = some entry) : t'.Spells P := by
  refine ⟨fun other entry hat => ?_, fun other target hat => ?_⟩
  · rcases source other entry hat with ⟨rfl, -⟩ | hat
    · exact hspot
    · exact h.places other entry hat
  · rcases source other _ hat with ⟨-, hlink⟩ | hat
    · exact absurd rfl (hlink target)
    · exact h.links other target hat

theorem Spells.put {directory : Location} {name : Name} {entry : Entry} (h : t.Spells P)
    (hplace : ∀ n ∈ directory ++ [name], P n) (hentry : ∀ target, entry ≠ .link target) :
    (t.put (directory ++ [name]) entry).Spells P := by
  refine h.of_source hplace fun other held hat => ?_
  rw [at?_put_snoc] at hat
  split at hat
  next heq => exact Or.inl ⟨heq, Option.some.inj hat ▸ hentry⟩
  next => exact Or.inr hat

theorem Spells.makeDirectory (h : t.Spells P) (sound : t.Sound) (hpath : ∀ n ∈ path.names, P n)
    (makes : t.makeDirectory path = .ok t') : t'.Spells P := by
  obtain ⟨place, hplace, hnone, rfl⟩ := makeDirectory_eq_ok.mp makes
  have hspelt := h.locateSelf hpath hplace
  rcases locateSelf_ends sound hplace with hdir | ⟨directory, name, rfl, -⟩
  · rw [hnone] at hdir
    cases hdir
  · exact h.put hspelt (by simp)

/-- **The directories that are made are spelt with the names of the path and of the tree.** -/
theorem Attempts.spells (h : Attempts t path result) (spells : t.Spells P) (sound : t.Sound)
    (hpath : ∀ n ∈ path.names, P n) : result.2.Spells P := by
  have hparent : ∀ {path : Path}, (∀ n ∈ path.names, P n) → ∀ n ∈ (parent path).names, P n :=
    fun hpath n hn => hpath n (List.dropLast_subset _ hn)
  induction h with
  | made makes => exact spells.makeDirectory sound hpath makes
  | @refused t path e fails =>
    rcases unlessDirectory_ends t path e with ⟨h, -⟩ | ⟨⟨e', h⟩, -⟩
    all_goals
      rw [h]
      exact spells
  | lost => exact spells
  | stuck fails missing before ih => exact ih spells sound (hparent hpath)
  | behind fails missing before again ih ih' =>
    exact ih' (ih spells sound (hparent hpath)) (before.grows sound).2 hpath

/-! ### Places -/

/-- What a path leads to, its parent leads to the directory of. -/
theorem Leads.parent {name : Name} (h : t.Leads (path.child name) place) (sound : t.Sound) :
    ∃ directory, t.Leads path directory := by
  obtain ⟨known, start, names, hpath, -, stands, hnames, hnone⟩ := h.through
  rcases Location.eq_nil_or_snoc names with rfl | ⟨front, last, rfl⟩
  · rw [Path.into_nil] at hpath
    obtain ⟨directory, stands'⟩ := standing_of_locate_child sound (hpath ▸ stands).leads
    exact ⟨directory, stands'.toLeads⟩
  · rw [← Path.into_child] at hpath
    obtain ⟨hdoubled, hchild⟩ := Path.mk.inj hpath
    have hfront : path = known.into front := by
      obtain ⟨doubled, spelt⟩ := path
      exact Path.mk.injEq .. ▸ ⟨hdoubled, (List.append_inj' hchild rfl).1⟩
    refine ⟨start ++ front, known, start, front, hfront, rfl, stands, fun n hn => hnames n (by simp [hn]), ?_⟩
    rintro n rest rfl
    exact hnone n (rest ++ [last]) rfl

theorem Leads.of_into {names : List Name} (h : t.Leads (path.into names) place) (sound : t.Sound) :
    ∃ directory, t.Leads path directory := by
  induction names generalizing path with
  | nil => exact ⟨place, by rwa [Path.into_nil] at h⟩
  | cons name rest ih =>
    rw [Path.into_cons] at h
    obtain ⟨directory, leads⟩ := ih h
    exact leads.parent sound

/-- A directory that is missing because the one it would stand in is, is one that its path leads to if
the path of that one does. -/
theorem Leads.child_of_missing {name : Name} {e : FileError} (h : t.Leads path place)
    (hname : Name.IsPlain name) (fails : t.makeDirectory (path.child name) = .error e)
    (missing : e.fault = .missing) : ∃ place', t.Leads (path.child name) place' := by
  obtain ⟨known, start, names, rfl, rfl, stands, hnames, hnone⟩ := h.through
  have hplain : ∀ n ∈ names ++ [name], Name.IsPlain n := by
    intro n hn
    rcases List.mem_append.mp hn with hn | hn
    · exact hnames n hn
    · exact List.mem_singleton.mp hn ▸ hname
  refine ⟨start ++ (names ++ [name]), known, start, names ++ [name], known.into_child names name, rfl, stands,
    hplain, ?_⟩
  intro first rest heq
  cases names with
  | cons n more =>
    obtain ⟨rfl, -⟩ := List.cons.inj heq
    exact hnone n more rfl
  | nil =>
    obtain ⟨rfl, -⟩ := List.cons.inj heq
    rw [Path.into_nil] at fails
    cases hlong : isTooLong name with
    | false => exact absurd missing (makeDirectory_child_fails stands ⟨hname, hlong⟩ fails).1
    | true =>
      have hself : t.locateSelf (known.child name) = .error .nameTooLong :=
        stands.follow_long hname hlong false []
      rw [makeDirectory, hself] at fails
      obtain rfl := Except.error.inj fails
      cases missing

theorem standing_of_root (t : Tree) (hroot : path.names = []) : t.Standing path [] := by
  refine ⟨?_, t.at?_nil⟩
  rw [locate, hroot, follow_of_arrived]
  rfl

/-- **Where a directory is made, its path leads there; where it does not, nothing is made.** -/
theorem Attempts.leads (h : Attempts t path result) (sound : t.Sound)
    (hnames : ∀ n ∈ path.names, Name.IsPlain n) :
    (∃ place, t.Leads path place) ∨ ∃ e, result = (some e, t) := by
  induction h with
  | @made t t' path makes =>
    obtain ⟨place, hplace, hnone, -⟩ := makeDirectory_eq_ok.mp makes
    rcases parent_cases path with ⟨hroot, -⟩ | ⟨base, name, rfl, -⟩
    · exact Or.inl ⟨[], (t.standing_of_root hroot).toLeads⟩
    · obtain ⟨directory, stands⟩ := standing_of_locateSelf_child sound hplace
      have hname : Name.IsPlain name := hnames name (by simp [Path.child])
      obtain ⟨rfl, -⟩ := stands.eq_of_locateSelf_child hname hplace
      refine Or.inl ⟨directory ++ [name], base, directory, [name], Path.child_eq_into .., rfl, stands,
        by simpa using hname, ?_⟩
      intro n rest heq
      obtain ⟨rfl, -⟩ := List.cons.inj heq
      exact hnone
  | @refused t path e fails =>
    rcases unlessDirectory_ends t path e with ⟨-, place, stands⟩ | ⟨⟨e', h⟩, -⟩
    · exact Or.inl ⟨place, stands.toLeads⟩
    · exact Or.inr ⟨e', h⟩
  | lost => exact Or.inr ⟨_, rfl⟩
  | @stuck t t₁ path e e' fails missing before ih =>
    rcases parent_cases path with ⟨hroot, -⟩ | ⟨base, name, rfl, hbase⟩
    · exact Or.inl ⟨[], (t.standing_of_root hroot).toLeads⟩
    · rcases ih sound fun n hn => hnames n (List.dropLast_subset _ hn) with ⟨place, leads⟩ | ⟨e'', heq⟩
      · exact Or.inl ((hbase ▸ leads).child_of_missing (hnames name (by simp [Path.child])) fails missing)
      · exact Or.inr ⟨e'', heq⟩
  | @behind t t₁ path e result fails missing before again ih ih' =>
    rcases parent_cases path with ⟨hroot, -⟩ | ⟨base, name, rfl, hbase⟩
    · exact Or.inl ⟨[], (t.standing_of_root hroot).toLeads⟩
    · rcases ih sound fun n hn => hnames n (List.dropLast_subset _ hn) with ⟨place, leads⟩ | ⟨e'', heq⟩
      · exact Or.inl ((hbase ▸ leads).child_of_missing (hnames name (by simp [Path.child])) fails missing)
      · cases heq

end Tree

end WikiMigration.Files
