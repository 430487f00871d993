/-
Which versions a directory has files of.

The versions are told by the names within the directory.  The current version comes after all of them,
so no file has its number, and when a file of that number is added the current version goes up by one.
Where no links are in the way, the versions that the stores see are those at the place that the path
spells; a path that leads nowhere has none.
-/
import WikiMigration.Proofs.Files.Operation
import WikiMigration.Proofs.Store.Name
import WikiMigration.Store.Attachment

namespace WikiMigration

namespace Store

open Files Files.Tree

/-! ### Numbers of versions -/

/-- The number after the latest of some versions, or one if there are none. -/
def after (versions : List Nat) : Nat := versions.max?.getD 0 + 1

theorem lt_after {versions : List Nat} {v : Nat} (h : v ∈ versions) : v < after versions := by
  cases hmax : versions.max? with
  | none =>
    rw [List.max?_eq_none_iff.mp hmax] at h
    cases h
  | some latest =>
    have hle : v ≤ latest := (List.max?_eq_some_iff.mp hmax).2 v h
    rw [after, hmax, Option.getD_some]
    omega

theorem max?_congr {versions versions' : List Nat} (h : ∀ v, v ∈ versions ↔ v ∈ versions') :
    versions.max? = versions'.max? := by
  cases hmax : versions.max? with
  | none =>
    have hnil := List.max?_eq_none_iff.mp hmax
    have hnil' : versions' = [] := by
      refine List.eq_nil_iff_forall_not_mem.mpr fun v hv => ?_
      have hmem := (h v).mpr hv
      rw [hnil] at hmem
      cases hmem
    rw [hnil', List.max?_nil]
  | some latest =>
    obtain ⟨hmem, hle⟩ := List.max?_eq_some_iff.mp hmax
    exact (List.max?_eq_some_iff.mpr
      ⟨(h latest).mp hmem, fun v hv => hle v ((h v).mpr hv)⟩).symm

theorem after_congr {versions versions' : List Nat} (h : ∀ v, v ∈ versions ↔ v ∈ versions') :
    after versions = after versions' := by
  rw [after, after, max?_congr h]

theorem max?_of_added {versions versions' : List Nat}
    (h : ∀ v, v ∈ versions' ↔ v ∈ versions ∨ v = after versions) :
    versions'.max? = some (after versions) := by
  refine List.max?_eq_some_iff.mpr ⟨(h _).mpr (Or.inr rfl), fun v hv => ?_⟩
  rcases (h v).mp hv with hold | rfl
  · exact Nat.le_of_lt (lt_after hold)
  · exact Nat.le_refl _

/-- Once there is a file of the number after the latest, the number goes up by one. -/
theorem after_of_added {versions versions' : List Nat}
    (h : ∀ v, v ∈ versions' ↔ v ∈ versions ∨ v = after versions) :
    after versions' = after versions + 1 := by
  rw [after, max?_of_added h, Option.getD_some]

/-! ### Versions in a directory -/

/-- The versions that have files at a place. -/
def versionsAt (t : Tree) (place : Location) : List Nat := (t.names place).filterMap versionOf?

variable {t t' : Tree} {path : Path} {place : Location}

theorem mem_versionsAt {v : Nat} :
    v ∈ versionsAt t place ↔ ∃ name e, t.at? (place ++ [name]) = some e ∧ versionOf? name = some v := by
  simp only [versionsAt, List.mem_filterMap, mem_names]
  constructor
  · rintro ⟨name, ⟨e, he⟩, hv⟩
    exact ⟨name, e, he, hv⟩
  · rintro ⟨name, e, he, hv⟩
    exact ⟨name, ⟨e, he⟩, hv⟩

/-- No file has the number after the latest. -/
theorem at?_after {name : Name} (h : versionOf? name = some (after (versionsAt t place))) :
    t.at? (place ++ [name]) = none := by
  cases hat : t.at? (place ++ [name]) with
  | none => rfl
  | some e => exact absurd (lt_after (mem_versionsAt.mpr ⟨name, e, hat, h⟩)) (Nat.lt_irrefl _)

theorem mem_versionsAt_congr (h : ∀ name v, versionOf? name = some v →
      ((t.at? (place ++ [name])).isSome ↔ (t'.at? (place ++ [name])).isSome)) (v : Nat) :
    v ∈ versionsAt t place ↔ v ∈ versionsAt t' place := by
  simp only [mem_versionsAt]
  constructor
  · rintro ⟨name, e, he, hv⟩
    obtain ⟨e', he'⟩ := Option.isSome_iff_exists.mp ((h name v hv).mp (by simp [he]))
    exact ⟨name, e', he', hv⟩
  · rintro ⟨name, e, he, hv⟩
    obtain ⟨e', he'⟩ := Option.isSome_iff_exists.mp ((h name v hv).mpr (by simp [he]))
    exact ⟨name, e', he', hv⟩

/-- The versions when a file of one more is there. -/
theorem mem_versionsAt_of_added {added : Name} {new : Nat} (hadded : versionOf? added = some new)
    (hthere : (t'.at? (place ++ [added])).isSome)
    (h : ∀ name, name ≠ added → ∀ v, versionOf? name = some v →
      t'.at? (place ++ [name]) = t.at? (place ++ [name])) (v : Nat)
    (hbefore : t.at? (place ++ [added]) = none) :
    v ∈ versionsAt t' place ↔ v ∈ versionsAt t place ∨ v = new := by
  simp only [mem_versionsAt]
  constructor
  · rintro ⟨name, e, he, hv⟩
    by_cases hname : name = added
    · subst hname
      rw [hadded] at hv
      exact Or.inr (Option.some.inj hv).symm
    · rw [h name hname v hv] at he
      exact Or.inl ⟨name, e, he, hv⟩
  · rintro (⟨name, e, he, hv⟩ | rfl)
    · have hname : name ≠ added := by
        rintro rfl
        rw [hbefore] at he
        cases he
      exact ⟨name, e, (h name hname v hv).trans he, hv⟩
    · obtain ⟨e, he⟩ := Option.isSome_iff_exists.mp hthere
      exact ⟨added, e, he, hadded⟩

/-! ### Versions that a store sees -/

theorem versionsIn_of_standing (h : t.Standing path place) :
    versionsIn t path = .ok (versionsAt t place) := by
  have hdir : t.isDirectory path = .ok true := isDirectory_eq_true.mpr ⟨place, h⟩
  simp [versionsIn, hdir, list_of_standing h, versionsAt, bind, Except.bind, pure, Except.pure]

theorem versionsIn_of_isDirectory_false (h : t.isDirectory path = .ok false) :
    versionsIn t path = .ok [] := by
  simp [versionsIn, h, bind, Except.bind, pure, Except.pure]

theorem versionsIn_eq_ok {versions : List Nat} (h : versionsIn t path = .ok versions) :
    (∃ place, t.Standing path place ∧ versions = versionsAt t place) ∨
      (¬ ∃ place, t.Standing path place) ∧ versions = [] := by
  cases hdir : t.isDirectory path with
  | error e => simp [versionsIn, hdir, bind, Except.bind] at h
  | ok b =>
    rcases isDirectory_eq_ok hdir with ⟨rfl, place, hstands⟩ | ⟨rfl, hnot⟩
    · rw [versionsIn_of_standing hstands] at h
      exact Or.inl ⟨place, hstands, (Except.ok.inj h).symm⟩
    · rw [versionsIn_of_isDirectory_false hdir] at h
      exact Or.inr ⟨hnot, (Except.ok.inj h).symm⟩

/-- Where no links are in the way, the versions are those at the place that the names spell. -/
theorem versionsIn_into {names : List Name} {versions : List Nat} (sound : t.Sound)
    (h : t.Standing path place) (clear : t.Clear place names)
    (hnames : ∀ n ∈ names, Name.IsPlain n)
    (hversions : versionsIn t (path.into names) = .ok versions) :
    versions = versionsAt t (place ++ names) := by
  by_cases hdir : t.at? (place ++ names) = some .directory
  · rw [versionsIn_of_standing (h.into sound clear hnames hdir)] at hversions
    exact (Except.ok.inj hversions).symm
  · have hnone : versionsAt t (place ++ names) = [] := by
      rw [versionsAt, sound.names_eq_nil hdir]
      rfl
    rcases versionsIn_eq_ok hversions with ⟨other, hstands, -⟩ | ⟨-, rfl⟩
    · have hfind := find_eq_ok.mpr ⟨other, hstands.leads, hstands.directory⟩
      exact absurd ((find_into sound h clear hnames).mp hfind) hdir
    · exact hnone.symm

theorem versionsIn_into_ok {names : List Name} (sound : t.Sound) (h : t.Standing path place)
    (clear : t.Clear place names) (hnames : ∀ n ∈ names, Name.CanStand n) :
    versionsIn t (path.into names) = .ok (versionsAt t (place ++ names)) := by
  have hplain : ∀ n ∈ names, Name.IsPlain n := fun n hn => (hnames n hn).plain
  obtain ⟨b, hb⟩ := isDirectory_of_not_long (h.not_long clear hnames)
  have hok : ∃ versions, versionsIn t (path.into names) = .ok versions := by
    rcases isDirectory_eq_ok hb with ⟨rfl, other, hstands⟩ | ⟨rfl, -⟩
    · exact ⟨_, versionsIn_of_standing hstands⟩
    · exact ⟨_, versionsIn_of_isDirectory_false hb⟩
  obtain ⟨versions, hversions⟩ := hok
  rw [hversions, versionsIn_into sound h clear hplain hversions]

theorem currentVersion_eq (t : Tree) (directory : Path) (page : List Char) :
    currentVersion t directory page = (versionsIn t (archive directory page)).map after := by
  rw [currentVersion, latestIn]
  cases versionsIn t (archive directory page) <;> rfl

theorem nextVersion_eq (t : Tree) (versions : Path) :
    nextVersion t versions = (versionsIn t versions).map after := by
  rw [nextVersion, latestIn]
  cases versionsIn t versions with
  | error e => rfl
  | ok found =>
    simp only [Except.map, after]
    cases found.max? <;> rfl

end Store

end WikiMigration
