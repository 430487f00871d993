/-
How directories are made with those they stand in.

The attempt to make a directory succeeds, or is refused, or has to wait until the directory that it
would stand in is made.  Whatever comes of it, only directories are new.  Where the path spells plain
names the directory that is made is a new place with nothing in it, and where no links are in its way
the new directories stand at the places that the names spell.
-/
import WikiMigration.Proofs.Files.Operation

namespace WikiMigration.Files.Tree

variable {t t' : Tree} {path : Path} {place : Location}

/-! ### Directories that are new -/

/-- Only directories are new, where nothing was. -/
def Grows (t t' : Tree) : Prop :=
  ∀ place, t'.at? place = t.at? place ∨ t.at? place = none ∧ t'.at? place = some .directory

theorem Grows.refl (t : Tree) : t.Grows t := fun _ => Or.inl rfl

theorem Grows.at?_some {entry : Entry} (h : t.Grows t') (hat : t.at? place = some entry) :
    t'.at? place = some entry := by
  rcases h place with h | ⟨h, -⟩
  · exact h.trans hat
  · rw [hat] at h
    cases h

theorem Grows.at?_none (h : t.Grows t') (hat : t'.at? place = none) : t.at? place = none := by
  rcases h place with h | ⟨h, -⟩
  · exact h ▸ hat
  · exact h

theorem Grows.at?_of_ne_directory {entry : Entry} (h : t.Grows t')
    (hat : t'.at? place = some entry) (hdir : entry ≠ .directory) : t.at? place = some entry := by
  rcases h place with h | ⟨-, h⟩
  · exact h ▸ hat
  · rw [hat] at h
    exact absurd (Option.some.inj h) hdir

theorem Grows.trans {t₁ t₂ t₃ : Tree} (h : t₁.Grows t₂) (h' : t₂.Grows t₃) : t₁.Grows t₃ := by
  intro place
  rcases h place with h₁ | ⟨h₁, h₂⟩
  · rw [← h₁]
    exact h' place
  · exact Or.inr ⟨h₁, h'.at?_some h₂⟩

theorem Grows.keeps (h : t.Grows t') : t.Keeps t' := fun _ _ hat _ => h.at?_some hat

theorem Grows.clear {names : List Name} (h : t.Grows t') (clear : t.Clear place names) :
    t'.Clear place names := fun way hway target hat =>
    clear way hway target (h.at?_of_ne_directory hat (by simp))

/-- Only directories are new, where nothing was, and they stand on the way to a place. -/
def GrowsTo (place : Location) (t t' : Tree) : Prop :=
  ∀ other, t'.at? other = t.at? other ∨
    t.at? other = none ∧ t'.at? other = some .directory ∧ other <+: place

theorem GrowsTo.refl (place : Location) (t : Tree) : GrowsTo place t t := fun _ => Or.inl rfl

theorem GrowsTo.grows (h : GrowsTo place t t') : t.Grows t' :=
  fun other => (h other).imp_right fun ⟨hnone, hdir, _⟩ => ⟨hnone, hdir⟩

theorem GrowsTo.further {further : Location} (h : GrowsTo place t t')
    (hfront : place <+: further) : GrowsTo further t t' :=
  fun other => (h other).imp_right fun ⟨hnone, hdir, hother⟩ => ⟨hnone, hdir, hother.trans hfront⟩

theorem GrowsTo.trans {t'' : Tree} (h : GrowsTo place t t') (h' : GrowsTo place t' t'') :
    GrowsTo place t t'' := by
  intro other
  rcases h other with h₁ | ⟨hnone, hdir, hother⟩
  · rw [← h₁]
    exact h' other
  · exact Or.inr ⟨hnone, h'.grows.at?_some hdir, hother⟩

theorem GrowsTo.put {name : Name} (hnone : t.at? (place ++ [name]) = none) :
    GrowsTo (place ++ [name]) t (t.put (place ++ [name]) .directory) := by
  intro other
  rw [at?_put_snoc]
  split
  next heq => exact Or.inr ⟨heq ▸ hnone, rfl, heq ▸ List.prefix_rfl⟩
  next => exact Or.inl rfl

/-! ### One directory -/

/-- A directory that is made is a new place, and nothing stands in it. -/
theorem makeDirectory_stands (sound : t.Sound) (h : t.makeDirectory path = .ok t') :
    ∃ place, t.at? place = none ∧ GrowsTo place t t' ∧ t'.Sound ∧ t'.Standing path place ∧
      ∀ name, t'.at? (place ++ [name]) = none := by
  obtain ⟨place, hplace, hnone, rfl⟩ := makeDirectory_eq_ok.mp h
  rcases locateSelf_ends sound hplace with hdir | ⟨directory, name, rfl, hhome, hname, -⟩
  · rw [hnone] at hdir
    cases hdir
  · have grows := GrowsTo.put hnone
    have hdir : (t.put (directory ++ [name]) .directory).at? (directory ++ [name]) =
        some .directory := by
      rw [at?_put_snoc, if_pos rfl]
    refine ⟨_, hnone, grows, sound.put hhome hname fun _ => rfl, ⟨?_, hdir⟩, fun other => ?_⟩
    · exact follow_of_keeps grows.grows.keeps (locate_of_locateSelf hplace (by simp [hnone]))
        (by simp [hdir])
    · rw [at?_put_snoc, if_neg (by simp), sound.at?_eq_none (by simp) (by simp [hnone])]

theorem makeDirectory_of_entry {spot : Location} {entry : Entry}
    (hself : t.locateSelf path = .ok spot) (hat : t.at? spot = some entry) :
    t.makeDirectory path = .error ⟨.alreadyThere, path, none⟩ := by
  simp [makeDirectory, hself, hat, about, bind, Except.bind, throw, throwThe, MonadExceptOf.throw]

theorem makeDirectory_of_standing (h : t.Standing path place) :
    t.makeDirectory path = .error ⟨.alreadyThere, path, none⟩ := by
  obtain ⟨spot, entry, hself, hat⟩ := h.locateSelf
  exact makeDirectory_of_entry hself hat

theorem not_standing_of_missing {e : FileError} (fails : t.makeDirectory path = .error e)
    (missing : e.fault = .missing) : ¬ ∃ place, t.Standing path place := by
  rintro ⟨place, stands⟩
  rw [makeDirectory_of_standing stands] at fails
  obtain rfl := Except.error.inj fails
  cases missing

theorem unlessDirectory_ends (t : Tree) (path : Path) (e : FileError) :
    (t.unlessDirectory path e = (none, t) ∧ ∃ place, t.Standing path place) ∨
      (∃ e', t.unlessDirectory path e = (some e', t)) ∧ ¬ ∃ place, t.Standing path place := by
  rw [unlessDirectory]
  cases hdir : t.isDirectory path with
  | error e' =>
    refine Or.inr ⟨⟨e', rfl⟩, fun hstands => ?_⟩
    rw [isDirectory_eq_true.mpr hstands] at hdir
    cases hdir
  | ok b =>
    rcases isDirectory_eq_ok hdir with ⟨rfl, hstands⟩ | ⟨rfl, hnot⟩
    · exact Or.inl ⟨rfl, hstands⟩
    · exact Or.inr ⟨⟨e, rfl⟩, hnot⟩

/-! ### Attempts -/

/-- A path is the root, or a name behind its parent. -/
theorem parent_cases (path : Path) :
    (path.names = [] ∧ parent path = path) ∨
      ∃ base name, path = Path.child base name ∧ parent path = base := by
  obtain ⟨doubled, names⟩ := path
  rcases Location.eq_nil_or_snoc names with rfl | ⟨names, name, rfl⟩
  · exact Or.inl ⟨rfl, rfl⟩
  · exact Or.inr ⟨⟨doubled, names⟩, name, rfl, by simp [parent]⟩

/-- How the attempt to make a directory with those it stands in may end. -/
inductive Attempts : Tree → Path → Option FileError × Tree → Prop
  | made {t t' : Tree} {path : Path} (makes : t.makeDirectory path = .ok t') :
      Attempts t path (none, t')
  /-- It is there, or something else is. -/
  | refused {t : Tree} {path : Path} {e : FileError} (fails : t.makeDirectory path = .error e) :
      Attempts t path (t.unlessDirectory path e)
  /-- What it would stand in is missing and is not made. -/
  | lost {t : Tree} {path : Path} {e : FileError} (fails : t.makeDirectory path = .error e)
      (missing : e.fault = .missing) : Attempts t path (some e, t)
  /-- What it would stand in cannot be made. -/
  | stuck {t t₁ : Tree} {path : Path} {e e' : FileError}
      (fails : t.makeDirectory path = .error e) (missing : e.fault = .missing)
      (before : Attempts t (parent path) (some e', t₁)) : Attempts t path (some e', t₁)
  /-- What it stands in is made first. -/
  | behind {t t₁ : Tree} {path : Path} {e : FileError} {result : Option FileError × Tree}
      (fails : t.makeDirectory path = .error e) (missing : e.fault = .missing)
      (before : Attempts t (parent path) (none, t₁)) (again : Attempts t₁ path result) :
      Attempts t path result

theorem makeDirectoriesTo_attempts (depth : Nat) (t : Tree) (path : Path) :
    Attempts t path (makeDirectoriesTo depth t path) := by
  induction depth generalizing path with
  | zero =>
    rw [makeDirectoriesTo]
    cases hmake : t.makeDirectory path with
    | ok t₁ => exact .made hmake
    | error e =>
      dsimp only
      split
      next hmissing => exact .lost hmake (beq_iff_eq.mp hmissing)
      next => exact .refused hmake
  | succ depth ih =>
    rw [makeDirectoriesTo]
    cases hmake : t.makeDirectory path with
    | ok t₁ => exact .made hmake
    | error e =>
      dsimp only
      split
      next hmissing =>
        have before := ih (parent path)
        split
        next e' t₁ hbefore => exact .stuck hmake (beq_iff_eq.mp hmissing) (hbefore ▸ before)
        next t₁ hbefore =>
          refine .behind hmake (beq_iff_eq.mp hmissing) (hbefore ▸ before) ?_
          cases hagain : t₁.makeDirectory path with
          | ok t₂ => exact .made hagain
          | error e' =>
            dsimp only
            split
            next hmissing' => exact .lost hagain (beq_iff_eq.mp hmissing')
            next => exact .refused hagain
      next => exact .refused hmake

theorem makeDirectories_attempts (t : Tree) (path : Path) :
    Attempts t path (t.makeDirectories path) := makeDirectoriesTo_attempts _ t path

variable {result : Option FileError × Tree}

/-- Whatever comes of it, only directories are new. -/
theorem Attempts.grows (h : Attempts t path result) (sound : t.Sound) :
    t.Grows result.2 ∧ result.2.Sound := by
  induction h with
  | made makes =>
    obtain ⟨place, -, grows, sound', -⟩ := makeDirectory_stands sound makes
    exact ⟨grows.grows, sound'⟩
  | @refused t path e fails =>
    rcases unlessDirectory_ends t path e with ⟨h, -⟩ | ⟨⟨e', h⟩, -⟩
    · rw [h]
      exact ⟨.refl t, sound⟩
    · rw [h]
      exact ⟨.refl t, sound⟩
  | lost fails missing => exact ⟨.refl _, sound⟩
  | stuck fails missing before ih => exact ih sound
  | behind fails missing before again ih ih' =>
    obtain ⟨grows, sound₁⟩ := ih sound
    obtain ⟨grows', sound'⟩ := ih' sound₁
    exact ⟨grows.trans grows', sound'⟩

theorem grows_of_makeDirectories {fault : Option FileError} (sound : t.Sound)
    (h : t.makeDirectories path = (fault, t')) : t.Grows t' ∧ t'.Sound := by
  have grows := (t.makeDirectories_attempts path).grows sound
  rwa [h] at grows

theorem Attempts.standing (h : Attempts t path result) (hdone : result.1 = none)
    (sound : t.Sound) : ∃ place, result.2.Standing path place := by
  induction h with
  | made makes =>
    obtain ⟨place, -, -, -, stands, -⟩ := makeDirectory_stands sound makes
    exact ⟨place, stands⟩
  | @refused t path e fails =>
    rcases unlessDirectory_ends t path e with ⟨h, stands⟩ | ⟨⟨e', h⟩, -⟩
    · rw [h]
      exact stands
    · rw [h] at hdone
      cases hdone
  | lost | stuck => cases hdone
  | behind fails missing before again ih ih' => exact ih' hdone (before.grows sound).2

/-- A directory that is there already is left as it is. -/
theorem Attempts.eq_of_standing (h : Attempts t path result) (stands : t.Standing path place) :
    result = (none, t) := by
  cases h with
  | made makes =>
    rw [makeDirectory_of_standing stands] at makes
    cases makes
  | @refused _ _ e fails =>
    rcases unlessDirectory_ends t path e with ⟨h, -⟩ | ⟨-, hnot⟩
    · exact h
    · exact absurd ⟨place, stands⟩ hnot
  | lost fails missing | stuck fails missing | behind fails missing =>
    exact absurd ⟨place, stands⟩ (not_standing_of_missing fails missing)

theorem makeDirectories_of_standing (h : t.Standing path place) :
    t.makeDirectories path = (none, t) := (t.makeDirectories_attempts path).eq_of_standing h

/-- Where a directory cannot be made, the path leads to none. -/
theorem Attempts.not_standing {e : FileError} (h : Attempts t path result)
    (hfault : result.1 = some e) (sound : t.Sound) :
    ¬ ∃ place, result.2.Standing path place := by
  induction h with
  | made makes => cases hfault
  | @refused t path e fails =>
    rcases unlessDirectory_ends t path e with ⟨h, -⟩ | ⟨⟨e', h⟩, hnot⟩
    · rw [h] at hfault
      cases hfault
    · rw [h]
      exact hnot
  | lost fails missing => exact not_standing_of_missing fails missing
  | @stuck t t₁ path e e' fails missing before ih =>
    rintro ⟨place, stands⟩
    rcases parent_cases path with ⟨-, hsame⟩ | ⟨base, name, rfl, hbase⟩
    · exact ih hfault sound ⟨place, hsame.symm ▸ stands⟩
    · obtain ⟨home, hhome⟩ := standing_of_locate_child (before.grows sound).2 stands.leads
      exact ih hfault sound ⟨home, hbase.symm ▸ hhome⟩
  | behind fails missing before again ih ih' => exact ih' hfault (before.grows sound).2

/-! ### New places -/

/-- The path leads to a directory in the later of two trees.  If they differ, the directory is new and
nothing stands in it. -/
def StandsNew (t t' : Tree) (path : Path) : Prop :=
  ∃ place, t'.Standing path place ∧
    (t' = t ∨ t.at? place = none ∧ ∀ name, t'.at? (place ++ [name]) = none)

/-- Where there is no link, a name behind a directory leads to no other place. -/
theorem Standing.eq_child {name : Name} {spot : Location} (h : t.Standing path place)
    (hname : Name.IsPlain name) (hlink : ∀ target, t.at? (place ++ [name]) ≠ some (.link target))
    (h' : t.Standing (path.child name) spot) : spot = place ++ [name] := by
  cases hlong : isTooLong name with
  | true =>
    have hlocate : t.locate (path.child name) = .error .nameTooLong :=
      h.follow_long hname hlong true []
    have hleads := h'.leads
    rw [hlocate] at hleads
    cases hleads
  | false =>
    have hleads := h'.leads
    rw [h.locate_child ⟨hname, hlong⟩ hlink] at hleads
    exact (Except.ok.inj hleads).symm

/-- What is missing for a directory is not the one that its path begins with. -/
theorem names_of_missing {base : Path} {names : List Name} {e : FileError}
    (stands : t.Standing base place) (fails : t.makeDirectory (base.into names) = .error e)
    (missing : e.fault = .missing) :
    ∃ names' name, names = names' ++ [name] ∧ parent (base.into names) = base.into names' := by
  rcases Location.eq_nil_or_snoc names with rfl | ⟨names', name, rfl⟩
  · rw [Path.into_nil] at fails
    exact absurd ⟨place, stands⟩ (not_standing_of_missing fails missing)
  · exact ⟨names', name, rfl, by simp [parent, Path.into, ← List.append_assoc]⟩

/-- A directory that is made behind one that stands is a new place, and nothing stands in it; if the
path led to one before, nothing is made. -/
theorem Attempts.standsNew {base : Path} {names : List Name} (h : Attempts t path result)
    (hdone : result.1 = none) (hpath : path = base.into names) (sound : t.Sound)
    (stands : t.Standing base place) (hnames : ∀ n ∈ names, Name.IsPlain n) :
    StandsNew t result.2 path := by
  induction h generalizing names with
  | made makes =>
    obtain ⟨made, hnone, -, -, stands', hempty⟩ := makeDirectory_stands sound makes
    exact ⟨made, stands', Or.inr ⟨hnone, hempty⟩⟩
  | @refused t path e fails =>
    rcases unlessDirectory_ends t path e with ⟨h, made, stands'⟩ | ⟨⟨e', h⟩, -⟩
    · rw [h]
      exact ⟨made, stands', Or.inl rfl⟩
    · rw [h] at hdone
      cases hdone
  | lost | stuck => cases hdone
  | @behind t t₁ path e result fails missing before again ih ih' =>
    obtain ⟨grows, sound₁⟩ := before.grows sound
    obtain ⟨made, stands', hplace⟩ :=
      ih' hdone hpath sound₁ (stands.of_keeps grows.keeps) hnames
    refine ⟨made, stands', ?_⟩
    rcases hplace with hsame | ⟨hnone, hempty⟩
    · -- The directory was there once the one before it was, so that one was there from the start.
      subst hpath
      obtain ⟨names', name, rfl, hparent⟩ := names_of_missing stands fails missing
      have hnames' : ∀ n ∈ names', Name.IsPlain n := fun n hn => hnames n (by simp [hn])
      obtain ⟨home, hhome, hnew⟩ := ih rfl hparent sound stands hnames'
      rw [hsame] at stands' ⊢
      refine hnew.imp_right fun ⟨hnone, hempty⟩ => ?_
      rw [hparent] at hhome
      rw [← Path.into_child] at stands'
      have hplace := hhome.eq_child (hnames name (by simp)) (by simp [hempty name]) stands'
      have hdir := stands'.directory
      rw [hplace, hempty name] at hdir
      cases hdir
    · exact Or.inr ⟨grows.at?_none hnone, hempty⟩

/-- In a directory that stands, a directory is refused a name that something can have only if the name is
taken. -/
theorem makeDirectory_child_fails {name : Name} {e : FileError} (stands : t.Standing path place)
    (hname : Name.CanStand name) (fails : t.makeDirectory (path.child name) = .error e) :
    e.fault ≠ .missing ∧ t.at? (place ++ [name]) ≠ none := by
  have hself := stands.locateSelf_child hname
  cases hat : t.at? (place ++ [name]) with
  | none =>
    rw [makeDirectory_eq_ok.mpr ⟨_, hself, hat, rfl⟩] at fails
    cases fails
  | some entry =>
    rw [makeDirectory_of_entry hself hat] at fails
    obtain rfl := Except.error.inj fails
    exact ⟨by simp, by simp⟩

/-- **All of the directories are made or none of them**, if every name on the way is one that something
can have. -/
theorem Attempts.eq_of_failed {base : Path} {names : List Name} {e : FileError}
    (h : Attempts t path result) (hfault : result.1 = some e) (hpath : path = base.into names)
    (sound : t.Sound) (stands : t.Standing base place) (hnames : ∀ n ∈ names, Name.CanStand n) :
    result.2 = t := by
  induction h generalizing names with
  | made makes => cases hfault
  | @refused t path e fails =>
    rcases unlessDirectory_ends t path e with ⟨h, -⟩ | ⟨⟨e', h⟩, -⟩ <;> rw [h]
  | lost => rfl
  | stuck fails missing before ih =>
    obtain ⟨names', name, rfl, hparent⟩ := names_of_missing stands (hpath ▸ fails) missing
    exact ih hfault (hpath ▸ hparent) sound stands fun n hn => hnames n (by simp [hn])
  | @behind t t₁ path e' result fails missing before again ih ih' =>
    obtain ⟨names', name, rfl, hparent⟩ := names_of_missing stands (hpath ▸ fails) missing
    rw [← Path.into_child] at hpath hparent
    subst hpath
    obtain ⟨home, hhome, hnew⟩ := before.standsNew rfl hparent sound stands
      fun n hn => (hnames n (by simp [hn])).plain
    rw [hparent] at hhome
    have hname := hnames name (by simp)
    rcases hnew with rfl | ⟨-, hempty⟩
    · -- What it would stand in is there from the start, so it is not missing.
      exact absurd missing (makeDirectory_child_fails hhome hname fails).1
    · -- What it stands in is new, so nothing has its name.
      cases again with
      | made makes => cases hfault
      | refused fails' | lost fails' | stuck fails' | behind fails' =>
        exact absurd (hempty name) (makeDirectory_child_fails hhome hname fails').2

/-! ### Where no links are in the way -/

theorem Standing.eq_into {names : List Name} {spot : Location} (h : t.Standing path place)
    (sound : t.Sound) (clear : t.Clear place names) (hnames : ∀ n ∈ names, Name.IsPlain n)
    (h' : t.Standing (path.into names) spot) : spot = place ++ names := by
  have hdir := (find_into sound h clear hnames).mp (find_eq_ok.mpr ⟨spot, h'.leads, h'.directory⟩)
  exact h'.unique (h.into sound clear hnames hdir)

/-- **Directories are made where the path spells them.**  Where no links are in the way, the new
directories stand on the way to the place that the names spell, and if there was no fault the path
leads to a directory there. -/
theorem Attempts.into {base : Path} {names : List Name} (h : Attempts t path result)
    (hpath : path = base.into names) (sound : t.Sound) (stands : t.Standing base place)
    (clear : t.Clear place names) (hnames : ∀ n ∈ names, Name.IsPlain n) :
    GrowsTo (place ++ names) t result.2 ∧
      (result.1 = none → result.2.Standing path (place ++ names)) := by
  induction h generalizing names with
  | made makes =>
    obtain ⟨made, -, grows, sound', stands', -⟩ := makeDirectory_stands sound makes
    have hmade : made = place ++ names :=
      (stands.of_keeps grows.grows.keeps).eq_into sound' (grows.grows.clear clear) hnames
        (hpath ▸ stands')
    exact ⟨hmade ▸ grows, fun _ => hmade ▸ stands'⟩
  | @refused t path e fails =>
    rcases unlessDirectory_ends t path e with ⟨h, spot, stands'⟩ | ⟨⟨e', h⟩, -⟩
    · rw [h]
      refine ⟨.refl _ _, fun _ => ?_⟩
      rw [← stands.eq_into sound clear hnames (hpath ▸ stands')]
      exact stands'
    · rw [h]
      exact ⟨.refl _ _, fun h => by cases h⟩
  | lost => exact ⟨.refl _ _, fun h => by cases h⟩
  | @stuck t t₁ path e e' fails missing before ih =>
    obtain ⟨names', name, rfl, hparent⟩ := names_of_missing stands (hpath ▸ fails) missing
    obtain ⟨grows, -⟩ := ih (hpath ▸ hparent) sound stands
      (clear.front (List.prefix_append _ _)) fun n hn => hnames n (by simp [hn])
    refine ⟨grows.further ?_, fun h => by cases h⟩
    rw [← List.append_assoc]
    exact List.prefix_append _ _
  | @behind t t₁ path e result fails missing before again ih ih' =>
    obtain ⟨names', name, rfl, hparent⟩ := names_of_missing stands (hpath ▸ fails) missing
    obtain ⟨grows, -⟩ := ih (hpath ▸ hparent) sound stands
      (clear.front (List.prefix_append _ _)) fun n hn => hnames n (by simp [hn])
    obtain ⟨grows', stands'⟩ := ih' hpath (before.grows sound).2 (stands.of_keeps grows.grows.keeps)
      (grows.grows.clear clear) hnames
    refine ⟨GrowsTo.trans (grows.further ?_) grows', stands'⟩
    rw [← List.append_assoc]
    exact List.prefix_append _ _

/-! ### Directories that may have to be made -/

/-- The path leads to a directory at the place, or will once the directory is made: its names lead
to a directory, and the rest of them begins where nothing stands. -/
structure Leads (t : Tree) (path : Path) (place : Location) : Prop where
  through : ∃ known start names, path = Path.into known names ∧ place = start ++ names ∧
    t.Standing known start ∧ (∀ n ∈ names, Name.IsPlain n) ∧
    ∀ name rest, names = name :: rest → t.at? (start ++ [name]) = none

theorem Standing.toLeads (h : t.Standing path place) : t.Leads path place :=
  ⟨path, place, [], by simp, by simp, h, by simp, by simp⟩

theorem clear_of_none {start : Location} {names : List Name} (sound : t.Sound)
    (hdir : t.at? start = some .directory)
    (h : ∀ name rest, names = name :: rest → t.at? (start ++ [name]) = none) :
    t.Clear start names := by
  intro way hway target
  cases way with
  | nil =>
    rw [List.append_nil, hdir]
    simp
  | cons name rest =>
    obtain ⟨behind, rfl⟩ := hway
    have hnone := h name (rest ++ behind) rfl
    rw [List.append_cons]
    by_cases hrest : rest = []
    · simp [hrest, hnone]
    · rw [sound.at?_eq_none hrest (by simp [hnone])]
      simp

/-- What lies within the directory lies behind one that stands, and no links are in the way if none are
within it. -/
theorem Leads.beyond {names : List Name} (h : t.Leads path place) (sound : t.Sound)
    (clear : ∀ way, way ≠ [] → way <+: names → ∀ target, t.at? (place ++ way) ≠ some (.link target)) :
    ∃ known start before, path = Path.into known before ∧ place = start ++ before ∧
      t.Standing known start ∧ (∀ n ∈ before, Name.IsPlain n) ∧ t.Clear start (before ++ names) := by
  obtain ⟨known, start, before, rfl, rfl, stands, hbefore, hnone⟩ := h.through
  refine ⟨known, start, before, rfl, rfl, stands, hbefore, fun way hway => ?_⟩
  by_cases hfront : way <+: before
  · exact clear_of_none sound stands.directory hnone way hfront
  · have hbehind := (List.prefix_or_prefix_of_prefix hway (List.prefix_append _ _)).resolve_left hfront
    obtain ⟨within, rfl⟩ := hbehind
    rw [← List.append_assoc]
    refine clear within ?_ ((List.prefix_append_right_inj before).mp hway)
    rintro rfl
    exact hfront (by simp)

/-- What is made within the directory, where no links are in the way, is made where its path leads. -/
theorem Leads.makeDirectories_into {names : List Name} (h : t.Leads path place) (sound : t.Sound)
    (clear : ∀ way, way ≠ [] → way <+: names → ∀ target, t.at? (place ++ way) ≠ some (.link target))
    (hnames : ∀ n ∈ names, Name.IsPlain n) :
    GrowsTo (place ++ names) t (t.makeDirectories (path.into names)).2 ∧
      ((t.makeDirectories (path.into names)).1 = none →
        (t.makeDirectories (path.into names)).2.Standing (path.into names) (place ++ names)) := by
  obtain ⟨known, start, before, rfl, rfl, stands, hbefore, hclear⟩ := h.beyond sound clear
  rw [List.append_assoc]
  refine (t.makeDirectories_attempts _).into (Path.into_into known before names) sound stands hclear ?_
  intro n hn
  rcases List.mem_append.mp hn with hn | hn
  · exact hbefore n hn
  · exact hnames n hn

/-- A path into the directory is not too long if all names on the way can stand. -/
theorem Leads.not_long {names : List Name} (h : t.Leads path place) (sound : t.Sound)
    (free : t.LinkFree place) (hplace : ∀ n ∈ place, Name.CanStand n)
    (hnames : ∀ n ∈ names, Name.CanStand n) :
    t.locate (path.into names) ≠ .error .nameTooLong := by
  obtain ⟨known, start, before, rfl, rfl, stands, -, hclear⟩ :=
    h.beyond sound fun way _ (_ : way <+: names) => free way
  rw [Path.into_into]
  refine stands.not_long hclear fun n hn => ?_
  rcases List.mem_append.mp hn with hn | hn
  · exact hplace n (List.mem_append_right start hn)
  · exact hnames n hn

/-- The directory is made where its path leads. -/
theorem Leads.makeDirectories (h : t.Leads path place) (sound : t.Sound) :
    GrowsTo place t (t.makeDirectories path).2 ∧
      ((t.makeDirectories path).1 = none → (t.makeDirectories path).2.Standing path place) := by
  have hmade := h.makeDirectories_into sound
    (fun way hway hfront => absurd (List.prefix_nil.mp hfront) hway) (List.forall_mem_nil _)
  rwa [Path.into_nil, List.append_nil] at hmade

/-- Other directories may be made before. -/
theorem Leads.of_grows (h : t.Leads path place) (grows : t.Grows t') (sound : t.Sound)
    (sound' : t'.Sound) : t'.Leads path place := by
  obtain ⟨known, start, names, rfl, rfl, stands, hnames, hnone⟩ := h.through
  have stands' := stands.of_keeps grows.keeps
  clear h stands
  induction names generalizing known start with
  | nil => exact ⟨known, start, [], rfl, rfl, stands', by simp, by simp⟩
  | cons name rest ih =>
    have hfirst : t.at? (start ++ [name]) = none := hnone name rest rfl
    rcases grows (start ++ [name]) with hsame | ⟨-, hdir⟩
    · refine ⟨known, start, name :: rest, rfl, rfl, stands', hnames, ?_⟩
      rintro name' rest' heq
      obtain ⟨rfl, -⟩ := List.cons.inj heq
      exact hsame.trans hfirst
    · rw [Path.into_cons, List.append_cons]
      refine ih (known.child name) (start ++ [name]) (fun n hn => hnames n (by simp [hn])) ?_
        (stands'.child (sound'.named _ _ _ hdir) hdir)
      intro name' rest' _
      exact sound.at?_eq_none (by simp) (by simp [hfirst])

/-- Where a path leads is one place. -/
theorem Leads.eq_of_standing {other : Location} (h : t.Leads path place)
    (stands : t.Standing path other) : place = other := by
  obtain ⟨known, start, names, rfl, rfl, stands', hnames, hnone⟩ := h.through
  cases names with
  | nil =>
    rw [Path.into_nil] at stands
    rw [List.append_nil]
    exact stands'.unique stands
  | cons name rest =>
    have hfirst : t.at? (start ++ [name]) = none := hnone name rest rfl
    have hplain : Name.IsPlain name := hnames name (by simp)
    have hleads : t.follow true mostLinks [] (known.into (name :: rest)).names = .ok other :=
      stands.leads
    cases hlong : isTooLong name with
    | true =>
      rw [stands'.follow_long hplain hlong true rest] at hleads
      cases hleads
    | false =>
      by_cases hrest : rest = []
      · subst hrest
        have hlocate := stands'.locate_child ⟨hplain, hlong⟩ (by simp [hfirst])
        rw [← Except.ok.inj (hlocate.symm.trans stands.leads)] at stands
        have hdir := stands.directory
        rw [hfirst] at hdir
        cases hdir
      · obtain ⟨fault, hfault, -⟩ := stands'.follow_beyond ⟨hplain, hlong⟩ (by simp [hfirst])
          (by simp [hfirst]) hrest true
        rw [hfault] at hleads
        cases hleads

/-- Once there is a directory at the place, the path leads to it. -/
theorem Leads.standing_of_keeps (h : t.Leads path place) (keeps : t.Keeps t') (sound' : t'.Sound)
    (hdir : t'.at? place = some .directory) : t'.Standing path place := by
  obtain ⟨known, start, names, rfl, rfl, stands, hnames, -⟩ := h.through
  refine (stands.of_keeps keeps).into sound' (fun way hway target => ?_) hnames hdir
  obtain ⟨rest, rfl⟩ := hway
  rw [← List.append_assoc] at hdir
  by_cases hrest : rest = []
  · rw [hrest, List.append_nil] at hdir
    simp [hdir]
  · simp [sound'.directory_of_behind hrest hdir]

/-- Where there is a directory already, the path leads to it. -/
theorem Leads.standing (h : t.Leads path place) (sound : t.Sound)
    (hdir : t.at? place = some .directory) : t.Standing path place :=
  h.standing_of_keeps (.refl t) sound hdir

end WikiMigration.Files.Tree
