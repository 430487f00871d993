/-
How far the storing of a page or of an attachment reaches.

Two facts are needed of every change that a store makes, however it ends.

  * Nothing but files is taken away or replaced, and no link is made.  So what led somewhere before leads
    there afterwards.
  * What is new or different stands on the way to a few names within the directory of the pages, and
    those belong to the page.  So one page is no concern of another, nor of anything outside.
-/
import WikiMigration.Proofs.Files.Sight
import WikiMigration.Proofs.Store.Separation
import WikiMigration.Proofs.Store.Saving
import WikiMigration.Proofs.Store.Wholeness

namespace WikiMigration.Store

open Text Files Files.Tree Action

variable {t t₁ t₂ t' : Tree} {path directory : Path} {home place there : Location}

/-! ### What is kept -/

/-- Nothing but files has gone or become something else, and no link is new. -/
structure Moves (t t' : Tree) : Prop where
  sound : t'.Sound
  keeps : t.Keeps t'
  unlinked : ∀ place target, t'.at? place = some (.link target) → t.at? place = some (.link target)

theorem Moves.refl (sound : t.Sound) : Moves t t := ⟨sound, .refl t, fun _ _ h => h⟩

theorem Moves.trans (h : Moves t t₁) (h' : Moves t₁ t') : Moves t t' :=
  ⟨h'.sound, h.keeps.trans h'.keeps, fun _ _ hat => h.unlinked _ _ (h'.unlinked _ _ hat)⟩

theorem Moves.free (h : Moves t t') (free : t.LinkFree place) : t'.LinkFree place :=
  fun rest target hat => free rest target (h.unlinked _ _ hat)

theorem Moves.of_grows (h : t.Grows t') (sound : t'.Sound) : Moves t t' :=
  ⟨sound, h.keeps, fun _ _ hat => h.at?_of_ne_directory hat (by simp)⟩

/-- It is enough that whatever is not as before was a file or nothing, and is no link. -/
theorem Moves.of_places (sound : t'.Sound) (h : ∀ place, t'.at? place = t.at? place ∨
      (∀ entry, t.at? place = some entry → ∃ bytes, entry = .file bytes) ∧
        ∀ target, t'.at? place ≠ some (.link target)) : Moves t t' := by
  refine ⟨sound, fun place entry hat hfile => ?_, fun place target hat => ?_⟩
  · rcases h place with hsame | ⟨hbefore, -⟩
    · rw [hsame, hat]
    · obtain ⟨bytes, rfl⟩ := hbefore entry hat
      exact absurd rfl (hfile bytes)
  · rcases h place with hsame | ⟨-, hafter⟩
    · rw [← hsame, hat]
    · exact absurd hat (hafter target)

theorem IsFilePlace.moves (h : IsFilePlace t path place) (bytes : Bytes) :
    Moves t (t.put place (.file bytes)) := by
  refine ⟨h.sound_put bytes, h.keeps_put bytes, fun other target hat => ?_⟩
  rw [h.at?_put] at hat
  split at hat
  · cases hat
  · exact hat

/-- The change reaches only what stands on the way to the names in the directory at a place. -/
def Confined (place : Location) (touched : List Name → Prop) (t t' : Tree) : Prop :=
  ∀ other, (∀ all, touched all → ¬ other <+: place ++ all) → t'.at? other = t.at? other

variable {touched touched' : List Name → Prop}

theorem Confined.trans (h : Confined place touched t t₁) (h' : Confined place touched t₁ t') :
    Confined place touched t t' :=
  fun other hother => (h' other hother).trans (h other hother)

/-! ### Steps -/

/-- The step makes or fills what has one of the names in the directory, or stands on the way to it;
or it only looks. -/
inductive FileStep.Under (directory : Path) (touched : List Name → Prop) : FileStep → Prop
  | makeDirectories {names all : List Name} (htouched : touched all) (hfront : names <+: all) :
      Under directory touched (.makeDirectories (directory.into names))
  | openToRead (path : Path) : Under directory touched (.openToRead path)
  | create {names : List Name} (htouched : touched names) :
      Under directory touched (.create (directory.into names))
  | append {names : List Name} {piece : Bytes} (htouched : touched names) :
      Under directory touched (.append (directory.into names) piece)

theorem put_reaches {names : List Name} {spot : Location} (sound : t.Sound)
    (stands : t.Standing directory place) (free : t.LinkFree place)
    (plain : ∀ n ∈ names, Name.IsPlain n) (htouched : touched names)
    (hend : t.locate (directory.into names) = .ok spot) (hfile : t.at? spot ≠ some .directory)
    (bytes : Bytes) : Moves t (t.put spot (.file bytes)) ∧
      Confined place touched t (t.put spot (.file bytes)) := by
  obtain rfl := stands.locate_straight free plain hend
  have hplace : IsFilePlace t _ (place ++ names) := ⟨hend, hfile, sound⟩
  refine ⟨hplace.moves bytes, fun other hother => ?_⟩
  rw [hplace.at?_put, if_neg]
  rintro rfl
  exact hother names htouched List.prefix_rfl

/-- **A step reaches only what it is under.** -/
theorem FileStep.Under.reaches {step : FileStep} (h : step.Under directory touched) (sound : t.Sound)
    (stands : t.Standing directory place) (free : t.LinkFree place)
    (plain : ∀ all, touched all → ∀ n ∈ all, Name.IsPlain n) :
    Moves t (step.apply t).2 ∧ Confined place touched t (step.apply t).2 := by
  have same : Moves t t ∧ Confined place touched t t := ⟨.refl sound, fun _ _ => rfl⟩
  cases h with
  | @makeDirectories names all htouched hfront =>
    have attempts := t.makeDirectories_attempts (directory.into names)
    have plain' : ∀ n ∈ names, Name.IsPlain n := fun n hn => plain all htouched n (hfront.subset hn)
    obtain ⟨growsTo, -⟩ := attempts.into rfl sound stands (free.clear _) plain'
    obtain ⟨grows, sound'⟩ := attempts.grows sound
    refine ⟨.of_grows grows sound', fun other hother => ?_⟩
    refine (growsTo other).resolve_right fun hnew => hother all htouched ?_
    exact hnew.2.2.trans ((List.prefix_append_right_inj place).mpr hfront)
  | openToRead path =>
    rw [FileStep.apply]
    cases t.read path <;> exact same
  | @create names htouched =>
    rw [FileStep.apply]
    cases hwrite : t.write (directory.into names) [] with
    | error e => exact same
    | ok t' =>
      obtain ⟨spot, hend, hfile, rfl⟩ := write_eq_ok.mp hwrite
      exact put_reaches sound stands free (plain names htouched) htouched hend hfile _
  | @append names piece htouched =>
    rw [FileStep.apply]
    cases happend : t.append (directory.into names) piece with
    | error e => exact same
    | ok t' =>
      obtain ⟨spot, hend, hfile, rfl⟩ := append_eq_ok.mp happend
      exact put_reaches sound stands free (plain names htouched) htouched hend hfile _

/-- No file of the mark is staged within the directory. -/
def Unstaged (mark : Name) (place : Location) (t : Tree) : Prop :=
  ∀ names name, t.at? (place ++ (names ++ [stagingName mark name])) = none

/-- No names. -/
abbrev Nowhere : List Name → Prop := fun _ => False

/-- How a tree changes where something is stored in a directory, `there`, that has nothing to do with
another one, `home`. -/
structure Changes (home there : Location) (mark : Name) (touched replaced : List Name → Prop)
    (t t' : Tree) : Prop where
  moves : Moves t t'
  source : ∀ place, home <+: place → t'.at? place = t.at? place
  /-- What is not on the way to a touched name is as before. -/
  target : ∀ names, names ≠ [] → (∀ all, touched all → ¬ names <+: all) →
    t'.at? (there ++ names) = t.at? (there ++ names)
  /-- Files that are not replaced keep their bytes. -/
  kept : ∀ names bytes, names ≠ [] → ¬ replaced names → t.at? (there ++ names) = some (.file bytes) →
    t'.at? (there ++ names) = some (.file bytes)
  unstaged : Unstaged mark there t → Unstaged mark there t'

variable {mark : Name} {replaced replaced' : List Name → Prop} {page text : List Char}

namespace Changes

theorem trans (h : Changes home there mark touched replaced t t₁)
    (h' : Changes home there mark touched replaced t₁ t') :
    Changes home there mark touched replaced t t' where
  moves := h.moves.trans h'.moves
  source place hplace := (h'.source place hplace).trans (h.source place hplace)
  target names hnames hnot := (h'.target names hnames hnot).trans (h.target names hnames hnot)
  kept names bytes hnames hnot hat := h'.kept names bytes hnames hnot (h.kept names bytes hnames hnot hat)
  unstaged hfree := h'.unstaged (h.unstaged hfree)

theorem mono (h : Changes home there mark touched replaced t t')
    (htouched : ∀ all, touched all → ∃ more, touched' more ∧ all <+: more)
    (hreplaced : ∀ names, replaced names → replaced' names) :
    Changes home there mark touched' replaced' t t' where
  moves := h.moves
  source := h.source
  target _ hnames hnot := h.target _ hnames fun all hall hfront => by
    obtain ⟨more, hmore, hbehind⟩ := htouched all hall
    exact hnot more hmore (hfront.trans hbehind)
  kept names bytes hnames hnot := h.kept names bytes hnames fun hrep => hnot (hreplaced names hrep)
  unstaged := h.unstaged

/-- What happens outside both directories is no change. -/
theorem of_aside (moves : Moves t t')
    (h : ∀ place, (home <+: place ∨ ∃ names, names ≠ [] ∧ place = there ++ names) →
      t'.at? place = t.at? place) : Changes home there mark Nowhere Nowhere t t' where
  moves := moves
  source place hplace := h place (Or.inl hplace)
  target names hnames _ := h _ (Or.inr ⟨names, hnames, rfl⟩)
  kept _ _ hnames _ hat := (h _ (Or.inr ⟨_, hnames, rfl⟩)).trans hat
  unstaged hfree names name := (h _ (Or.inr ⟨_, by simp, rfl⟩)).trans (hfree names name)

theorem refl (sound : t.Sound) : Changes home there mark Nowhere Nowhere t t :=
  of_aside (.refl sound) fun _ _ => rfl

/-- What happens outside both directories may come before or behind any change. -/
theorem aside (h : Changes home there mark Nowhere Nowhere t t') :
    Changes home there mark touched replaced t t' := h.mono (fun _ hall => hall.elim) (fun _ hrep => hrep.elim)

theorem of_confined (moves : Moves t t') (confined : Confined there touched t t')
    (apart : ¬ home <+: there ∧ ¬ there <+: home)
    (kept : ∀ names bytes, names ≠ [] → ¬ replaced names →
      t.at? (there ++ names) = some (.file bytes) → t'.at? (there ++ names) = some (.file bytes))
    (unstaged : Unstaged mark there t → Unstaged mark there t') :
    Changes home there mark touched replaced t t' where
  moves := moves
  source place hplace := confined place fun all _ hfront =>
    (List.prefix_or_prefix_of_prefix (hplace.trans hfront) (List.prefix_append there all)).elim
      apart.1 apart.2
  target _ _ hnot := confined _ fun all hall hfront =>
    hnot all hall ((List.prefix_append_right_inj there).mp hfront)
  kept := kept
  unstaged := unstaged

end Changes

/-! ### Staging files -/

theorem not_isSafe_stagingName (mark name : Name) : ¬ IsSafe (stagingName mark name) :=
  fun h => h.notHidden _ rfl

/-- Where no links stand in the directory, a staging file within it is a fresh one if nothing has its
name. -/
theorem isFresh_within {names : List Name} {name : Name} (sound : t.Sound)
    (leads : t.Leads directory place) (free : t.LinkFree place) (plain : ∀ n ∈ names, Name.IsPlain n)
    (hnone : t.at? (place ++ names ++ [stagingName mark name]) = none) :
    IsFresh t (directory.into names) mark name := by
  intro t₁ spot hmade hend
  obtain ⟨growsTo, hstands⟩ := leads.makeDirectories_into sound (fun way _ _ => free way) plain
  rw [hmade] at growsTo hstands
  have stands := hstands rfl
  rw [stagingFile_child] at hend
  obtain ⟨rfl, -⟩ := stands.eq_of_locateSelf_child (isPlain_stagingName mark name) hend
  refine ⟨?_, fun other hother => ?_⟩
  · rw [at?_of_growsTo growsTo (by simp)]
    exact hnone
  · have free' := LinkFree.of_grows free growsTo.grows
    refine stands.eq_of_locate_child (fun target => ?_) hother
    rw [List.append_assoc]
    exact free' _ target

theorem Cleaned.at?_staged {name : Name} {copy : Tree → Location → Bytes → Prop}
    (h : Cleaned t (stagingFile mark (directory.child name)) copy t')
    (stands : t'.Standing directory place) : t'.at? (place ++ [stagingName mark name]) = none := by
  cases hat : t'.at? (place ++ [stagingName mark name]) with
  | none => rfl
  | some entry =>
    have hself := stands.locateSelf_child (h.sound.named _ _ _ hat)
    rw [← stagingFile_child] at hself
    rw [← hat, h.gone _ hself]

/-! ### Saving -/

/-- The names that the saving of a page makes or fills something under. -/
inductive SaveTouches (mark : Name) (extension : String) (page : List Char) : List Name → Prop
  | staged : SaveTouches mark extension page [stagingName mark (pageName extension page)]
  | current : SaveTouches mark extension page [pageName extension page]
  | copy (version : Nat) :
      SaveTouches mark extension page (archiveNames page ++ [archivedName extension version])

variable {dialect : Dialect} {store : FilePages} {bytes : Bytes} {w w' : World}

theorem SaveTouches.isPlain {all : List Name} (h : SaveTouches mark dialect.fileExtension page all) :
    ∀ n ∈ all, Name.IsPlain n := by
  cases h with
  | staged => simpa using isPlain_stagingName _ _
  | current => simpa using isPlain_pageName dialect page
  | copy version =>
    intro n hn
    rcases List.mem_append.mp hn with hn | hn
    · exact isPlain_archiveNames n hn
    · rw [List.mem_singleton.mp hn]
      exact isPlain_archivedName _ _

/-- The only staging file on the way is that of the page. -/
theorem SaveTouches.eq_staged {all names : List Name} {name : Name} (hpage : page ≠ [])
    (h : SaveTouches mark dialect.fileExtension page all)
    (hfront : names ++ [stagingName mark name] <+: all) :
    names ++ [stagingName mark name] = all ∧
      all = [stagingName mark (pageName dialect.fileExtension page)] := by
  have hmem : stagingName mark name ∈ all := hfront.subset (by simp)
  cases h with
  | staged => exact ⟨hfront.eq_of_length_le (by simp), rfl⟩
  | current =>
    rw [List.mem_singleton] at hmem
    exact absurd hmem.symm (pageName_ne_stagingName _ _ _ _)
  | copy version =>
    rcases List.mem_append.mp hmem with hmem | hmem
    · exact absurd (@Holding.isSafe_of_mem_names (.archive page) hpage _ hmem)
        (not_isSafe_stagingName _ _)
    · exact absurd (List.mem_singleton.mp hmem).symm (archivedName_ne_stagingName _ _ _ _)

/-- Each place is as it was before a page is saved, the page's own, that of the copy, or on the way to the
copy. -/
theorem Saved.places (h : Saved t directory dialect.fileExtension there page bytes t')
    (other : Location) :
    t'.at? other = t.at? other ∨ other = there ++ [pageName dialect.fileExtension page] ∨
      t.at? other = none ∧ (∀ target, t'.at? other ≠ some (.link target)) ∧
        ∃ version, other <+: there ++ (archiveNames page ++
          [archivedName dialect.fileExtension version]) := by
  by_cases hown : other = there ++ [pageName dialect.fileExtension page]
  · exact Or.inr (Or.inl hown)
  by_cases hcopy : t.at? (there ++ [pageName dialect.fileExtension page]) = none ∨
      other ≠ copyPlace there dialect.fileExtension page (versionAt t there page)
  · refine (h.rest other hown hcopy).imp_right fun hnew => Or.inr ⟨hnew.1, by simp [hnew.2.1], 0, ?_⟩
    rw [← List.append_assoc]
    exact hnew.2.2.trans (List.prefix_append _ _)
  · obtain ⟨hthere, rfl⟩ : t.at? (there ++ [pageName dialect.fileExtension page]) ≠ none ∧
        other = copyPlace there dialect.fileExtension page (versionAt t there page) := by
      simpa [not_or] using hcopy
    obtain ⟨entry, hentry⟩ := Option.ne_none_iff_exists'.mp hthere
    obtain ⟨old, rfl⟩ := h.before entry hentry
    obtain ⟨hbefore, hafter⟩ := h.copied old hentry
    exact Or.inr (Or.inr ⟨hbefore, by simp [hafter], versionAt t there page,
      by simp [copyPlace, archivePlace]⟩)

/-- **A page that is saved** has a new text and perhaps a copy of the old one; all else is as
before. -/
theorem Saved.changes (h : Saved t directory dialect.fileExtension there page bytes t')
    (hpage : page ≠ []) (apart : ¬ home <+: there ∧ ¬ there <+: home) :
    Changes home there mark (SaveTouches mark dialect.fileExtension page)
      (· = [pageName dialect.fileExtension page]) t t' := by
  refine .of_confined (.of_places h.sound fun other => ?_) (fun other hnot => ?_) apart
    (fun names held _ hnot hat => ?_) fun hfree names name => ?_
  · rcases h.places other with hsame | rfl | ⟨hbefore, hafter, -⟩
    · exact Or.inl hsame
    · exact Or.inr ⟨h.before, by simp [h.written]⟩
    · exact Or.inr ⟨by simp [hbefore], hafter⟩
  · refine (h.places other).resolve_right fun hnew => ?_
    rcases hnew with rfl | ⟨-, -, version, hfront⟩
    · exact hnot _ .current List.prefix_rfl
    · exact hnot _ (.copy version) hfront
  · rcases h.places (there ++ names) with hsame | hown | ⟨hbefore, -⟩
    · exact hsame.trans hat
    · exact absurd (List.append_cancel_left hown) hnot
    · rw [hbefore] at hat
      cases hat
  · rcases h.places (there ++ (names ++ [stagingName mark name])) with hsame | hown |
      ⟨-, -, version, hfront⟩
    · exact hsame.trans (hfree names name)
    · have hfront : names ++ [stagingName mark name] <+: [pageName dialect.fileExtension page] :=
        ⟨[], (List.append_nil _).trans (List.append_cancel_left hown)⟩
      obtain ⟨-, heq⟩ := SaveTouches.eq_staged hpage .current hfront
      exact absurd (List.singleton_inj.mp heq) (pageName_ne_stagingName _ _ _ _)
    · obtain ⟨-, heq⟩ := @SaveTouches.eq_staged mark _ dialect _ _ _ hpage
        (.copy version) ((List.prefix_append_right_inj there).mp hfront)
      have hmem : archivedName dialect.fileExtension version ∈
          [stagingName mark (pageName dialect.fileExtension page)] := heq ▸ by simp
      exact absurd (List.mem_singleton.mp hmem) (archivedName_ne_stagingName _ _ _ _)

end WikiMigration.Store
