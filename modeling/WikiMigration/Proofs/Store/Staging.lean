/-
Files that are staged before they take their places.

A file is written under a name of its own and put in its place when it is whole.  Wherever that is
broken off, all that stood before still stands as it was, and if it comes to its end the file holds all
its bytes.  What is done between the writing and the replacing is left open here: it may add files of
its own sort, and nothing else.
-/
import WikiMigration.Proofs.Store.Change
import WikiMigration.Proofs.Store.Version

namespace WikiMigration.Store

open Files Files.Tree

variable {t t₁ t' : Tree}

/-! ### What is added to a tree -/

/-- All that stood still stands; what is new is a directory, or a file of the given sort. -/
structure Adds (sort : Location → Bytes → Prop) (t t' : Tree) : Prop where
  kept : ∀ place e, t.at? place = some e → t'.at? place = some e
  added : ∀ place e, t.at? place = none → t'.at? place = some e →
    e = .directory ∨ ∃ bytes, e = .file bytes ∧ sort place bytes

variable {sort : Location → Bytes → Prop}

theorem Adds.refl (sort : Location → Bytes → Prop) (t : Tree) : Adds sort t t :=
  ⟨fun _ _ h => h, fun place e hnone he => by rw [hnone] at he; cases he⟩

theorem Adds.trans (h : Adds sort t t₁) (h' : Adds sort t₁ t') : Adds sort t t' := by
  refine ⟨fun place e he => h'.kept place e (h.kept place e he), fun place e hnone he => ?_⟩
  cases hmid : t₁.at? place with
  | none => exact h'.added place e hmid he
  | some e' =>
    have hsame := h'.kept place e' hmid
    rw [he] at hsame
    obtain rfl := Option.some.inj hsame
    exact h.added place e hnone hmid

theorem Adds.mono {sort' : Location → Bytes → Prop} (h : Adds sort t t')
    (hsort : ∀ place bytes, t'.at? place = some (.file bytes) → sort place bytes →
      sort' place bytes) : Adds sort' t t' := by
  refine ⟨h.kept, fun place e hnone he => ?_⟩
  rcases h.added place e hnone he with hdir | ⟨bytes, rfl, hbytes⟩
  · exact Or.inl hdir
  · exact Or.inr ⟨bytes, rfl, hsort place bytes he hbytes⟩

theorem Adds.keeps (h : Adds sort t t') : t.Keeps t' := fun place e he _ => h.kept place e he

theorem Adds.of_grows (h : t.Grows t') : Adds sort t t' := by
  refine ⟨fun place e he => h.at?_some he, fun place e hnone he => Or.inl ?_⟩
  rcases h place with hsame | ⟨-, hdir⟩
  · rw [hsame, hnone] at he
    cases he
  · rw [hdir] at he
    exact (Option.some.inj he).symm

theorem Adds.of_put {path : Path} {place : Location} (h : IsFilePlace t path place)
    (hnone : t.at? place = none) {bytes : Bytes} (hsort : sort place bytes) :
    Adds sort t (t.put place (.file bytes)) := by
  refine ⟨fun other e he => ?_, fun other e hother he => ?_⟩
  · rw [h.at?_put, if_neg]
    · exact he
    · rintro rfl
      rw [hnone] at he
      cases he
  · rw [h.at?_put] at he
    split at he
    next heq =>
      subst heq
      exact Or.inr ⟨bytes, (Option.some.inj he).symm, hsort⟩
    next =>
      rw [hother] at he
      cases he

theorem Adds.at?_link (h : Adds sort t t') {place : Location} {target : List Char}
    (hat : t'.at? place = some (.link target)) : t.at? place = some (.link target) := by
  cases hbefore : t.at? place with
  | none => rcases h.added _ _ hbefore hat with hdir | ⟨held, hfile, -⟩ <;> contradiction
  | some entry => rw [← hat, h.kept _ _ hbefore]

/-- What a path led to it leads to still. -/
theorem Adds.locate (h : Adds sort t t') {path : Path}
    {spot : Location} {entry : Entry} (hend : t.locate path = .ok spot)
    (hat : t.at? spot = some entry) : t'.locate path = .ok spot := by
  have hat' := h.kept _ _ hat
  refine follow_of_keeps h.keeps hend fun target hlink => ?_
  rw [hat'] at hlink
  rw [hat, hlink]

theorem Adds.find (h : Adds sort t t') {path : Path}
    {entry : Entry} (hfind : t.find path = .ok entry) : t'.find path = .ok entry := by
  obtain ⟨spot, hend, hat⟩ := find_eq_ok.mp hfind
  exact find_eq_ok.mpr ⟨spot, h.locate hend hat, h.kept _ _ hat⟩

/-- What is read where something was before is what stood there. -/
theorem Adds.read_back (h : Adds sort t t') {path : Path}
    {entry : Entry} {held : Bytes} (hfind : t.find path = .ok entry)
    (hread : t'.read path = .ok held) :
    ∃ spot, t.locate path = .ok spot ∧ t'.locate path = .ok spot ∧
      t.at? spot = some (.file held) := by
  obtain ⟨spot, hend, hat⟩ := find_eq_ok.mp hfind
  obtain ⟨other, hother, hheld⟩ := read_eq_ok.mp hread
  have hend' := h.locate hend hat
  obtain rfl := Except.ok.inj (hend'.symm.trans hother)
  have hkept := h.kept _ _ hat
  rw [hheld] at hkept
  exact ⟨spot, hend, hend', hkept.symm ▸ hat⟩

/-- What could be read still can be. -/
theorem Adds.read (h : Adds sort t t') {path : Path} {held : Bytes}
    (hread : t.read path = .ok held) : t'.read path = .ok held := by
  obtain ⟨spot, hend, hat⟩ := read_eq_ok.mp hread
  exact read_eq_ok.mpr ⟨spot, h.locate hend hat, h.kept _ _ hat⟩

/-! ### The staging file -/

/-- The steps that write a file next to the one that it is to become, and put it in its place. -/
def stagedSteps (directory : Path) (mark name : Name) (bytes : Bytes) (between : List FileStep) :
    List FileStep :=
  .makeDirectories directory :: (writing (stagingFile mark (directory.child name)) bytes
    ++ between ++ [.replace (stagingFile mark (directory.child name)) (directory.child name)])

/-- Once the directory is there, the name of the staging file is not taken in it, and no other name
leads there. -/
def IsFresh (t : Tree) (directory : Path) (mark name : Name) : Prop :=
  ∀ t₁ place, t.makeDirectories directory = (none, t₁) →
    t₁.locateSelf (stagingFile mark (directory.child name)) = .ok place →
    t₁.at? place = none ∧
      ∀ other, t₁.locate (directory.child other) = .ok place → other = stagingName mark name

theorem isPlain_stagingName (mark name : Name) : Name.IsPlain (stagingName mark name) := by
  rw [stagingName]
  exact isPlain_append (by decide)

/-- Where no links stand in the directory, it is enough that nothing has the name. -/
theorem isFresh_of_leads {directory : Path} {mark name : Name} {place : Location}
    (leads : t.Leads directory place) (sound : t.Sound)
    (hlink : ∀ other target, t.at? (place ++ [other]) ≠ some (.link target))
    (hnone : t.at? (place ++ [stagingName mark name]) = none) : IsFresh t directory mark name := by
  intro t₁ spot hmade hend
  obtain ⟨grows, hstands⟩ := leads.makeDirectories sound
  rw [hmade] at grows hstands
  have stands : t₁.Standing directory place := hstands rfl
  -- The directories that are made stand on the way to the directory, not in it.
  have hsame : ∀ other, t₁.at? (place ++ [other]) = t.at? (place ++ [other]) := by
    intro other
    rcases grows (place ++ [other]) with hsame | ⟨-, -, hfront⟩
    · exact hsame
    · have hlength := hfront.length_le
      rw [List.length_append] at hlength
      exact absurd hlength (by simp)
  rw [stagingFile_child] at hend
  obtain ⟨rfl, -⟩ := stands.eq_of_locateSelf_child (isPlain_stagingName mark name) hend
  refine ⟨(hsame _).trans hnone, fun other hother => ?_⟩
  exact stands.eq_of_locate_child (fun target => hsame other ▸ hlink other target) hother

/-- The directory of a file that is to be written is there, and its staging file is not. -/
structure Opened (t : Tree) (directory : Path) (mark name : Name) (place : Location) (t₁ : Tree) :
    Prop where
  made : t.makeDirectories directory = (none, t₁)
  sound : t₁.Sound
  grows : t.Grows t₁
  stands : t₁.Standing directory place
  free : t₁.at? (place ++ [stagingName mark name]) = none
  aside : ∀ other, t₁.locate (directory.child other) = .ok (place ++ [stagingName mark name]) →
    other = stagingName mark name

variable {directory : Path} {mark name : Name} {place : Location} {bytes : Bytes}

theorem opened_of_made (sound : t.Sound) (fresh : IsFresh t directory mark name)
    (h : t.makeDirectories directory = (none, t₁)) :
    ∃ place, Opened t directory mark name place t₁ := by
  obtain ⟨grows, sound₁⟩ := grows_of_makeDirectories sound h
  have attempts := t.makeDirectories_attempts directory
  rw [h] at attempts
  obtain ⟨place, stands⟩ := attempts.standing rfl sound
  cases hlong : isTooLong (stagingName mark name) with
  | true =>
    -- Nothing can have the name, so no path leads there.
    have hnone : t₁.at? (place ++ [stagingName mark name]) = none := sound₁.at?_long hlong
    refine ⟨place, h, sound₁, grows, stands, hnone, fun other hother => ?_⟩
    rcases locate_ends sound₁ hother with hdir | ⟨home, last, hplace, -, hlast, -⟩
    · rw [hnone] at hdir
      cases hdir
    · obtain rfl : stagingName mark name = last := by simpa using (List.append_inj' hplace rfl).2
      have hshort := hlast.short
      rw [hlong] at hshort
      cases hshort
  | false =>
    obtain ⟨hnone, haside⟩ := fresh t₁ (place ++ [stagingName mark name]) h (by
      rw [stagingFile_child]
      exact stands.locateSelf_child ⟨isPlain_stagingName mark name, hlong⟩)
    exact ⟨place, h, sound₁, grows, stands, hnone, haside⟩

/-- The staging file stands in the directory under its name. -/
theorem Opened.place_eq {spot : Location} (h : Opened t directory mark name place t₁)
    (hplace : IsFilePlace t₁ (stagingFile mark (directory.child name)) spot) :
    spot = place ++ [stagingName mark name] ∧ Name.CanStand (stagingName mark name) := by
  rw [stagingFile_child] at hplace
  exact hplace.eq_child h.stands (isPlain_stagingName mark name) (by simp [h.free])

/-- What stands once the staging file is written. -/
structure Filled (t : Tree) (directory : Path) (mark name : Name) (bytes : Bytes)
    (place : Location) (t₂ : Tree) : Prop where
  through : ∃ t₁, Opened t directory mark name place t₁ ∧
    IsFilePlace t₁ (stagingFile mark (directory.child name)) (place ++ [stagingName mark name]) ∧
    Name.CanStand (stagingName mark name) ∧
    t₂ = t₁.put (place ++ [stagingName mark name]) (.file bytes)

variable {t₂ : Tree}

theorem Filled.sound (h : Filled t directory mark name bytes place t₂) : t₂.Sound := by
  obtain ⟨t₁, -, hplace, -, rfl⟩ := h.through
  exact hplace.sound_put bytes

theorem Filled.adds (h : Filled t directory mark name bytes place t₂) :
    Adds (fun other held => other = place ++ [stagingName mark name] ∧ held = bytes) t t₂ := by
  obtain ⟨t₁, opened, hplace, -, rfl⟩ := h.through
  exact (Adds.of_grows opened.grows).trans (.of_put hplace opened.free ⟨rfl, rfl⟩)

theorem Filled.stands (h : Filled t directory mark name bytes place t₂) :
    t₂.Standing directory place := by
  obtain ⟨t₁, opened, hplace, -, rfl⟩ := h.through
  exact opened.stands.of_keeps (hplace.keeps_put bytes)

theorem Filled.locateSelf (h : Filled t directory mark name bytes place t₂) {t' : Tree}
    (keeps : t₂.Keeps t') :
    t'.locateSelf (stagingFile mark (directory.child name)) =
      .ok (place ++ [stagingName mark name]) := by
  obtain ⟨t₁, -, -, hstand, -⟩ := h.through
  rw [stagingFile_child]
  exact (h.stands.of_keeps keeps).locateSelf_child hstand

theorem Filled.at?_staged (h : Filled t directory mark name bytes place t₂) :
    t₂.at? (place ++ [stagingName mark name]) = some (.file bytes) := by
  obtain ⟨t₁, -, hplace, -, rfl⟩ := h.through
  exact hplace.at?_put_self bytes

/-- Beside the staging file, every name in the directory leads to what stood there before. -/
theorem Filled.at?_of_locate (h : Filled t directory mark name bytes place t₂) {other : Name}
    {spot : Location} {entry : Entry} (hother : other ≠ stagingName mark name)
    (hend : t₂.locate (directory.child other) = .ok spot) (hat : t₂.at? spot = some entry)
    (hfile : entry ≠ .directory) : t.at? spot = some entry := by
  obtain ⟨t₁, opened, hplace, -, rfl⟩ := h.through
  have hne : spot ≠ place ++ [stagingName mark name] := by
    rintro rfl
    exact hother (opened.aside other (hplace.locate_of_put opened.free hend))
  rw [hplace.at?_put, if_neg hne] at hat
  exact opened.grows.at?_of_ne_directory hat hfile

theorem filled_of_done (opened : Opened t directory mark name place t₁)
    (h : applySteps t₁ (writing (stagingFile mark (directory.child name)) bytes) = (none, t₂)) :
    Filled t directory mark name bytes place t₂ := by
  obtain ⟨spot, hplace, rfl⟩ := writing_done opened.sound h
  obtain ⟨rfl, hstand⟩ := opened.place_eq hplace
  exact ⟨t₁, opened, hplace, hstand, rfl⟩

/-- Where the writing of the staging file is broken off, it holds the beginning of its bytes or is not
there. -/
theorem filled_of_broken (opened : Opened t directory mark name place t₁)
    (h : Breaks (writing (stagingFile mark (directory.child name)) bytes) t₁ t₂) :
    t₂ = t₁ ∨ ∃ part, part <+: bytes ∧ Filled t directory mark name part place t₂ := by
  rcases writing_broken opened.sound h with rfl | ⟨spot, part, hplace, hpart, rfl⟩
  · exact Or.inl rfl
  · obtain ⟨rfl, hstand⟩ := opened.place_eq hplace
    exact Or.inr ⟨part, hpart, t₁, opened, hplace, hstand, rfl⟩

/-! ### Steps in between -/

/-- What is done between the writing and the replacing adds files of a sort, wherever it is broken
off.  The sort may depend on the tree that they stand in, but not on its files. -/
structure Between (t : Tree) (directory : Path) (mark name : Name) (bytes : Bytes)
    (between : List FileStep) (copy : Tree → Location → Bytes → Prop) : Prop where
  broken : ∀ {place t₂ t'}, Filled t directory mark name bytes place t₂ → Breaks between t₂ t' →
    t'.Sound ∧ Adds (copy t') t₂ t'
  done : ∀ {place t₂ t'}, Filled t directory mark name bytes place t₂ →
    applySteps t₂ between = (none, t') → t'.Sound ∧ Adds (copy t') t₂ t'
  stays : ∀ {t₁ t₂ place bytes}, t₁.Keeps t₂ → t₂.at? place = some (.file bytes) →
    copy t₁ place bytes → copy t₂ place bytes

variable {between : List FileStep} {copy : Tree → Location → Bytes → Prop}

/-- Nothing has to be done in between. -/
theorem between_nil (stays : ∀ {t₁ t₂ place bytes}, t₁.Keeps t₂ →
    t₂.at? place = some (.file bytes) → copy t₁ place bytes → copy t₂ place bytes) :
    Between t directory mark name bytes [] copy where
  broken := fun _ h => absurd h not_breaks_nil
  done := fun filled h => by
    obtain rfl : _ = _ := (Prod.mk.inj h).2
    exact ⟨filled.sound, .refl _ _⟩
  stays := stays

/-- No copies are made. -/
def noCopy (_ : Tree) (_ : Location) (_ : Bytes) : Prop := False

theorem between_nil_noCopy : Between t directory mark name bytes [] noCopy :=
  between_nil fun _ _ h => h

/-! ### Where it is broken off -/

/-- The steps behind the making of the directory. -/
def behindSteps (directory : Path) (mark name : Name) (bytes : Bytes) (between : List FileStep) :
    List FileStep :=
  writing (stagingFile mark (directory.child name)) bytes ++ between
    ++ [.replace (stagingFile mark (directory.child name)) (directory.child name)]

theorem stagedSteps_eq (directory : Path) (mark name : Name) (bytes : Bytes)
    (between : List FileStep) : stagedSteps directory mark name bytes between =
      [.makeDirectories directory] ++ behindSteps directory mark name bytes between := rfl

theorem making_broken (sound : t.Sound) (h : Breaks [.makeDirectories directory] t t') :
    t.Grows t' ∧ t'.Sound := by
  cases breaks_singleton h with
  | nothing => exact ⟨.refl t, sound⟩
  | @directories _ way => exact (t.makeDirectories_attempts way).grows sound

/-- Behind the making of the directory the staging file is not there, or holds the beginning of its
bytes, and copies may have been added. -/
theorem behind_broken (opened : Opened t directory mark name place t₁)
    (hbetween : Between t directory mark name bytes between copy)
    (h : Breaks (behindSteps directory mark name bytes between) t₁ t') :
    t' = t₁ ∨ ∃ part t₂, part <+: bytes ∧ Filled t directory mark name part place t₂ ∧
      t'.Sound ∧ Adds (copy t') t₂ t' ∧ (between = [] → t' = t₂) := by
  rcases breaks_append h with h | ⟨t₃, happly, hreplace⟩
  · rcases breaks_append h with h | ⟨t₂, happly, h⟩
    · rcases filled_of_broken opened h with rfl | ⟨part, hpart, filled⟩
      · exact Or.inl rfl
      · exact Or.inr ⟨part, t', hpart, filled, filled.sound, .refl _ _, fun _ => rfl⟩
    · have filled := filled_of_done opened happly
      obtain ⟨sound', adds⟩ := hbetween.broken filled h
      refine Or.inr ⟨bytes, t₂, List.prefix_rfl, filled, sound', adds, ?_⟩
      rintro rfl
      exact absurd h not_breaks_nil
  · obtain ⟨t₂, hwrite, happly⟩ := applySteps_append_eq.mp happly
    have filled := filled_of_done opened hwrite
    obtain ⟨sound₃, adds⟩ := hbetween.done filled happly
    cases breaks_singleton hreplace with
    | nothing =>
      refine Or.inr ⟨bytes, t₂, List.prefix_rfl, filled, sound₃, adds, ?_⟩
      rintro rfl
      exact (Prod.mk.inj happly).2.symm

/-- What is left where the writing of a file is broken off: all that stood stands, and only
directories, the staging file and copies are new. -/
structure Left (t : Tree) (staged : Path) (copy : Tree → Location → Bytes → Prop) (t' : Tree) :
    Prop where
  sound : t'.Sound
  adds : Adds (fun place bytes => t'.locateSelf staged = .ok place ∨ copy t' place bytes) t t'

theorem Filled.left (h : Filled t directory mark name bytes place t₂) (sound' : t'.Sound)
    (adds : Adds (copy t') t₂ t') :
    Left t (stagingFile mark (directory.child name)) copy t' := by
  refine ⟨sound', Adds.trans ?_ (adds.mono fun _ _ _ hcopy => Or.inr hcopy)⟩
  refine h.adds.mono fun other held _ hsame => Or.inl ?_
  rw [h.locateSelf adds.keeps, hsame.1]

/-- **Wherever the writing of a file stops, all that stood stands.** -/
theorem staged_left (sound : t.Sound) (fresh : IsFresh t directory mark name)
    (hbetween : Between t directory mark name bytes between copy)
    (h : Breaks (stagedSteps directory mark name bytes between) t t') :
    Left t (stagingFile mark (directory.child name)) copy t' := by
  rw [stagedSteps_eq] at h
  rcases breaks_append h with h | ⟨t₁, hmade, h⟩
  · obtain ⟨grows, sound'⟩ := making_broken sound h
    exact ⟨sound', .of_grows grows⟩
  · obtain ⟨place, opened⟩ := opened_of_made sound fresh (applySteps_singleton.mp hmade)
    rcases behind_broken opened hbetween h with rfl | ⟨part, t₂, -, filled, sound', adds, -⟩
    · exact ⟨opened.sound, .of_grows opened.grows⟩
    · exact filled.left sound' adds

/-- Where nothing has to be done in between, a name in the directory that is not the staging file's
leads to no file that did not stand there before. -/
theorem staged_reads (sound : t.Sound) (fresh : IsFresh t directory mark name)
    (h : Breaks (stagedSteps directory mark name bytes []) t t') {other : Name} {spot : Location}
    {held : Bytes} (hother : other ≠ stagingName mark name)
    (hend : t'.locate (directory.child other) = .ok spot)
    (hat : t'.at? spot = some (.file held)) : t.at? spot = some (.file held) := by
  rw [stagedSteps_eq] at h
  rcases breaks_append h with h | ⟨t₁, hmade, h⟩
  · exact (making_broken sound h).1.at?_of_ne_directory hat (by simp)
  · obtain ⟨place, opened⟩ := opened_of_made sound fresh (applySteps_singleton.mp hmade)
    rcases behind_broken opened between_nil_noCopy h with rfl | ⟨part, t₂, -, filled, -, -, hsame⟩
    · exact opened.grows.at?_of_ne_directory hat (by simp)
    · obtain rfl := hsame rfl
      exact filled.at?_of_locate hother hend hat (by simp)

/-! ### What is cleaned up -/

/-- What is left when a failed step has been cleaned up after: no staging file is new. -/
structure Cleaned (t : Tree) (staged : Path) (copy : Tree → Location → Bytes → Prop) (t' : Tree) :
    Prop where
  sound : t'.Sound
  adds : Adds (copy t') t t'
  gone : ∀ place, t'.locateSelf staged = .ok place → t'.at? place = none

theorem discard_of_free {staged : Path}
    (h : ∀ place, t.locateSelf staged = .ok place → t.at? place = none) : discard t staged = t := by
  rw [discard]
  split
  next t₂ hremove =>
    obtain ⟨place, entry, hplace, hentry, -⟩ := remove_eq_ok.mp hremove
    rw [h place hplace] at hentry
    cases hentry
  next => rfl

/-- Where the staging file is not there, there is nothing to clean up. -/
theorem Opened.gone {spot : Location} (h : Opened t directory mark name place t₁)
    (hend : t₁.locateSelf (stagingFile mark (directory.child name)) = .ok spot) :
    t₁.at? spot = none := by
  rw [stagingFile_child] at hend
  obtain ⟨rfl, -⟩ := h.stands.eq_of_locateSelf_child (isPlain_stagingName mark name) hend
  exact h.free

theorem Opened.discard_eq (h : Opened t directory mark name place t₁) :
    discard t₁ (stagingFile mark (directory.child name)) = t₁ := discard_of_free fun _ => h.gone

theorem Opened.cleaned (h : Opened t directory mark name place t₁) :
    Cleaned t (stagingFile mark (directory.child name)) copy
      (discard t₁ (stagingFile mark (directory.child name))) := by
  rw [h.discard_eq]
  exact ⟨h.sound, .of_grows h.grows, fun _ => h.gone⟩

/-- Without a file, nothing else changes. -/
theorem at?_cut_file {held : Bytes} (sound : t.Sound) {directory : Location} {name : Name}
    (h : t.at? (directory ++ [name]) = some (.file held)) (other : Location) :
    (t.cut (directory ++ [name])).at? other =
      if other = directory ++ [name] then none else t.at? other := by
  rw [at?_cut _ (by simp)]
  by_cases heq : other = directory ++ [name]
  · rw [if_pos heq, if_pos (heq ▸ List.prefix_rfl)]
  · rw [if_neg heq]
    split
    next hwithin =>
      obtain ⟨rest, rfl⟩ := hwithin
      have hrest : rest ≠ [] := by
        rintro rfl
        exact heq (List.append_nil _)
      exact (sound.at?_eq_none hrest (by simp [h])).symm
    next => rfl

theorem Filled.discard_eq (h : Filled t directory mark name bytes place t₂) (adds : Adds sort t₂ t') :
    discard t' (stagingFile mark (directory.child name)) =
      t'.cut (place ++ [stagingName mark name]) := by
  have hremove := remove_eq_ok.mpr
    ⟨_, _, h.locateSelf adds.keeps, adds.kept _ _ h.at?_staged, by simp, rfl⟩
  rw [discard, hremove]

/-- Without the staging file, what is new is what was new behind it. -/
theorem Filled.growsTo {spot : Location} (h : Filled t directory mark name bytes place t₂)
    (hmade : t.makeDirectories directory = (none, t₁)) (sound' : t'.Sound) (growsTo : GrowsTo spot t₂ t') :
    GrowsTo spot t₁ (discard t' (stagingFile mark (directory.child name))) := by
  have adds : Adds (fun _ _ => False) t₂ t' := .of_grows growsTo.grows
  have hcut := at?_cut_file sound' (adds.kept _ _ h.at?_staged)
  rw [h.discard_eq adds]
  obtain ⟨t₁', opened, hplace, -, rfl⟩ := h.through
  obtain rfl : t₁ = t₁' := (Prod.mk.inj (hmade.symm.trans opened.made)).2
  intro other
  rw [hcut]
  split
  next heq => exact Or.inl (heq ▸ opened.free.symm)
  next hne =>
    have hother := growsTo other
    rwa [hplace.at?_put, if_neg hne] at hother

theorem Filled.cleaned (h : Filled t directory mark name bytes place t₂) (sound' : t'.Sound)
    (adds : Adds (copy t') t₂ t')
    (stays : ∀ {t₁ t₂ place bytes}, t₁.Keeps t₂ → t₂.at? place = some (.file bytes) →
      copy t₁ place bytes → copy t₂ place bytes) :
    Cleaned t (stagingFile mark (directory.child name)) copy
      (discard t' (stagingFile mark (directory.child name))) := by
  have hat := adds.kept _ _ h.at?_staged
  have hdiscard := h.discard_eq adds
  have hcut := at?_cut_file sound' hat
  have hbefore : t.at? (place ++ [stagingName mark name]) = none := by
    obtain ⟨t₁, opened, -⟩ := h.through
    exact opened.grows.at?_none opened.free
  have keeps : t'.Keeps (t'.cut (place ++ [stagingName mark name])) := by
    intro other entry he hfile
    rw [hcut, if_neg]
    · exact he
    · rintro rfl
      rw [hat] at he
      exact hfile bytes (Option.some.inj he).symm
  rw [hdiscard]
  refine ⟨sound'.cut (by simp), ⟨fun other e he => ?_, fun other e hnone he => ?_⟩, ?_⟩
  · rw [hcut, if_neg]
    · exact adds.kept _ _ (h.adds.kept _ _ he)
    · rintro rfl
      rw [hbefore] at he
      cases he
  · have hother : other ≠ place ++ [stagingName mark name] := by
      rintro rfl
      rw [hcut, if_pos rfl] at he
      cases he
    have he' := he
    rw [hcut, if_neg hother] at he'
    cases hmid : t₂.at? other with
    | none =>
      rcases adds.added other e hmid he' with hdir | ⟨held, rfl, hcopy⟩
      · exact Or.inl hdir
      · exact Or.inr ⟨held, rfl, stays keeps he hcopy⟩
    | some e' =>
      have hsame := adds.kept _ _ hmid
      rw [he'] at hsame
      obtain rfl := Option.some.inj hsame
      rcases h.adds.added other e hnone hmid with hdir | ⟨held, rfl, hplace, -⟩
      · exact Or.inl hdir
      · exact absurd hplace hother
  · intro spot hend
    rw [h.locateSelf (adds.keeps.trans keeps)] at hend
    rw [← Except.ok.inj hend, hcut, if_pos rfl]

/-- **A failed step is cleaned up after.**  Once the directory is there, the staging file is removed,
wherever the steps are broken off. -/
theorem staged_cleaned (sound : t.Sound) (fresh : IsFresh t directory mark name)
    (hbetween : Between t directory mark name bytes between copy)
    (hmade : t.makeDirectories directory = (none, t₁))
    (h : Breaks (behindSteps directory mark name bytes between) t₁ t') :
    Cleaned t (stagingFile mark (directory.child name)) copy
      (discard t' (stagingFile mark (directory.child name))) := by
  obtain ⟨place, opened⟩ := opened_of_made sound fresh hmade
  rcases behind_broken opened hbetween h with rfl | ⟨part, t₂, -, filled, sound', adds, -⟩
  · exact opened.cleaned
  · exact filled.cleaned sound' adds hbetween.stays

/-- Where the directory cannot be made, no staging file is there to be removed. -/
theorem making_cleaned (sound : t.Sound) {e : FileError}
    (h : t.makeDirectories directory = (some e, t')) :
    discard t' (stagingFile mark (directory.child name)) = t' ∧
      Cleaned t (stagingFile mark (directory.child name)) copy t' := by
  have attempts := t.makeDirectories_attempts directory
  rw [h] at attempts
  obtain ⟨grows, sound'⟩ := attempts.grows sound
  have hfree : ∀ place,
      t'.locateSelf (stagingFile mark (directory.child name)) = .ok place →
      t'.at? place = none := by
    intro place hplace
    rw [stagingFile_child] at hplace
    exact absurd (standing_of_locateSelf_child sound' hplace) (attempts.not_standing rfl sound)
  exact ⟨discard_of_free hfree, sound', .of_grows grows, hfree⟩

/-- **A fault is cleaned up after**, whichever of the steps it ends. -/
theorem staged_failed (sound : t.Sound) (fresh : IsFresh t directory mark name)
    (hbetween : Between t directory mark name bytes between copy) {e : FileError}
    (h : applySteps t (stagedSteps directory mark name bytes between) = (some e, t')) :
    Cleaned t (stagingFile mark (directory.child name)) copy
      (discard t' (stagingFile mark (directory.child name))) := by
  rw [stagedSteps, applySteps, FileStep.apply] at h
  split at h
  next t₁ hmade => exact staged_cleaned sound fresh hbetween hmade (breaks_of_fault h)
  next e' t₁ hmade =>
    obtain rfl : t₁ = t' := (Prod.mk.inj h).2
    obtain ⟨hsame, cleaned⟩ := making_cleaned sound hmade
    rwa [hsame]

/-! ### What is done -/

/-- The staging file has taken its place. -/
structure Replaced (t₃ : Tree) (place : Location) (mark name : Name) (bytes : Bytes) (t' : Tree) :
    Prop where
  at? : ∀ other, t'.at? other =
    if other = place ++ [name] then some (.file bytes)
    else if other = place ++ [stagingName mark name] then none else t₃.at? other
  notDirectory : t₃.at? (place ++ [name]) ≠ some .directory
  sound : t'.Sound

/-- Where it does not take the place of a link, directories and links stay. -/
theorem Replaced.keeps {t₃ : Tree} {held : Bytes} (h : Replaced t₃ place mark name bytes t')
    (hlink : ∀ target, t₃.at? (place ++ [name]) ≠ some (.link target))
    (hstaged : t₃.at? (place ++ [stagingName mark name]) = some (.file held)) : t₃.Keeps t' := by
  intro other entry hat hfile
  rw [h.at?]
  split
  next hplace =>
    subst hplace
    cases entry with
    | file held => exact absurd rfl (hfile held)
    | directory => exact absurd hat h.notDirectory
    | link target => exact absurd hat (hlink target)
  next =>
    split
    next hplace =>
      rw [hplace, hstaged] at hat
      exact absurd (Option.some.inj hat).symm (hfile held)
    next => exact hat

theorem stagingName_ne (mark name : Name) : stagingName mark name ≠ name := by
  intro h
  have hlength := congrArg List.length h
  simp [stagingName] at hlength
  omega

theorem Filled.replaced {t₃ : Tree} (h : Filled t directory mark name bytes place t₂)
    (hname : Name.IsPlain name) (sound₃ : t₃.Sound) (adds : Adds sort t₂ t₃)
    (hreplace : t₃.replace (stagingFile mark (directory.child name)) (directory.child name) =
      .ok t') :
    Replaced t₃ place mark name bytes t' := by
  obtain ⟨here, entry, there, hhere, hentry, hthere, hend⟩ := replace_eq_ok.mp hreplace
  obtain rfl : place ++ [stagingName mark name] = here :=
    Except.ok.inj ((h.locateSelf adds.keeps).symm.trans hhere)
  obtain rfl : .file bytes = entry :=
    Option.some.inj ((adds.kept _ _ h.at?_staged).symm.trans hentry)
  have stands := h.stands.of_keeps adds.keeps
  obtain ⟨rfl, hstand⟩ := stands.eq_of_locateSelf_child hname hthere
  have hcut := at?_cut_file sound₃ hentry
  rcases hend with ⟨hsame, -⟩ | ⟨-, hdir, rfl⟩
  · exact absurd (by simpa using hsame) (stagingName_ne mark name)
  · refine ⟨fun other => ?_, hdir, ?_⟩
    · rw [at?_put_snoc, hcut]
    · refine (sound₃.cut (by simp)).put ?_ hstand fun hthere => ?_
      · rw [hcut, if_neg]
        · exact stands.directory
        · intro heq
          have hlength := congrArg List.length heq
          simp at hlength
      · rw [hcut] at hthere
        split at hthere
        · cases hthere
        · exact absurd hthere hdir

/-- **A file that is put in its place holds all its bytes.** -/
theorem staged_done (sound : t.Sound) (hname : Name.IsPlain name)
    (fresh : IsFresh t directory mark name)
    (hbetween : Between t directory mark name bytes between copy)
    (h : applySteps t (stagedSteps directory mark name bytes between) = (none, t')) :
    ∃ place t₁ t₂ t₃, Opened t directory mark name place t₁ ∧
      Filled t directory mark name bytes place t₂ ∧
      applySteps t₂ between = (none, t₃) ∧ Replaced t₃ place mark name bytes t' := by
  rw [stagedSteps_eq, applySteps_append_eq] at h
  obtain ⟨t₁, hmade, h⟩ := h
  obtain ⟨place, opened⟩ := opened_of_made sound fresh (applySteps_singleton.mp hmade)
  rw [behindSteps, applySteps_append_eq] at h
  obtain ⟨t₃, h, hreplace⟩ := h
  obtain ⟨t₂, hwrite, happly⟩ := applySteps_append_eq.mp h
  have filled := filled_of_done opened hwrite
  obtain ⟨sound₃, adds⟩ := hbetween.done filled happly
  rw [applySteps_singleton, FileStep.apply, ended_eq_none] at hreplace
  exact ⟨place, t₁, t₂, t₃, opened, filled, happly,
    filled.replaced hname sound₃ adds hreplace⟩

end WikiMigration.Store
