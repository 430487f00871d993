/-
What the storing of an attachment leaves standing, whatever links there are.

A link may lead from one directory of versions into another one, or out of the pages altogether, so in a
tree with links it cannot be told beforehand where a version is stored.  But wherever that is, it takes
the place of nothing, and it is read back where it is looked for.  All that is asked of the tree is that
nothing in it has the name of a staging file: neither a place nor the target of a link.
-/
import WikiMigration.Proofs.Files.Making
import WikiMigration.Proofs.Store.Attached

namespace WikiMigration.Store

open Text Files Files.Tree Action

variable {t t₁ t' : Tree} {directory : Path} {place : Location} {mark name : Name}
variable {page file : List Char} {bytes : Bytes} {w w' : World}

/-! ### Names of staging files -/

/-- The name is not that of a file that is staged. -/
def IsOrdinary (mark name : Name) : Prop := ∀ base, name ≠ stagingName mark base

theorem IsSafe.isOrdinary (h : IsSafe name) (mark : Name) : IsOrdinary mark name := by
  rintro base rfl
  exact not_isSafe_stagingName _ _ h

/-- Nothing has the name of a staging file, and no link speaks of one. -/
abbrev Unmarked (mark : Name) (t : Tree) : Prop := t.Spells (IsOrdinary mark)

theorem Unmarked.at?_staged (h : Unmarked mark t) (place : Location) (base : Name) :
    t.at? (place ++ [stagingName mark base]) = none := by
  cases hat : t.at? (place ++ [stagingName mark base]) with
  | none => rfl
  | some entry => exact absurd rfl (h.places _ _ hat (stagingName mark base) (by simp) base)

/-- The names on the way to an attachment are safe, even if the page has no name. -/
theorem isSafe_attachment : ∀ n ∈ (Holding.attachment page file).names, IsSafe n := by
  intro n hn
  rw [Holding.names, List.mem_cons, List.mem_singleton] at hn
  rcases hn with rfl | rfl
  all_goals
    exact isSafe_mangle_append (by decide) (by decide)
      (Or.inr fun rest h => absurd (List.cons.inj h).1 (by decide))

theorem isOrdinary_versions (hdirectory : ∀ n ∈ directory.names, IsOrdinary mark n) :
    ∀ n ∈ (attachmentVersions directory page file).names, IsOrdinary mark n := by
  intro n hn
  rw [attachmentVersions_eq_into, Path.into] at hn
  rcases List.mem_append.mp hn with hn | hn
  · exact hdirectory n hn
  · exact (isSafe_attachment n hn).isOrdinary mark

/-- **Where no name is that of a staging file, every staging file is a fresh one**, whatever links there
are. -/
theorem isFresh_of_unmarked (sound : t.Sound) (unmarked : Unmarked mark t)
    (hdirectory : ∀ n ∈ directory.names, IsOrdinary mark n) : IsFresh t directory mark name := by
  intro t₁ spot hmade hend
  have attempts := t.makeDirectories_attempts directory
  have spells := attempts.spells unmarked sound hdirectory
  have hstands := attempts.standing
  rw [hmade] at spells hstands
  have unmarked₁ : Unmarked mark t₁ := spells
  obtain ⟨place, stands⟩ := hstands rfl sound
  rw [stagingFile_child] at hend
  obtain ⟨rfl, -⟩ := stands.eq_of_locateSelf_child (isPlain_stagingName mark name) hend
  refine ⟨unmarked₁.at?_staged place name, fun other hother => ?_⟩
  by_cases hordinary : IsOrdinary mark other
  · -- A path of ordinary names leads to a place of ordinary names.
    have hspelt := unmarked₁.locate (fun n hn => ?_) hother
    · exact absurd rfl (hspelt (stagingName mark name) (by simp) name)
    · rcases List.mem_append.mp hn with hn | hn
      · exact hdirectory n hn
      · exact List.mem_singleton.mp hn ▸ hordinary
  · obtain ⟨base, rfl⟩ : ∃ base, other = stagingName mark base := by simpa [IsOrdinary] using hordinary
    refine stands.eq_of_locate_child (fun target => ?_) hother
    rw [unmarked₁.at?_staged]
    simp

/-! ### What stays -/

/-- All that stood still stands. -/
def Stays (t t' : Tree) : Prop := ∀ place entry, t.at? place = some entry → t'.at? place = some entry

theorem Stays.refl (t : Tree) : Stays t t := fun _ _ h => h

theorem Stays.trans (h : Stays t t₁) (h' : Stays t₁ t') : Stays t t' :=
  fun place entry hat => h' place entry (h place entry hat)

theorem Stays.keeps (h : Stays t t') : t.Keeps t' := fun place entry hat _ => h place entry hat

/-- What could be opened as a version with a number can be opened as it still. -/
theorem Stays.opens {version : Nat} (h : Stays t t') (opens : Opens t directory page file version bytes) :
    Opens t' directory page file version bytes := by
  rw [opens_iff, read_eq_ok] at opens ⊢
  obtain ⟨place, hend, hat⟩ := opens
  have hat' := h place _ hat
  exact ⟨place, follow_of_keeps h.keeps hend (by simp [hat']), hat'⟩

variable {files : FileAttachments} {attachment : Attachment} {reader : StreamReader World}

/-- What is relied on when an attachment is stored: the tree is sound, and nothing in it or in the path of
the store has the name of a staging file. -/
structure Ready (files : FileAttachments) (t : Tree) : Prop where
  sound : t.Sound
  unmarked : Unmarked files.mark t
  way : ∀ n ∈ files.directory.names, IsOrdinary files.mark n

theorem Ready.isFresh (h : Ready files t) (attachment : Attachment) : files.IsFresh attachment t :=
  fun _ => isFresh_of_unmarked h.sound h.unmarked (isOrdinary_versions h.way)

/-- What is there once a version is stored. -/
structure Lodged (files : FileAttachments) (attachment : Attachment) (t : Tree) (version : Nat)
    (bytes : Bytes) (t' : Tree) : Prop where
  stays : Stays t t'
  ready : Ready files t'
  numbered : version ≠ 0
  /-- The version is read back where it is looked for. -/
  reads : t'.read ((files.versions attachment).child (versionName attachment.file version)) = .ok bytes

/-- **A version that is stored takes the place of nothing and is read back**, whatever links there are. -/
theorem lodged_of_put {stored : Option Int} (ready : Ready files w.tree) (quiet : LeavesTree reader)
    (h : (files.put attachment reader).Gives w (stored, bytes) w') :
    ∃ version : Nat, stored = some (version : Int) ∧
      Lodged files attachment w.tree version bytes w'.tree ∧
      ∃ t w₁, (reader none).Gives (w.setTree t) bytes w₁ := by
  obtain ⟨place, t₁, hstored, written, hreads⟩ :=
    written_of_put ready.sound (ready.isFresh attachment) quiet h
  have stays₁ : Stays t₁ w'.tree := by
    intro other entry hat
    rw [written.at?, if_neg]
    · exact hat
    · -- The name of the version is not taken where the directory stands.
      rintro rfl
      cases (at?_after (versionOf?_versionName _ _)).symm.trans hat
  have unmarked₁ : Unmarked files.mark t₁ := by
    have spells := (w.tree.makeDirectories_attempts (files.versions attachment)).spells ready.unmarked
      ready.sound (isOrdinary_versions ready.way)
    rwa [written.made] at spells
  have unmarked : Unmarked files.mark w'.tree := by
    have hspelt : ∀ n ∈ place ++ [versionName attachment.file (after (versionsAt t₁ place) : Nat)],
        IsOrdinary files.mark n := by
      intro n hn
      rcases List.mem_append.mp hn with hn | hn
      · exact unmarked₁.places _ _ written.stands.directory n hn
      · rw [List.mem_singleton.mp hn]
        exact fun base => versionName_ne_stagingName _ _ _ _
    refine unmarked₁.of_source hspelt fun other entry hat => ?_
    rw [written.at?] at hat
    split at hat
    next heq => exact Or.inl ⟨heq, Option.some.inj hat ▸ by simp⟩
    next => exact Or.inr hat
  have hnew : w'.tree.at? (place ++ [versionName attachment.file (after (versionsAt t₁ place) : Nat)]) =
      some (.file bytes) := by rw [written.at?, if_pos rfl]
  have stands := written.stands.of_keeps stays₁.keeps
  exact ⟨_, hstored, ⟨fun other entry hat => stays₁ other entry (written.grows.at?_some hat),
    ⟨written.sound, unmarked, ready.way⟩, by rw [after]; omega,
    read_eq_ok.mpr ⟨_, stands.locate_child (written.sound.named _ _ _ hnew) (by simp [hnew]), hnew⟩⟩, hreads⟩

/-- What cannot be stored takes the place of nothing either. -/
theorem stays_of_put_fails {e : Failure} (ready : Ready files w.tree) (quiet : LeavesTree reader)
    (h : (files.put attachment reader).Fails w e w') : Stays w.tree w'.tree ∧ w'.tree.Sound := by
  obtain ⟨version, cleaned⟩ := put_fails ready.sound quiet (ready.isFresh attachment) h
  exact ⟨cleaned.adds.kept, cleaned.sound⟩

/-- **Where the path of a store leads nowhere, nothing is stored in it**, and nothing changes. -/
theorem put_nowhere (ready : Ready files w.tree) (quiet : LeavesTree reader)
    (plain : ∀ n ∈ files.directory.names, Name.IsPlain n)
    (nowhere : ∀ place, ¬ w.tree.Leads files.directory place)
    (h : (files.put attachment reader).Leaves w w') :
    w'.tree = w.tree ∧ ∃ e, (files.put attachment reader).Fails w e w' := by
  have hnames : ∀ n ∈ (files.versions attachment).names, Name.IsPlain n := by
    intro n hn
    rw [versions_eq_into, Path.into] at hn
    exact (List.mem_append.mp hn).elim (plain n) (isPlain_attachment n)
  obtain ⟨fault, hmade⟩ : ∃ fault, w.tree.makeDirectories (files.versions attachment) =
      (some fault, w.tree) := by
    refine ((w.tree.makeDirectories_attempts (files.versions attachment)).leads ready.sound
      hnames).resolve_left ?_
    rintro ⟨place, leads⟩
    rw [versions_eq_into] at leads
    obtain ⟨directory, leads⟩ := leads.of_into ready.sound
    exact nowhere directory leads
  rcases gives_or_fails (files.put attachment reader) w with ⟨⟨stored, bytes⟩, w₁, gives⟩ | ⟨e, w₁, fails⟩
  · obtain ⟨version, -, -, happly, -⟩ := put_reads quiet gives
    rw [FileAttachments.steps, stagedSteps_eq, applySteps_append_eq] at happly
    obtain ⟨t₁, hdone, -⟩ := happly
    cases (applySteps_singleton.mp hdone).symm.trans hmade
  · obtain rfl := fails.leaves.symm.trans h
    rcases put_broken quiet fails with ⟨fault', hmade'⟩ | ⟨t₁, hmade', -⟩
    · exact ⟨(Prod.mk.inj (hmade'.symm.trans hmade)).2, e, fails⟩
    · cases hmade'.symm.trans hmade

/-! ### Where no links are in the way -/

/-- What is new where versions of some files of a page are stored. -/
inductive IsNew (there : Location) (page : List Char) (stored : List (List Char)) (spot : Location) :
    Entry → Prop
  | directory {file : List Char} (mem : file ∈ stored) (front : spot <+: versionsPlace there page file) :
      IsNew there page stored spot .directory
  | version {file : List Char} {version : Nat} {bytes : Bytes} (mem : file ∈ stored)
      (heq : spot = versionsPlace there page file ++ [versionName file version]) :
      IsNew there page stored spot (.file bytes)

/-- Versions of the files are stored for the page, and nothing else is changed. -/
def Fills (there : Location) (page : List Char) (stored : List (List Char)) (t t' : Tree) : Prop :=
  ∀ spot, t'.at? spot = t.at? spot ∨
    t.at? spot = none ∧ ∃ entry, t'.at? spot = some entry ∧ IsNew there page stored spot entry

variable {there base : Location} {stored stored' : List (List Char)} {other : List Char}

theorem IsNew.mono {spot : Location} {entry : Entry} (h : IsNew there page stored spot entry)
    (hstored : ∀ file ∈ stored, file ∈ stored') : IsNew there page stored' spot entry := by
  cases h with
  | directory mem front => exact .directory (hstored _ mem) front
  | version mem heq => exact .version (hstored _ mem) heq

/-- What is new is on the way to a version. -/
theorem IsNew.front {spot : Location} {entry : Entry} (h : IsNew there page stored spot entry) :
    ∃ file ∈ stored, ∃ name, spot <+: versionsPlace there page file ++ [name] ∧
      ∃ version : Nat, name = versionName file version := by
  cases h with
  | @directory file mem front => exact ⟨file, mem, _, front.trans (List.prefix_append _ _), 0, rfl⟩
  | @version file version bytes mem heq => exact ⟨file, mem, _, heq ▸ List.prefix_rfl, version, rfl⟩

namespace Fills

theorem of_same (h : t' = t) : Fills there page stored t t' := fun _ => Or.inl (by rw [h])

theorem mono (h : Fills there page stored t t') (hstored : ∀ file ∈ stored, file ∈ stored') :
    Fills there page stored' t t' := fun spot =>
  (h spot).imp_right fun ⟨hnone, entry, hat, new⟩ => ⟨hnone, entry, hat, new.mono hstored⟩

theorem stays (h : Fills there page stored t t') : Stays t t' := by
  intro spot entry hat
  rcases h spot with hsame | ⟨hnone, -⟩
  · rw [hsame, hat]
  · rw [hnone] at hat
    cases hat

theorem trans (h : Fills there page stored t t₁) (h' : Fills there page stored t₁ t') :
    Fills there page stored t t' := by
  intro spot
  rcases h' spot with hsame | ⟨hnone, hnew⟩
  · rw [hsame]
    exact h spot
  · rcases h spot with hsame | ⟨-, entry, hat, -⟩
    · exact Or.inr ⟨hsame ▸ hnone, hnew⟩
    · rw [hnone] at hat
      cases hat

/-- No link is new. -/
theorem free (h : Fills there page stored t t') (before : t.LinkFree place) : t'.LinkFree place := by
  intro rest target hlink
  rcases h (place ++ rest) with hsame | ⟨-, entry, hat, new⟩
  · exact before rest target (hsame ▸ hlink)
  · rw [hlink] at hat
    obtain rfl := Option.some.inj hat
    cases new

end Fills

theorem attachmentsName_ne_fileName (page file : List Char) :
    mangle page ++ attachmentsSuffix ≠ mangle file ++ fileSuffix := by
  intro h
  have hsuffix := suffix_or_suffix h
  revert hsuffix
  decide

/-- What leads to the versions of one attachment leads on to a version of another one only if that is
where the pages of the other one are. -/
theorem versionsPlace_front {own : List Char}
    (h : versionsPlace base other own <+: versionsPlace there page file ++ [name]) :
    versionsPlace base other own <+: there ∨ base = there ∧ other = page ∧ own = file := by
  rw [List.append_assoc] at h
  rcases List.prefix_or_prefix_of_prefix h (List.prefix_append there _) with hwithin | ⟨more, hmore⟩
  · exact Or.inl hwithin
  rw [← hmore, List.prefix_append_right_inj, Holding.names, List.cons_append, List.cons_append,
    List.nil_append] at h
  rw [versionsPlace, Holding.names] at hmore
  -- One name further on after the other, the names are told apart by their endings.
  rcases List.prefix_cons_iff.mp h with rfl | ⟨rest, rfl, hrest⟩
  · rw [List.append_nil] at hmore
    exact Or.inl ⟨[], (List.append_nil _).trans hmore.symm⟩
  rcases List.prefix_cons_iff.mp hrest with rfl | ⟨last, rfl, hlast⟩
  · rw [List.append_cons base] at hmore
    have hname := (List.append_inj' hmore (by simp)).2
    exact absurd (List.singleton_inj.mp hname) (attachmentsName_ne_fileName page own)
  rcases List.prefix_cons_iff.mp hlast with rfl | ⟨none, rfl, hnone⟩
  · obtain ⟨rfl, hnames⟩ := List.append_inj' hmore (by simp)
    exact Or.inr ⟨rfl, versionsPlace_inj.mp (congrArg (there ++ ·) hnames.symm)⟩
  · obtain rfl := List.prefix_nil.mp hnone
    rw [List.append_cons there] at hmore
    have hnames := (List.append_inj' hmore (by simp)).2
    exact absurd (List.cons.inj hnames).1.symm (attachmentsName_ne_fileName other file)

/-- What is opened as a version with a number is what stands at its place, if no links stand among the
attachments of the page. -/
theorem opens_iff_of_standing {own : List Char} {version : Nat} (sound : t.Sound)
    (stands : t.Standing directory base) (free : t.LinkFree (attachmentsPlace base page)) :
    Opens t directory page own version bytes ↔
      t.at? (versionsPlace base page own ++ [versionName own version]) = some (.file bytes) := by
  have clear : t.Clear base ((Holding.attachment page own).names ++ [versionName own version]) :=
    clear_attachments free stands.directory
  have plain : ∀ n ∈ (Holding.attachment page own).names ++ [versionName own version], Name.IsPlain n := by
    intro n hn
    rcases List.mem_append.mp hn with hn | hn
    · exact isPlain_attachment n hn
    · exact List.mem_singleton.mp hn ▸ isPlain_versionName own version
  rw [opens_iff, attachmentVersions_eq_into, Path.into_child, read_eq_ok, ← find_eq_ok,
    find_into sound stands clear plain, List.append_assoc]

namespace Fills

/-- **The versions of other attachments stay as they are**, unless the pages lie within them. -/
theorem apart {own : List Char} (h : Fills there page stored t t') (hown : other ≠ page ∨ own ∉ stored)
    (outside : ¬ versionsPlace base other own <+: there) (names : List Name) :
    t'.at? (versionsPlace base other own ++ names) = t.at? (versionsPlace base other own ++ names) := by
  refine (h _).resolve_right ?_
  rintro ⟨-, entry, -, new⟩
  obtain ⟨file, mem, name, hfront, -⟩ := new.front
  rcases versionsPlace_front ((List.prefix_append _ names).trans hfront) with hwithin | ⟨-, rfl, rfl⟩
  · exact outside hwithin
  · exact hown.elim (fun hne => hne rfl) fun hnot => hnot mem

/-- A version that is read in the end has not become one on the way. -/
theorem opens_back {own : List Char} {version : Nat} (h : Fills there page stored t t') (sound : t.Sound)
    (sound' : t'.Sound) (stands : t.Standing directory base)
    (free : t.LinkFree (attachmentsPlace base page)) (hown : own ∉ stored)
    (opens : Opens t' directory page own version bytes) : Opens t directory page own version bytes := by
  rw [opens_iff_of_standing sound' (stands.of_keeps h.stays.keeps) (h.free free)] at opens
  rw [opens_iff_of_standing sound stands free]
  rcases h (versionsPlace base page own ++ [versionName own version]) with hsame | ⟨-, entry, hat, new⟩
  · rw [← hsame, opens]
  · rw [opens] at hat
    obtain rfl := Option.some.inj hat
    cases new with
    | @version file number _ mem heq =>
      obtain ⟨hplace, -⟩ := List.append_inj' heq rfl
      obtain ⟨-, hnames⟩ := List.append_inj' hplace rfl
      obtain ⟨-, rfl⟩ := versionsPlace_inj.mp (congrArg (base ++ ·) hnames)
      exact absurd mem hown

end Fills

/-- A version that is stored fills its place and nothing else. -/
theorem Deposited.fills (h : Deposited t (versionsPlace there page file) file bytes t') :
    Fills there page [file] t t' := by
  intro spot
  by_cases hspot : spot = versionsPlace there page file ++
      [versionName file (after (versionsAt t (versionsPlace there page file)) : Nat)]
  · exact Or.inr ⟨hspot ▸ h.unused, _, hspot ▸ h.written, .version (List.mem_singleton_self _) hspot⟩
  · exact (h.rest spot hspot).imp_right fun ⟨hnone, hdir, front⟩ =>
      ⟨hnone, _, hdir, .directory (List.mem_singleton_self _) front⟩

theorem fills_of_growsTo (h : GrowsTo (versionsPlace there page file) t t') :
    Fills there page [file] t t' := fun spot =>
  (h spot).imp_right fun ⟨hnone, hdir, front⟩ =>
    ⟨hnone, _, hdir, .directory (List.mem_singleton_self _) front⟩

end WikiMigration.Store
