/-
What is left of a page that cannot be saved.

The staging file is removed, and no copy is made unless the page is replaced.  So nothing is left, with
one exception: where a directory has the name of the page's file, that is noticed only when the file is to
be copied, and the directory for the page's earlier versions has been made by then.  Nothing can be read
in another way for that, but the list of the pages may become another one.
-/
import WikiMigration.Proofs.Store.PageList

namespace WikiMigration.Store

open Text Files Files.Tree Action

variable {t t₁ t₂ t₃ t' : Tree} {directory : Path} {place : Location} {dialect : Dialect}
variable {page other text : List Char} {mark : Name} {bytes : Bytes} {entry : Entry} {e : FileError}

/-! ### An archiving that fails -/

/-- A file in the place of the page can be copied, unless the number of its version is too long to be that
of a file. -/
theorem Filled.copy_fails (hpage : isTooLong (mangle page) = false) (sound : t.Sound)
    (stands : t.Standing directory place) (free : t.LinkFree place)
    (hat : t.at? (place ++ [pageName dialect.fileExtension page]) = some entry)
    (filled : Filled t directory mark (pageName dialect.fileExtension page) bytes place t₂)
    (hmade : t₂.makeDirectories (archive directory page) = (none, t₃))
    (fails : t₃.write ((archive directory page).child
      (archivedName dialect.fileExtension (archivedVersion t directory page))) [] = .error e) :
    t₃ = t₂ := by
  have hfind := (find_child_iff sound stands.toLeads free (isPlain_pageName dialect page)).mpr hat
  obtain ⟨arch, standsArch, hnone⟩ := filled.unused sound (isEnding_fileExtension dialect) hfind hmade
  have hlong : isTooLong (archivedName dialect.fileExtension (archivedVersion t directory page)) = true := by
    by_contra hshort
    have hname : Name.CanStand (archivedName dialect.fileExtension (archivedVersion t directory page)) :=
      ⟨isPlain_archivedName _ _, by simpa using hshort⟩
    rw [write_eq_ok.mpr ⟨_, standsArch.locate_child hname (by simp [hnone]), by simp [hnone], rfl⟩] at fails
    cases fails
  have attempts := t₂.makeDirectories_attempts (archive directory page)
  rw [hmade] at attempts
  obtain ⟨made, standsMade, hnew⟩ := attempts.standsNew rfl (archive_eq_into directory page) filled.sound
    filled.stands isPlain_archiveNames
  refine hnew.resolve_right ?_
  rintro ⟨hfresh, -⟩
  -- In an archive that is new the version would be the first one, and its number is short.
  have free₂ : t₂.LinkFree place := fun rest target hlink =>
    free rest target (filled.adds.at?_link hlink)
  obtain ⟨-, hstands⟩ := attempts.into (archive_eq_into directory page) filled.sound
    filled.stands (free₂.clear _) isPlain_archiveNames
  obtain rfl : made = archivePlace place page := standsMade.unique (hstands rfl)
  have hnone' : t.at? (archivePlace place page) = none := by
    cases hbefore : t.at? (archivePlace place page) with
    | none => rfl
    | some entry =>
      rw [filled.adds.kept _ _ hbefore] at hfresh
      cases hfresh
  have hversion : archivedVersion t directory page = 1 := by
    rw [archivedVersion, currentVersion_eq_versionAt sound stands free fun _ => hpage, versionAt,
      versionsAt, sound.names_eq_nil (by simp [hnone'])]
    rfl
  rw [hversion] at hlong
  cases dialect <;> exact absurd hlong (by decide)

/-- **Archiving that fails leaves no more than directories**, and those only if a directory has the name of
the page's file. -/
theorem Filled.archive_fails (hpage : page ≠ []) (sound : t.Sound)
    (stands : t.Standing directory place) (free : t.LinkFree place)
    (hat : t.at? (place ++ [pageName dialect.fileExtension page]) = some entry)
    (filled : Filled t directory mark (pageName dialect.fileExtension page) bytes place t₂)
    (h : applySteps t₂ (archiveSteps t directory dialect.fileExtension page) = (some e, t')) :
    GrowsTo (archivePlace place page) t₂ t' ∧ (entry ≠ .directory → t' = t₂) := by
  have hshort := (canStand_mangle hpage (sound.named _ _ _ hat)).short
  have free₂ : t₂.LinkFree place := fun rest target hlink =>
    free rest target (filled.adds.at?_link hlink)
  have attempts := t₂.makeDirectories_attempts (archive directory page)
  have growsTo := (attempts.into (archive_eq_into directory page) filled.sound filled.stands
    (free₂.clear _) isPlain_archiveNames).1
  obtain ⟨old, hsteps, -⟩ := archiveSteps_eq t directory dialect.fileExtension page
  rw [hsteps] at h
  rcases applySteps_append_fault h with hopen | ⟨t₃, hopen, hwrite⟩
  · rw [← List.singleton_append] at hopen
    rcases applySteps_append_fault hopen with hmake | ⟨t₃, hmade, hread⟩
    · rw [applySteps_singleton_eq, FileStep.apply] at hmake
      rw [hmake] at attempts growsTo
      refine ⟨growsTo, fun _ => ?_⟩
      exact attempts.eq_of_failed rfl (archive_eq_into directory page) filled.sound filled.stands
        (canStand_archiveNames fun _ => hshort)
    · rw [applySteps_singleton, FileStep.apply] at hmade
      rw [applySteps_singleton_eq, FileStep.apply, ended_eq_some] at hread
      obtain ⟨hread, rfl⟩ := hread
      rw [hmade] at growsTo
      refine ⟨growsTo, fun hdir => ?_⟩
      -- A file could be opened.
      have hname := isPlain_pageName dialect page
      obtain ⟨held, rfl⟩ : ∃ held, entry = .file held := by
        cases entry with
        | file held => exact ⟨held, rfl⟩
        | directory => exact absurd rfl hdir
        | link target => exact absurd hat (free [_] target)
      have hfind := (find_child_iff sound stands.toLeads free hname).mpr hat
      have adds := filled.adds.trans (.of_grows growsTo.grows)
      obtain ⟨spot, hend, hheld⟩ := find_eq_ok.mp hfind
      rw [pageFile_eq_child, adds.read (read_eq_ok.mpr ⟨spot, hend, hheld⟩)] at hread
      cases hread
  · obtain ⟨hmade, -⟩ := archive_opened hopen
    rw [hmade] at growsTo
    obtain ⟨rfl, fails⟩ := writing_fault (grows_of_makeDirectories filled.sound hmade).2 hwrite
    exact ⟨growsTo, fun _ => filled.copy_fails hshort sound stands free hat hmade fails⟩

/-- What is copied can be replaced. -/
theorem Filled.replaces {held : Bytes} (sound : t.Sound)
    (filled : Filled t directory mark (pageName dialect.fileExtension page) bytes place t₂)
    (hat : t.at? (place ++ [pageName dialect.fileExtension page]) = some (.file held))
    {sort : Location → Bytes → Prop} (adds : Adds sort t₂ t₃) :
    ∃ t', t₃.replace (stagingFile mark (directory.child (pageName dialect.fileExtension page)))
      (directory.child (pageName dialect.fileExtension page)) = .ok t' := by
  have hat₃ := adds.kept _ _ (filled.adds.kept _ _ hat)
  refine ⟨_, replace_eq_ok.mpr ⟨_, _, _, filled.locateSelf adds.keeps, adds.kept _ _ filled.at?_staged,
    (filled.stands.of_keeps adds.keeps).locateSelf_child (sound.named _ _ _ hat),
    Or.inr ⟨fun heq => ?_, by simp [hat₃], rfl⟩⟩⟩
  exact stagingName_ne mark _ (by simpa using heq)

/-! ### A save that fails -/

/-- What has the name of a page's file stands in the directory of the pages. -/
theorem there_of_hasFile (sound : t.Sound) (leads : t.Leads directory place) (free : t.LinkFree place)
    (h : hasFile t directory dialect.fileExtension page = true) :
    ∃ entry, t.at? (place ++ [pageName dialect.fileExtension page]) = some entry ∧
      t.Standing directory place := by
  obtain ⟨entry, hfind⟩ := hasFile_iff.mp h
  have hat := (find_child_iff sound leads free (isPlain_pageName dialect page)).mp hfind
  exact ⟨entry, hat, leads.standing sound (sound.housed _ _ _ hat)⟩

/-- What is left of a page that could not be saved. -/
structure Unsaved (t : Tree) (place : Location) (extension : String) (page : List Char) (t' : Tree) :
    Prop where
  sound : t'.Sound
  grows : GrowsTo (archivePlace place page) t t'
  /-- Unless a directory has the name of the page's file, nothing is new in the directory of the pages. -/
  outside : t.at? (place ++ [pageName extension page]) ≠ some .directory → GrowsTo place t t'

theorem Unsaved.of_outside {extension : String} (sound : t'.Sound) (h : GrowsTo place t t') :
    Unsaved t place extension page t' :=
  ⟨sound, h.further (List.prefix_append _ _), fun _ => h⟩

/-- What is new behind the staging file is new in the end. -/
theorem Filled.growsTo_discard {name : Name} {spot : Location}
    (filled : Filled t directory mark name bytes place t₂)
    (hmade : t.makeDirectories directory = (none, t₁)) (growsTo : GrowsTo place t t₁)
    (sound' : t'.Sound) (growsTo' : GrowsTo spot t₂ t') (hfront : place <+: spot) :
    GrowsTo spot t (discard t' (stagingFile mark (directory.child name))) :=
  (growsTo.further hfront).trans (filled.growsTo hmade sound' growsTo')

section Filled

variable (filled : Filled t directory mark (pageName dialect.fileExtension page) (Utf8.encode text)
  place t₂) (hmade : t.makeDirectories directory = (none, t₁)) (growsTo : GrowsTo place t t₁)
  (hpage : page ≠ []) (sound : t.Sound) (leads : t.Leads directory place) (free : t.LinkFree place)
  (sound' : (discard t' (stagingFile mark
    (directory.child (pageName dialect.fileExtension page)))).Sound)

include filled hmade growsTo hpage sound leads free sound'

/-- The page cannot be archived. -/
theorem Filled.unsaved_of_between
    (h : applySteps t₂ (archiveBetween t directory dialect.fileExtension page) = (some e, t')) :
    Unsaved t place dialect.fileExtension page
      (discard t' (stagingFile mark (directory.child (pageName dialect.fileExtension page)))) := by
  have ending := isEnding_fileExtension dialect
  have sound₂ := ((between_page sound ending).broken filled (breaks_of_fault h)).1
  rw [archiveBetween] at h
  split at h
  next hthere =>
    obtain ⟨entry, hat, stands⟩ := there_of_hasFile sound leads free hthere
    obtain ⟨growsTo', houtside⟩ := filled.archive_fails hpage sound stands free hat h
    refine ⟨sound', filled.growsTo_discard hmade growsTo sound₂ growsTo' (List.prefix_append _ _),
      fun hdir => ?_⟩
    obtain rfl := houtside fun heq => hdir (heq ▸ hat)
    exact filled.growsTo_discard hmade growsTo sound₂ (.refl _ _) List.prefix_rfl
  next => cases h

/-- The page's file cannot be replaced; then there was none. -/
theorem Filled.unsaved_of_replace
    (h : applySteps t₂ (archiveBetween t directory dialect.fileExtension page) = (none, t'))
    (fails : t'.replace (stagingFile mark (directory.child (pageName dialect.fileExtension page)))
      (directory.child (pageName dialect.fileExtension page)) = .error e) :
    Unsaved t place dialect.fileExtension page
      (discard t' (stagingFile mark (directory.child (pageName dialect.fileExtension page)))) := by
  obtain ⟨-, adds⟩ := (between_page sound (isEnding_fileExtension dialect)).done filled h
  rw [archiveBetween] at h
  split at h
  next hthere =>
    obtain ⟨entry, hat, stands⟩ := there_of_hasFile sound leads free hthere
    have hshort := (canStand_mangle hpage (sound.named _ _ _ hat)).short
    obtain ⟨held, copied⟩ := copied_of_done hshort sound stands free hat filled h
    obtain ⟨t₄, hreplaced⟩ := filled.replaces sound copied.old adds
    cases hreplaced.symm.trans fails
  next =>
    obtain rfl : t₂ = t' := (Prod.mk.inj h).2
    exact .of_outside sound'
      (filled.growsTo_discard hmade growsTo filled.sound (.refl _ _) List.prefix_rfl)

end Filled

/-- **Of a page that cannot be saved no more than directories are left.** -/
theorem unsaved_of_fails {store : FilePages} {w w' : World} {failure : Failure} (hpage : page ≠ [])
    (sound : w.tree.Sound) (leads : w.tree.Leads store.directory place) (free : w.tree.LinkFree place)
    (fresh : IsFresh w.tree store.directory store.mark (pageName store.extension page))
    (h : (store.save page text).Fails w failure w') :
    Unsaved w.tree place store.extension page w'.tree := by
  have sound' := ((savesWhole store page text w sound fresh).fails failure w' h).1.sound
  obtain ⟨fault, t', happly, htree⟩ := save_fails h
  rw [htree, FilePages.staged, FilePages.file, pageFile_eq_child] at sound' ⊢
  obtain ⟨growsTo, hstands⟩ := leads.makeDirectories sound
  rw [FilePages.steps_eq, stagedSteps_eq] at happly
  rcases applySteps_append_fault happly with hmake | ⟨t₁, hmade, hbehind⟩
  · rw [applySteps_singleton_eq, FileStep.apply] at hmake
    have hsame := (@making_cleaned _ _ _ store.mark (pageName store.extension page) noCopy sound _ hmake).1
    rw [hmake] at growsTo
    rw [hsame] at sound' ⊢
    exact .of_outside sound' growsTo
  rw [applySteps_singleton, FileStep.apply] at hmade
  rw [hmade] at growsTo hstands
  obtain ⟨spot, opened⟩ := opened_of_made sound fresh hmade
  obtain rfl := (hstands rfl).unique opened.stands
  rcases applySteps_append_fault hbehind with hbetween | ⟨t₃, hbetween, hreplace⟩
  · rcases applySteps_append_fault hbetween with hwrite | ⟨t₂, hwrite, hbetween⟩
    · obtain ⟨rfl, -⟩ := writing_fault opened.sound hwrite
      rw [opened.discard_eq] at sound' ⊢
      exact .of_outside sound' growsTo
    · exact (filled_of_done opened hwrite).unsaved_of_between hmade growsTo hpage sound leads free
        sound' hbetween
  · rw [applySteps_singleton_eq, FileStep.apply, ended_eq_some] at hreplace
    obtain ⟨hreplace, rfl⟩ := hreplace
    obtain ⟨t₂, hwrite, hdone⟩ := applySteps_append_eq.mp hbetween
    exact (filled_of_done opened hwrite).unsaved_of_replace hmade growsTo hpage sound leads free
      sound' hdone hreplace

/-! ### What can still be read -/

theorem at?_of_growsTo_directory (sound : t.Sound) (hdir : t.at? place = some .directory)
    (h : GrowsTo place t t') (spot : Location) : t'.at? spot = t.at? spot := by
  refine (h spot).resolve_right ?_
  rintro ⟨hnone, -, rest, rfl⟩
  by_cases hrest : rest = []
  · rw [hrest, List.append_nil, hnone] at hdir
    cases hdir
  · rw [sound.directory_of_behind hrest hdir] at hnone
    cases hnone

/-- A page's name is not empty, and not too long for that of a directory. -/
def HasArchiveName (page : List Char) : Prop := page ≠ [] ∧ isTooLong (mangle page) = false

namespace Unsaved

theorem free (h : Unsaved t place dialect.fileExtension page t') (before : t.LinkFree place) :
    t'.LinkFree place := LinkFree.of_grows before h.grows.grows

theorem leads (h : Unsaved t place dialect.fileExtension page t') (sound : t.Sound)
    (before : t.Leads directory place) : t'.Leads directory place :=
  before.of_grows h.grows.grows sound h.sound

theorem file_eq (h : Unsaved t place dialect.fileExtension page t') {file : Name}
    (hends : endsWith dialect.fileExtension.toList file = true) :
    t'.at? (place ++ [file]) = t.at? (place ++ [file]) :=
  (h.grows _).resolve_right fun hnew => file_not_before hends page hnew.2.2

theorem archived_eq (h : Unsaved t place dialect.fileExtension page t') (hother : other ≠ [])
    (name : Name) :
    t'.at? (archivePlace place other ++ [name]) = t.at? (archivePlace place other ++ [name]) :=
  (h.grows _).resolve_right fun hnew => archived_not_before hother name hnew.2.2

/-- **Every version can be read as before.** -/
theorem reads_iff (h : Unsaved t place dialect.fileExtension page t') (hother : other ≠ [])
    (sound : t.Sound) (leads : t.Leads directory place) (free : t.LinkFree place) {version : Int} :
    ReadsFrom t' directory dialect.fileExtension other version text ↔
      ReadsFrom t directory dialect.fileExtension other version text :=
  readsFrom_congr hother sound leads free h.sound (h.leads sound leads) (h.free free)
    (h.file_eq (endsWith_pageName _ _)) (h.archived_eq hother)

/-- **The list of the pages stays**, unless a directory has the name of the page's file and there is a file
that is that of no page. -/
theorem lists (h : Unsaved t place dialect.fileExtension page t') (sound : t.Sound)
    (leads : t.Leads directory place) (free : t.LinkFree place)
    (hsteady : t.at? (place ++ [pageName dialect.fileExtension page]) ≠ some .directory ∨
      ∀ file held, endsWith dialect.fileExtension.toList file = true →
        t.at? (place ++ [file]) = some (.file held) →
        HasArchiveName (pageOf dialect.fileExtension file)) {pages : List PageVersion}
    (hlist : listPages t directory dialect.fileExtension = .ok pages) :
    listPages t' directory dialect.fileExtension = .ok pages := by
  obtain ⟨stands, -⟩ := (listPages_at sound leads free).mp hlist
  refine listPages_of_same sound leads free h.sound (stands.of_keeps h.grows.grows.keeps) (h.free free)
    (fun file hends => h.file_eq hends) (fun file held hends hat => ?_) hlist
  rcases hsteady with houtside | hnames
  · have hsame := at?_of_growsTo_directory sound stands.directory (h.outside houtside)
    refine ⟨versionAt_congr fun name => hsame _, ?_⟩
    rw [HasVersion, HasVersion, hsame]
    exact id
  · obtain ⟨hne, hshort⟩ := hnames file held hends hat
    exact ⟨versionAt_congr (h.archived_eq hne), fun _ => Or.inr (Or.inl hshort)⟩

end Unsaved

end WikiMigration.Store
