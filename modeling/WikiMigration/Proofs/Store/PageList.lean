/-
The list of the pages of a directory.

Where no links stand in the directory, the list is told by the places in it: a file with the ending of
the pages gives an entry, whose number comes from the archive.  A save therefore changes the entries of
its own page alone.  It may stop the listing, though: once there is a directory of archives, the archive
of a page whose name is too long for a file cannot be looked up any more.
-/
import WikiMigration.Proofs.Store.History

namespace WikiMigration.Store

open Text Files Files.Tree Action

variable {t t' : Tree} {directory : Path} {dialect : Dialect} {place : Location}
variable {page : List Char} {bytes : Bytes} {extension : String} {pages : List PageVersion}

/-! ### Versions that can be told -/

/-- Whether the store can tell the version of a page. -/
def HasVersion (t : Tree) (place : Location) (page : List Char) : Prop :=
  page = [] ∨ isTooLong (mangle page) = false ∨ t.at? (place ++ [archiveName]) ≠ some .directory

theorem canStand_archiveName : Name.CanStand archiveName := by decide

/-- Without a directory of archives, there are no versions in it. -/
theorem versionsIn_of_no_archives (stands : t.Standing directory place) (free : t.LinkFree place)
    (hpage : page ≠ []) (hnone : t.at? (place ++ [archiveName]) ≠ some .directory) :
    versionsIn t (archive directory page) = .ok [] := by
  rw [archive_eq_into, archiveNames_of_ne_nil hpage]
  obtain ⟨fault, hfault, hne⟩ := stands.follow_beyond canStand_archiveName hnone
    (fun target => free [archiveName] target) (List.cons_ne_nil (mangle page) []) true
  have hlocate : t.locate (directory.into [archiveName, mangle page]) = .error fault := hfault
  obtain ⟨isDirectory, hdir⟩ := isDirectory_of_not_long
    (show t.locate (directory.into [archiveName, mangle page]) ≠ .error .nameTooLong by
      rw [hlocate]
      simpa using hne)
  rcases isDirectory_eq_ok hdir with ⟨-, spot, standsThere⟩ | ⟨rfl, -⟩
  · have hleads := standsThere.leads
    rw [hlocate] at hleads
    cases hleads
  · exact versionsIn_of_isDirectory_false hdir

theorem currentVersion_ok_iff (sound : t.Sound) (stands : t.Standing directory place)
    (free : t.LinkFree place) :
    currentVersion t directory page = .ok (versionAt t place page) ↔ HasVersion t place page := by
  constructor
  · intro h
    by_cases hpage : page = []
    · exact Or.inl hpage
    cases hlong : isTooLong (mangle page) with
    | false => exact Or.inr (Or.inl hlong)
    | true =>
      refine Or.inr (Or.inr fun hdir => ?_)
      have hthere := (stands.child canStand_archiveName hdir).follow_long (isPlain_mangle hpage)
        hlong true []
      have hlocate : t.locate (archive directory page) = .error .nameTooLong := by
        rw [archive_eq_into, archiveNames_of_ne_nil hpage, Path.into_cons]
        exact hthere
      have hfault : t.isDirectory (archive directory page) =
          .error ⟨.nameTooLong, archive directory page, none⟩ := by
        simp [Tree.isDirectory, find?, find, hlocate, bind, Except.bind, about, Except.map]
      simp [currentVersion_eq, versionsIn, hfault, bind, Except.bind, Except.map] at h
  · intro h
    by_cases hpage : page ≠ [] → isTooLong (mangle page) = false
    · exact currentVersion_eq_versionAt sound stands free hpage
    · obtain ⟨hpage, hlong⟩ := Classical.not_imp.mp hpage
      have hnone := (h.resolve_left hpage).resolve_left hlong
      have hversions := versionsIn_of_no_archives stands free hpage hnone
      have hok : currentVersion t directory page = .ok (after []) := by
        rw [currentVersion_eq, hversions]
        rfl
      rw [hok, currentVersion_eq_ok sound stands.toLeads free hok]

/-! ### The list, place by place -/

/-- The page that a file of the directory is that of. -/
def pageOf (extension : String) (file : Name) : List Char :=
  unmangle (file.take (file.length - extension.length))

/-- What is listed for a name in the directory of the pages. -/
def listedAt (t : Tree) (place : Location) (extension : String) (file : Name) : List PageVersion :=
  match t.at? (place ++ [file]) with
  | some (.file _) => [⟨pageOf extension file, versionAt t place (pageOf extension file)⟩]
  | _ => []

theorem pageOf_pageName (extension : String) (page : List Char) :
    pageOf extension (pageName extension page) = page := by
  have hlength : (pageName extension page).length - extension.length = (mangle page).length := by
    simp [pageName, String.length_toList]
  rw [pageOf, hlength, pageName, List.take_left, unmangle_mangle]

theorem mem_listedAt {file : Name} {entry : PageVersion} (h : entry ∈ listedAt t place extension file) :
    (∃ held, t.at? (place ++ [file]) = some (.file held)) ∧ entry.name = pageOf extension file := by
  rw [listedAt] at h
  split at h
  next held hat => exact ⟨⟨held, hat⟩, by rw [List.mem_singleton.mp h]⟩
  next => cases h

/-- Whether an entry is a file. -/
def isFileEntry : Entry → Bool
  | .file _ => true
  | _ => false

theorem isFile_child (sound : t.Sound) (leads : t.Leads directory place) (free : t.LinkFree place)
    {file : Name} {entry : Entry} (hat : t.at? (place ++ [file]) = some entry) :
    t.isFile (directory.child file) = .ok (isFileEntry entry) := by
  have hfind := (find_child_iff sound leads free (sound.named _ _ _ hat).plain).mpr hat
  simp only [Tree.isFile, find?, hfind, about, Except.map, mapError_ok]
  cases entry <;> rfl

theorem pageEntry_at (sound : t.Sound) (stands : t.Standing directory place)
    (free : t.LinkFree place) {file : Name} {entry : Entry} {found : List PageVersion}
    (hat : t.at? (place ++ [file]) = some entry) :
    pageEntry t directory extension file = .ok found ↔
      ((∃ held, entry = .file held) → HasVersion t place (pageOf extension file)) ∧
        found = listedAt t place extension file := by
  have hfile := isFile_child sound stands.toLeads free hat
  rw [pageEntry_eq_ok, hfile, listedAt, hat]
  cases entry with
  | file held =>
    simp only [isFileEntry, Except.ok.injEq, Bool.true_eq_false, false_and, false_or, true_and]
    rw [← currentVersion_ok_iff sound stands free]
    constructor
    · rintro ⟨version, hversion, rfl⟩
      have heq := currentVersion_eq_ok sound stands.toLeads free hversion
      rw [heq] at hversion ⊢
      exact ⟨fun _ => hversion, rfl⟩
    · rintro ⟨hversion, rfl⟩
      exact ⟨_, hversion ⟨held, rfl⟩, rfl⟩
  | directory => simp [isFileEntry]
  | link target => simp [isFileEntry]

/-- The names of pages that a directory holds. -/
def pageNames (t : Tree) (place : Location) (extension : String) : List Name :=
  (t.names place).filter fun name => endsWith extension.toList name

/-- **The list is what stands in the directory.** -/
theorem listPages_at (sound : t.Sound) (leads : t.Leads directory place) (free : t.LinkFree place) :
    listPages t directory extension = .ok pages ↔ t.Standing directory place ∧
      (∀ file ∈ pageNames t place extension, ∀ held, t.at? (place ++ [file]) = some (.file held) →
        HasVersion t place (pageOf extension file)) ∧
      pages = (pageNames t place extension).flatMap (listedAt t place extension) := by
  have hall : ∀ {names : List Name} {entries : List (List PageVersion)},
      t.Standing directory place → (∀ file ∈ names, ∃ entry, t.at? (place ++ [file]) = some entry) →
      (List.Forall₂ (fun file found => pageEntry t directory extension file = .ok found)
          names entries ↔
        (∀ file ∈ names, ∀ held, t.at? (place ++ [file]) = some (.file held) →
          HasVersion t place (pageOf extension file)) ∧
        entries = names.map (listedAt t place extension)) := by
    intro names entries stands hnames
    induction names generalizing entries with
    | nil => simp
    | cons file names ih =>
      obtain ⟨entry, hat⟩ := hnames file (by simp)
      have ih' := fun entries => @ih entries fun other h => hnames other (by simp [h])
      simp only [List.forall₂_cons_left_iff, pageEntry_at sound stands free hat, ih',
        List.forall_mem_cons, hat, Option.some.injEq, List.map_cons]
      constructor
      · rintro ⟨_, _, ⟨hversion, rfl⟩, ⟨hrest, rfl⟩, rfl⟩
        exact ⟨⟨fun held h => hversion ⟨held, h⟩, hrest⟩, rfl⟩
      · rintro ⟨⟨hversion, hrest⟩, rfl⟩
        exact ⟨_, _, ⟨fun ⟨held, h⟩ => hversion held h, rfl⟩, ⟨hrest, rfl⟩, rfl⟩
  have hthere : ∀ file ∈ pageNames t place extension, ∃ entry,
      t.at? (place ++ [file]) = some entry := fun file hfile =>
    mem_names.mp (List.mem_of_mem_filter hfile)
  rw [listPages_eq_ok]
  constructor
  · rintro ⟨other, entries, stands, hentries, rfl⟩
    obtain rfl := leads.eq_of_standing stands
    obtain ⟨hversions, rfl⟩ := (hall stands hthere).mp hentries
    exact ⟨stands, hversions, by rw [List.flatMap_def]⟩
  · rintro ⟨stands, hversions, rfl⟩
    exact ⟨place, _, stands, (hall stands hthere).mpr ⟨hversions, rfl⟩, by rw [List.flatMap_def]⟩

/-- The list stays if the files of the pages do, and their versions. -/
theorem listPages_of_same (sound : t.Sound) (leads : t.Leads directory place) (free : t.LinkFree place)
    (sound' : t'.Sound) (stands' : t'.Standing directory place) (free' : t'.LinkFree place)
    (hfiles : ∀ file, endsWith extension.toList file = true →
      t'.at? (place ++ [file]) = t.at? (place ++ [file]))
    (hversions : ∀ file held, endsWith extension.toList file = true →
      t.at? (place ++ [file]) = some (.file held) →
      versionAt t' place (pageOf extension file) = versionAt t place (pageOf extension file) ∧
        (HasVersion t place (pageOf extension file) → HasVersion t' place (pageOf extension file)))
    (h : listPages t directory extension = .ok pages) : listPages t' directory extension = .ok pages := by
  obtain ⟨-, hhas, rfl⟩ := (listPages_at sound leads free).mp h
  have hnames : pageNames t' place extension = pageNames t place extension :=
    sound'.filter_names_congr sound fun file hends => by rw [hfiles file hends]
  have hends : ∀ file ∈ pageNames t place extension, endsWith extension.toList file = true :=
    fun file hfile => (List.mem_filter.mp hfile).2
  refine (listPages_at sound' stands'.toLeads free').mpr ⟨stands', ?_, ?_⟩
  · rw [hnames]
    intro file hfile held hat
    rw [hfiles file (hends file hfile)] at hat
    exact (hversions file held (hends file hfile) hat).2 (hhas file hfile held hat)
  · rw [hnames]
    refine List.flatMap_congr fun file hfile => ?_
    rw [listedAt, listedAt, hfiles file (hends file hfile)]
    cases hat : t.at? (place ++ [file]) with
    | none => rfl
    | some entry =>
      cases entry with
      | file held => rw [(hversions file held (hends file hfile) hat).1]
      | _ => rfl

/-! ### After a save -/

/-- The entries of other pages than the one that is saved, those with an empty name apart. -/
def others (page : List Char) (pages : List PageVersion) : List PageVersion :=
  pages.filter fun entry => entry.name ≠ page ∧ entry.name ≠ []

theorem mem_others {entry : PageVersion} :
    entry ∈ others page pages ↔ entry ∈ pages ∧ entry.name ≠ page ∧ entry.name ≠ [] := by
  rw [others, List.mem_filter]
  simp

theorem others_flatMap (t : Tree) (place : Location) (extension : String) (page : List Char)
    (names : List Name) : others page (names.flatMap (listedAt t place extension)) =
      (names.filter fun file => pageOf extension file ≠ page ∧ pageOf extension file ≠ []).flatMap
        (listedAt t place extension) := by
  induction names with
  | nil => rfl
  | cons file names ih =>
    rw [others] at ih ⊢
    rw [List.flatMap_cons, List.filter_append, ih, List.filter_cons]
    by_cases hother : pageOf extension file ≠ page ∧ pageOf extension file ≠ []
    · rw [if_pos (by simpa using hother), List.flatMap_cons]
      congr 1
      refine List.filter_eq_self.mpr fun entry hentry => ?_
      simpa [(mem_listedAt hentry).2] using hother
    · rw [if_neg (by simpa using hother)]
      have hnone : (listedAt t place extension file).filter
          (fun entry => entry.name ≠ page ∧ entry.name ≠ []) = [] := by
        refine List.filter_eq_nil_iff.mpr fun entry hentry => ?_
        simpa [(mem_listedAt hentry).2] using hother
      rw [hnone, List.nil_append]

namespace Saved

/-- What stands under the names of other pages stays. -/
theorem pageNames_kept (h : Saved t directory dialect.fileExtension place page bytes t')
    {file : Name} (hends : endsWith dialect.fileExtension.toList file = true)
    (hfile : file ≠ pageName dialect.fileExtension page) :
    t'.at? (place ++ [file]) = t.at? (place ++ [file]) := by
  rcases h.rest (place ++ [file]) (by simpa using hfile)
    (Or.inr (copyPlace_ne_child _ _ _ _ _).symm) with hsame | ⟨-, -, hfront⟩
  · exact hsame
  · exact absurd hfront (file_not_before hends page)

/-- The files of other pages are the same, in the same order, with the same versions. -/
theorem others_eq (h : Saved t directory dialect.fileExtension place page bytes t') (hpage : page ≠ [])
    (sound : t.Sound) :
    others page ((pageNames t' place dialect.fileExtension).flatMap
        (listedAt t' place dialect.fileExtension)) =
      others page ((pageNames t place dialect.fileExtension).flatMap
        (listedAt t place dialect.fileExtension)) := by
  have hsame : ∀ file, endsWith dialect.fileExtension.toList file = true →
      pageOf dialect.fileExtension file ≠ page → t'.at? (place ++ [file]) = t.at? (place ++ [file]) := by
    intro file hends hother
    refine h.pageNames_kept hends ?_
    rintro rfl
    exact hother (pageOf_pageName _ _)
  rw [others_flatMap, others_flatMap, pageNames, pageNames, List.filter_filter, List.filter_filter]
  rw [@Sound.filter_names_congr _ _ h.sound sound place place _ fun file hfile => by
    simp only [Bool.and_eq_true, decide_eq_true_eq] at hfile
    rw [hsame file hfile.2 hfile.1.1]]
  refine List.flatMap_congr fun file hfile => ?_
  obtain ⟨-, hfile⟩ := List.mem_filter.mp hfile
  simp only [Bool.and_eq_true, decide_eq_true_eq] at hfile
  obtain ⟨⟨hother, hne⟩, hends⟩ := hfile
  rw [listedAt, listedAt, hsame file hends hother, h.versionAt_other hpage hne hother]

/-- **The entries of other pages stay**, unless a page has got an archive that cannot be looked up. -/
theorem listed (h : Saved t directory dialect.fileExtension place page bytes t') (hpage : page ≠ [])
    (sound : t.Sound) (leads : t.Leads directory place) (free : t.LinkFree place)
    (hlist : listPages t directory dialect.fileExtension = .ok pages) :
    (∃ pages', listPages t' directory dialect.fileExtension = .ok pages' ∧
        others page pages' = others page pages) ↔
      ∀ entry ∈ others page pages, HasVersion t' place entry.name := by
  have listed' : ∀ pages', listPages t' directory dialect.fileExtension = .ok pages' ↔ _ :=
    fun pages' => listPages_at h.sound h.stands.toLeads (h.free free)
  obtain ⟨-, -, rfl⟩ := (listPages_at sound leads free).mp hlist
  have hothers := h.others_eq hpage sound
  constructor
  · rintro ⟨pages', hlist', heq⟩ entry hentry
    obtain ⟨-, hversions, rfl⟩ := (listed' pages').mp hlist'
    rw [← heq, mem_others, List.mem_flatMap] at hentry
    obtain ⟨⟨file, hfile, hentry⟩, -⟩ := hentry
    obtain ⟨⟨held, hat⟩, hname⟩ := mem_listedAt hentry
    exact hname ▸ hversions file hfile held hat
  · intro hversions
    refine ⟨_, (listed' _).mpr ⟨h.stands, fun file hfile held hat => ?_, rfl⟩, hothers⟩
    by_cases hother : pageOf dialect.fileExtension file = page
    · rw [hother]
      exact Or.inr (Or.inl (canStand_mangle hpage (h.sound.named _ _ _ h.written)).short)
    by_cases hne : pageOf dialect.fileExtension file = []
    · exact Or.inl hne
    · refine hversions ⟨pageOf dialect.fileExtension file, versionAt t' place
        (pageOf dialect.fileExtension file)⟩ ?_
      rw [← hothers, mem_others, List.mem_flatMap]
      refine ⟨⟨file, hfile, ?_⟩, hother, hne⟩
      rw [listedAt, hat]
      exact List.mem_singleton.mpr rfl

end Saved

end WikiMigration.Store
