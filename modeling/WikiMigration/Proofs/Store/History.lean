/-
The history of the pages of a store.

Saving a page touches the page's own file and adds one to its archive, so the versions of the other
pages stay what they are.  The page's own versions stay, too: the number that the current text had is
the one that its copy gets, and the new text gets the next.
-/
import WikiMigration.Proofs.Store.Listing
import WikiMigration.Proofs.Store.Saving

namespace WikiMigration.Store

open Text Files Files.Tree Action

variable {t t' : Tree} {directory : Path} {dialect : Dialect} {place : Location}
variable {page other text : List Char} {bytes : Bytes}

/-! ### Places of pages -/

theorem archiveNames_of_ne_nil (h : page ≠ []) : archiveNames page = [archiveName, mangle page] := by
  rw [archiveNames, if_neg (by simpa using h)]

theorem pageName_injective {extension : String} (h : pageName extension page = pageName extension other) :
    page = other :=
  mangle_injective (List.append_cancel_right h)

/-- What ends as the files of the pages do is none of the directories on the way to an archive. -/
theorem file_not_before {file : Name} (hends : endsWith dialect.fileExtension.toList file = true)
    (page : List Char) : ¬ place ++ [file] <+: archivePlace place page := by
  rw [archivePlace, List.prefix_append_right_inj]
  intro h
  obtain rfl : file = archiveName := by
    rw [archiveNames] at h
    split at h
    all_goals exact (List.cons_prefix_cons.mp h).1
  cases dialect <;> exact absurd hends (by decide)

theorem endsWith_pageName (extension : String) (page : List Char) :
    endsWith extension.toList (pageName extension page) = true :=
  endsWith_iff.mpr (List.suffix_append _ _)

theorem pageName_ne_archiveName (dialect : Dialect) (page : List Char) :
    pageName dialect.fileExtension page ≠ archiveName := by
  intro h
  have hends := endsWith_pageName dialect.fileExtension page
  rw [h] at hends
  cases dialect <;> exact absurd hends (by decide)

/-- The file of a page is none of the directories on the way to an archive. -/
theorem pagePlace_not_before (dialect : Dialect) (other page : List Char) :
    ¬ place ++ [pageName dialect.fileExtension other] <+: archivePlace place page :=
  file_not_before (endsWith_pageName _ _) page

/-- What stands in the archive of a page is not on the way to an archive. -/
theorem archived_not_before (hpage : other ≠ []) (name : Name) :
    ¬ archivePlace place other ++ [name] <+: archivePlace place page := by
  intro h
  have hlength := h.length_le
  rw [archivePlace, archivePlace, archiveNames_of_ne_nil hpage, archiveNames] at hlength
  split at hlength <;> simp at hlength

theorem archived_ne_pagePlace (hpage : other ≠ []) (name file : Name) :
    archivePlace place other ++ [name] ≠ place ++ [file] := by
  intro h
  have hlength := congrArg List.length h
  rw [archivePlace, archiveNames_of_ne_nil hpage] at hlength
  simp at hlength

theorem archived_ne_copyPlace (hother : other ≠ []) (hpage : page ≠ []) (hne : other ≠ page)
    (name : Name) (extension : String) (version : Nat) :
    archivePlace place other ++ [name] ≠ copyPlace place extension page version := by
  intro h
  rw [copyPlace] at h
  have hplaces := (List.append_inj' h rfl).1
  rw [archivePlace, archivePlace, List.append_cancel_left_eq, archiveNames_of_ne_nil hother,
    archiveNames_of_ne_nil hpage] at hplaces
  exact hne (mangle_injective (by simpa using hplaces))

/-- The version of a page is told by what stands in its archive. -/
theorem versionAt_congr (h : ∀ name, t'.at? (archivePlace place page ++ [name]) =
    t.at? (archivePlace place page ++ [name])) : versionAt t' place page = versionAt t place page :=
  after_congr fun v => mem_versionsAt_congr (fun name v _ => by rw [h]) v

/-! ### What a save keeps -/

namespace Saved

/-- Every file but the page's own stays. -/
theorem file_kept {extension : String} (h : Saved t directory extension place page bytes t')
    {spot : Location} {held : Bytes} (hend : spot ≠ place ++ [pageName extension page])
    (hat : t.at? spot = some (.file held)) : t'.at? spot = some (.file held) := by
  have hcopy : t.at? (place ++ [pageName extension page]) = none ∨
      spot ≠ copyPlace place extension page (versionAt t place page) := by
    cases hbefore : t.at? (place ++ [pageName extension page]) with
    | none => exact Or.inl rfl
    | some entry =>
      obtain ⟨old, rfl⟩ := h.before entry hbefore
      refine Or.inr ?_
      rintro rfl
      rw [(h.copied old hbefore).1] at hat
      cases hat
  rcases h.rest spot hend hcopy with hsame | ⟨hnone, -⟩
  · rw [hsame, hat]
  · rw [hnone] at hat
    cases hat

theorem free {extension : String} (h : Saved t directory extension place page bytes t')
    (before : t.LinkFree place) : t'.LinkFree place := by
  intro rest target hlink
  by_cases hpage : place ++ rest = place ++ [pageName extension page]
  · rw [hpage, h.written] at hlink
    cases hlink
  · cases hat : t.at? (place ++ [pageName extension page]) with
    | none =>
      rcases h.rest _ hpage (Or.inl hat) with hsame | ⟨-, hdir, -⟩
      · exact before rest target (hsame ▸ hlink)
      · rw [hdir] at hlink
        cases hlink
    | some entry =>
      obtain ⟨old, rfl⟩ := h.before entry hat
      by_cases hcopy : place ++ rest = copyPlace place extension page (versionAt t place page)
      · rw [hcopy, (h.copied old hat).2] at hlink
        cases hlink
      · rcases h.rest _ hpage (Or.inr hcopy) with hsame | ⟨-, hdir, -⟩
        · exact before rest target (hsame ▸ hlink)
        · rw [hdir] at hlink
          cases hlink

/-- The files of other pages are untouched. -/
theorem pagePlace_eq (h : Saved t directory dialect.fileExtension place page bytes t')
    (hne : other ≠ page) : t'.at? (place ++ [pageName dialect.fileExtension other]) =
      t.at? (place ++ [pageName dialect.fileExtension other]) := by
  have hfile : place ++ [pageName dialect.fileExtension other] ≠
      place ++ [pageName dialect.fileExtension page] := by
    intro heq
    exact hne (pageName_injective (by simpa using heq))
  rcases h.rest _ hfile (Or.inr (copyPlace_ne_child _ _ _ _ _).symm) with hsame | ⟨-, -, hfront⟩
  · exact hsame
  · exact absurd hfront (pagePlace_not_before _ _ _)

/-- The archives of other pages are untouched. -/
theorem archived_eq (h : Saved t directory dialect.fileExtension place page bytes t')
    (hpage : page ≠ []) (hother : other ≠ []) (hne : other ≠ page) (name : Name) :
    t'.at? (archivePlace place other ++ [name]) = t.at? (archivePlace place other ++ [name]) := by
  rcases h.rest _ (archived_ne_pagePlace hother _ _)
    (Or.inr (archived_ne_copyPlace hother hpage hne _ _ _)) with hsame | ⟨-, -, hfront⟩
  · exact hsame
  · exact absurd hfront (archived_not_before hother _)

theorem versionAt_other (h : Saved t directory dialect.fileExtension place page bytes t')
    (hpage : page ≠ []) (hother : other ≠ []) (hne : other ≠ page) :
    versionAt t' place other = versionAt t place other :=
  versionAt_congr (h.archived_eq hpage hother hne)

/-- A page that is new gets the number that it would have had. -/
theorem versionAt_new (h : Saved t directory dialect.fileExtension place page bytes t')
    (hpage : page ≠ []) (hnone : t.at? (place ++ [pageName dialect.fileExtension page]) = none) :
    versionAt t' place page = versionAt t place page := by
  refine after_congr fun v => mem_versionsAt_congr (fun name v _ => ?_) v
  rcases h.rest _ (archived_ne_pagePlace hpage name _) (Or.inl hnone) with
    hsame | ⟨-, -, hfront⟩
  · rw [hsame]
  · exact absurd hfront (archived_not_before hpage _)

/-- **A page that is there goes up by one version.** -/
theorem versionAt_old (h : Saved t directory dialect.fileExtension place page bytes t')
    (hpage : page ≠ []) {old : Bytes}
    (hat : t.at? (place ++ [pageName dialect.fileExtension page]) = some (.file old)) :
    versionAt t' place page = versionAt t place page + 1 := by
  have hcopied := h.copied old hat
  have hversion : versionOf? (archivedName dialect.fileExtension (versionAt t place page)) =
      some (versionAt t place page) := versionOf?_archived (isEnding_fileExtension dialect) _
  refine after_of_added fun v => mem_versionsAt_of_added hversion ?_ (fun name hname v _ => ?_) v
    hcopied.1
  · exact Option.isSome_iff_exists.mpr ⟨_, hcopied.2⟩
  · have hcopy : archivePlace place page ++ [name] ≠
        copyPlace place dialect.fileExtension page (versionAt t place page) := by
      intro heq
      exact hname (by simpa using (List.append_inj' heq rfl).2)
    rcases h.rest _ (archived_ne_pagePlace hpage name _) (Or.inr hcopy) with
      hsame | ⟨-, -, hfront⟩
    · exact hsame
    · exact absurd hfront (archived_not_before hpage _)

end Saved

/-! ### What is read -/

/-- The text that the tree has of a version of a page. -/
def ReadsFrom (t : Tree) (directory : Path) (extension : String) (page : List Char) (version : Int)
    (text : List Char) : Prop :=
  ∃ file bytes, versionFile t directory extension page version = .ok file ∧
    t.read file = .ok bytes ∧ textOf bytes = .ok text

/-- The place of a version of a page: that of its own file for the latest one and the current one. -/
def versionPlace (t : Tree) (place : Location) (extension : String) (page : List Char)
    (version : Int) : Location :=
  if version = latestVersion ∨ version = versionAt t place page then
    place ++ [pageName extension page]
  else archivePlace place page ++ [(toString version).toList ++ extension.toList]

theorem versionFile_eq_ok {extension : String} {version : Int} {file : Path} :
    versionFile t directory extension page version = .ok file ↔
      version = latestVersion ∧ file = pageFile directory extension page ∨
      version ≠ latestVersion ∧ ∃ current : Nat, currentVersion t directory page = .ok current ∧
        (version = current ∧ file = pageFile directory extension page ∨
          version ≠ current ∧ file = archivedFile directory extension page version) := by
  rw [versionFile]
  by_cases hlatest : version = latestVersion
  · simp [hlatest, pure, Except.pure, eq_comm]
  · have hnot : (version == latestVersion) = false := by simpa using hlatest
    rw [hnot, if_neg (by decide), bind_eq_ok]
    simp only [hlatest, false_and, false_or, ne_eq, not_false_eq_true, true_and]
    refine exists_congr fun current => and_congr_right fun _ => ?_
    by_cases hcurrent : version = current
    · rw [if_pos (by simpa using hcurrent)]
      simp [← hcurrent, pure, Except.pure, eq_comm]
    · rw [if_neg (by simpa using hcurrent)]
      simp [hcurrent, pure, Except.pure, eq_comm]

/-- What a path into the directory of the pages reads is what stands at its place. -/
theorem read_into_iff {names : List Name} (sound : t.Sound) (leads : t.Leads directory place)
    (free : t.LinkFree place) (hnames : names ≠ []) (hplain : ∀ n ∈ names, Name.IsPlain n) :
    t.read (directory.into names) = .ok bytes ↔ t.at? (place ++ names) = some (.file bytes) := by
  rw [read_eq_ok, ← find_eq_ok]
  constructor
  · intro hfind
    obtain ⟨spot, hend, -⟩ := find_eq_ok.mp hfind
    obtain ⟨home, stands⟩ := standing_of_locate_into sound hnames hend
    obtain rfl := leads.eq_of_standing stands
    exact (find_into sound stands (free.clear names) hplain).mp hfind
  · intro hat
    have stands := leads.standing sound (sound.directory_of_behind hnames hat)
    exact (find_into sound stands (free.clear names) hplain).mpr hat

/-- The names that lead to an earlier version of a page. -/
theorem archivedFile_eq_into (directory : Path) (extension : String) (page : List Char)
    (version : Int) : archivedFile directory extension page version = directory.into
      (archiveNames page ++ [(toString version).toList ++ extension.toList]) := by
  rw [archivedFile, archive_eq_into, Path.into_child]

/-- The versions that a store sees within its directory are those at the place that the names spell,
even if the directory has still to be made. -/
theorem versionsIn_within {names : List Name} {versions : List Nat} (sound : t.Sound)
    (leads : t.Leads directory place) (free : t.LinkFree place) (hne : names ≠ [])
    (hnames : ∀ n ∈ names, Name.IsPlain n) (h : versionsIn t (directory.into names) = .ok versions) :
    versions = versionsAt t (place ++ names) := by
  by_cases hdir : t.at? place = some .directory
  · exact versionsIn_into sound (leads.standing sound hdir) (free.clear _) hnames h
  · have hnone : versionsAt t (place ++ names) = [] := by
      rw [versionsAt, sound.names_eq_nil (by simp [sound.at?_eq_none hne hdir])]
      rfl
    rcases versionsIn_eq_ok h with ⟨spot, stands, -⟩ | ⟨-, rfl⟩
    · obtain ⟨home, stands'⟩ := standing_of_locate_into sound hne stands.leads
      exact absurd (leads.eq_of_standing stands' ▸ stands'.directory) hdir
    · rw [hnone]

/-- Whatever the store gives for the version of a page is what the archive tells. -/
theorem currentVersion_eq_ok (sound : t.Sound) (leads : t.Leads directory place)
    (free : t.LinkFree place) {current : Nat}
    (h : currentVersion t directory page = .ok current) : current = versionAt t place page := by
  rw [currentVersion_eq, archive_eq_into] at h
  cases hversions : versionsIn t (directory.into (archiveNames page)) with
  | error e => simp [hversions, Except.map] at h
  | ok versions =>
    rw [hversions] at h
    rw [← Except.ok.inj h, versionAt,
      versionsIn_within sound leads free (archiveNames_ne_nil page) isPlain_archiveNames hversions]
    rfl

theorem read_pageFile_iff (sound : t.Sound) (leads : t.Leads directory place)
    (free : t.LinkFree place) :
    t.read (pageFile directory dialect.fileExtension page) = .ok bytes ↔
      t.at? (place ++ [pageName dialect.fileExtension page]) = some (.file bytes) := by
  refine read_into_iff sound leads free (List.cons_ne_nil _ []) fun n hn => ?_
  rw [List.mem_singleton.mp hn]
  exact isPlain_pageName dialect page

theorem read_archivedFile_iff {version : Int} (sound : t.Sound) (leads : t.Leads directory place)
    (free : t.LinkFree place) :
    t.read (archivedFile directory dialect.fileExtension page version) = .ok bytes ↔
      t.at? (archivePlace place page ++ [(toString version).toList ++ dialect.fileExtension.toList]) =
        some (.file bytes) := by
  rw [archivedFile_eq_into, read_into_iff sound leads free (by simp), archivePlace, List.append_assoc]
  intro n hn
  rcases List.mem_append.mp hn with hn | hn
  · exact isPlain_archiveNames n hn
  · rw [List.mem_singleton.mp hn]
    exact isPlain_append (by cases dialect <;> decide)

/-- What is read as a version stands at its place. -/
theorem read_versionFile_iff {version : Int} {file : Path} (sound : t.Sound)
    (leads : t.Leads directory place) (free : t.LinkFree place)
    (h : versionFile t directory dialect.fileExtension page version = .ok file) :
    t.read file = .ok bytes ↔
      t.at? (versionPlace t place dialect.fileExtension page version) = some (.file bytes) := by
  rw [versionPlace]
  rcases versionFile_eq_ok.mp h with ⟨hlatest, rfl⟩ | ⟨hlatest, current, hcurrent, hfile⟩
  · rw [if_pos (Or.inl hlatest)]
    exact read_pageFile_iff sound leads free
  · obtain rfl := currentVersion_eq_ok sound leads free hcurrent
    rcases hfile with ⟨hsame, rfl⟩ | ⟨hother, rfl⟩
    · rw [if_pos (Or.inr hsame)]
      exact read_pageFile_iff sound leads free
    · rw [if_neg (not_or.mpr ⟨hlatest, hother⟩)]
      exact read_archivedFile_iff sound leads free

/-- Where a version stands, the directory of the pages does, and the name of the page's archive is short
enough to be looked for. -/
theorem short_of_version {version : Int} {entry : Entry} (hpage : page ≠ []) (sound : t.Sound)
    (h : t.at? (versionPlace t place dialect.fileExtension page version) = some entry) :
    t.at? place = some .directory ∧ isTooLong (mangle page) = false := by
  rw [versionPlace] at h
  split at h
  next =>
    exact ⟨sound.housed _ _ _ h, (canStand_mangle hpage (sound.named _ _ _ h)).short⟩
  next =>
    have hhome := sound.housed _ _ _ h
    rw [archivePlace] at hhome
    refine ⟨sound.directory_of_behind (archiveNames_ne_nil page) hhome, ?_⟩
    rw [archiveNames_of_ne_nil hpage, List.append_cons] at hhome
    exact (sound.named _ _ _ hhome).short

theorem exists_versionFile {extension : String} (version : Int) {current : Nat}
    (h : currentVersion t directory page = .ok current) :
    ∃ file, versionFile t directory extension page version = .ok file := by
  by_cases hlatest : version = latestVersion
  · exact ⟨_, versionFile_eq_ok.mpr (Or.inl ⟨hlatest, rfl⟩)⟩
  by_cases hcurrent : version = current
  · exact ⟨_, versionFile_eq_ok.mpr (Or.inr ⟨hlatest, current, h, Or.inl ⟨hcurrent, rfl⟩⟩)⟩
  · exact ⟨_, versionFile_eq_ok.mpr (Or.inr ⟨hlatest, current, h, Or.inr ⟨hcurrent, rfl⟩⟩)⟩

/-- **A version is what stands at its place.** -/
theorem readsFrom_iff {version : Int} (hpage : page ≠ []) (sound : t.Sound)
    (leads : t.Leads directory place) (free : t.LinkFree place) :
    ReadsFrom t directory dialect.fileExtension page version text ↔
      ∃ bytes, t.at? (versionPlace t place dialect.fileExtension page version) =
        some (.file bytes) ∧ textOf bytes = .ok text := by
  constructor
  · rintro ⟨file, bytes, hversion, hread, htext⟩
    exact ⟨bytes, (read_versionFile_iff sound leads free hversion).mp hread, htext⟩
  · rintro ⟨bytes, hat, htext⟩
    obtain ⟨hdir, hshort⟩ := short_of_version hpage sound hat
    have hcurrent :=
      currentVersion_eq_versionAt sound (leads.standing sound hdir) free fun _ => hshort
    obtain ⟨file, hversion⟩ := exists_versionFile version hcurrent
    exact ⟨file, bytes, hversion, (read_versionFile_iff sound leads free hversion).mpr hat, htext⟩

/-- What is read of a page is told by what stands at the place of its file and in its archive. -/
theorem readsFrom_congr {version : Int} (hpage : page ≠ []) (sound : t.Sound)
    (leads : t.Leads directory place) (free : t.LinkFree place) (sound' : t'.Sound)
    (leads' : t'.Leads directory place) (free' : t'.LinkFree place)
    (hfile : t'.at? (place ++ [pageName dialect.fileExtension page]) =
      t.at? (place ++ [pageName dialect.fileExtension page]))
    (harchive : ∀ name, t'.at? (archivePlace place page ++ [name]) =
      t.at? (archivePlace place page ++ [name])) :
    ReadsFrom t' directory dialect.fileExtension page version text ↔
      ReadsFrom t directory dialect.fileExtension page version text := by
  rw [readsFrom_iff hpage sound' leads' free', readsFrom_iff hpage sound leads free]
  rw [versionPlace, versionPlace, versionAt_congr harchive]
  split
  next => rw [hfile]
  next => rw [harchive]

namespace Saved

/-- What is read of other pages stays. -/
theorem reads_other (h : Saved t directory dialect.fileExtension place page bytes t')
    (hpage : page ≠ []) (hother : other ≠ []) (hne : other ≠ page) (sound : t.Sound)
    (leads : t.Leads directory place) (before : t.LinkFree place) {version : Int} :
    ReadsFrom t' directory dialect.fileExtension other version text ↔
      ReadsFrom t directory dialect.fileExtension other version text := by
  exact readsFrom_congr hother sound leads before h.sound h.stands.toLeads (h.free before)
    (h.pagePlace_eq hne) (h.archived_eq hpage hother hne)

/-- **No version of a page is lost.**  The number that the current text had is that of its copy, and
the earlier versions stay under theirs. -/
theorem reads_own (h : Saved t directory dialect.fileExtension place page bytes t')
    (hpage : page ≠ []) (sound : t.Sound) (leads : t.Leads directory place)
    (before : t.LinkFree place) {version : Nat}
    (hreads : ReadsFrom t directory dialect.fileExtension page version text) :
    ReadsFrom t' directory dialect.fileExtension page version text := by
  obtain ⟨held, hat, htext⟩ := (readsFrom_iff hpage sound leads before).mp hreads
  refine (readsFrom_iff hpage h.sound h.stands.toLeads (h.free before)).mpr ⟨held, ?_, htext⟩
  have hlatest : ((version : Int) = latestVersion) = False := by
    simp only [latestVersion, eq_iff_iff, iff_false]
    omega
  simp only [versionPlace, hlatest, false_or, Int.natCast_inj] at hat ⊢
  split at hat
  next hcurrent =>
    -- It was the current version, so it is the one that is copied.
    subst hcurrent
    rw [h.versionAt_old hpage hat, if_neg (Nat.ne_of_lt (Nat.lt_succ_self _))]
    exact (h.copied held hat).2
  next hcurrent =>
    have hkept := h.file_kept (archived_ne_pagePlace hpage _ _) hat
    have hmem : version ∈ versionsAt t (archivePlace place page) :=
      mem_versionsAt.mpr ⟨_, _, hat, versionOf?_archived (isEnding_fileExtension dialect) version⟩
    have hlt : version < versionAt t place page := lt_after hmem
    rw [if_neg]
    · exact hkept
    · cases hbefore : t.at? (place ++ [pageName dialect.fileExtension page]) with
      | none =>
        rw [h.versionAt_new hpage hbefore]
        exact hcurrent
      | some entry =>
        obtain ⟨old, rfl⟩ := h.before entry hbefore
        rw [h.versionAt_old hpage hbefore]
        omega

theorem reads_latest (h : Saved t directory dialect.fileExtension place page
    (Utf8.encode text) t') (hpage : page ≠ []) (before : t.LinkFree place) :
    ReadsFrom t' directory dialect.fileExtension page latestVersion (normalizeNewlines text) := by
  refine (readsFrom_iff hpage h.sound h.stands.toLeads (h.free before)).mpr
    ⟨Utf8.encode text, ?_, ?_⟩
  · rw [versionPlace, if_pos (Or.inl rfl)]
    exact h.written
  · rw [textOf, Utf8.decode_encode]
    rfl

end Saved

end WikiMigration.Store
