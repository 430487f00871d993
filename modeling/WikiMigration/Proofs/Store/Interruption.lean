/-
What is left where the saving of a page is broken off.

The steps stage the text, so all that stood before still stands, wherever they stop, and the staging
file is gone when a step fails.  The page can be read as it was until the very last step, which puts
the whole new text in its place.

A page is archived before it is replaced.  The copy stands in the directory of the page's earlier versions
under a number that none of them has.  That directory is there before, and the page's version is the number
after the latest one in it, or it is made for the copy and has nothing in it.
-/
import WikiMigration.Proofs.Store.Staging
import WikiMigration.Proofs.Store.World
import WikiMigration.Store.Page

namespace WikiMigration.Store

open Text Files Files.Tree Action

section Archive

/-! ### Where the copies stand -/

/-- The names that lead to a page's earlier versions from the directory of the pages. -/
def archiveNames (page : List Char) : List Name :=
  if page.isEmpty then [archiveName] else [archiveName, mangle page]

theorem archive_eq_into (directory : Path) (page : List Char) :
    archive directory page = directory.into (archiveNames page) := by
  rw [archive, archiveNames]
  split <;> simp [Path.into, Path.child]

theorem isPlain_archiveNames {page : List Char} : ∀ n ∈ archiveNames page, Name.IsPlain n := by
  have harchive : Name.IsPlain archiveName := ⟨by decide, by decide, by decide⟩
  intro n hn
  rw [archiveNames] at hn
  split at hn
  next => rwa [List.mem_singleton.mp hn]
  next hempty =>
    rcases List.mem_cons.mp hn with rfl | hn
    · exact harchive
    · rw [List.mem_singleton.mp hn]
      exact isPlain_mangle (by simpa using hempty)

/-- The name of the file of an earlier version. -/
def archivedName (extension : String) (version : Nat) : Name := digits version ++ extension.toList

theorem isPlain_archivedName (extension : String) (version : Nat) :
    Name.IsPlain (archivedName extension version) := isPlain_versionText _ _

theorem archivedName_ne_stagingName (extension : String) (version : Nat) (mark name : Name) :
    archivedName extension version ≠ stagingName mark name := by
  obtain ⟨c, rest, hdigits, hc⟩ := digits_head version
  rw [archivedName, hdigits, stagingName]
  intro h
  exact hc (List.cons.inj h).1

variable {t t₁ t₂ t₃ t' : Tree} {directory : Path} {extension : String} {page : List Char}
variable {mark name : Name} {bytes : Bytes} {place : Location}

/-- The version under which a page is archived. -/
def archivedVersion (t : Tree) (directory : Path) (page : List Char) : Nat :=
  match currentVersion t directory page with
  | .ok version => version
  | .error _ => 1

theorem archivedVersion_eq {versions : List Nat}
    (h : versionsIn t (archive directory page) = .ok versions) :
    archivedVersion t directory page = after versions := by
  simp [archivedVersion, currentVersion_eq, h, Except.map]

/-- A copy of a page, as far as it is written: it has a version that had no file. -/
structure IsCopy (t : Tree) (directory : Path) (extension : String) (page : List Char) (t' : Tree)
    (place : Location) (bytes : Bytes) : Prop where
  unused : ∃ version : Nat, t'.locate (archivedFile directory extension page version) = .ok place ∧
    ∀ versions, versionsIn t (archive directory page) = .ok versions → version ∉ versions
  beginning : ∃ old, t.read (pageFile directory extension page) = .ok old ∧ bytes <+: old

theorem IsCopy.stays {t₂ : Tree} (keeps : t₁.Keeps t₂) (hat : t₂.at? place = some (.file bytes))
    (h : IsCopy t directory extension page t₁ place bytes) :
    IsCopy t directory extension page t₂ place bytes := by
  obtain ⟨⟨version, hleads, hunused⟩, hbeginning⟩ := h
  exact ⟨⟨version, follow_of_keeps keeps hleads (by simp [hat]), hunused⟩, hbeginning⟩

/-! ### The copying -/

theorem hasFile_iff : hasFile t directory extension page = true ↔
    ∃ entry, t.find (pageFile directory extension page) = .ok entry := by
  rw [hasFile, isThere, about, find?]
  cases t.find (pageFile directory extension page) with
  | ok entry => simp [Except.map]
  | error fault => cases fault <;> simp [Except.map]

/-- Where the page has a file, its directory is there from the start. -/
theorem Opened.eq_of_find {entry : Entry} (h : Opened t directory mark name place t₁)
    (sound : t.Sound) (hfind : t.find (directory.child name) = .ok entry) : t₁ = t := by
  obtain ⟨spot, hend, -⟩ := find_eq_ok.mp hfind
  obtain ⟨home, stands⟩ := standing_of_locate_child sound hend
  have hmade := h.made
  rw [makeDirectories_of_standing stands] at hmade
  exact (Prod.mk.inj hmade).2.symm

/-- **The version under which a page is archived has no file.** -/
theorem Filled.unused (h : Filled t directory mark name bytes place t₂) (sound : t.Sound)
    (ending : IsEnding extension.toList) {entry : Entry}
    (hfind : t.find (directory.child name) = .ok entry)
    (hmade : t₂.makeDirectories (archive directory page) = (none, t₃)) :
    ∃ arch, t₃.Standing (archive directory page) arch ∧
      t₃.at? (arch ++ [archivedName extension (archivedVersion t directory page)]) = none := by
  have sound₂ := h.sound
  have stands₂ := h.stands
  obtain ⟨t₁, opened, hplace, -, rfl⟩ := h.through
  obtain rfl := opened.eq_of_find sound hfind
  have attempts := Tree.makeDirectories_attempts
    (t₁.put (place ++ [stagingName mark name]) (.file bytes)) (archive directory page)
  rw [hmade] at attempts
  obtain ⟨arch, stands, hnew⟩ := attempts.standsNew rfl (archive_eq_into directory page) sound₂
    stands₂ isPlain_archiveNames
  refine ⟨arch, stands, ?_⟩
  rcases hnew with hsame | ⟨-, hempty⟩
  · obtain rfl : t₃ = _ := hsame
    -- The directory was there, and its versions are those that the page's version is told by.
    have stands' := stands.of_keeps (hplace.keeps_back bytes)
    have hnone : t₁.at? (arch ++ [archivedName extension (archivedVersion t₁ directory page)]) =
        none := by
      refine at?_after ?_
      rw [archivedVersion_eq (versionsIn_of_standing stands')]
      exact versionOf?_archived ending _
    rw [hplace.at?_put, if_neg]
    · exact hnone
    · intro heq
      have hnames := (List.append_inj' heq rfl).2
      exact archivedName_ne_stagingName _ _ _ _ (by simpa using hnames)
  · exact hempty _

/-- The bytes that a path reads; none if it does not. -/
def readOrNone (t : Tree) (path : Path) : Bytes :=
  match t.read path with
  | .ok bytes => bytes
  | .error _ => []

/-- The steps that archive a page that has a file. -/
theorem archiveSteps_eq (t : Tree) (directory : Path) (extension : String) (page : List Char) :
    ∃ old, archiveSteps t directory extension page =
      [.makeDirectories (archive directory page),
        .openToRead (pageFile directory extension page)] ++
        writing ((archive directory page).child
          (archivedName extension (archivedVersion t directory page))) old ∧
      ∀ bytes, t.read (pageFile directory extension page) = .ok bytes → old = bytes := by
  refine ⟨readOrNone t (pageFile directory extension page), ?_, fun bytes hread => ?_⟩
  · rw [archiveSteps, archivedVersion]
    cases currentVersion t directory page <;> rfl
  · rw [readOrNone, hread]

/-- The steps before the copy is written. -/
theorem archive_opened (h : applySteps t₂ [.makeDirectories (archive directory page),
      .openToRead (pageFile directory extension page)] = (none, t₃)) :
    t₂.makeDirectories (archive directory page) = (none, t₃) ∧
      ∃ held, t₃.read (pageFile directory extension page) = .ok held := by
  rw [← List.singleton_append, applySteps_append_eq] at h
  obtain ⟨t₄, hmade, h⟩ := h
  rw [applySteps_singleton, FileStep.apply, ended_eq_none] at h
  rw [applySteps_singleton] at hmade
  cases hread : t₄.read (pageFile directory extension page) with
  | error e => simp [hread, Except.map] at h
  | ok held =>
    rw [hread] at h
    obtain rfl : t₄ = t₃ := Except.ok.inj h
    exact ⟨hmade, held, hread⟩

/-- The copy is new, however much of it is written. -/
theorem Filled.copied {held part : Bytes} {copied : Location} {entry : Entry}
    (h : Filled t directory mark (mangle page ++ extension.toList) bytes place t₂)
    (sound : t.Sound) (ending : IsEnding extension.toList)
    (hfind : t.find (pageFile directory extension page) = .ok entry)
    (hmade : t₂.makeDirectories (archive directory page) = (none, t₃))
    (hread : t₃.read (pageFile directory extension page) = .ok held)
    (hplace : IsFilePlace t₃ ((archive directory page).child
      (archivedName extension (archivedVersion t directory page))) copied)
    (hpart : ∀ old, t.read (pageFile directory extension page) = .ok old → part <+: old) :
    (t₃.put copied (.file part)).Sound ∧
      Adds (IsCopy t directory extension page (t₃.put copied (.file part))) t₂
        (t₃.put copied (.file part)) := by
  have grows := (grows_of_makeDirectories h.sound hmade).1
  obtain ⟨arch, stands, hnone⟩ := h.unused sound ending hfind hmade
  obtain ⟨rfl, -⟩ := hplace.eq_child stands (isPlain_archivedName _ _) (by simp [hnone])
  obtain ⟨spot, hend, -, hat⟩ :=
    (h.adds.trans (Adds.of_grows grows)).read_back hfind hread
  have hread' := read_eq_ok.mpr ⟨spot, hend, hat⟩
  refine ⟨hplace.sound_put part, (Adds.of_grows grows).trans (.of_put hplace hnone ?_)⟩
  refine ⟨⟨archivedVersion t directory page, (hplace.put part).leads, fun versions hv hmem => ?_⟩,
    held, hread', hpart held hread'⟩
  rw [archivedVersion_eq hv] at hmem
  exact Nat.lt_irrefl _ (lt_after hmem)

/-- **Archiving adds the page's copy and nothing else.** -/
theorem between_archive (sound : t.Sound) (ending : IsEnding extension.toList)
    (hthere : hasFile t directory extension page = true) :
    Between t directory mark (mangle page ++ extension.toList) bytes
      (archiveSteps t directory extension page) (IsCopy t directory extension page) := by
  obtain ⟨entry, hfind⟩ := hasFile_iff.mp hthere
  obtain ⟨old, hsteps, hold⟩ := archiveSteps_eq t directory extension page
  have hgrows : ∀ {t₂ t₃}, t₂.Grows t₃ ∧ t₃.Sound →
      t₃.Sound ∧ Adds (IsCopy t directory extension page t₃) t₂ t₃ :=
    fun h => ⟨h.2, .of_grows h.1⟩
  rw [hsteps]
  refine ⟨fun {place t₂ t'} filled h => ?_, fun {place t₂ t'} filled h => ?_, ?_⟩
  · rcases breaks_append h with h | ⟨t₃, happly, h⟩
    · -- It is broken off before the page is opened, so there are directories at most.
      rw [← List.singleton_append] at h
      rcases breaks_append h with h | ⟨t₃, hmade, h⟩
      · exact hgrows (making_broken filled.sound h)
      · cases breaks_singleton h
        exact hgrows (grows_of_makeDirectories filled.sound (applySteps_singleton.mp hmade))
    · obtain ⟨hmade, held, hread⟩ := archive_opened happly
      have grows := grows_of_makeDirectories filled.sound hmade
      rcases writing_broken grows.2 h with rfl | ⟨copied, part, hplace, hpart, rfl⟩
      · exact hgrows grows
      · exact filled.copied sound ending hfind hmade hread hplace
          fun bytes hbytes => hold bytes hbytes ▸ hpart
  · obtain ⟨t₃, happly, hwrite⟩ := applySteps_append_eq.mp h
    obtain ⟨hmade, held, hread⟩ := archive_opened happly
    have grows := grows_of_makeDirectories filled.sound hmade
    obtain ⟨copied, hplace, rfl⟩ := writing_done grows.2 hwrite
    exact filled.copied sound ending hfind hmade hread hplace
      fun bytes hbytes => hold bytes hbytes ▸ List.prefix_rfl
  · exact IsCopy.stays

end Archive

variable {t t₁ t' : Tree} {directory : Path} {mark name : Name} {bytes : Bytes} {place : Location}
variable {between : List FileStep} {copy : Tree → Location → Bytes → Prop}

/-! ### What is read afterwards -/

/-- What a path reads is the whole of a file that stood before, and what it read before it reads
still. -/
structure ReadsOld (t : Tree) (path : Path) (t' : Tree) : Prop where
  kept : ∀ held, t.read path = .ok held → t'.read path = .ok held
  whole : ∀ held, t'.read path = .ok held →
    ∃ place, t'.locate path = .ok place ∧ t.at? place = some (.file held)

theorem readsOld_of_find {sort : Location → Bytes → Prop} {path : Path} {entry : Entry}
    (adds : Adds sort t t') (hfind : t.find path = .ok entry) : ReadsOld t path t' := by
  refine ⟨fun held => adds.read, fun held hread => ?_⟩
  obtain ⟨spot, -, hend, hat⟩ := adds.read_back hfind hread
  exact ⟨spot, hend, hat⟩

theorem readsOld_of_adds {path : Path} (adds : Adds (noCopy t') t t') :
    ReadsOld t path t' := by
  refine ⟨fun held => adds.read, fun held hread => ?_⟩
  obtain ⟨spot, hend, hat⟩ := read_eq_ok.mp hread
  refine ⟨spot, hend, ?_⟩
  cases hbefore : t.at? spot with
  | none =>
    rcases adds.added spot _ hbefore hat with hdir | ⟨_, -, hnone⟩
    · cases hdir
    · exact hnone.elim
  | some entry => rw [← hat, adds.kept _ _ hbefore]

/-! ### What is there when the steps are done -/

/-- What is there when a file has taken its place: it has all its bytes, its staging file is gone, and
all else is as it was right before, when only directories, the staging file and copies were new. -/
structure Completed (t : Tree) (directory : Path) (mark name : Name) (bytes : Bytes)
    (copy : Tree → Location → Bytes → Prop) (place : Location) (t₃ t' : Tree) : Prop where
  stands : t₃.Standing directory place
  left : Left t (stagingFile mark (directory.child name)) copy t₃
  replaced : Replaced t₃ place mark name bytes t'
  /-- Whatever is read is the whole of an old file, the whole of the new one, or a copy. -/
  whole : ∀ path held, t'.read path = .ok held → ∃ spot, t'.locate path = .ok spot ∧
    (t.at? spot = some (.file held) ∨ spot = place ++ [name] ∧ held = bytes ∨ copy t₃ spot held)
  /-- The new file is read under its name, unless a link had it and was on the way to it. -/
  read : (∀ target, t.at? (place ++ [name]) ≠ some (.link target)) →
    t'.read (directory.child name) = .ok bytes

theorem staged_completed (sound : t.Sound) (hname : Name.IsPlain name)
    (fresh : IsFresh t directory mark name)
    (hbetween : Between t directory mark name bytes between copy)
    (h : applySteps t (stagedSteps directory mark name bytes between) = (none, t')) :
    ∃ place t₁ t₃, Opened t directory mark name place t₁ ∧
      Completed t directory mark name bytes copy place t₃ t' := by
  obtain ⟨place, t₁, t₂, t₃, opened, filled, happly, replaced⟩ :=
    staged_done sound hname fresh hbetween h
  obtain ⟨sound₃, adds⟩ := hbetween.done filled happly
  have left := filled.left sound₃ adds
  have stands := filled.stands.of_keeps adds.keeps
  have hself := filled.locateSelf adds.keeps
  have hnew : t'.at? (place ++ [name]) = some (.file bytes) := by
    rw [replaced.at?, if_pos rfl]
  refine ⟨place, t₁, t₃, opened, stands, left, replaced, fun path held hread => ?_,
    fun hlink => ?_⟩
  · obtain ⟨spot, hend, hat⟩ := read_eq_ok.mp hread
    refine ⟨spot, hend, ?_⟩
    have hat' := hat
    rw [replaced.at?] at hat
    split at hat
    next hplace => exact Or.inr (Or.inl ⟨hplace, by simpa using hat.symm⟩)
    next =>
      split at hat
      next => cases hat
      next hstaged =>
        cases hbefore : t.at? spot with
        | some entry =>
          rw [left.adds.kept _ _ hbefore] at hat
          exact Or.inl hat
        | none =>
          rcases left.adds.added _ _ hbefore hat with hdir | ⟨held', heq, hplace | hcopy⟩
          · cases hdir
          · exact absurd (Except.ok.inj (hplace.symm.trans hself)) hstaged
          · obtain rfl : held = held' := by simpa using heq
            exact Or.inr (Or.inr hcopy)
  · -- What the file takes the place of is a file or nothing, so its directory is still reached.
    have keeps : t₃.Keeps t' := replaced.keeps
      (fun target hat => hlink target (left.adds.at?_link hat)) (adds.kept _ _ filled.at?_staged)
    have hcan : Name.CanStand name := replaced.sound.named _ _ _ hnew
    exact read_eq_ok.mpr ⟨_, (stands.of_keeps keeps).locate_child hcan (by simp [hnew]), hnew⟩

/-! ### Pages -/

/-- The name of the file of a page. -/
def pageName (extension : String) (page : List Char) : Name := mangle page ++ extension.toList

theorem pageFile_eq_child (directory : Path) (extension : String) (page : List Char) :
    pageFile directory extension page = directory.child (pageName extension page) := rfl

variable {extension : String} {page text : List Char}

theorem isPlain_pageName (dialect : Dialect) (page : List Char) :
    Name.IsPlain (pageName dialect.fileExtension page) := by
  refine isPlain_append ?_
  cases dialect <;> decide

/-- What is done between the staging of a page and its taking its place. -/
def archiveBetween (t : Tree) (directory : Path) (extension : String) (page : List Char) :
    List FileStep :=
  if hasFile t directory extension page then archiveSteps t directory extension page else []

theorem saveSteps_eq (t : Tree) (directory : Path) (extension : String) (mark : Name)
    (page text : List Char) : saveSteps t directory extension mark page text =
      stagedSteps directory mark (pageName extension page) (Utf8.encode text)
        (archiveBetween t directory extension page) := by
  rw [saveSteps, stagedSteps, archiveBetween]
  simp [pageFile_eq_child]

/-- Copies of the page are added at most, and they are only if the page was there. -/
theorem between_page (sound : t.Sound) (ending : IsEnding extension.toList) :
    Between t directory mark (pageName extension page) (Utf8.encode text)
      (archiveBetween t directory extension page) (IsCopy t directory extension page) := by
  rw [archiveBetween]
  split
  next hthere => exact between_archive sound ending hthere
  next => exact between_nil IsCopy.stays

theorem pageName_ne_stagingName (dialect : Dialect) (page : List Char) (mark name : Name) :
    pageName dialect.fileExtension page ≠ stagingName mark name := by
  intro h
  have hends : endsWith dialect.fileExtension.toList (pageName dialect.fileExtension page) = true :=
    endsWith_iff.mpr (List.suffix_append _ _)
  rw [h, (stagingName_unseen mark name).1 _ (isEnding_fileExtension dialect)] at hends
  cases hends

/-- What is cleaned up after a page leaves its file as it was. -/
theorem page_cleaned (sound : t.Sound) (ending : IsEnding extension.toList)
    (h : ∀ copy, Between t directory mark (pageName extension page) (Utf8.encode text)
        (archiveBetween t directory extension page) copy →
      Cleaned t (stagingFile mark (pageFile directory extension page)) copy t') :
    Cleaned t (stagingFile mark (pageFile directory extension page))
        (IsCopy t directory extension page) t' ∧
      ReadsOld t (pageFile directory extension page) t' := by
  have cleaned := h _ (between_page sound ending)
  refine ⟨cleaned, ?_⟩
  cases hthere : hasFile t directory extension page with
  | true =>
    obtain ⟨entry, hfind⟩ := hasFile_iff.mp hthere
    exact readsOld_of_find cleaned.adds hfind
  | false =>
    have hnil : archiveBetween t directory extension page = [] := by
      rw [archiveBetween, hthere, if_neg (by decide)]
    exact readsOld_of_adds (h noCopy (hnil ▸ between_nil_noCopy)).adds

namespace FilePages

/-- The file of a page. -/
abbrev file (store : FilePages) (page : List Char) : Path :=
  pageFile store.directory store.extension page

/-- The file that a page is staged in. -/
abbrev staged (store : FilePages) (page : List Char) : Path :=
  stagingFile store.mark (store.file page)

/-- The steps that save a page. -/
abbrev steps (store : FilePages) (t : Tree) (page text : List Char) : List FileStep :=
  saveSteps t store.directory store.extension store.mark page text

theorem steps_eq (store : FilePages) (t : Tree) (page text : List Char) :
    store.steps t page text = stagedSteps store.directory store.mark
      (pageName store.extension page) (Utf8.encode text)
      (archiveBetween t store.directory store.extension page) := saveSteps_eq ..

/-- What a copy of a page is. -/
abbrev copyOf (store : FilePages) (t : Tree) (page : List Char) : Tree → Location → Bytes → Prop :=
  IsCopy t store.directory store.extension page

end FilePages

/-- What the saving of a page leaves, wherever it stops and however it ends. -/
structure SavesWhole (store : FilePages) (page text : List Char) (w : World) : Prop where
  /-- It may stop anywhere. -/
  stopped : ∀ t', Breaks (store.steps w.tree page text) w.tree t' →
    Left w.tree (store.staged page) (store.copyOf w.tree page) t' ∧
      ReadsOld w.tree (store.file page) t'
  /-- A step behind the making of the directory may fail, and the staging file is discarded. -/
  raised : ∀ t₁ t', w.tree.makeDirectories store.directory = (none, t₁) →
    Breaks (store.steps w.tree page text).tail t₁ t' →
    Cleaned w.tree (store.staged page) (store.copyOf w.tree page)
        (discard t' (store.staged page)) ∧
      ReadsOld w.tree (store.file page) (discard t' (store.staged page))
  done : ∀ t', applySteps w.tree (store.steps w.tree page text) = (none, t') →
    ∃ place t₃, Completed w.tree store.directory store.mark (pageName store.extension page)
      (Utf8.encode text) (store.copyOf w.tree page) place t₃ t'
  gives : ∀ w', (store.save page text).Gives w () w' →
    applySteps w.tree (store.steps w.tree page text) = (none, w'.tree)
  fails : ∀ e w', (store.save page text).Fails w e w' →
    Cleaned w.tree (store.staged page) (store.copyOf w.tree page) w'.tree ∧
      ReadsOld w.tree (store.file page) w'.tree

/-- What a store remembers is no part of the tree. -/
theorem gives_remember {store : FilePages} {f : PageCache → PageCache} {w w' : World} {u : Unit}
    (h : (store.remember f).Gives w u w') : w'.tree = w.tree := by
  rw [FilePages.remember, gives_change] at h
  rw [← h]
  split <;> rfl

theorem save_gives {store : FilePages} {page text : List Char} {w w' : World} {u : Unit}
    (h : (store.save page text).Gives w u w') :
    applySteps w.tree (store.steps w.tree page text) = (none, w'.tree) := by
  rw [FilePages.save] at h
  simp only [gives_bind, gives_world, gives_classified, gives_makeSteps, gives_log] at h
  obtain ⟨_, _, ⟨rfl, rfl⟩, _, w₁, ⟨t', happly, rfl⟩, _, w₂, hremember, rfl⟩ := h
  rw [happly, gives_remember hremember]
  rfl

theorem save_fails {store : FilePages} {page text : List Char} {w w' : World} {e : Failure}
    (h : (store.save page text).Fails w e w') :
    ∃ fault t', applySteps w.tree (store.steps w.tree page text) = (some fault, t') ∧
      w'.tree = discard t' (store.staged page) := by
  rw [FilePages.save, fails_bind] at h
  rcases h with h | ⟨_, _, hworld, h⟩
  · exact absurd h not_fails_world
  · obtain ⟨rfl, rfl⟩ := gives_world.mp hworld
    rcases fails_bind.mp h with h | ⟨_, w₁, -, h⟩
    · obtain ⟨e', h⟩ := fails_classified h
      obtain ⟨fault, t', happly, -, rfl⟩ := fails_makeSteps.mp h
      exact ⟨fault, t', happly, rfl⟩
    · rcases fails_bind.mp h with h | ⟨_, w₂, -, h⟩
      · exact absurd h not_fails_change
      · exact absurd h not_fails_log

/-- **A page is never half written.** -/
theorem savesWhole (store : FilePages) (page text : List Char) (w : World) (sound : w.tree.Sound)
    (fresh : IsFresh w.tree store.directory store.mark (pageName store.extension page)) :
    SavesWhole store page text w := by
  have ending : IsEnding store.extension.toList := isEnding_fileExtension _
  have hsteps := store.steps_eq w.tree page text
  refine ⟨fun t' h => ?_, fun t₁ t' hmade h => ?_, fun t' h => ?_, fun w' => save_gives,
    fun e w' h => ?_⟩
  · rw [hsteps] at h
    have left := staged_left sound fresh (between_page sound ending) h
    refine ⟨left, ?_⟩
    cases hthere : hasFile w.tree store.directory store.extension page with
    | true =>
      obtain ⟨entry, hfind⟩ := hasFile_iff.mp hthere
      exact readsOld_of_find left.adds hfind
    | false =>
      rw [archiveBetween, hthere, if_neg (by decide)] at h
      refine ⟨fun held => left.adds.read, fun held hread => ?_⟩
      obtain ⟨spot, hend, hat⟩ := read_eq_ok.mp hread
      exact ⟨spot, hend, staged_reads sound fresh h (pageName_ne_stagingName _ _ _ _) hend hat⟩
  · rw [hsteps] at h
    exact page_cleaned sound ending fun copy hbetween =>
      staged_cleaned sound fresh hbetween hmade h
  · rw [hsteps] at h
    obtain ⟨place, t₁, t₃, -, completed⟩ :=
      staged_completed sound (isPlain_pageName _ _) fresh (between_page sound ending) h
    exact ⟨place, t₃, completed⟩
  · obtain ⟨fault, t', happly, htree⟩ := save_fails h
    rw [hsteps] at happly
    rw [htree]
    exact page_cleaned sound ending fun copy hbetween => staged_failed sound fresh hbetween happly

end WikiMigration.Store
