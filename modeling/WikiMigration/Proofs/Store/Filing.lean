/-
A store of attachments in use.

Attachments are stored one after the other, for any pages and under any names.  Each gets the number after
the latest version of its name, and takes the place of nothing: whatever could be opened can be opened as
before, and what was stored last is the latest version.  This holds of each storing by itself, and what
one keeps the next ones keep.
-/
import WikiMigration.Proofs.Store.Attached
import WikiMigration.Proofs.Store.Undisturbed

namespace WikiMigration.Store

open Text Files Files.Tree Action

variable {engine : Engine} {place : Location} {w w' start : World} {page file : List Char}
variable {bytes : Bytes} {version : Int}

/-! ### Opening and listing -/

/-- A version of an attachment can be opened, and a stream of it has the bytes. -/
def Yields (engine : Engine) (w : World) (page file : List Char) (version : Int) (bytes : Bytes) :
    Prop :=
  ∃ mark size stream w₁ w₂, (FileAttachments.openStream ⟨engine, mark⟩ page
      ⟨file, page, version, size⟩).Gives w stream w₁ ∧
    (FileAttachments.read stream none).Gives w₁ bytes w₂

theorem yields_iff : Yields engine w page file version bytes ↔
    Opens w.tree engine.pageDirectory page file version bytes := by
  constructor
  · rintro ⟨mark, size, stream, w₁, w₂, hopen, hread⟩
    obtain ⟨held, hopens, rfl, rfl⟩ := FileAttachments.openStream_gives hopen
    rwa [@FileAttachments.read_gives_all _ _ _ _ held (by simp) hread]
  · rintro ⟨path, hpath, hbytes⟩
    let opened : World := { w with streams := w.streams ++ [some bytes] }
    have hread : ∃ w₂, (FileAttachments.read w.streams.length none).Gives opened bytes w₂ := by
      let rest := opened.streams.set w.streams.length (some (bytes.drop bytes.length))
      refine ⟨{ opened with streams := rest }, ?_⟩
      simp only [FileAttachments.read, gives_bind, gives_world]
      refine ⟨opened, opened, ⟨rfl, rfl⟩, ?_⟩
      simp only [opened, List.getElem?_concat_length, Option.join_some, Option.getD_none,
        List.take_length]
      exact gives_bind.mpr ⟨(), _, gives_change.mpr rfl, gives_pure.mpr ⟨rfl, rfl⟩⟩
    obtain ⟨w₂, hread⟩ := hread
    refine ⟨[], 0, w.streams.length, opened, w₂, ?_, hread⟩
    rw [FileAttachments.openStream, FileAttachments.path]
    simp only [gives_bind, gives_inspect, gives_classified, gives_world, gives_change, gives_pure]
    exact ⟨path, w, ⟨hpath, rfl⟩, bytes, w, ⟨hbytes, rfl⟩, w, w, ⟨rfl, rfl⟩, (), _, rfl, rfl, rfl⟩

/-- The attachments of a page can be listed, and they are those. -/
def ListsAttachments (engine : Engine) (w : World) (page : List Char) (found : List Attachment) :
    Prop :=
  ∃ mark w', (FileAttachments.list ⟨engine, mark⟩ page).Gives w found w'

theorem listsAttachments_iff {found : List Attachment} : ListsAttachments engine w page found ↔
    listAttachments w.tree engine.pageDirectory page = .ok found := by
  constructor
  · rintro ⟨mark, w', hlist⟩
    exact ((looks_list ⟨engine, mark⟩ page w found w').mp hlist).2
  · exact fun hlist => ⟨[], w, (looks_list ⟨engine, []⟩ page w found w).mpr ⟨rfl, hlist⟩⟩

/-- The latest version of an attachment, as its store tells it. -/
def HasLatest (engine : Engine) (w : World) (page file : List Char) (version : Nat) : Prop :=
  latestIn w.tree (attachmentVersions engine.pageDirectory page file) = .ok (some version)

/-! ### Storing -/

/-- A version of an attachment that has been stored. -/
structure Deposit where
  page : List Char
  file : List Char
  bytes : Bytes
  version : Nat

/-- The bytes of a stream are stored as a version, and the name of the staging file is a new one. -/
structure Puts (engine : Engine) (place : Location) (deposit : Deposit) (w w' : World) : Prop where
  stored : ∃ mark number size reader read, LeavesTree reader ∧
    (∀ t, ∃ w₁, (reader none).Gives (w.setTree t) deposit.bytes w₁) ∧
    (∀ version : Nat, w.tree.at? (versionsPlace place deposit.page deposit.file ++
      [stagingName mark (versionName deposit.file version)]) = none) ∧
    (FileAttachments.put ⟨engine, mark⟩ ⟨deposit.file, deposit.page, number, size⟩ reader).Gives w
      (some (deposit.version : Int), read) w'

/-- The world of a store of attachments: no links stand in its directory, and the directories of
attachments have the names that the store gives. -/
structure Stocked (engine : Engine) (place : Location) (w : World) : Prop where
  sound : w.tree.Sound
  leads : w.tree.Leads engine.pageDirectory place
  free : w.tree.LinkFree place
  own : OwnAttachments w.tree place

theorem Puts.tree {deposit : Deposit} (h : Puts engine place deposit w w') (stocked : Stocked engine place w) :
    deposit.version = after (versionsAt w.tree (versionsPlace place deposit.page deposit.file)) ∧
      Deposited w.tree (versionsPlace place deposit.page deposit.file) deposit.file deposit.bytes w'.tree := by
  obtain ⟨mark, number, size, reader, read, quiet, hbytes, hnone, hput⟩ := h.stored
  have fresh : FileAttachments.IsFresh ⟨engine, mark⟩ ⟨deposit.file, deposit.page, number, size⟩ w.tree := by
    intro version
    rw [versions_eq_into]
    exact isFresh_within stocked.sound stocked.leads stocked.free isPlain_attachment (hnone version)
  obtain ⟨hversion, deposited, t, w₁, hread⟩ :=
    deposited_of_fresh stocked.sound
    (show w.tree.Leads (FileAttachments.directory ⟨engine, mark⟩) place from stocked.leads)
    (stocked.free.into _) fresh quiet hput
  obtain ⟨w₂, hbytes⟩ := hbytes t
  obtain rfl := (hread.unique hbytes).1
  exact ⟨Int.ofNat.inj (Option.some.inj hversion), deposited⟩

theorem Puts.stocked {deposit : Deposit} (h : Puts engine place deposit w w')
    (stocked : Stocked engine place w) : Stocked engine place w' := by
  obtain ⟨-, deposited⟩ := h.tree stocked
  have hdir := deposited.sound.directory_of_behind (Holding.names_ne_nil _) deposited.directory
  exact ⟨deposited.sound,
    (stocked.leads.standing_of_keeps deposited.keeps deposited.sound hdir).toLeads,
    deposited.free stocked.free, stocked.own.deposited deposited⟩

theorem Stocked.yields_iff (h : Stocked engine place w) : Yields engine w page file version bytes ↔
    w.tree.at? (attachedPlace w.tree place page file version) = some (.file bytes) := by
  rw [Store.yields_iff, opens_iff_at h.sound h.leads h.free]

theorem Stocked.hasLatest_iff (h : Stocked engine place w) {version : Nat} :
    HasLatest engine w page file version ↔
      (versionsAt w.tree (versionsPlace place page file)).max? = some version :=
  latestIn_eq_some h.sound h.leads h.free

/-- The number of the latest version can be told of an attachment for which something is stored. -/
theorem Puts.tells {deposit : Deposit} (h : Puts engine place deposit w w')
    (stocked : Stocked engine place w) :
    latestIn w.tree (attachmentVersions engine.pageDirectory deposit.page deposit.file) =
      .ok (versionsAt w.tree (versionsPlace place deposit.page deposit.file)).max? := by
  obtain ⟨-, deposited⟩ := h.tree stocked
  -- All names on the way can stand, since the directory stands afterwards.
  have hnames := deposited.sound.canStand deposited.directory
  have hlocate := stocked.leads.not_long stocked.sound stocked.free
    (fun n hn => hnames n (List.mem_append_left _ hn)) (fun n hn => hnames n (List.mem_append_right _ hn))
  rw [← attachmentVersions_eq_into] at hlocate
  obtain ⟨isDirectory, hdir⟩ := isDirectory_of_not_long hlocate
  have hlatest : ∃ latest, latestIn w.tree
      (attachmentVersions engine.pageDirectory deposit.page deposit.file) = .ok latest := by
    rcases isDirectory_eq_ok hdir with ⟨-, spot, stands⟩ | ⟨rfl, -⟩
    · exact ⟨_, by rw [latestIn, versionsIn_of_standing stands]; rfl⟩
    · exact ⟨_, by rw [latestIn, versionsIn_of_isDirectory_false hdir]; rfl⟩
  obtain ⟨latest, hlatest⟩ := hlatest
  rw [hlatest, latestIn_eq_max stocked.sound stocked.leads stocked.free hlatest]

/-- What the storing of one version does to a store. -/
structure PutKeeps (engine : Engine) (deposit : Deposit) (w w' : World) : Prop where
  /-- The version is the one after the latest, or the first. -/
  next : ∃ latest, latestIn w.tree (attachmentVersions engine.pageDirectory deposit.page deposit.file) =
    .ok latest ∧ deposit.version = latest.getD 0 + 1
  /-- Nothing is overwritten. -/
  kept : ∀ spot entry, w.tree.at? spot = some entry → w'.tree.at? spot = some entry
  stored : Yields engine w' deposit.page deposit.file deposit.version deposit.bytes
  latest : HasLatest engine w' deposit.page deposit.file deposit.version ∧
    Yields engine w' deposit.page deposit.file latestVersion deposit.bytes
  /-- The other versions are what they were. -/
  earlier : ∀ version : Nat, version ≠ deposit.version → ∀ bytes,
    Yields engine w' deposit.page deposit.file version bytes ↔
      Yields engine w deposit.page deposit.file version bytes
  /-- So are the other attachments. -/
  others : ∀ page file, ¬ (page = deposit.page ∧ file = deposit.file) →
    (∀ version bytes, Yields engine w' page file version bytes ↔ Yields engine w page file version bytes) ∧
      ∀ version, HasLatest engine w' page file version ↔ HasLatest engine w page file version

theorem Puts.keeps {deposit : Deposit} (h : Puts engine place deposit w w')
    (stocked : Stocked engine place w) : PutKeeps engine deposit w w' := by
  obtain ⟨hversion, deposited⟩ := h.tree stocked
  have stocked' := h.stocked stocked
  refine ⟨⟨_, h.tells stocked, hversion⟩, fun spot entry => deposited.kept, ?_, ⟨?_, ?_⟩, ?_, ?_⟩
  · rw [stocked'.yields_iff, hversion]
    exact deposited.attached_new
  · rw [stocked'.hasLatest_iff, hversion]
    exact deposited.max?_eq
  · exact stocked'.yields_iff.mpr deposited.attached_latest
  · intro version hne bytes
    rw [stocked'.yields_iff, stocked.yields_iff, deposited.attached_earlier (hversion ▸ hne)]
  · refine fun page file hne => ⟨fun version bytes => ?_, fun version => ?_⟩
    · rw [stocked'.yields_iff, stocked.yields_iff, deposited.attached_other hne]
    · rw [stocked'.hasLatest_iff, stocked.hasLatest_iff, deposited.max?_other hne]

/-! ### A session -/

/-- A store in use: what was stored, in its order, and the world that is left. -/
inductive Filing (engine : Engine) (place : Location) (start : World) : List Deposit → World → Prop
  | start : Filing engine place start [] start
  | put {deposits : List Deposit} {deposit : Deposit} {w w' : World}
      (h : Filing engine place start deposits w) (puts : Puts engine place deposit w w') :
      Filing engine place start (deposits ++ [deposit]) w'

variable {deposits : List Deposit}

theorem Filing.stocked (h : Filing engine place start deposits w)
    (stocked : Stocked engine place start) : Stocked engine place w := by
  induction h with
  | start => exact stocked
  | put h puts ih => exact puts.stocked ih

/-- What was stored last as an attachment. -/
def lastDeposit (deposits : List Deposit) (page file : List Char) : Option Deposit :=
  deposits.reverse.find? fun deposit => page = deposit.page ∧ file = deposit.file

theorem lastDeposit_snoc (deposits : List Deposit) (deposit : Deposit) (page file : List Char) :
    lastDeposit (deposits ++ [deposit]) page file =
      if page = deposit.page ∧ file = deposit.file then some deposit
      else lastDeposit deposits page file := by
  rw [lastDeposit, List.reverse_append, List.reverse_singleton, List.singleton_append, List.find?_cons]
  by_cases hsame : page = deposit.page ∧ file = deposit.file
  · simp [hsame]
  · simp [hsame, lastDeposit]

/-- What a session keeps. -/
structure FilingKeeps (engine : Engine) (start : World) (deposits : List Deposit) (w : World) : Prop where
  /-- Whatever was stored can be opened under its version. -/
  stored : ∀ deposit ∈ deposits,
    Yields engine w deposit.page deposit.file deposit.version deposit.bytes
  /-- So can what was there before. -/
  earlier : ∀ page file (version : Nat) bytes, Yields engine start page file version bytes →
    Yields engine w page file version bytes
  kept : ∀ spot entry, start.tree.at? spot = some entry → w.tree.at? spot = some entry
  /-- What was stored last is the latest version. -/
  latest : ∀ page file deposit, lastDeposit deposits page file = some deposit →
    HasLatest engine w page file deposit.version ∧
      Yields engine w page file deposit.version deposit.bytes ∧
      Yields engine w page file latestVersion deposit.bytes
  /-- Attachments of which nothing was stored are what they were. -/
  others : ∀ page file, lastDeposit deposits page file = none →
    (∀ version bytes, Yields engine w page file version bytes ↔ Yields engine start page file version bytes) ∧
      ∀ version, HasLatest engine w page file version ↔ HasLatest engine start page file version

/-- What can be opened under a number stays. -/
theorem PutKeeps.yields {deposit : Deposit} (h : PutKeeps engine deposit w w') (hnew : ∀ bytes,
      ¬ Yields engine w deposit.page deposit.file deposit.version bytes) {version : Nat}
    (hyields : Yields engine w page file version bytes) : Yields engine w' page file version bytes := by
  by_cases hsame : page = deposit.page ∧ file = deposit.file
  · obtain ⟨rfl, rfl⟩ := hsame
    refine (h.earlier version ?_ bytes).mpr hyields
    rintro rfl
    exact hnew bytes hyields
  · exact ((h.others page file hsame).1 version bytes).mpr hyields

theorem FilingKeeps.nil : FilingKeeps engine start [] start where
  stored _ hmem := by cases hmem
  earlier _ _ _ _ h := h
  kept _ _ h := h
  latest _ _ _ hlast := by cases hlast
  others _ _ _ := ⟨fun _ _ => Iff.rfl, fun _ => Iff.rfl⟩

/-- A version that is new adds to what a session keeps. -/
theorem FilingKeeps.snoc {deposits : List Deposit} {deposit : Deposit}
    (h : FilingKeeps engine start deposits w) (keeps : PutKeeps engine deposit w w')
    (hnew : ∀ bytes, ¬ Yields engine w deposit.page deposit.file deposit.version bytes) :
    FilingKeeps engine start (deposits ++ [deposit]) w' where
  stored old hold := by
    rcases List.mem_append.mp hold with hold | hold
    · exact keeps.yields hnew (h.stored old hold)
    · rw [List.mem_singleton.mp hold]
      exact keeps.stored
  earlier page file version bytes hyields := keeps.yields hnew (h.earlier _ _ _ _ hyields)
  kept spot entry hat := keeps.kept spot entry (h.kept spot entry hat)
  latest page file last hlast := by
    rw [lastDeposit_snoc] at hlast
    split at hlast
    next hsame =>
      obtain ⟨rfl, rfl⟩ := hsame
      obtain rfl := Option.some.inj hlast
      exact ⟨keeps.latest.1, keeps.stored, keeps.latest.2⟩
    next hne =>
      obtain ⟨hlatest, hyields, hopens⟩ := h.latest page file last hlast
      obtain ⟨htexts, hnumbers⟩ := keeps.others page file hne
      exact ⟨(hnumbers _).mpr hlatest, (htexts _ _).mpr hyields, (htexts _ _).mpr hopens⟩
  others page file hlast := by
    rw [lastDeposit_snoc] at hlast
    split at hlast
    next => cases hlast
    next hne =>
      obtain ⟨htexts, hnumbers⟩ := keeps.others page file hne
      obtain ⟨htexts', hnumbers'⟩ := h.others page file hlast
      exact ⟨fun version bytes => (htexts version bytes).trans (htexts' version bytes),
        fun version => (hnumbers version).trans (hnumbers' version)⟩

/-- Nothing could be opened under the number that a version gets. -/
theorem Puts.not_yields {deposit : Deposit} (puts : Puts engine place deposit w w')
    (stocked : Stocked engine place w) (bytes : Bytes) :
    ¬ Yields engine w deposit.page deposit.file deposit.version bytes := by
  intro hyields
  obtain ⟨hversion, deposited⟩ := puts.tree stocked
  rw [stocked.yields_iff, attachedPlace, if_neg (by rw [latestVersion]; omega), hversion,
    deposited.unused] at hyields
  cases hyields

theorem Filing.keeps (h : Filing engine place start deposits w) (stocked : Stocked engine place start) :
    FilingKeeps engine start deposits w := by
  induction h with
  | start => exact .nil
  | put h puts ih =>
    have stocked := h.stocked stocked
    exact ih.snoc (puts.keeps stocked) (puts.not_yields stocked)

/-! ### The list after a session -/

/-- What is listed of a page of which something was stored. -/
structure FilingLists (engine : Engine) (start : World) (deposits : List Deposit) (w : World)
    (page : List Char) : Prop where
  /-- Each attachment is listed once. -/
  once : ∀ found, ListsAttachments engine w page found → (found.map Attachment.file).Nodup
  /-- What was stored last is listed with its version and its size. -/
  latest : ∀ found, ListsAttachments engine w page found → ∀ file deposit,
    lastDeposit deposits page file = some deposit →
    ⟨file, page, deposit.version, deposit.bytes.length⟩ ∈ found
  /-- There is a list unless a version from before the session has a name that is too long. -/
  lists : (∃ found, ListsAttachments engine w page found) ↔ ∀ file version,
    lastDeposit deposits page file = none → HasLatest engine start page file version →
      isTooLong (versionName file version) = false

theorem Stocked.at?_of_yields (h : Stocked engine place w) {version : Nat}
    (hyields : Yields engine w page file version bytes) :
    w.tree.at? (versionsPlace place page file ++ [versionName file version]) = some (.file bytes) := by
  rwa [h.yields_iff, attachedPlace, if_neg (by rw [latestVersion]; omega)] at hyields

theorem Filing.lists (h : Filing engine place start deposits w) (stocked : Stocked engine place start)
    (hpage : ∃ file deposit, lastDeposit deposits page file = some deposit) :
    FilingLists engine start deposits w page := by
  have keeps := h.keeps stocked
  have stocked := h.stocked stocked
  obtain ⟨file, deposit, hlast⟩ := hpage
  obtain ⟨-, hyields, -⟩ := keeps.latest page file deposit hlast
  have hdir := directory_of_attachment stocked.sound
    (stocked.sound.housed _ _ _ (stocked.at?_of_yields hyields))
  have stands := standing_of_within stocked.sound stocked.leads (Holding.names_ne_nil _) hdir
  constructor
  · intro found hlist
    exact ((stocked.own.lists stocked.sound stands (stocked.free.into _)).once stocked.sound
      (listsAttachments_iff.mp hlist)).1
  · intro found hlist file deposit hlast
    obtain ⟨hlatest, hyields, -⟩ := keeps.latest page file deposit hlast
    exact mem_listAttachments stocked.sound stocked.leads stocked.free (listsAttachments_iff.mp hlist)
      hlatest (stocked.at?_of_yields hyields)
  · simp only [listsAttachments_iff]
    rw [listAttachments_ok_iff stocked.sound stocked.leads stocked.free stocked.own hdir]
    constructor
    · intro hshort file version hnone hlatest
      exact hshort file version (((keeps.others page file hnone).2 version).mpr hlatest)
    · intro hshort file version hlatest
      cases hlast : lastDeposit deposits page file with
      | none => exact hshort file version hlast (((keeps.others page file hlast).2 version).mp hlatest)
      | some deposit =>
        obtain ⟨hlatest', hyields, -⟩ := keeps.latest page file deposit hlast
        obtain rfl := Option.some.inj (Except.ok.inj (hlatest.symm.trans hlatest'))
        exact (stocked.sound.named _ _ _ (stocked.at?_of_yields hyields)).short

/-- **The history of the attachments is kept.**  After any session, every version that was stored and
every one from before can be opened with its bytes, what was stored last as an attachment is its latest
version, and it is listed once with its number and size if there is a list; and whatever is stored next
gets the number after the latest version, and leaves all else as it was. -/
theorem attachments_kept (stocked : Stocked engine place start)
    (filing : Filing engine place start deposits w) :
    FilingKeeps engine start deposits w ∧
      (∀ page, (∃ file deposit, lastDeposit deposits page file = some deposit) →
        FilingLists engine start deposits w page) ∧
      ∀ deposit w', Puts engine place deposit w w' → PutKeeps engine deposit w w' :=
  ⟨filing.keeps stocked, fun _ hpage => filing.lists stocked hpage,
    fun _ _ puts => puts.keeps (filing.stocked stocked)⟩

/-- The reader of a stream of these bytes. -/
def readerOf (bytes : Bytes) : StreamReader World := fun _ => pure bytes

theorem leavesTree_readerOf (bytes : Bytes) : LeavesTree (readerOf bytes) := by
  rintro size w w' rfl
  rfl

/-- Where nothing is staged, a store's staging files are new ones. -/
theorem puts_of_gives {mark : Name} {deposit : Deposit}
    (hentries : ∀ e ∈ w.tree.entries, endsWith ".tmp".toList (e.1.getLastD []) = false)
    (hput : (FileAttachments.put ⟨engine, mark⟩ ⟨deposit.file, deposit.page, 0, 0⟩
      (readerOf deposit.bytes)).Gives w (some (deposit.version : Int), deposit.bytes) w') :
    Puts engine place deposit w w' := by
  refine ⟨mark, 0, 0, readerOf deposit.bytes, _, leavesTree_readerOf _,
    fun t => ⟨w.setTree t, gives_pure.mpr ⟨rfl, rfl⟩⟩, fun version => ?_, hput⟩
  rw [at?_of_ne_nil _ (by simp)]
  cases hat : w.tree.entries.lookup (versionsPlace place deposit.page deposit.file ++
    [stagingName mark (versionName deposit.file version)]) with
  | none => rfl
  | some entry =>
    have hends := hentries _ (mem_of_lookup hat)
    rw [List.getLastD_concat, endsWith_iff.mpr (suffix_stagingName _ _)] at hends
    cases hends

/-- The first version of an attachment of the wiki of one page. -/
def firstDraft : Deposit := ⟨"Home".toList, "a.txt".toList, Utf8.encode "draft".toList, 1⟩

/-- The next version of it. -/
def secondDraft : Deposit := ⟨"Home".toList, "a.txt".toList, Utf8.encode "text".toList, 2⟩

/-- The wiki of one page once the version is stored. -/
def putDraft (deposit : Deposit) (w : World) : World :=
  (FileAttachments.put ⟨wikiEngine, "x".toList⟩ ⟨deposit.file, deposit.page, 0, 0⟩
    (readerOf deposit.bytes) w).world

/-- Whether the directories of attachments have names of the store's can be told by the entries. -/
theorem ownAttachments_of_entries {t : Tree} (h : ∀ e ∈ t.entries, e.1.length = place.length + 2 →
    ∃ file, e.1.getLastD [] = mangle file ++ fileSuffix) : OwnAttachments t place := by
  intro page name hdir _
  rw [at?_of_ne_nil _ (by simp)] at hdir
  obtain ⟨file, hfile⟩ := h _ (mem_of_lookup hdir) (by simp)
  exact ⟨file, by simpa using hfile⟩

theorem onePage_stocked : Stocked wikiEngine ["wiki".toList] onePage :=
  ⟨onePage_sound, onePage_stands.toLeads, onePage_linkFree _, ownAttachments_of_entries (by simp [onePage])⟩

/-- Two versions are stored, and both can be opened. -/
theorem onePage_attachments_kept : ∃ w,
    Filing wikiEngine ["wiki".toList] onePage [firstDraft, secondDraft] w ∧
      Yields wikiEngine w "Home".toList "a.txt".toList 1 firstDraft.bytes ∧
      Yields wikiEngine w "Home".toList "a.txt".toList latestVersion secondDraft.bytes ∧
      ∃ found, ListsAttachments wikiEngine w "Home".toList found ∧
        ⟨"a.txt".toList, "Home".toList, 2, 4⟩ ∈ found := by
  have puts₁ : Puts wikiEngine ["wiki".toList] firstDraft onePage (putDraft firstDraft onePage) :=
    puts_of_gives (by decide) ⟨by decide +kernel, rfl⟩
  have puts₂ : Puts wikiEngine ["wiki".toList] secondDraft (putDraft firstDraft onePage)
      (putDraft secondDraft (putDraft firstDraft onePage)) :=
    puts_of_gives (by decide +kernel) ⟨by decide +kernel, rfl⟩
  have filing := (Filing.start.put puts₁).put puts₂
  obtain ⟨keeps, lists, -⟩ := attachments_kept onePage_stocked filing
  have hlast : lastDeposit [firstDraft, secondDraft] "Home".toList "a.txt".toList = some secondDraft := rfl
  have hlists := lists "Home".toList ⟨_, _, hlast⟩
  have hbare : ∀ file, onePage.tree.at? (versionsPlace ["wiki".toList] "Home".toList file) ≠
      some .directory := by
    intro file hdir
    have hnone : onePage.tree.at? (attachmentsPlace ["wiki".toList] "Home".toList) = none := by decide
    rw [directory_of_attachment onePage_sound hdir] at hnone
    cases hnone
  obtain ⟨found, hfound⟩ := hlists.lists.mpr fun file version _ hlatest => by
    rw [onePage_stocked.hasLatest_iff, versionsAt, onePage_sound.names_eq_nil (hbare file)] at hlatest
    cases hlatest
  exact ⟨_, filing, keeps.stored firstDraft (by simp), (keeps.latest _ _ _ hlast).2.2, found, hfound,
    hlists.latest found hfound _ _ hlast⟩

/-- The name of an attachment whose ending is nearly as long as the name of a file can be. -/
def wideName : List Char := "x.".toList ++ List.replicate 41 'é' ++ "aaa".toList

/-- A page with such an attachment, in a version that has a file under another ending. -/
def widePage : World where
  tree := ⟨[(["wiki".toList], .directory), (["wiki".toList, "Home-att".toList], .directory),
    (["wiki".toList, "Home-att".toList, mangle wideName ++ fileSuffix], .directory),
    (["wiki".toList, "Home-att".toList, mangle wideName ++ fileSuffix, "100000.b".toList], .file [])]⟩

theorem widePage_stocked : Stocked wikiEngine ["wiki".toList] widePage := by
  refine ⟨sound_of_entries (by decide +kernel) (by decide +kernel), Standing.toLeads ?_,
    linkFree_of_entries (by decide +kernel) _, ownAttachments_of_entries ?_⟩
  · constructor <;> decide
  · intro e he hlength
    simp only [widePage, List.mem_cons, List.not_mem_nil, or_false] at he
    rcases he with rfl | rfl | rfl | rfl
    · cases hlength
    · cases hlength
    · exact ⟨wideName, rfl⟩
    · cases hlength

/-- An attachment that is stored is not listed, since another one of the page stops the listing: the file
that its latest version would have cannot even be looked for. -/
theorem widePage_unlisted : Stocked wikiEngine ["wiki".toList] widePage ∧
    ∃ w deposit, Filing wikiEngine ["wiki".toList] widePage [deposit] w ∧
      deposit.page = "Home".toList ∧ ¬ ∃ found, ListsAttachments wikiEngine w "Home".toList found := by
  have puts : Puts wikiEngine ["wiki".toList] firstDraft widePage (putDraft firstDraft widePage) :=
    puts_of_gives (by decide +kernel) ⟨by decide +kernel, rfl⟩
  have filing := Filing.start.put puts
  have hpage : ∃ file deposit, lastDeposit [firstDraft] "Home".toList file = some deposit :=
    ⟨"a.txt".toList, firstDraft, rfl⟩
  have hlatest : HasLatest wikiEngine widePage "Home".toList wideName 100000 := by
    rw [HasLatest]
    decide +kernel
  refine ⟨widePage_stocked, _, firstDraft, filing, rfl, fun hfound => ?_⟩
  have hshort := (filing.lists widePage_stocked hpage).lists.mp hfound wideName 100000
    (by decide +kernel) hlatest
  exact absurd hshort (by decide +kernel)

end WikiMigration.Store
