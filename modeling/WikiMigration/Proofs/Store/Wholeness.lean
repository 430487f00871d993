/-
What is left where the storing of an attachment is broken off, and what the stores see of it.

A version is staged like a page, under a number that no version has, so nothing takes the place of
anything: the versions that were there can all be read as they were, and the new one is there with all
its bytes or not at all.  With what holds of pages this says that nothing is ever half written.
-/
import WikiMigration.Proofs.Store.Interruption
import WikiMigration.Proofs.Store.Listing

namespace WikiMigration.Store

open Text Files Files.Tree Action

/-! ### Storing -/

/-- The number that the next version gets once its directory is there. -/
def IsNext (t : Tree) (versions : Path) (version : Nat) : Prop :=
  ∀ t₁, t.makeDirectories versions = (none, t₁) → nextVersion t₁ versions = .ok version

namespace FileAttachments

/-- The directory of the versions of an attachment. -/
abbrev versions (store : FileAttachments) (attachment : Attachment) : Path :=
  attachmentVersions store.directory attachment.page attachment.file

/-- The file that a version is staged in. -/
abbrev staged (store : FileAttachments) (attachment : Attachment) (version : Nat) : Path :=
  stagingFile store.mark ((store.versions attachment).child (versionName attachment.file version))

/-- The steps that store a version. -/
def steps (store : FileAttachments) (attachment : Attachment) (version : Nat) (bytes : Bytes) :
    List FileStep :=
  stagedSteps (store.versions attachment) store.mark (versionName attachment.file version) bytes []

/-- Whatever version comes next, its staging file is a fresh one. -/
def IsFresh (store : FileAttachments) (attachment : Attachment) (t : Tree) : Prop :=
  ∀ version : Nat, Store.IsFresh t (store.versions attachment) store.mark
    (versionName attachment.file version)

end FileAttachments

/-- Reading leaves the tree as it is. -/
def LeavesTree (reader : StreamReader World) : Prop :=
  ∀ size w w', (reader size).Leaves w w' → w'.tree = w.tree

/-- What is stored is what the reader gives once the staging file is there. -/
theorem put_reads {store : FileAttachments} {attachment : Attachment}
    {reader : StreamReader World} {w w' : World} {stored : Option Int} {bytes : Bytes}
    (quiet : LeavesTree reader)
    (h : (store.put attachment reader).Gives w (stored, bytes) w') :
    ∃ version : Nat, stored = some (version : Int) ∧
      IsNext w.tree (store.versions attachment) version ∧
      applySteps w.tree (store.steps attachment version bytes) = (none, w'.tree) ∧
      ∃ t w₁, (reader none).Gives (w.setTree t) bytes w₁ := by
  rw [FileAttachments.put] at h
  simp only [gives_bind, gives_classified, gives_makeSteps, gives_inspect, gives_attempt,
    gives_log, gives_pure] at h
  obtain ⟨⟨version, bytes'⟩, w₅, ⟨_, _, ⟨t₁, hmade, rfl⟩, version', _, ⟨hnext, rfl⟩, _, _,
    ⟨t₂, hcreate, rfl⟩, result, w₄, ⟨hresult, hleaves⟩, hstore⟩, _, _, rfl, heq, rfl⟩ := h
  obtain ⟨hstored, rfl⟩ := Prod.mk.inj heq
  cases result with
  | error failure =>
    obtain ⟨_, _, -, hfail⟩ := gives_bind.mp hstore
    obtain ⟨_, _, hfail, -⟩ := gives_bind.mp hfail
    exact absurd hfail gives_fail
  | ok held =>
    simp only [gives_bind, gives_pure, gives_makeSteps] at hstore
    obtain ⟨_, _, ⟨rfl, rfl⟩, _, _, ⟨t₃, hfill, rfl⟩, heq, rfl⟩ := hstore
    obtain ⟨rfl, rfl⟩ := Prod.mk.inj heq
    have hmade' := applySteps_singleton.mp hmade
    refine ⟨version', hstored.symm, fun t₁' hmade₁ => ?_, ?_, t₂, w₄, hresult, hleaves⟩
    · obtain rfl : t₁ = t₁' := (Prod.mk.inj (hmade'.symm.trans hmade₁)).2
      exact hnext
    · have htree : w₄.tree = t₂ := quiet none _ w₄ hleaves
      rw [htree] at hfill
      rw [FileAttachments.steps, stagedSteps_eq, applySteps_append_eq]
      refine ⟨t₁, hmade, ?_⟩
      rw [behindSteps, List.append_nil, writing, ← List.singleton_append, List.append_assoc,
        applySteps_append_eq]
      exact ⟨t₂, hcreate, hfill⟩

theorem put_gives {store : FileAttachments} {attachment : Attachment}
    {reader : StreamReader World} {w w' : World} {stored : Option Int} {bytes : Bytes}
    (quiet : LeavesTree reader)
    (h : (store.put attachment reader).Gives w (stored, bytes) w') :
    ∃ version : Nat, stored = some (version : Int) ∧
      IsNext w.tree (store.versions attachment) version ∧
      applySteps w.tree (store.steps attachment version bytes) = (none, w'.tree) ∧
      ∃ w₁ w₂, (reader none).Gives w₁ bytes w₂ := by
  obtain ⟨version, hstored, hnext, happly, t, w₁, hreads⟩ := put_reads quiet h
  exact ⟨version, hstored, hnext, happly, _, w₁, hreads⟩

/-- What breaks off behind the opening of the staging file breaks off behind the making of the directory. -/
theorem breaks_behindSteps {directory : Path} {mark name : Name} {bytes : Bytes} {t₁ t₂ t' : Tree}
    (hopen : applySteps t₁ [.create (stagingFile mark (directory.child name))] = (none, t₂))
    (h : Breaks (storeSteps mark (directory.child name) bytes) t₂ t') :
    Breaks (behindSteps directory mark name bytes []) t₁ t' := by
  rw [behindSteps, List.append_nil, writing, ← List.singleton_append, List.append_assoc]
  exact breaks_append_right hopen h

/-- Where storing fails: the directory cannot be made, or the number of the version not be told, or the
steps behind that are broken off and the staging file is discarded. -/
theorem put_broken {store : FileAttachments} {attachment : Attachment}
    {reader : StreamReader World} {w w' : World} {e : Failure} (quiet : LeavesTree reader)
    (h : (store.put attachment reader).Fails w e w') :
    (∃ fault, w.tree.makeDirectories (store.versions attachment) = (some fault, w'.tree)) ∨
      ∃ t₁, w.tree.makeDirectories (store.versions attachment) = (none, t₁) ∧
        ((∃ fault, nextVersion t₁ (store.versions attachment) = .error fault) ∨
        ∃ version bytes t', Breaks (behindSteps (store.versions attachment) store.mark
            (versionName attachment.file (version : Nat)) bytes []) t₁ t' ∧
          w'.tree = discard t' (store.staged attachment version)) := by
  rw [FileAttachments.put, fails_bind] at h
  rcases h with h | ⟨_, _, -, h⟩
  · obtain ⟨e', h⟩ := fails_classified h
    rcases fails_bind.mp h with h | ⟨_, _, hfirst, h⟩
    · obtain ⟨fault, t', happly, -, rfl⟩ := fails_makeSteps.mp h
      rw [applySteps_singleton_eq] at happly
      exact Or.inl ⟨fault, happly⟩
    obtain ⟨t₁, hmade, rfl⟩ := gives_makeSteps.mp hfirst
    rw [applySteps_singleton] at hmade
    refine Or.inr ⟨t₁, hmade, ?_⟩
    rcases fails_bind.mp h with h | ⟨version, _, hnext, h⟩
    · obtain ⟨fault, hnext, -⟩ := fails_inspect.mp h
      exact Or.inl ⟨fault, hnext⟩
    obtain ⟨-, rfl⟩ := gives_inspect.mp hnext
    refine Or.inr ⟨version, ?_⟩
    rcases fails_bind.mp h with h | ⟨_, _, hopen, h⟩
    · obtain ⟨fault, t', happly, -, rfl⟩ := fails_makeSteps.mp h
      exact ⟨[], t', breaks_append_left (breaks_append_left (breaks_of_fault happly)), rfl⟩
    obtain ⟨t₂, hcreate, rfl⟩ := gives_makeSteps.mp hopen
    rcases fails_bind.mp h with h | ⟨result, w₄, hread, h⟩
    · exact absurd h not_fails_attempt
    obtain ⟨hresult, hleaves⟩ := gives_attempt.mp hread
    have htree : w₄.tree = t₂ := quiet none _ w₄ hleaves
    cases result with
    | error failure =>
      -- The stream fails, which is no step of its own: all is as before the next one.
      rcases fails_bind.mp h with h | ⟨_, w₅, hdiscard, h⟩
      · exact absurd h not_fails_change
      rcases fails_bind.mp h with h | ⟨_, _, hfail, -⟩
      · obtain ⟨-, rfl⟩ := fails_fail.mp h
        rw [← gives_change.mp hdiscard, setTree_tree, htree]
        exact ⟨[], t₂, breaks_behindSteps hcreate (.within .nothing), rfl⟩
      · exact absurd hfail gives_fail
    | ok bytes =>
      rcases fails_bind.mp h with h | ⟨bytes', _, hpure, h⟩
      · exact absurd h not_fails_pure
      obtain ⟨rfl, rfl⟩ := gives_pure.mp hpure
      rcases fails_bind.mp h with h | ⟨_, _, -, h⟩
      · obtain ⟨fault, t', happly, -, rfl⟩ := fails_makeSteps.mp h
        rw [htree] at happly
        exact ⟨bytes, t', breaks_behindSteps hcreate (breaks_of_fault happly), rfl⟩
      · exact absurd h not_fails_pure
  · rcases fails_bind.mp h with h | ⟨_, _, -, h⟩
    · exact absurd h not_fails_log
    · exact absurd h not_fails_pure

theorem put_fails {store : FileAttachments} {attachment : Attachment}
    {reader : StreamReader World} {w w' : World} {e : Failure} (sound : w.tree.Sound)
    (quiet : LeavesTree reader)
    (fresh : store.IsFresh attachment w.tree)
    (h : (store.put attachment reader).Fails w e w') :
    ∃ version : Nat, Cleaned w.tree (store.staged attachment version) noCopy w'.tree := by
  rcases put_broken quiet h with ⟨fault, hmade⟩ | ⟨t₁, hmade, ⟨fault, hnext⟩ | hbroken⟩
  · exact ⟨0, (making_cleaned sound hmade).2⟩
  · obtain ⟨place, opened⟩ := opened_of_made sound (fresh 0) hmade
    rw [nextVersion_eq, versionsIn_of_standing opened.stands] at hnext
    cases hnext
  · obtain ⟨version, bytes, t', hbreaks, htree⟩ := hbroken
    rw [htree]
    exact ⟨version, staged_cleaned sound (fresh version) between_nil_noCopy hmade hbreaks⟩

/-- What the storing of an attachment leaves, wherever it stops and however it ends. -/
structure StoresWhole (store : FileAttachments) (attachment : Attachment) (w : World) : Prop where
  /-- It may stop anywhere. -/
  stopped : ∀ (version : Nat) bytes t', Breaks (store.steps attachment version bytes) w.tree t' →
    Left w.tree (store.staged attachment version) noCopy t' ∧
      ∀ name, name ≠ stagingName store.mark (versionName attachment.file version) →
        ReadsOld w.tree ((store.versions attachment).child name) t'
  /-- A step behind the making of the directory may fail, and the staging file is discarded. -/
  raised : ∀ (version : Nat) bytes t₁ t',
    w.tree.makeDirectories (store.versions attachment) = (none, t₁) →
    Breaks (store.steps attachment version bytes).tail t₁ t' →
    Cleaned w.tree (store.staged attachment version) noCopy
        (discard t' (store.staged attachment version)) ∧
      ∀ path, ReadsOld w.tree path (discard t' (store.staged attachment version))
  /-- The new version takes the place of nothing. -/
  done : ∀ (version : Nat) bytes t', IsNext w.tree (store.versions attachment) version →
    applySteps w.tree (store.steps attachment version bytes) = (none, t') →
    ∃ place t₃, w.tree.at? (place ++ [versionName attachment.file version]) = none ∧
      Completed w.tree (store.versions attachment) store.mark
        (versionName attachment.file version) bytes noCopy place t₃ t'
  gives : ∀ reader stored bytes w', LeavesTree reader →
    (store.put attachment reader).Gives w (stored, bytes) w' →
    ∃ version : Nat, stored = some (version : Int) ∧
      IsNext w.tree (store.versions attachment) version ∧
      applySteps w.tree (store.steps attachment version bytes) = (none, w'.tree) ∧
      ∃ w₁ w₂, (reader none).Gives w₁ bytes w₂
  fails : ∀ reader e w', LeavesTree reader → (store.put attachment reader).Fails w e w' →
    ∃ version : Nat, Cleaned w.tree (store.staged attachment version) noCopy w'.tree ∧
      ∀ path, ReadsOld w.tree path w'.tree

/-- **A version of an attachment is never half written.** -/
theorem storesWhole (store : FileAttachments) (attachment : Attachment) (w : World)
    (sound : w.tree.Sound) (fresh : store.IsFresh attachment w.tree) : StoresWhole store attachment w := by
  refine ⟨fun version bytes t' h => ?_, fun version bytes t₁ t' hmade h => ?_,
    fun version bytes t' hnext h => ?_, fun reader stored bytes w' => put_gives,
    fun reader e w' quiet h => ?_⟩
  · have left := staged_left sound (fresh version) between_nil_noCopy h
    refine ⟨left, fun name hname => ⟨fun held => left.adds.read, fun held hread => ?_⟩⟩
    obtain ⟨spot, hend, hat⟩ := read_eq_ok.mp hread
    exact ⟨spot, hend, staged_reads sound (fresh version) h hname hend hat⟩
  · have cleaned := staged_cleaned sound (fresh version) between_nil_noCopy hmade h
    exact ⟨cleaned, fun path => readsOld_of_adds cleaned.adds⟩
  · obtain ⟨place, t₁, t₃, opened, completed⟩ := staged_completed sound
      (isPlain_versionText _ _) (fresh version) between_nil_noCopy h
    refine ⟨place, t₃, opened.grows.at?_none (at?_after ?_), completed⟩
    have hversion := hnext t₁ opened.made
    rw [nextVersion_eq, versionsIn_of_standing opened.stands] at hversion
    obtain rfl : after (versionsAt t₁ place) = version := Except.ok.inj hversion
    exact versionOf?_versionName _ _
  · obtain ⟨version, cleaned⟩ := put_fails sound quiet fresh h
    exact ⟨version, cleaned, fun path => readsOld_of_adds cleaned.adds⟩

/-! ### The stores together -/

/-- Whatever is listed is told by a name that is no staging file's. -/
structure ListsNoStaging : Prop where
  pages : ∀ t directory (dialect : Dialect) pages, listPages t directory dialect.fileExtension =
    .ok pages → ∀ page ∈ pages, ∃ file, Seen t directory file ∧
      page.name = unmangle (file.take (file.length - dialect.fileExtension.length))
  versions : ∀ t path versions, versionsIn t path = .ok versions → ∀ version ∈ versions,
    ∃ file, Seen t path file ∧ versionOf? file = some version
  attachments : ∀ (store : FileAttachments) page w found w', (store.list page).Gives w found w' →
    ∀ a ∈ found, ∃ name, Seen w.tree (attachments store.directory page) name ∧
      a.file = unmangle (name.take (name.length - fileSuffix.length)) ∧
      ∃ version : Nat, a.version = version ∧
        latestIn w.tree ((attachments store.directory page).child name) = .ok (some version)

/-- **Nothing is ever half written.**  Wherever the saving of a page or the storing of an attachment
stops, whatever step fails, and when they come to their ends, a page and a version hold all their
bytes; what stood before stands, staging files are never listed, and they are gone after a failure. -/
theorem never_half_written (pages : FilePages) (files : FileAttachments) (page text : List Char)
    (attachment : Attachment) (w : World) (sound : w.tree.Sound)
    (freshPage : IsFresh w.tree pages.directory pages.mark (pageName pages.extension page))
    (freshVersion : files.IsFresh attachment w.tree) :
    SavesWhole pages page text w ∧ StoresWhole files attachment w ∧ ListsNoStaging := by
  refine ⟨savesWhole pages page text w sound freshPage,
    storesWhole files attachment w sound freshVersion, ⟨?_, ?_, ?_⟩⟩
  · exact fun t directory dialect found h page hpage =>
      seen_of_mem_listPages (isEnding_fileExtension dialect) h hpage
  · exact fun t path versions h version hversion => seen_of_mem_versionsIn h hversion
  · intro store page w found w' h a ha
    exact seen_of_mem_listAttachments ((looks_list store page w found w').mp h).2 ha

/-- A wiki of one page, in files. -/
def onePage : World where
  tree := ⟨[(["wiki".toList], .directory),
    (["wiki".toList, "Home.txt".toList], .file (Utf8.encode "old".toList))]⟩

/-- The engine of that wiki. -/
def wikiEngine : Engine where
  dialect := .jspwiki
  pageDirectory := { names := ["wiki".toList] }
  workDirectory := { names := ["work".toList] }
  logFile := { names := ["log".toList] }

/-- An attachment that its page does not have yet. -/
def logo : Attachment := ⟨"logo.png".toList, "Home".toList, 1, 0⟩

theorem onePage_sound : onePage.tree.Sound := sound_of_entries (by decide) (by decide)

theorem onePage_stands : onePage.tree.Standing wikiEngine.pageDirectory ["wiki".toList] := by
  constructor <;> decide

theorem onePage_linkFree (place : Location) : onePage.tree.LinkFree place :=
  linkFree_of_entries (by decide) place

/-- Half of a new text is staged, and the page still has its old one. -/
theorem onePage_never_half_written :
    SavesWhole ⟨wikiEngine, "x".toList⟩ "Home".toList "new".toList onePage ∧
      StoresWhole ⟨wikiEngine, "x".toList⟩ logo onePage ∧
      ∃ t', Breaks (FilePages.steps ⟨wikiEngine, "x".toList⟩ onePage.tree "Home".toList
          "new".toList) onePage.tree t' ∧
        t'.at? ["wiki".toList, ".Home.txt.x.tmp".toList] =
          some (.file (Utf8.encode "ne".toList)) ∧
        t'.read (pageFile wikiEngine.pageDirectory ".txt" "Home".toList) =
          .ok (Utf8.encode "old".toList) := by
  have free := onePage_linkFree ["wiki".toList]
  have freshPage : IsFresh onePage.tree wikiEngine.pageDirectory "x".toList
      (pageName ".txt" "Home".toList) :=
    isFresh_of_leads onePage_stands.toLeads onePage_sound (fun other => free [other]) (by decide)
  have leads : onePage.tree.Leads (attachmentVersions wikiEngine.pageDirectory "Home".toList
      "logo.png".toList) ["wiki".toList, "Home-att".toList, "logo.png-dir".toList] :=
    ⟨wikiEngine.pageDirectory, ["wiki".toList], ["Home-att".toList, "logo.png-dir".toList],
      by decide, by decide, onePage_stands, by decide, fun name rest h => by
        rw [← (List.cons.inj h).1]
        decide⟩
  have freshVersion : FileAttachments.IsFresh ⟨wikiEngine, "x".toList⟩ logo onePage.tree := by
    intro version
    refine isFresh_of_leads leads onePage_sound (fun other => free [_, _, other]) ?_
    simp [onePage, Tree.at?, lookup_cons_eq]
  obtain ⟨saves, stores, -⟩ := never_half_written ⟨wikiEngine, "x".toList⟩
    ⟨wikiEngine, "x".toList⟩ "Home".toList "new".toList logo onePage onePage_sound freshPage
    freshVersion
  have hbreaks : Breaks (FilePages.steps ⟨wikiEngine, "x".toList⟩ onePage.tree "Home".toList
      "new".toList) onePage.tree (onePage.tree.put ["wiki".toList, ".Home.txt.x.tmp".toList]
        (.file (Utf8.encode "ne".toList))) :=
    .behind rfl (.behind rfl (.within (.piece 2 rfl)))
  exact ⟨saves, stores, _, hbreaks, by decide,
    (saves.stopped _ hbreaks).2.kept _ (by rfl)⟩

end WikiMigration.Store
