/-
A store of pages in use.

Pages are saved, read and listed in any order.  Whatever is done, the text that was saved last for a page
is its latest version, every version that could be read can be read under the same number, and no file of
the archives changes.  This holds of each save by itself, and what one save keeps the next ones keep.
-/
import WikiMigration.Proofs.Store.Remembered
import WikiMigration.Proofs.Store.Wholeness

namespace WikiMigration.Store

open Text Files Files.Tree Action

variable {engine : Engine} {place : Location} {w w' start : World} {page other text : List Char}

/-! ### A save -/

/-- A page that has a name is saved, and the name of the staging file is a new one. -/
structure Saves (engine : Engine) (place : Location) (page text : List Char) (w w' : World) : Prop where
  named : page ≠ []
  saved : ∃ mark, w.tree.at? (place ++ [stagingName mark
      (pageName engine.dialect.fileExtension page)]) = none ∧
    (FilePages.save ⟨engine, mark⟩ page text).Gives w () w'

/-- What one save does to a store. -/
structure SaveKeeps (engine : Engine) (place : Location) (page text : List Char) (w w' : World) :
    Prop where
  latest : Reads engine w' page latestVersion (normalizeNewlines text)
  /-- No version is lost. -/
  versions : ∀ other, other ≠ [] → ∀ (version : Nat) text, Reads engine w other version text →
    Reads engine w' other version text
  archived : ∀ names held, w.tree.at? (place ++ archiveName :: names) = some (.file held) →
    w'.tree.at? (place ++ archiveName :: names) = some (.file held)
  /-- A page that is there goes up by one version. -/
  raised : w.tree.at? (place ++ [pageName engine.dialect.fileExtension page]) ≠ none →
    ∃ version, currentVersion w.tree engine.pageDirectory page = .ok version ∧
      currentVersion w'.tree engine.pageDirectory page = .ok (version + 1)
  /-- Nothing else can be read of other pages than before. -/
  texts : ∀ other, other ≠ [] → other ≠ page → ∀ version text,
    Reads engine w' other version text ↔ Reads engine w other version text
  numbers : ∀ other, other ≠ [] → other ≠ page → ∀ version,
    currentVersion w.tree engine.pageDirectory other = .ok version → HasVersion w'.tree place other →
    currentVersion w'.tree engine.pageDirectory other = .ok version
  /-- The entries of other pages stay, as long as their versions can be told. -/
  listed : ∀ pages, Lists engine w pages →
    ((∃ pages', Lists engine w' pages' ∧ others page pages' = others page pages) ↔
      ∀ entry ∈ others page pages, HasVersion w'.tree place entry.name)

theorem Saves.tree (h : Saves engine place page text w w') (keeping : Keeping engine place w) :
    Saved w.tree engine.pageDirectory engine.dialect.fileExtension place page (Utf8.encode text)
      w'.tree := by
  obtain ⟨mark, hunused, hsave⟩ := h.saved
  have fresh := isFresh_of_leads keeping.leads keeping.sound
    (fun other target => keeping.free [other] target) hunused
  exact saved_of_done h.named keeping.sound keeping.leads keeping.free fresh (save_gives hsave)

/-- What the store remembers is changed once the page is saved. -/
theorem save_remembers {store : FilePages} {u : Unit} (h : (store.save page text).Gives w u w') :
    ∃ w₁, w₁.caches = w.caches ∧ (store.remember (FilePages.forget page)).Gives w₁ () w' := by
  rw [FilePages.save] at h
  simp only [gives_bind, gives_world, gives_classified, gives_makeSteps, gives_log] at h
  obtain ⟨_, _, ⟨rfl, rfl⟩, _, _, ⟨t', -, rfl⟩, _, w₂, hremember, rfl⟩ := h
  exact ⟨w.setTree t', rfl, hremember⟩

theorem memory_of_save {store : FilePages} {u : Unit} (h : (store.save page text).Gives w u w') :
    memory store.engine w' = FilePages.forget page (memory store.engine w) ∨
      memory store.engine w' = {} := by
  obtain ⟨w₁, hcaches, hremember⟩ := save_remembers h
  rw [← memory_congr hcaches]
  exact (memory_of_remember hremember).2

/-- What is not forgotten is not of the page that was saved. -/
theorem lookup_forget {cache : PageCache} {version : Int} {held : List Char}
    (h : (FilePages.forget page cache).texts.lookup (other, version) = some held) :
    other ≠ page ∧ cache.texts.lookup (other, version) = some held := by
  have hlookup := lookup_filter_key
    (fun key : List Char × Int => !startsWith (page ++ ['@'])
      (key.1 ++ '@' :: (toString key.2).toList)) (other, version) cache.texts
  rw [FilePages.forget] at h
  obtain hlookup := hlookup.symm.trans h
  split at hlookup
  next hkeep =>
    refine ⟨?_, hlookup⟩
    rintro rfl
    have hstarts : startsWith (other ++ ['@']) (other ++ '@' :: (toString version).toList) = true :=
      startsWith_iff.mpr ⟨(toString version).toList, by simp⟩
    simp only [hstarts, Bool.not_true, Bool.false_eq_true] at hkeep
  next => cases hlookup

/-- What is not forgotten agrees with the tree as before. -/
theorem Saved.texts_forget {t t' : Tree} {bytes : Bytes} {cache : PageCache}
    (h : Saved t engine.pageDirectory engine.dialect.fileExtension place page bytes t') (hpage : page ≠ [])
    (sound : t.Sound) (leads : t.Leads engine.pageDirectory place) (free : t.LinkFree place)
    (texts : TextsAgree engine cache t) : TextsAgree engine (FilePages.forget page cache) t' := by
  intro other version held hother hlookup
  obtain ⟨hne, hlookup⟩ := lookup_forget hlookup
  exact (h.reads_other hpage hother hne sound leads free).mpr (texts _ _ _ hother hlookup)

theorem Saves.keeping (h : Saves engine place page text w w') (keeping : Keeping engine place w) :
    Keeping engine place w' := by
  have saved := h.tree keeping
  refine ⟨saved.sound, saved.stands.toLeads, saved.free keeping.free, ?_⟩
  obtain ⟨mark, -, hsave⟩ := h.saved
  rcases memory_of_save hsave with hmemory | hmemory
  · rw [show memory engine w' = FilePages.forget page (memory engine w) from hmemory]
    refine ⟨saved.texts_forget h.named keeping.sound keeping.leads keeping.free keeping.agrees.texts, ?_⟩
    intro pages hpages
    cases hpages
  · rw [show memory engine w' = {} from hmemory]
    exact agrees_empty _ _

theorem Saves.keeps (h : Saves engine place page text w w') (keeping : Keeping engine place w) :
    SaveKeeps engine place page text w w' := by
  have saved := h.tree keeping
  have keeping' := h.keeping keeping
  have hother : ∀ other, other ≠ [] → other ≠ page → ∀ version text,
      Reads engine w' other version text ↔ Reads engine w other version text := by
    intro other hother hne version text
    rw [keeping'.reads_iff hother, keeping.reads_iff hother]
    exact saved.reads_other h.named hother hne keeping.sound keeping.leads keeping.free
  constructor
  · exact (keeping'.reads_iff h.named).mpr (saved.reads_latest h.named keeping.free)
  · intro other hnamed version text hreads
    by_cases hne : other = page
    · subst hne
      rw [keeping.reads_iff hnamed] at hreads
      exact (keeping'.reads_iff hnamed).mpr
        (saved.reads_own hnamed keeping.sound keeping.leads keeping.free hreads)
    · exact (hother other hnamed hne version text).mpr hreads
  · intro names held hat
    refine saved.file_kept (fun heq => ?_) hat
    rw [List.append_cancel_left_eq] at heq
    exact pageName_ne_archiveName _ _ (List.cons.inj heq).1.symm
  · intro hthere
    obtain ⟨entry, hat⟩ := Option.ne_none_iff_exists'.mp hthere
    obtain ⟨old, rfl⟩ := saved.before _ hat
    have hshort := (canStand_mangle h.named (keeping.sound.named _ _ _ hat)).short
    have stands := keeping.leads.standing keeping.sound (keeping.sound.housed _ _ _ hat)
    refine ⟨versionAt w.tree place page, ?_, ?_⟩
    · exact currentVersion_eq_versionAt keeping.sound stands keeping.free fun _ => hshort
    · rw [currentVersion_eq_versionAt keeping'.sound saved.stands keeping'.free fun _ => hshort,
        saved.versionAt_old h.named hat]
  · exact hother
  · intro other hnamed hne version hversion hhas
    have hthere := (currentVersion_ok_iff keeping'.sound saved.stands keeping'.free).mpr hhas
    rw [hthere, saved.versionAt_other h.named hnamed hne,
      currentVersion_eq_ok keeping.sound keeping.leads keeping.free hversion]
  · intro pages hlist
    simp only [keeping'.lists_iff]
    exact saved.listed h.named keeping.sound keeping.leads keeping.free (keeping.lists_iff.mp hlist)

/-! ### A session -/

/-- A store in use: the pages and texts that were saved, in their order, and the world that is left. -/
inductive Session (engine : Engine) (place : Location) (start : World) :
    List (List Char × List Char) → World → Prop
  | start : Session engine place start [] start
  | save {saved : List (List Char × List Char)} {w w' : World} {page text : List Char}
      (h : Session engine place start saved w) (saves : Saves engine place page text w w') :
      Session engine place start (saved ++ [(page, text)]) w'
  | read {saved : List (List Char × List Char)} {w w' : World} {mark : Name} {page text : List Char}
      {version : Int} (h : Session engine place start saved w)
      (reads : (FilePages.read ⟨engine, mark⟩ page version).Gives w text w') :
      Session engine place start saved w'
  | list {saved : List (List Char × List Char)} {w w' : World} {mark : Name}
      {pages : List PageVersion} (h : Session engine place start saved w)
      (lists : (FilePages.list ⟨engine, mark⟩).Gives w pages w') :
      Session engine place start saved w'

theorem Session.keeping {saved : List (List Char × List Char)} (h : Session engine place start saved w)
    (keeping : Keeping engine place start) : Keeping engine place w := by
  induction h with
  | start => exact keeping
  | save h saves ih => exact saves.keeping ih
  | read h reads ih => exact ih.of_read reads
  | list h lists ih => exact ih.of_list lists

/-- What was saved last for a page. -/
def lastSaved (saved : List (List Char × List Char)) (page : List Char) : Option (List Char) :=
  saved.reverse.lookup page

theorem lastSaved_snoc (saved : List (List Char × List Char)) (page other text : List Char) :
    lastSaved (saved ++ [(page, text)]) other =
      if other = page then some text else lastSaved saved other := by
  rw [lastSaved, List.reverse_append]
  exact lookup_cons_eq _ _ _ _

/-- What a session keeps. -/
structure SessionKeeps (engine : Engine) (place : Location) (start : World)
    (saved : List (List Char × List Char)) (w : World) : Prop where
  latest : ∀ page text, lastSaved saved page = some text →
    Reads engine w page latestVersion (normalizeNewlines text)
  versions : ∀ page, page ≠ [] → ∀ (version : Nat) text, Reads engine start page version text →
    Reads engine w page version text
  archived : ∀ names held, start.tree.at? (place ++ archiveName :: names) = some (.file held) →
    w.tree.at? (place ++ archiveName :: names) = some (.file held)

theorem named_of_lastSaved {saved : List (List Char × List Char)}
    (h : Session engine place start saved w) (hlast : lastSaved saved page = some text) :
    page ≠ [] := by
  induction h with
  | start => cases hlast
  | save h saves ih =>
    rw [lastSaved_snoc] at hlast
    split at hlast
    next heq => exact heq ▸ saves.named
    next => exact ih hlast
  | read h reads ih => exact ih hlast
  | list h lists ih => exact ih hlast

theorem SessionKeeps.of_tree {saved : List (List Char × List Char)}
    (session : Session engine place start saved w) (keeping : Keeping engine place w)
    (keeping' : Keeping engine place w') (htree : w'.tree = w.tree)
    (h : SessionKeeps engine place start saved w) : SessionKeeps engine place start saved w' := by
  have hreads : ∀ page, page ≠ [] → ∀ version text,
      Reads engine w page version text → Reads engine w' page version text := by
    intro page hpage version text h
    rw [keeping'.reads_iff hpage, htree]
    exact (keeping.reads_iff hpage).mp h
  constructor
  · intro page text hlast
    exact hreads page (named_of_lastSaved session hlast) _ _ (h.latest page text hlast)
  · intro page hpage version text hstart
    exact hreads page hpage _ _ (h.versions page hpage version text hstart)
  · intro names held hat
    rw [htree]
    exact h.archived names held hat

theorem Session.keeps {saved : List (List Char × List Char)} (h : Session engine place start saved w)
    (keeping : Keeping engine place start) : SessionKeeps engine place start saved w := by
  induction h with
  | start =>
    refine ⟨fun page text hlast => ?_, fun _ _ _ _ h => h, fun _ _ h => h⟩
    cases hlast
  | save h saves ih =>
    have keeps := saves.keeps (h.keeping keeping)
    constructor
    · intro other text' hlast
      rw [lastSaved_snoc] at hlast
      split at hlast
      next heq =>
        subst heq
        exact Option.some.inj hlast ▸ keeps.latest
      next hne =>
        exact (keeps.texts other (named_of_lastSaved h hlast) hne _ _).mpr (ih.latest _ _ hlast)
    · intro other hother version text' hstart
      exact keeps.versions other hother _ _ (ih.versions other hother _ _ hstart)
    · intro names held hat
      exact keeps.archived names held (ih.archived names held hat)
  | read h reads ih =>
    have keeping' := h.keeping keeping
    refine ih.of_tree h keeping' (keeping'.of_read reads) ?_
    rcases read_gives.mp reads with ⟨-, rfl⟩ | ⟨-, -, hremember⟩
    · rfl
    · exact gives_remember hremember
  | list h lists ih =>
    have keeping' := h.keeping keeping
    refine ih.of_tree h keeping' (keeping'.of_list lists) ?_
    rcases list_gives.mp lists with ⟨-, rfl⟩ | ⟨-, -, hremember⟩
    · rfl
    · exact gives_remember hremember

/-- **The history of the pages is kept.**  After any session, what was saved last for a page is its
latest version, the versions from before the session can still be read under their numbers, and no file
of the archives has changed; and whatever is saved next keeps the versions and the other pages. -/
theorem history_kept {saved : List (List Char × List Char)} (keeping : Keeping engine place start)
    (session : Session engine place start saved w) :
    Keeping engine place w ∧ SessionKeeps engine place start saved w ∧
      ∀ page text w', Saves engine place page text w w' →
        SaveKeeps engine place page text w w' := by
  have keeping' := session.keeping keeping
  exact ⟨keeping', session.keeps keeping, fun page text w' saves => saves.keeps keeping'⟩

theorem onePage_keeping : Keeping wikiEngine ["wiki".toList] onePage :=
  ⟨onePage_sound, onePage_stands.toLeads, onePage_linkFree _, agrees_empty _ _⟩

/-- The wiki of one page once a new text is saved. -/
def savedOnce : World :=
  (FilePages.save ⟨wikiEngine, "x".toList⟩ "Home".toList "new".toList onePage).world

/-- The wiki of one page once another new text is saved. -/
def savedTwice : World :=
  (FilePages.save ⟨wikiEngine, "y".toList⟩ "Home".toList "newer\r\n".toList savedOnce).world

/-- After two saves all three texts can be read. -/
theorem onePage_history_kept : ∃ w, Session wikiEngine ["wiki".toList] onePage
      [("Home".toList, "new".toList), ("Home".toList, "newer\r\n".toList)] w ∧
    Reads wikiEngine w "Home".toList 1 "old".toList ∧
    Reads wikiEngine w "Home".toList 2 "new".toList ∧
    Reads wikiEngine w "Home".toList latestVersion "newer\n".toList := by
  have saves₁ : Saves wikiEngine ["wiki".toList] "Home".toList "new".toList onePage savedOnce :=
    ⟨by decide, _, by decide, by rfl, rfl⟩
  have saves₂ : Saves wikiEngine ["wiki".toList] "Home".toList "newer\r\n".toList savedOnce
      savedTwice := ⟨by decide, _, by decide, by decide +kernel, rfl⟩
  have session₁ := Session.start.save saves₁
  obtain ⟨-, keeps, -⟩ := history_kept onePage_keeping (session₁.save saves₂)
  obtain ⟨-, -, next⟩ := history_kept onePage_keeping session₁
  have hnew : Reads wikiEngine savedOnce "Home".toList 2 "new".toList := ⟨[], _, by decide +kernel, rfl⟩
  refine ⟨savedTwice, session₁.save saves₂, ?_, ?_, ?_⟩
  · exact keeps.versions _ (by decide) 1 _ ⟨[], _, by rfl, rfl⟩
  · exact (next _ _ _ saves₂).versions _ (by decide) 2 _ hnew
  · exact keeps.latest "Home".toList "newer\r\n".toList (by rfl)

/-- The name of a page that is too long for a file once it is encoded, though it is short enough for
one as it is. -/
def strayName : List Char := List.replicate 100 'é'

/-- A wiki with a file of such a name. -/
def strayPage : World where
  tree := ⟨[(["wiki".toList], .directory),
    (["wiki".toList, "Home.txt".toList], .file (Utf8.encode "old".toList)),
    (["wiki".toList, strayName ++ ".txt".toList], .file [])]⟩

theorem strayPage_keeping : Keeping wikiEngine ["wiki".toList] strayPage := by
  refine ⟨sound_of_entries (by decide +kernel) (by decide +kernel), Standing.toLeads ?_,
    linkFree_of_entries (by decide +kernel) _, agrees_empty _ _⟩
  constructor <;> decide

/-- A save can end the listing.  The page with the stray name is listed before another page is saved, and
nothing is listed afterwards. -/
theorem strayPage_unlisted : ∃ w pages,
    Saves wikiEngine ["wiki".toList] "Home".toList "new".toList strayPage w ∧
      Lists wikiEngine strayPage pages ∧ ⟨strayName, 1⟩ ∈ others "Home".toList pages ∧
      ¬ ∃ pages', Lists wikiEngine w pages' := by
  have keeping := strayPage_keeping
  let saved := (FilePages.save ⟨wikiEngine, "x".toList⟩ "Home".toList "new".toList strayPage).world
  have saves : Saves wikiEngine ["wiki".toList] "Home".toList "new".toList strayPage saved :=
    ⟨by decide, _, by decide +kernel, by decide +kernel, rfl⟩
  have stands : strayPage.tree.Standing wikiEngine.pageDirectory ["wiki".toList] := by
    constructor <;> decide
  have hfile : ∀ t : Tree, t.at? ["wiki".toList, strayName ++ ".txt".toList] = some (.file []) →
      strayName ++ ".txt".toList ∈ pageNames t ["wiki".toList] ".txt" := fun t hat =>
    List.mem_filter.mpr ⟨mem_names.mpr ⟨_, hat⟩, by decide +kernel⟩
  have hname : pageOf ".txt" (strayName ++ ".txt".toList) = strayName := by decide +kernel
  -- Nothing is archived at first, so the version of each page is told.
  have hversion : versionAt strayPage.tree ["wiki".toList] strayName = 1 := by
    rw [versionAt, versionsAt, keeping.sound.names_eq_nil (by decide +kernel)]
    rfl
  have hlists : Lists wikiEngine strayPage _ := keeping.lists_iff.mpr
    ((listPages_at keeping.sound keeping.leads keeping.free).mpr
      ⟨stands, fun file _ held _ => Or.inr (Or.inr (by decide +kernel)), rfl⟩)
  refine ⟨saved, _, saves, hlists, ?_, ?_⟩
  · rw [mem_others, List.mem_flatMap]
    refine ⟨⟨_, hfile _ (by decide +kernel), ?_⟩, by decide +kernel, by decide +kernel⟩
    have hat : strayPage.tree.at? (["wiki".toList] ++ [strayName ++ ".txt".toList]) =
        some (.file []) := by decide +kernel
    simp only [listedAt, hat]
    rw [show wikiEngine.dialect.fileExtension = ".txt" from rfl, hname, hversion]
    exact List.mem_singleton.mpr rfl
  · rintro ⟨pages', hlists'⟩
    have keeping' := saves.keeping keeping
    obtain ⟨-, hversions, -⟩ := (listPages_at keeping'.sound keeping'.leads keeping'.free).mp
      (keeping'.lists_iff.mp hlists')
    have hhas := hversions _ (hfile _ (by decide +kernel)) [] (by decide +kernel)
    rw [show wikiEngine.dialect.fileExtension = ".txt" from rfl, hname] at hhas
    rcases hhas with hempty | hshort | hnone
    · exact absurd hempty (by decide +kernel)
    · exact absurd hshort (by decide +kernel)
    · exact absurd hnone (by decide +kernel)

end WikiMigration.Store
