/-
What a store remembers.

A store that remembers texts and the list of the pages answers from its memory first.  The answers are
those of the tree as long as the memory agrees with the tree.  Reading and listing put into it what the
tree has, and a save takes out of it all that may have changed, so it always agrees.
-/
import WikiMigration.Proofs.Store.PageList

namespace WikiMigration.Store

open Text Files Files.Tree Action

variable {engine : Engine} {place : Location} {w w' : World} {page text : List Char}

/-! ### The memory -/

/-- What the store of an engine goes by; nothing if it is not to remember. -/
def memory (engine : Engine) (w : World) : PageCache :=
  if engine.isCached then w.cache engine else {}

/-- The texts that are remembered are those of the tree. -/
def TextsAgree (engine : Engine) (memory : PageCache) (t : Tree) : Prop :=
  ∀ page version text, page ≠ [] → memory.texts.lookup (page, version) = some text →
    ReadsFrom t engine.pageDirectory engine.dialect.fileExtension page version text

/-- The list that is remembered is that of the tree. -/
def PagesAgree (engine : Engine) (memory : PageCache) (t : Tree) : Prop :=
  ∀ pages, memory.pages = some pages →
    listPages t engine.pageDirectory engine.dialect.fileExtension = .ok pages

/-- What is remembered agrees with the tree. -/
structure Agrees (engine : Engine) (memory : PageCache) (t : Tree) : Prop where
  texts : ∀ page version text, page ≠ [] → memory.texts.lookup (page, version) = some text →
    ReadsFrom t engine.pageDirectory engine.dialect.fileExtension page version text
  pages : ∀ pages, memory.pages = some pages →
    listPages t engine.pageDirectory engine.dialect.fileExtension = .ok pages

/-- An empty memory agrees with all trees. -/
theorem agrees_empty (engine : Engine) (t : Tree) : Agrees engine {} t := by
  constructor
  · intro page version text _ h
    cases h
  · intro pages h
    cases h

/-- The world of a store, in which what is remembered agrees with the tree and no links stand in the
directory of the pages. -/
structure Keeping (engine : Engine) (place : Location) (w : World) : Prop where
  sound : w.tree.Sound
  leads : w.tree.Leads engine.pageDirectory place
  free : w.tree.LinkFree place
  agrees : Agrees engine (memory engine w) w.tree

theorem memory_congr (h : w'.caches = w.caches) : memory engine w' = memory engine w := by
  rw [memory, memory, World.cache, World.cache, h]

variable {store : FilePages}

theorem gives_remembered {cache : PageCache} :
    store.remembered.Gives w cache w' ↔ cache = memory store.engine w ∧ w' = w := by
  simp only [FilePages.remembered, Gives, memory]
  constructor
  · rintro ⟨h, rfl⟩
    exact ⟨(Except.ok.inj h).symm, rfl⟩
  · rintro ⟨rfl, rfl⟩
    exact ⟨rfl, rfl⟩

theorem not_fails_remembered {failure : Failure} : ¬ store.remembered.Fails w failure w' := by
  rintro ⟨h, -⟩
  cases h

/-- What is to be remembered is remembered. -/
theorem memory_of_cached {f : PageCache → PageCache} {u : Unit} (hcached : store.engine.isCached = true)
    (h : (store.remember f).Gives w u w') :
    memory store.engine w' = f (memory store.engine w) := by
  rw [FilePages.remember, gives_change] at h
  rw [← h, memory, memory]
  simp [hcached, World.cache, World.setCache]

/-- What is to be remembered is remembered, if anything is. -/
theorem memory_of_remember {f : PageCache → PageCache} {u : Unit}
    (h : (store.remember f).Gives w u w') : w'.tree = w.tree ∧
      (memory store.engine w' = f (memory store.engine w) ∨ memory store.engine w' = {}) := by
  refine ⟨gives_remember h, ?_⟩
  by_cases hcached : store.engine.isCached = true
  · exact Or.inl (memory_of_cached hcached h)
  · exact Or.inr (by simp [memory, hcached])

/-! ### What is read and listed -/

/-- A version of a page can be read, with that text. -/
def Reads (engine : Engine) (w : World) (page : List Char) (version : Int) (text : List Char) :
    Prop :=
  ∃ mark w', (FilePages.read ⟨engine, mark⟩ page version).Gives w text w'

/-- The pages can be listed, and they are those. -/
def Lists (engine : Engine) (w : World) (pages : List PageVersion) : Prop :=
  ∃ mark w', (FilePages.list ⟨engine, mark⟩).Gives w pages w'

/-- What a store does when it is read. -/
theorem read_gives {version : Int} : (store.read page version).Gives w text w' ↔
    (memory store.engine w).texts.lookup (page, version) = some text ∧ w' = w ∨
      (memory store.engine w).texts.lookup (page, version) = none ∧
      ReadsFrom w.tree store.directory store.extension page version text ∧
      (store.remember fun cache =>
        { cache with texts := ((page, version), text) :: cache.texts }).Gives w () w' := by
  rw [FilePages.read, gives_bind]
  simp only [gives_remembered]
  constructor
  · rintro ⟨_, start, ⟨rfl, rfl⟩, h⟩
    cases hlookup : (memory store.engine start).texts.lookup (page, version) with
    | some held =>
      rw [hlookup] at h
      obtain ⟨rfl, rfl⟩ := gives_pure.mp h
      exact Or.inl ⟨rfl, rfl⟩
    | none =>
      rw [hlookup] at h
      simp only [gives_bind, gives_inspect, gives_classified] at h
      obtain ⟨file, _, ⟨hfile, rfl⟩, bytes, _, ⟨hread, rfl⟩, h⟩ := h
      cases htext : textOf bytes with
      | error e =>
        rw [htext] at h
        exact absurd h gives_fail
      | ok held =>
        simp only [htext, gives_bind, gives_pure] at h
        obtain ⟨_, _, hremember, rfl, rfl⟩ := h
        exact Or.inr ⟨rfl, ⟨file, bytes, hfile, hread, htext⟩, hremember⟩
  · intro h
    refine ⟨_, _, ⟨rfl, rfl⟩, ?_⟩
    rcases h with ⟨hlookup, rfl⟩ | ⟨hlookup, ⟨file, bytes, hfile, hread, htext⟩, hremember⟩
    · rw [hlookup]
      exact gives_pure.mpr ⟨rfl, rfl⟩
    · rw [hlookup]
      simp only [gives_bind, gives_inspect, gives_classified]
      refine ⟨file, _, ⟨hfile, rfl⟩, bytes, _, ⟨hread, rfl⟩, ?_⟩
      simp only [htext, gives_bind, gives_pure]
      exact ⟨(), w', hremember, trivial, rfl⟩

/-- What a store does when it is asked for its pages. -/
theorem list_gives {pages : List PageVersion} : store.list.Gives w pages w' ↔
    (memory store.engine w).pages = some pages ∧ w' = w ∨
      (memory store.engine w).pages = none ∧
      listPages w.tree store.directory store.extension = .ok pages ∧
      (store.remember fun cache => { cache with pages := some pages }).Gives w () w' := by
  rw [FilePages.list, gives_bind]
  simp only [gives_remembered]
  constructor
  · rintro ⟨_, start, ⟨rfl, rfl⟩, h⟩
    cases hpages : (memory store.engine start).pages with
    | some held =>
      rw [hpages] at h
      obtain ⟨rfl, rfl⟩ := gives_pure.mp h
      exact Or.inl ⟨rfl, rfl⟩
    | none =>
      rw [hpages] at h
      obtain ⟨isDirectory, _, hdir, h⟩ := gives_bind.mp h
      obtain ⟨-, rfl⟩ := gives_inspect.mp hdir
      cases isDirectory with
      | false => exact absurd h gives_fail
      | true =>
        simp only [Bool.not_true, Bool.false_eq_true, if_false, gives_bind, gives_inspect, gives_log,
          gives_pure] at h
        obtain ⟨held, _, ⟨hlist, rfl⟩, _, _, rfl, _, _, hremember, rfl, rfl⟩ := h
        exact Or.inr ⟨rfl, hlist, hremember⟩
  · intro h
    refine ⟨_, _, ⟨rfl, rfl⟩, ?_⟩
    rcases h with ⟨hpages, rfl⟩ | ⟨hpages, hlist, hremember⟩
    · rw [hpages]
      exact gives_pure.mpr ⟨rfl, rfl⟩
    · rw [hpages]
      obtain ⟨place, entries, stands, -, -⟩ := listPages_eq_ok.mp hlist
      refine gives_bind.mpr ⟨true, w, gives_inspect.mpr ⟨isDirectory_eq_true.mpr ⟨_, stands⟩, rfl⟩, ?_⟩
      simp only [Bool.not_true, Bool.false_eq_true, if_false, gives_bind, gives_inspect, gives_log,
        gives_pure]
      exact ⟨pages, _, ⟨hlist, rfl⟩, (), _, rfl, (), w', hremember, rfl, rfl⟩

/-- A version has one text. -/
theorem ReadsFrom.unique {t : Tree} {directory : Path} {extension : String} {version : Int}
    {other : List Char} (h : ReadsFrom t directory extension page version text)
    (h' : ReadsFrom t directory extension page version other) : text = other := by
  obtain ⟨file, bytes, hfile, hread, htext⟩ := h
  obtain ⟨file', bytes', hfile', hread', htext'⟩ := h'
  obtain rfl := Except.ok.inj (hfile.symm.trans hfile')
  obtain rfl := Except.ok.inj (hread.symm.trans hread')
  exact Except.ok.inj (htext.symm.trans htext')

namespace Keeping

/-- **What is read is what the tree has.** -/
theorem reads_iff (h : Keeping engine place w) (hpage : page ≠ []) {version : Int} :
    Reads engine w page version text ↔
      ReadsFrom w.tree engine.pageDirectory engine.dialect.fileExtension page version text := by
  constructor
  · rintro ⟨mark, w', hread⟩
    rcases read_gives.mp hread with ⟨hlookup, -⟩ | ⟨-, hreads, -⟩
    · exact h.agrees.texts _ _ _ hpage hlookup
    · exact hreads
  · intro hreads
    cases hlookup : (memory engine w).texts.lookup (page, version) with
    | some held =>
      obtain rfl := hreads.unique (h.agrees.texts _ _ _ hpage hlookup)
      exact ⟨[], w, read_gives.mpr (Or.inl ⟨hlookup, rfl⟩)⟩
    | none => exact ⟨[], _, read_gives.mpr (Or.inr ⟨hlookup, hreads, gives_change.mpr rfl⟩)⟩

/-- What is listed is what the tree has. -/
theorem lists_iff (h : Keeping engine place w) {pages : List PageVersion} :
    Lists engine w pages ↔
      listPages w.tree engine.pageDirectory engine.dialect.fileExtension = .ok pages := by
  constructor
  · rintro ⟨mark, w', hlist⟩
    rcases list_gives.mp hlist with ⟨hpages, -⟩ | ⟨-, hlist, -⟩
    · exact h.agrees.pages _ hpages
    · exact hlist
  · intro hlist
    cases hpages : (memory engine w).pages with
    | some held =>
      obtain rfl := Except.ok.inj (hlist.symm.trans (h.agrees.pages _ hpages))
      exact ⟨[], w, list_gives.mpr (Or.inl ⟨hpages, rfl⟩)⟩
    | none => exact ⟨[], _, list_gives.mpr (Or.inr ⟨hpages, hlist, gives_change.mpr rfl⟩)⟩

/-- A memory that changes in agreement with the tree. -/
theorem of_remember {f : PageCache → PageCache} {u : Unit} (h : Keeping store.engine place w)
    (agrees : Agrees store.engine (f (memory store.engine w)) w.tree)
    (hremember : (store.remember f).Gives w u w') : Keeping store.engine place w' := by
  obtain ⟨htree, hmemory⟩ := memory_of_remember hremember
  refine ⟨htree ▸ h.sound, htree ▸ h.leads, htree ▸ h.free, ?_⟩
  rw [htree]
  rcases hmemory with hmemory | hmemory
  · exact hmemory ▸ agrees
  · exact hmemory ▸ agrees_empty _ _

theorem of_read (h : Keeping store.engine place w) {version : Int}
    (hread : (store.read page version).Gives w text w') : Keeping store.engine place w' := by
  rcases read_gives.mp hread with ⟨-, rfl⟩ | ⟨-, hreads, hremember⟩
  · exact h
  · refine h.of_remember ⟨fun other version' held hother hlookup => ?_, h.agrees.pages⟩ hremember
    rw [lookup_cons_eq] at hlookup
    split at hlookup
    next hkey =>
      obtain ⟨rfl, rfl⟩ := Prod.mk.inj hkey
      exact Option.some.inj hlookup ▸ hreads
    next => exact h.agrees.texts _ _ _ hother hlookup

theorem of_list (h : Keeping store.engine place w) {pages : List PageVersion}
    (hlist : store.list.Gives w pages w') : Keeping store.engine place w' := by
  rcases list_gives.mp hlist with ⟨-, rfl⟩ | ⟨-, hpages, hremember⟩
  · exact h
  · refine h.of_remember ⟨h.agrees.texts, fun found hfound => ?_⟩ hremember
    exact Option.some.inj hfound ▸ hpages

end Keeping

end WikiMigration.Store
