/-
Whether the pages that are listed can be found.

The listing decodes the names of files, and whoever looks for a page encodes its name again.  Encoding
and decoding gives a name back, but decoding and encoding need not give the file back: a space, a letter
that is not escaped or an escape in small letters does not come back as it was.  A page is found under
the name that it is listed by exactly if its file has the name that the store itself would give it.
-/
import Mathlib.Data.List.Nodup
import WikiMigration.Proofs.Store.Remembered
import WikiMigration.Proofs.Store.Wholeness

namespace WikiMigration.Store

open Text Files Files.Tree Action

variable {t : Tree} {directory : Path} {extension : String} {place : Location} {file : Name}
variable {store : FilePages} {w w' : World} {page : PageVersion} {pages : List PageVersion}

/-! ### Files of pages -/

/-- The files of pages in a directory, in their order. -/
def pageFiles (t : Tree) (directory : Path) (place : Location) (extension : String) : List Name :=
  (pageNames t place extension).filter fun file =>
    (t.isFile (directory.child file)).toOption == some true

/-- They are what stands in the directory, has the ending of pages and is, or leads to, a file. -/
theorem mem_pageFiles : file ∈ pageFiles t directory place extension ↔
    (∃ entry, t.at? (place ++ [file]) = some entry) ∧ endsWith extension.toList file = true ∧
      t.isFile (directory.child file) = .ok true := by
  rw [pageFiles, List.mem_filter, pageNames, List.mem_filter, mem_names, beq_iff_eq,
    toOption_eq_some, and_assoc]

theorem nodup_pageFiles (sound : t.Sound) : (pageFiles t directory place extension).Nodup :=
  ((sound.nodup_names place).filter _).filter _

/-- A file has the name that the store gives to the file of a page. -/
def IsOwn (extension : String) (file : Name) : Prop := ∃ page, file = pageName extension page

theorem isOwn_iff : IsOwn extension file ↔ pageName extension (pageOf extension file) = file := by
  constructor
  · rintro ⟨page, rfl⟩
    rw [pageOf_pageName]
  · exact fun h => ⟨_, h.symm⟩

/-- No two such files are of one page. -/
theorem IsOwn.eq_of_pageOf {other : Name} (h : IsOwn extension file) (h' : IsOwn extension other)
    (heq : pageOf extension file = pageOf extension other) : file = other := by
  rw [← isOwn_iff.mp h, ← isOwn_iff.mp h', heq]

/-- The version of a page with such a file can be told. -/
theorem IsOwn.hasVersion (h : IsOwn extension file) (sound : t.Sound) {entry : Entry}
    (hat : t.at? (place ++ [file]) = some entry) : HasVersion t place (pageOf extension file) := by
  by_cases hpage : pageOf extension file = []
  · exact Or.inl hpage
  · rw [← isOwn_iff.mp h] at hat
    exact Or.inr (Or.inl (canStand_mangle hpage (sound.named _ _ _ hat)).short)

/-! ### What is listed -/

/-- Where each name gives one entry or none, the entries are those of the names that give one. -/
theorem forall₂_of_entries {α β : Type} {gives : α → Bool} {r : α → β → Prop} {names : List α}
    {entries : List (List β)}
    (h : List.Forall₂ (fun name found => gives name = false ∧ found = [] ∨
      gives name = true ∧ ∃ entry, found = [entry] ∧ r name entry) names entries) :
    List.Forall₂ r (names.filter gives) entries.flatten := by
  induction h with
  | nil => exact .nil
  | cons hfirst _ ih =>
    rcases hfirst with ⟨hnot, rfl⟩ | ⟨hgives, entry, rfl, hentry⟩
    · rw [List.filter_cons_of_neg (by simp [hnot])]
      exact ih
    · rw [List.filter_cons_of_pos hgives]
      exact .cons hentry ih

/-- Each file of a page is listed once, in its place, with the version that the store tells of the
page. -/
theorem listPages_files (stands : t.Standing directory place)
    (h : listPages t directory extension = .ok pages) :
    List.Forall₂ (fun file (page : PageVersion) => page.name = pageOf extension file ∧
        ∃ version : Nat, page.version = version ∧
          currentVersion t directory page.name = .ok version)
      (pageFiles t directory place extension) pages := by
  obtain ⟨home, entries, stands', hentries, rfl⟩ := listPages_eq_ok.mp h
  obtain rfl := stands.unique stands'
  refine forall₂_of_entries (hentries.imp fun file found hfound => ?_)
  rcases pageEntry_eq_ok.mp hfound with ⟨hfile, rfl⟩ | ⟨hfile, version, hversion, rfl⟩
  · exact Or.inl ⟨by rw [hfile]; rfl, rfl⟩
  · exact Or.inr ⟨by rw [hfile]; rfl, _, rfl, rfl, version, rfl, hversion⟩

/-! ### What is found -/

/-- A page that is listed is found, and it is the file that is read. -/
structure Finds (store : FilePages) (w : World) (file : Name) (page : PageVersion) : Prop where
  there : (store.has page.name).Gives w true w
  that : versionFile w.tree store.directory store.extension page.name page.version =
    .ok (store.directory.child file)
  read : ∀ text, (∃ w', (store.read page.name page.version).Gives w text w') ↔
    ∃ bytes, w.tree.read (store.directory.child file) = .ok bytes ∧ textOf bytes = .ok text

theorem child_injective {file other : Name} (h : directory.child file = directory.child other) :
    file = other := by
  have hnames := congrArg Path.names h
  simpa [Path.child] using hnames

/-- **A page is found exactly if its file has the store's own name.** -/
theorem finds_iff (hfile : w.tree.isFile (store.directory.child file) = .ok true)
    (hname : page.name = pageOf store.extension file) {version : Nat} (hversion : page.version = version)
    (hcurrent : currentVersion w.tree store.directory page.name = .ok version)
    (bare : (memory store.engine w).texts = []) :
    Finds store w file page ↔ IsOwn store.extension file := by
  have hcurrentFile : versionFile w.tree store.directory store.extension page.name page.version =
      .ok (pageFile store.directory store.extension page.name) := by
    refine versionFile_eq_ok.mpr (Or.inr ⟨?_, version, hcurrent, Or.inl ⟨hversion, rfl⟩⟩)
    rw [hversion, latestVersion]
    omega
  constructor
  · intro h
    have hpath := Except.ok.inj (hcurrentFile.symm.trans h.that)
    rw [pageFile_eq_child] at hpath
    exact ⟨page.name, (child_injective hpath).symm⟩
  · intro hown
    have hpath : pageFile store.directory store.extension page.name = store.directory.child file := by
      rw [pageFile_eq_child, hname, isOwn_iff.mp hown]
    refine ⟨gives_inspect.mpr ⟨hpath ▸ hfile, rfl⟩, hpath ▸ hcurrentFile, fun text => ?_⟩
    have hnone : (memory store.engine w).texts.lookup (page.name, page.version) = none := by
      rw [bare, List.lookup_nil]
    constructor
    · rintro ⟨w', hread⟩
      rcases read_gives.mp hread with ⟨hlookup, -⟩ | ⟨-, ⟨path, bytes, hpath', hbytes, htext⟩, -⟩
      · rw [hnone] at hlookup
        cases hlookup
      · obtain rfl := Except.ok.inj (hcurrentFile.symm.trans hpath')
        exact ⟨bytes, hpath ▸ hbytes, htext⟩
    · rintro ⟨bytes, hbytes, htext⟩
      exact ⟨_, read_gives.mpr (Or.inr ⟨hnone,
        ⟨_, bytes, hcurrentFile, by rw [hpath]; exact hbytes, htext⟩, gives_change.mpr rfl⟩)⟩

/-- A store that remembers nothing lists what the tree has, and remembers no texts then. -/
theorem list_gives_of_fresh (fresh : memory store.engine w = {})
    (h : store.list.Gives w pages w') : w'.tree = w.tree ∧ (memory store.engine w').texts = [] ∧
      listPages w.tree store.directory store.extension = .ok pages := by
  rcases list_gives.mp h with ⟨hpages, -⟩ | ⟨-, hlist, hremember⟩
  · rw [fresh] at hpages
    cases hpages
  · obtain ⟨htree, hmemory⟩ := memory_of_remember hremember
    refine ⟨htree, ?_, hlist⟩
    rcases hmemory with hmemory | hmemory
    · rw [hmemory, fresh]
    · rw [hmemory]

/-- What can be listed. -/
theorem lists_iff_hasVersion (sound : w.tree.Sound) (stands : w.tree.Standing store.directory place)
    (free : w.tree.LinkFree place) (fresh : memory store.engine w = {}) :
    (∃ pages w', store.list.Gives w pages w') ↔
      ∀ file ∈ pageFiles w.tree store.directory place store.extension,
        HasVersion w.tree place (pageOf store.extension file) := by
  have hfiles : ∀ file, file ∈ pageFiles w.tree store.directory place store.extension ↔
      file ∈ pageNames w.tree place store.extension ∧
        ∃ held, w.tree.at? (place ++ [file]) = some (.file held) := by
    intro file
    rw [pageFiles, List.mem_filter, beq_iff_eq, toOption_eq_some]
    refine and_congr_right fun hfile => ?_
    obtain ⟨entry, hat⟩ := mem_names.mp (List.mem_of_mem_filter hfile)
    rw [isFile_child sound stands.toLeads free hat, hat, Except.ok.injEq]
    cases entry <;> simp [isFileEntry]
  constructor
  · rintro ⟨pages, w', hlist⟩ file hfile
    obtain ⟨-, -, hpages⟩ := list_gives_of_fresh fresh hlist
    obtain ⟨-, hversions, -⟩ := (listPages_at sound stands.toLeads free).mp hpages
    obtain ⟨hname, held, hat⟩ := (hfiles file).mp hfile
    exact hversions file hname held hat
  · intro hversions
    refine ⟨_, _, list_gives.mpr (Or.inr ⟨by rw [fresh], (listPages_at sound stands.toLeads free).mpr
      ⟨stands, fun file hname held hat => ?_, rfl⟩, gives_change.mpr rfl⟩)⟩
    exact hversions file ((hfiles file).mpr ⟨hname, held, hat⟩)

/-- **What is listed.**  Each file of a page is listed once, under the name that its file name stands
for, and it is found under that name exactly if its file has the name that the store gives the page.
Where all files have such names, no two are listed under one name, and where no links stand in the
directory, they can be listed; other files stop the listing only by a version that cannot be told. -/
theorem listed_pages_found (sound : w.tree.Sound) (stands : w.tree.Standing store.directory place)
    (fresh : memory store.engine w = {}) :
    (pageFiles w.tree store.directory place store.extension).Nodup ∧
    (∀ pages w', store.list.Gives w pages w' →
      List.Forall₂ (fun file (page : PageVersion) => page.name = pageOf store.extension file ∧
          (Finds store w' file page ↔ IsOwn store.extension file))
        (pageFiles w.tree store.directory place store.extension) pages ∧
      ((∀ file ∈ pageFiles w.tree store.directory place store.extension,
        IsOwn store.extension file) → (pages.map PageVersion.name).Nodup)) ∧
    (w.tree.LinkFree place → ((∃ pages w', store.list.Gives w pages w') ↔
        ∀ file ∈ pageFiles w.tree store.directory place store.extension,
          HasVersion w.tree place (pageOf store.extension file)) ∧
      ∀ file ∈ pageFiles w.tree store.directory place store.extension,
        IsOwn store.extension file → HasVersion w.tree place (pageOf store.extension file)) := by
  refine ⟨nodup_pageFiles sound, fun pages w' hlist => ?_, fun free =>
    ⟨lists_iff_hasVersion sound stands free fresh, fun file hfile hown => ?_⟩⟩
  · obtain ⟨htree, bare, hpages⟩ := list_gives_of_fresh fresh hlist
    have hfiles := listPages_files stands hpages
    constructor
    · refine ((List.forall₂_and_left _ _).mpr ⟨fun file hfile => hfile, hfiles⟩).imp ?_
      rintro file page ⟨hfile, hname, version, hversion, hcurrent⟩
      obtain ⟨-, -, hfile⟩ := mem_pageFiles.mp hfile
      rw [← htree] at hfile hcurrent
      exact ⟨hname, finds_iff hfile hname hversion hcurrent bare⟩
    · intro hown
      have hnames : pages.map PageVersion.name =
          (pageFiles w.tree store.directory place store.extension).map (pageOf store.extension) := by
        refine List.forall₂_eq_eq_eq ▸ List.forall₂_map_left_iff.mpr
          (List.forall₂_map_right_iff.mpr (hfiles.flip.imp fun page file h => h.1))
      rw [hnames]
      refine (nodup_pageFiles sound).map_on fun file hfile other hother heq => ?_
      exact (hown file hfile).eq_of_pageOf (hown other hother) heq
  · obtain ⟨⟨entry, hat⟩, -⟩ := mem_pageFiles.mp hfile
    exact hown.hasVersion sound hat

/-- A wiki with a page under its own name, once more under a name with an escape, and with a page under
a name with a space. -/
def lostPages : World where
  tree := ⟨[(["wiki".toList], .directory),
    (["wiki".toList, "%41.txt".toList], .file (Utf8.encode "escaped".toList)),
    (["wiki".toList, "A.txt".toList], .file (Utf8.encode "own".toList)),
    (["wiki".toList, "a b.txt".toList], .file (Utf8.encode "spaced".toList))]⟩

theorem lostPages_sound : lostPages.tree.Sound :=
  sound_of_entries (by decide) (by decide)

theorem lostPages_stands : lostPages.tree.Standing wikiEngine.pageDirectory ["wiki".toList] := by
  constructor <;> decide

/-- The store of that wiki. -/
def lostStore : FilePages := ⟨wikiEngine, "x".toList⟩

/-- What is listed of that wiki. -/
def lostList : List PageVersion := [⟨"A".toList, 1⟩, ⟨"A".toList, 1⟩, ⟨"a b".toList, 1⟩]

theorem pageNames_lostPages : pageNames lostPages.tree ["wiki".toList] ".txt" =
    ["%41.txt".toList, "A.txt".toList, "a b.txt".toList] := by
  have hnames : lostPages.tree.names ["wiki".toList] =
      ["%41.txt".toList, "A.txt".toList, "a b.txt".toList] :=
    List.mergeSort_of_pairwise (by decide)
  rw [pageNames, hnames]
  decide

theorem versionAt_lostPages (page : List Char) :
    versionAt lostPages.tree ["wiki".toList] page = 1 := by
  have hnone : lostPages.tree.at? (["wiki".toList] ++ [archiveName]) = none := by decide
  rw [versionAt, versionsAt, lostPages_sound.names_eq_nil]
  · rfl
  · rw [archivePlace, archiveNames]
    split
    · rw [hnone]
      simp
    · rw [List.append_cons, lostPages_sound.at?_eq_none (by simp) (by rw [hnone]; simp)]
      simp

theorem lostPages_lists : lostStore.list.Gives lostPages lostList lostPages := by
  have free : lostPages.tree.LinkFree ["wiki".toList] := linkFree_of_entries (by decide) _
  refine list_gives.mpr (Or.inr ⟨by rfl, ?_, gives_change.mpr (by rfl)⟩)
  refine (listPages_at lostPages_sound lostPages_stands.toLeads free).mpr
    ⟨lostPages_stands, fun file _ held _ => Or.inr (Or.inr (by decide)), ?_⟩
  rw [show lostStore.extension = ".txt" from rfl, pageNames_lostPages]
  simp only [List.flatMap_cons, List.flatMap_nil, listedAt, versionAt_lostPages]
  decide +kernel

/-- Three pages are listed, and only the one whose file has the store's own name is found. -/
theorem lostPages_found : lostStore.list.Gives lostPages lostList lostPages ∧
    ¬ Finds lostStore lostPages "%41.txt".toList ⟨"A".toList, 1⟩ ∧
    Finds lostStore lostPages "A.txt".toList ⟨"A".toList, 1⟩ ∧
    ¬ Finds lostStore lostPages "a b.txt".toList ⟨"a b".toList, 1⟩ := by
  obtain ⟨hpages, -⟩ := (@listed_pages_found _ lostStore _ lostPages_sound lostPages_stands
    (by decide)).2.1 _ _ lostPages_lists
  have hfiles : pageFiles lostPages.tree lostStore.directory ["wiki".toList] lostStore.extension =
      ["%41.txt".toList, "A.txt".toList, "a b.txt".toList] := by
    rw [pageFiles, show lostStore.extension = ".txt" from rfl, pageNames_lostPages]
    decide +kernel
  rw [hfiles] at hpages
  cases hpages with | cons hescaped hpages
  cases hpages with | cons hown hpages
  cases hpages with | cons hspaced hpages
  refine ⟨lostPages_lists, mt hescaped.2.mp ?_, hown.2.mpr ?_, mt hspaced.2.mp ?_⟩
  all_goals
    rw [isOwn_iff]
    decide +kernel

/-- A page that is listed may not be there, and cannot be read. -/
theorem spaced_page_lost : ∃ pages, lostStore.list.Gives lostPages pages lostPages ∧
    ⟨"a b".toList, 1⟩ ∈ pages ∧ (lostStore.has "a b".toList).Gives lostPages false lostPages ∧
    ¬ ∃ text w', (lostStore.read "a b".toList 1).Gives lostPages text w' := by
  refine ⟨lostList, lostPages_lists, by decide, ⟨by decide +kernel, rfl⟩, ?_⟩
  rintro ⟨text, w', hread, -⟩
  have hfails : (lostStore.read "a b".toList 1 lostPages).result.toOption = none := by decide +kernel
  rw [hread] at hfails
  cases hfails

end WikiMigration.Store
