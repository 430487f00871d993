/-
What the attempt at a page makes of the target.

Reading, rendering, writing and the hooks change nothing in the two wikis, and what they come to is told by
the source alone: it is the same whenever it is asked for.  Saving touches what is kept for the page, and so
does the copying of its attachments.  So the attempts at other pages may be left out of sight, whatever
order they come in and however they end.
-/
import WikiMigration.Proofs.Migration.Copying

namespace WikiMigration.Migration

open Text Data Files Files.Tree Store Action

variable {g : Ground} {w w₁ w' : World} {t t₁ t' : Tree} {renderer : Rendering.Renderer}
variable {hooks : List (List Char → Except Failure (List Char))} {options : Options}

/-! ### Texts -/

/-- A text after all hooks. -/
def finish (hooks : List (List Char → Except Failure (List Char))) (text : List Char) :
    Except Failure (List Char) :=
  hooks.foldlM (fun text hook => hook text) text

/-- The text is what comes of a page: the source has a text of it, which can be converted, and what it
is converted to gets past the hooks. -/
def ComesOf (g : Ground) (hooks : List (List Char → Except Failure (List Char))) (t : Tree)
    (page finished : List Char) : Prop :=
  ∃ text markup, ReadsFrom t g.source.pageDirectory g.source.dialect.fileExtension page latestVersion
      text ∧
    Conversion.convert page g.source g.target (some text) = .ok markup ∧
    finish hooks markup = .ok finished

theorem ComesOf.unique {page finished other : List Char} (h : ComesOf g hooks t page finished)
    (h' : ComesOf g hooks t page other) : finished = other := by
  obtain ⟨text, markup, hreads, hconvert, hfinish⟩ := h
  obtain ⟨text', markup', hreads', hconvert', hfinish'⟩ := h'
  obtain rfl := hreads.unique hreads'
  obtain rfl := Except.ok.inj (hconvert.symm.trans hconvert')
  exact Except.ok.inj (hfinish.symm.trans hfinish')

/-- What comes of a page is the same as long as the source is. -/
theorem ComesOf.alike {page finished : List Char} (hpage : page ≠ [])
    (alike : Alike t t' g.source.pageDirectory g.home) (h : ComesOf g hooks t page finished) :
    ComesOf g hooks t' page finished := by
  obtain ⟨text, markup, hreads, hmade⟩ := h
  exact ⟨text, markup, alike.reads hpage hreads, hmade⟩

/-- The file of a page in the target. -/
abbrev Ground.pageFile (g : Ground) (page : List Char) : List Name :=
  [pageName g.target.dialect.fileExtension page]

/-- The names that saving a page in the target makes or fills something under. -/
abbrev Ground.SaveTouches (g : Ground) (page : List Char) : List Name → Prop :=
  Store.SaveTouches g.site.mark g.target.dialect.fileExtension page

/-- What is kept for the page in the target is as before. -/
def Untouched (g : Ground) (page : List Char) (t t' : Tree) : Prop :=
  ∀ names, Belongs page names → t'.at? (g.there ++ names) = t.at? (g.there ++ names)

/-- What the attempt at a page makes of the target, whatever else is made of it. -/
structure Attempted (g : Ground) (hooks : List (List Char → Except Failure (List Char)))
    (page : List Char) (result : Except ErrorKind Nat) (t t' : Tree) : Prop where
  /-- After a success what comes of the page is in its file, and its attachments are there. -/
  success : ∀ count, result = .ok count → ∃ finished, ComesOf g hooks t page finished ∧
    t'.at? (g.there ++ g.pageFile page) = some (.file (Utf8.encode finished)) ∧
    AllCopied g t t' page count
  /-- A page that nothing comes of has failed, and nothing has changed for it. -/
  nothing : (∀ finished, ¬ ComesOf g hooks t page finished) →
    (∃ kind, result = .error kind) ∧ Untouched g page t t'
  /-- The file that the page had is there, or a new copy of it. -/
  old : ∀ bytes, t.at? (g.there ++ g.pageFile page) = some (.file bytes) →
    t'.at? (g.there ++ g.pageFile page) = some (.file bytes) ∨ ∃ version,
      t.at? (copyPlace g.there g.target.dialect.fileExtension page version) = none ∧
      t'.at? (copyPlace g.there g.target.dialect.fileExtension page version) = some (.file bytes)

variable {page : List Char} {result : Except ErrorKind Nat}

theorem belongs_pageFile (g : Ground) (page : List Char) : Belongs page (g.pageFile page) :=
  ⟨.current g.target.dialect page, [], rfl, rfl⟩

theorem Untouched.copyPlace (h : Untouched g page t t') (extension : String) (version : Nat) :
    t'.at? (copyPlace g.there extension page version) =
      t.at? (Store.copyPlace g.there extension page version) := by
  rw [Store.copyPlace, archivePlace, List.append_assoc]
  exact h _ ⟨.archive page, _, rfl, rfl⟩

theorem Untouched.versions (h : Untouched g page t t') (file : List Char) (names : List Name) :
    t'.at? (versionsPlace g.there page file ++ names) = t.at? (versionsPlace g.there page file ++ names) := by
  rw [List.append_assoc]
  exact h _ ⟨.attachment page file, names, rfl, rfl⟩

theorem AllCopied.after {count : Nat} (h : AllCopied g t t₁ page count) (untouched : Untouched g page t₁ t') :
    AllCopied g t t' page count := by
  obtain ⟨found, hlist, hlength, hall⟩ := h
  exact ⟨found, hlist, hlength, fun a ha => (hall a ha).after (untouched.versions a.file)⟩

theorem AllCopied.before {count : Nat} (hpage : page ≠ []) (alike : Alike t t₁ g.source.pageDirectory g.home)
    (h : AllCopied g t₁ t' page count) : AllCopied g t t' page count := by
  obtain ⟨found, hlist, hlength, hall⟩ := h
  exact ⟨found, alike.symm.listAttachments hlist, hlength, fun a ha => (hall a ha).before hpage alike⟩

/-- What happens to other pages afterwards makes no difference. -/
theorem Attempted.after (h : Attempted g hooks page result t t₁) (untouched : Untouched g page t₁ t') :
    Attempted g hooks page result t t' where
  success count hcount := by
    obtain ⟨finished, comes, hfile, copied⟩ := h.success count hcount
    exact ⟨finished, comes, (untouched _ (belongs_pageFile g page)).trans hfile, copied.after untouched⟩
  nothing hnothing := by
    obtain ⟨failed, same⟩ := h.nothing hnothing
    exact ⟨failed, fun names hnames => (untouched names hnames).trans (same names hnames)⟩
  old bytes hat := by
    rcases h.old bytes hat with hfile | ⟨version, hnone, hcopy⟩
    · exact Or.inl ((untouched _ (belongs_pageFile g page)).trans hfile)
    · exact Or.inr ⟨version, hnone, (untouched.copyPlace _ version).trans hcopy⟩

/-- Nor does what happens to them before. -/
theorem Attempted.before (hpage : page ≠ []) (alike : Alike t t₁ g.source.pageDirectory g.home)
    (untouched : Untouched g page t t₁) (h : Attempted g hooks page result t₁ t') :
    Attempted g hooks page result t t' where
  success count hcount := by
    obtain ⟨finished, comes, hfile, copied⟩ := h.success count hcount
    exact ⟨finished, comes.alike hpage alike.symm, hfile, copied.before hpage alike⟩
  nothing hnothing := by
    obtain ⟨failed, same⟩ := h.nothing fun finished comes =>
      hnothing finished (comes.alike hpage alike.symm)
    exact ⟨failed, fun names hnames => (same names hnames).trans (untouched names hnames)⟩
  old bytes hat := by
    rcases h.old bytes ((untouched _ (belongs_pageFile g page)).trans hat) with hfile | ⟨version, hnone, hcopy⟩
    · exact Or.inl hfile
    · exact Or.inr ⟨version, (untouched.copyPlace _ version).symm.trans hnone, hcopy⟩

/-- The names that the attempt at a page makes or fills something under. -/
abbrev Ground.Touches (g : Ground) (page : List Char) : List Name → Prop :=
  Store.Touches g.site.mark g.target.dialect page

theorem AllCopied.latest {count : Nat} (h : AllCopied g t t' page count) (outset : Outset g t)
    (footing : Footing g t')
    (canonical : Canonical t g.home g.source.dialect.fileExtension) :
    ∃ found, listAttachments t g.source.pageDirectory page = .ok found ∧ found.length = count ∧
      ∀ a ∈ found, ∃ bytes, LatestHas t g.source.pageDirectory page a.file bytes ∧
        LatestHas t' g.target.pageDirectory page a.file bytes := by
  obtain ⟨found, hlist, hlength, hall⟩ := h
  refine ⟨found, hlist, hlength, fun a ha => ?_⟩
  obtain ⟨version, bytes, hversion, hopens, latest⟩ := hall a ha
  obtain ⟨-, version', hversion', hlatest⟩ :=
    (canonical.attachments_once outset.sound outset.source outset.sourceFree hlist).2 a ha
  obtain rfl : version = version' := Int.ofNat.inj (hversion.symm.trans hversion')
  exact ⟨bytes, ⟨version, hlatest, hopens⟩,
    latest.has footing.sound footing.targetStands (footing.targetFree.into _)⟩

/-- Outcomes that tell of attempts tell of whatever holds of the attempts. -/
theorem TellOf.attempts {pages : List PageVersion} {results : List (Except ErrorKind Nat)}
    {outcomes : List PageOutcome} {holds : PageVersion → Except ErrorKind Nat → Prop}
    (tells : TellOf pages results outcomes) (h : List.Forall₂ holds pages results) :
    List.Forall₂ (fun page outcome => ∃ result, TellsOf page result outcome ∧ holds page result) pages
      outcomes := by
  induction h generalizing outcomes with
  | nil =>
    cases tells
    exact .nil
  | @cons page result _ _ first _ ih =>
    cases tells with
    | cons told others => exact .cons ⟨result, told, first⟩ (ih others)

/-- An engine that works in `/work`. -/
def plainEngine (dialect : Dialect) (pageDirectory : Path) : Engine where
  dialect
  pageDirectory
  workDirectory := ⟨false, ["work".toList, Engine.workDirectoryName dialect]⟩
  logFile := ⟨false, ["work".toList, Engine.logName dialect]⟩

/-- A wiki at `/wiki` and one at `/out`. -/
def plainGround : Ground where
  site := plainSite
  source := plainEngine .jspwiki ⟨false, ["wiki".toList]⟩
  target := plainEngine .markdown ⟨false, ["out".toList]⟩
  home := ["wiki".toList]
  there := ["out".toList]
  work := ⟨false, ["work".toList]⟩
  root := ["work".toList]
  sourceWorks := ⟨rfl, rfl⟩
  targetWorks := ⟨rfl, rfl⟩
  apart := by decide
  outside := by decide

/-- A wiki with a page that has an attachment and one that is no text, and a wiki that has both pages. -/
def twoWikis : World where
  tree := ⟨[(["wiki".toList], .directory),
    (["wiki".toList, "A.txt".toList], .file [104, 105]),
    (["wiki".toList, "B.txt".toList], .file [255]),
    (["wiki".toList, "A-att".toList], .directory),
    (["wiki".toList, "A-att".toList, "f-dir".toList], .directory),
    (["wiki".toList, "A-att".toList, "f-dir".toList, "1.bin".toList], .file [1]),
    (["out".toList], .directory),
    (["out".toList, "A.md".toList], .file [111]),
    (["out".toList, "B.md".toList], .file [112])]⟩

theorem mem_entries_of_at? {place : Location} {entry : Entry} (hplace : place ≠ [])
    (hat : t.at? place = some entry) : (place, entry) ∈ t.entries := by
  rw [at?_of_ne_nil _ hplace] at hat
  exact mem_of_lookup hat

theorem twoWikis_outset : Outset plainGround twoWikis.tree where
  sound := sound_of_entries (by decide) (by decide)
  source := ⟨by decide +kernel, by decide⟩
  target := Standing.toLeads ⟨by decide +kernel, by decide⟩
  work := ⟨⟨.root, [], ["work".toList], rfl, rfl, ⟨rfl, rfl⟩, by decide, by
    rintro name rest heq
    obtain ⟨rfl, rfl⟩ := List.cons.inj heq
    decide⟩⟩
  sourceFree := linkFree_of_entries (by decide) _
  targetFree := linkFree_of_entries (by decide) _
  workApart name target hat := absurd hat (linkFree_of_entries (by decide) [] _ _)
  unstaged names name := by
    cases hat : twoWikis.tree.at? (plainGround.there ++ (names ++ [stagingName plainGround.site.mark name])) with
    | none => rfl
    | some entry =>
      have hmem := mem_entries_of_at? (by simp) hat
      have hfront : ∀ e ∈ twoWikis.tree.entries, (e.1.getLastD []).head? ≠ some '.' := by decide
      have hdot := hfront _ hmem
      rw [← List.append_assoc, List.getLastD_eq_getLast?, List.getLast?_concat] at hdot
      exact absurd rfl hdot

theorem twoWikis_canonical :
    Canonical twoWikis.tree plainGround.home plainGround.source.dialect.fileExtension where
  pages file bytes hat _ := by
    have hmem := mem_entries_of_at? (by simp) hat
    simp [twoWikis, plainGround] at hmem
    rcases hmem with ⟨rfl, -⟩ | ⟨rfl, -⟩
    · exact ⟨['A'], by simp, by decide +kernel⟩
    · exact ⟨['B'], by simp, by decide +kernel⟩
  attachments page name hat _ := by
    have hmem := mem_entries_of_at? (by simp) hat
    simp [twoWikis, plainGround] at hmem
    exact ⟨['f'], by rw [hmem.2]; decide +kernel⟩

end WikiMigration.Migration
