/-
Stores that remember and stores that do not.

A store that remembers what it has read gives the same answers as one that reads everything anew: what it
remembers agrees with the tree, and what a save may change it forgets.  There is one exception.  A save that
fails makes the store forget nothing, and it may have made a directory for the earlier versions of its page,
by which the list of the pages becomes another one, or cannot be made any more.  The texts are not concerned,
nor is the list if all files of pages have names that archives can have.
-/
import WikiMigration.Proofs.Store.Undisturbed
import WikiMigration.Proofs.Store.Unsaved

namespace WikiMigration.Store

open Text Files Files.Tree Action

/-! ### Calls -/

/-- What a store of pages is asked for; each save has its mark for the staging file. -/
inductive Call where
  | list
  | read (page : List Char) (version : Int)
  | save (mark : Name) (page text : List Char)
  deriving DecidableEq

/-- What a store answers. -/
inductive Answer where
  | pages (pages : List PageVersion)
  | text (text : List Char)
  | saved
  deriving DecidableEq

/-- What the store of an engine does when it is called. -/
def Call.make (engine : Engine) : Call → Task World Answer
  | .list => do
    let pages ← FilePages.list ⟨engine, []⟩
    return .pages pages
  | .read page version => do
    let text ← FilePages.read ⟨engine, []⟩ page version
    return .text text
  | .save mark page text => do
    FilePages.save ⟨engine, mark⟩ page text
    return .saved

/-- The answers to calls that are made one after the other; a failure is an answer as well. -/
def answers (engine : Engine) : List Call → World → List (Except Failure Answer)
  | [], _ => []
  | call :: calls, w =>
    (call.make engine w).result :: answers engine calls (call.make engine w).world

/-- The engine with a memory. -/
abbrev cached (engine : Engine) : Engine := { engine with isCached := true }

/-- The engine without one. -/
abbrev uncached (engine : Engine) : Engine := { engine with isCached := false }

/-- The page that a call is about has a name, and the name of a staging file is a new one. -/
def Call.IsProper (engine : Engine) (place : Location) (t : Tree) : Call → Prop
  | .list => True
  | .read page _ => page ≠ []
  | .save mark page _ => page ≠ [] ∧
      t.at? (place ++ [stagingName mark (pageName engine.dialect.fileExtension page)]) = none

/-- All of the calls are proper when they are made. -/
def AreProper (engine : Engine) (place : Location) : List Call → World → Prop
  | [], _ => True
  | call :: calls, w =>
    call.IsProper engine place w.tree ∧ AreProper engine place calls (call.make engine w).world

/-- What may be listed while saves fail: no directory has the name of the file of a page that is to be
saved, or every file is that of a page with a name that archives can have. -/
def Steady (engine : Engine) (place : Location) (calls : List Call) (t : Tree) : Prop :=
  (∀ mark page text, .save mark page text ∈ calls →
    t.at? (place ++ [pageName engine.dialect.fileExtension page]) ≠ some .directory) ∨
  ∀ file held, endsWith engine.dialect.fileExtension.toList file = true →
    t.at? (place ++ [file]) = some (.file held) →
    HasArchiveName (pageOf engine.dialect.fileExtension file)

variable {α β : Type} {engine : Engine} {place : Location} {w w' w₁ w₁' : World} {call : Call}
variable {calls : List Call} {page text : List Char} {store store' : FilePages}

/-! ### The same outcome -/

/-- Two tasks come to the same in two worlds and leave the same files. -/
structure SameOutcome (x y : Task World α) (w w' : World) : Prop where
  result : (x w).result = (y w').result
  tree : (x w).world.tree = (y w').world.tree

namespace SameOutcome

variable {x y : Task World α}

theorem of_gives {a : α} (h : x.Gives w a w₁) (h' : y.Gives w' a w₁') (htree : w₁.tree = w₁'.tree) :
    SameOutcome x y w w' :=
  ⟨h.1.trans h'.1.symm, by rw [h.2, h'.2, htree]⟩

theorem of_fails {e : Failure} (h : x.Fails w e w₁) (h' : y.Fails w' e w₁') (htree : w₁.tree = w₁'.tree) :
    SameOutcome x y w w' :=
  ⟨h.1.trans h'.1.symm, by rw [h.2, h'.2, htree]⟩

theorem bind {f g : α → Task World β} (h : SameOutcome x y w w')
    (hnext : ∀ a w₁ w₁', w₁.tree = w₁'.tree → SameOutcome (f a) (g a) w₁ w₁') :
    SameOutcome (x >>= f) (y >>= g) w w' := by
  obtain ⟨hresult, htree⟩ := h
  rcases gives_or_fails x w with ⟨a, w₁, hx⟩ | ⟨e, w₁, hx⟩
  · have hy : y.Gives w' a (y w').world := ⟨hresult.symm.trans hx.1, rfl⟩
    have hnext := hnext a w₁ _ (hx.2 ▸ htree)
    refine ⟨?_, ?_⟩
    · rw [bind_apply_of_gives hx, bind_apply_of_gives hy]
      exact hnext.result
    · rw [bind_apply_of_gives hx, bind_apply_of_gives hy]
      exact hnext.tree
  · have hy : y.Fails w' e (y w').world := ⟨hresult.symm.trans hx.1, rfl⟩
    exact of_fails (fails_bind.mpr (Or.inl hx)) (fails_bind.mpr (Or.inl hy)) (hx.2 ▸ htree)

theorem pure (a : α) (htree : w.tree = w'.tree) : SameOutcome (pure a) (pure a) w w' := ⟨rfl, htree⟩

theorem fail (e : Failure) (htree : w.tree = w'.tree) :
    SameOutcome (fail e : Task World α) (fail e) w w' := ⟨rfl, htree⟩

theorem inspect (look : Tree → Result α) (htree : w.tree = w'.tree) :
    SameOutcome (inspect look) (inspect look) w w' :=
  ⟨by simp [Store.inspect, htree], htree⟩

theorem log (level : Log.Level) (logger message : String) (htree : w.tree = w'.tree) :
    SameOutcome (log level logger message) (log level logger message) w w' := ⟨rfl, htree⟩

theorem classified (kind : ErrorKind) (page : Option (List Char)) (message : String → String)
    (h : SameOutcome x y w w') :
    SameOutcome (classified kind page message x) (classified kind page message y) w w' :=
  ⟨by simp [Store.classified, mapFailure, h.result], h.tree⟩

theorem makeSteps (staged : Option Path) (steps : List FileStep) (htree : w.tree = w'.tree) :
    SameOutcome (makeSteps staged steps) (makeSteps staged steps) w w' := by
  cases h : applySteps w.tree steps with
  | mk fault t' =>
    have h' := h
    rw [htree] at h'
    cases fault with
    | none =>
      have hgives : (Store.makeSteps staged steps).Gives w () _ := gives_makeSteps.mpr ⟨t', h, rfl⟩
      exact of_gives hgives (gives_makeSteps.mpr ⟨t', h', rfl⟩) rfl
    | some e =>
      exact of_fails (fails_makeSteps.mpr ⟨e, t', h, rfl, rfl⟩)
        (fails_makeSteps.mpr ⟨e, t', h', rfl, rfl⟩) rfl

/-- What is remembered is no part of the outcome. -/
theorem remember (f g : PageCache → PageCache) (htree : w.tree = w'.tree) :
    SameOutcome (store.remember f) (store'.remember g) w w' :=
  ⟨rfl, (gives_remember ⟨rfl, rfl⟩).trans (htree.trans (gives_remember ⟨rfl, rfl⟩).symm)⟩

/-- What follows may depend on what is remembered. -/
theorem remembered {f g : PageCache → Task World α}
    (h : SameOutcome (f (memory store.engine w)) (g (memory store'.engine w')) w w') :
    SameOutcome (store.remembered >>= f) (store'.remembered >>= g) w w' := by
  have hx := bind_apply_of_gives (gives_remembered.mpr ⟨rfl, rfl⟩ : store.remembered.Gives w _ w) f
  have hy := bind_apply_of_gives (gives_remembered.mpr ⟨rfl, rfl⟩ : store'.remembered.Gives w' _ w') g
  exact ⟨by rw [hx, hy]; exact h.result, by rw [hx, hy]; exact h.tree⟩

/-- What follows may depend on the world. -/
theorem world {f g : World → Task World α} (h : SameOutcome (f w) (g w') w w') :
    SameOutcome (world >>= f) (world >>= g) w w' := ⟨h.result, h.tree⟩

end SameOutcome

/-! ### One call -/

/-- The world of a store whose texts agree with the tree, with no links in the directory of the pages. -/
structure Recalls (engine : Engine) (place : Location) (w : World) : Prop where
  sound : w.tree.Sound
  leads : w.tree.Leads engine.pageDirectory place
  free : w.tree.LinkFree place
  texts : TextsAgree engine (memory engine w) w.tree

/-- **A text that is remembered is the one that would be read.** -/
theorem Recalls.read_same (h : Recalls (cached engine) place w) (htree : w.tree = w'.tree)
    (hpage : page ≠ []) (mark : Name) (version : Int) :
    SameOutcome (FilePages.read ⟨cached engine, mark⟩ page version)
      (FilePages.read ⟨uncached engine, mark⟩ page version) w w' := by
  cases hlookup : (memory (cached engine) w).texts.lookup (page, version) with
  | some text =>
    have hreads := h.texts _ _ _ hpage hlookup
    rw [htree] at hreads
    have hcached : (FilePages.read ⟨cached engine, mark⟩ page version).Gives w text w :=
      read_gives.mpr (Or.inl ⟨hlookup, rfl⟩)
    have huncached : (FilePages.read ⟨uncached engine, mark⟩ page version).Gives w' text _ :=
      read_gives.mpr (Or.inr ⟨rfl, hreads, gives_change.mpr rfl⟩)
    exact .of_gives hcached huncached htree
  | none =>
    rw [FilePages.read, FilePages.read]
    refine .remembered ?_
    rw [hlookup]
    refine .bind (.inspect _ htree) fun file w₁ w₁' htree => ?_
    refine .bind (.classified _ _ _ (.inspect _ htree)) fun bytes w₁ w₁' htree => ?_
    cases textOf bytes with
    | error e => exact .fail _ htree
    | ok text => exact .bind (.remember _ _ htree) fun _ _ _ htree => .pure _ htree

/-- A list that is remembered is the one that would be made. -/
theorem list_same (hpages : PagesAgree (cached engine) (memory (cached engine) w) w.tree)
    (htree : w.tree = w'.tree) (mark : Name) :
    SameOutcome (FilePages.list ⟨cached engine, mark⟩) (FilePages.list ⟨uncached engine, mark⟩) w w' := by
  cases hlookup : (memory (cached engine) w).pages with
  | some pages =>
    have hlist := hpages _ hlookup
    rw [htree] at hlist
    have hcached : (FilePages.list ⟨cached engine, mark⟩).Gives w pages w :=
      list_gives.mpr (Or.inl ⟨hlookup, rfl⟩)
    have huncached : (FilePages.list ⟨uncached engine, mark⟩).Gives w' pages _ :=
      list_gives.mpr (Or.inr ⟨rfl, hlist, gives_change.mpr rfl⟩)
    exact .of_gives hcached huncached htree
  | none =>
    rw [FilePages.list, FilePages.list]
    refine .remembered ?_
    rw [hlookup]
    refine .bind (.inspect _ htree) fun isDirectory w₁ w₁' htree => ?_
    cases isDirectory with
    | false => exact .fail _ htree
    | true =>
      refine .bind (.inspect _ htree) fun pages w₁ w₁' htree => ?_
      refine .bind (.log _ _ _ htree) fun _ w₁ w₁' htree => ?_
      exact .bind (.remember _ _ htree) fun _ _ _ htree => .pure _ htree

/-- Saving does not depend on what is remembered. -/
theorem save_same (htree : w.tree = w'.tree) (mark : Name) (page text : List Char) :
    SameOutcome (FilePages.save ⟨cached engine, mark⟩ page text)
      (FilePages.save ⟨uncached engine, mark⟩ page text) w w' := by
  rw [FilePages.save, FilePages.save]
  refine .world ?_
  rw [htree]
  refine .bind (.classified _ _ _ (.makeSteps _ _ htree)) fun _ w₁ w₁' htree => ?_
  exact .bind (.remember _ _ htree) fun _ _ _ htree => .log _ _ _ htree

/-- **A call is answered alike**, unless it is for a list that may be out of date. -/
theorem Recalls.same (h : Recalls (cached engine) place w) (htree : w.tree = w'.tree)
    (proper : call.IsProper engine place w.tree)
    (hpages : call = .list → PagesAgree (cached engine) (memory (cached engine) w) w.tree) :
    SameOutcome (call.make (cached engine)) (call.make (uncached engine)) w w' := by
  cases call with
  | list => exact .bind (list_same (hpages rfl) htree []) fun _ _ _ htree => .pure _ htree
  | read page version =>
    exact .bind (h.read_same htree proper [] version) fun _ _ _ htree => .pure _ htree
  | save mark page text => exact .bind (save_same htree mark page text) fun _ _ _ htree => .pure _ htree

/-! ### What a call leaves -/

/-- What a call may leave of the files and of the memory of a store. -/
inductive CallLeaves (engine : Engine) (place : Location) (w : World) : Call → World → Prop
  /-- It is answered from the memory, or there is no answer. -/
  | nothing {call : Call} {w' : World} (tree : w'.tree = w.tree)
      (memory : memory engine w' = memory engine w) : CallLeaves engine place w call w'
  | listed {w' : World} {pages : List PageVersion}
      (list : listPages w.tree engine.pageDirectory engine.dialect.fileExtension = .ok pages)
      (tree : w'.tree = w.tree)
      (memory : memory engine w' = { memory engine w with pages := some pages }) :
      CallLeaves engine place w .list w'
  | wasRead {w' : World} {page text : List Char} {version : Int}
      (reads : ReadsFrom w.tree engine.pageDirectory engine.dialect.fileExtension page version text)
      (tree : w'.tree = w.tree)
      (memory : memory engine w' =
        { memory engine w with texts := ((page, version), text) :: (memory engine w).texts }) :
      CallLeaves engine place w (.read page version) w'
  | saved {w' : World} {mark : Name} {page text : List Char} (named : page ≠ [])
      (saved : Saved w.tree engine.pageDirectory engine.dialect.fileExtension place page
        (Utf8.encode text) w'.tree)
      (memory : memory engine w' = FilePages.forget page (memory engine w)) :
      CallLeaves engine place w (.save mark page text) w'
  | unsaved {w' : World} {mark : Name} {page text : List Char} (named : page ≠ [])
      (unsaved : Unsaved w.tree place engine.dialect.fileExtension page w'.tree)
      (memory : memory engine w' = memory engine w) :
      CallLeaves engine place w (.save mark page text) w'

theorem world_bind_pure (x : Task World α) (f : α → β) (w : World) :
    ((do let a ← x; return f a : Task World β) w).world = (x w).world := by
  rcases gives_or_fails x w with ⟨a, w₁, h⟩ | ⟨e, w₁, h⟩
  · rw [bind_apply_of_gives h]
    exact h.2.symm
  · rw [bind_apply_of_fails h]
    exact h.2.symm

/-- **What a call leaves.** -/
theorem Recalls.leaves (h : Recalls (cached engine) place w) (proper : call.IsProper engine place w.tree) :
    CallLeaves (cached engine) place w call (call.make (cached engine) w).world := by
  cases call with
  | list =>
    rw [Call.make, world_bind_pure]
    rcases gives_or_fails (FilePages.list ⟨cached engine, []⟩) w with ⟨pages, w', hgives⟩ | ⟨e, w', hfails⟩
    · rw [hgives.2]
      rcases list_gives.mp hgives with ⟨-, rfl⟩ | ⟨-, hlist, hremember⟩
      · exact .nothing rfl rfl
      · exact .listed hlist (gives_remember hremember) (memory_of_cached rfl hremember)
    · rw [hfails.2, list_fails hfails]
      exact .nothing rfl rfl
  | read page version =>
    rw [Call.make, world_bind_pure]
    rcases gives_or_fails (FilePages.read ⟨cached engine, []⟩ page version) w with
      ⟨text, w', hgives⟩ | ⟨e, w', hfails⟩
    · rw [hgives.2]
      rcases read_gives.mp hgives with ⟨-, rfl⟩ | ⟨-, hreads, hremember⟩
      · exact .nothing rfl rfl
      · exact .wasRead hreads (gives_remember hremember) (memory_of_cached rfl hremember)
    · rw [hfails.2, read_fails hfails]
      exact .nothing rfl rfl
  | save mark page text =>
    obtain ⟨hpage, hunused⟩ := proper
    have fresh : IsFresh w.tree engine.pageDirectory mark (pageName engine.dialect.fileExtension page) :=
      isFresh_of_leads h.leads h.sound (fun other target => h.free [other] target) hunused
    rw [Call.make, world_bind_pure]
    rcases gives_or_fails (FilePages.save ⟨cached engine, mark⟩ page text) w with
      ⟨u, w', hgives⟩ | ⟨e, w', hfails⟩
    · rw [hgives.2]
      obtain ⟨w₁, hcaches, hremember⟩ := save_remembers hgives
      refine .saved hpage (saved_of_done hpage h.sound h.leads h.free fresh (save_gives hgives)) ?_
      rw [memory_of_cached rfl hremember]
      exact congrArg _ (memory_congr hcaches)
    · rw [hfails.2]
      have leads : w.tree.Leads (FilePages.directory ⟨cached engine, mark⟩) place := h.leads
      exact .unsaved hpage (unsaved_of_fails hpage h.sound leads h.free fresh hfails)
        (memory_congr (save_fails_caches hfails))

/-- **The texts that are remembered stay those of the tree**, whatever is called for. -/
theorem Recalls.of_leaves (h : Recalls engine place w) (leaves : CallLeaves engine place w call w') :
    Recalls engine place w' := by
  cases leaves with
  | nothing tree memory =>
    exact ⟨tree ▸ h.sound, tree ▸ h.leads, tree ▸ h.free, by rw [tree, memory]; exact h.texts⟩
  | listed list tree memory =>
    exact ⟨tree ▸ h.sound, tree ▸ h.leads, tree ▸ h.free, by rw [tree, memory]; exact h.texts⟩
  | wasRead reads tree memory =>
    refine ⟨tree ▸ h.sound, tree ▸ h.leads, tree ▸ h.free, ?_⟩
    rw [tree, memory]
    intro other version held hother hlookup
    rw [lookup_cons_eq] at hlookup
    split at hlookup
    next hkey =>
      obtain ⟨rfl, rfl⟩ := Prod.mk.inj hkey
      exact Option.some.inj hlookup ▸ reads
    next => exact h.texts _ _ _ hother hlookup
  | saved named saved memory =>
    refine ⟨saved.sound, saved.stands.toLeads, saved.free h.free, ?_⟩
    rw [memory]
    exact saved.texts_forget named h.sound h.leads h.free h.texts
  | unsaved named unsaved memory =>
    refine ⟨unsaved.sound, unsaved.leads h.sound h.leads, unsaved.free h.free, ?_⟩
    rw [memory]
    intro other version held hother hlookup
    exact (unsaved.reads_iff hother h.sound h.leads h.free).mpr (h.texts _ _ _ hother hlookup)

theorem Steady.of_same {t t' : Tree} (h : Steady engine place (call :: calls) t)
    (hfiles : ∀ file, endsWith engine.dialect.fileExtension.toList file = true →
      t'.at? (place ++ [file]) = t.at? (place ++ [file])) : Steady engine place calls t' := by
  refine h.imp (fun hsaves mark page text hmem => ?_) (fun hnames file held hends hat => ?_)
  · rw [hfiles _ (endsWith_pageName _ _)]
    exact hsaves mark page text (List.mem_cons_of_mem _ hmem)
  · exact hnames file held hends (hfiles file hends ▸ hat)

/-- What a call leaves is as steady as what it found. -/
theorem Steady.of_leaves (h : Steady engine place (call :: calls) w.tree)
    (leaves : CallLeaves engine place w call w') : Steady engine place calls w'.tree := by
  cases leaves with
  | nothing tree | listed _ tree | wasRead _ tree => exact h.of_same fun file _ => by rw [tree]
  | @saved _ _ page _ named saved =>
    refine h.imp (fun hsaves mark other text hmem => ?_) (fun hnames file held hends hat => ?_)
    · by_cases hother : other = page
      · rw [hother, saved.written]
        simp
      · rw [saved.pagePlace_eq hother]
        exact hsaves mark other text (List.mem_cons_of_mem _ hmem)
    · by_cases hfile : file = pageName engine.dialect.fileExtension page
      · rw [hfile, pageOf_pageName]
        exact ⟨named, (canStand_mangle named (saved.sound.named _ _ _ saved.written)).short⟩
      · rw [saved.pageNames_kept hends hfile] at hat
        exact hnames file held hends hat
  | unsaved _ unsaved => exact h.of_same fun file hends => unsaved.file_eq hends

/-- **In a steady directory the list that is remembered stays that of the tree.** -/
theorem Recalls.pagesAgree (h : Recalls engine place w) (steady : Steady engine place (call :: calls) w.tree)
    (agree : PagesAgree engine (memory engine w) w.tree) (leaves : CallLeaves engine place w call w') :
    PagesAgree engine (memory engine w') w'.tree := by
  cases leaves with
  | nothing tree memory =>
    rw [tree, memory]
    exact agree
  | listed list tree memory =>
    rw [tree, memory]
    intro pages hpages
    exact Option.some.inj hpages ▸ list
  | wasRead _ tree memory =>
    rw [tree, memory]
    exact agree
  | saved named saved memory =>
    rw [memory]
    intro pages hpages
    cases hpages
  | unsaved named unsaved memory =>
    rw [memory]
    intro pages hpages
    refine unsaved.lists h.sound h.leads h.free ?_ (agree pages hpages)
    exact steady.imp_left fun hsaves => hsaves _ _ _ List.mem_cons_self

/-! ### All calls -/

/-- Listing changes no file. -/
theorem list_tree (engine : Engine) (w : World) : (Call.make engine .list w).world.tree = w.tree := by
  rw [Call.make, world_bind_pure]
  rcases gives_or_fails (FilePages.list ⟨engine, []⟩) w with ⟨pages, w', hgives⟩ | ⟨e, w', hfails⟩
  · rw [hgives.2]
    rcases list_gives.mp hgives with ⟨-, rfl⟩ | ⟨-, -, hremember⟩
    · rfl
    · exact gives_remember hremember
  · rw [hfails.2, list_fails hfails]

/-- The files are the same after each call, be a list out of date or not. -/
theorem Recalls.same_tree (h : Recalls (cached engine) place w) (htree : w.tree = w'.tree)
    (proper : call.IsProper engine place w.tree) :
    (call.make (cached engine) w).world.tree = (call.make (uncached engine) w').world.tree := by
  by_cases hlist : call = .list
  · rw [hlist, list_tree, list_tree, htree]
  · exact (h.same htree proper fun heq => absurd heq hlist).tree

/-- All answers but lists are the same. -/
theorem Recalls.answers_same (h : Recalls (cached engine) place w) (htree : w.tree = w'.tree)
    (proper : AreProper (uncached engine) place calls w') (i : Nat) (hi : calls[i]? ≠ some .list) :
    (answers (cached engine) calls w)[i]? = (answers (uncached engine) calls w')[i]? := by
  induction calls generalizing w w' i with
  | nil => rfl
  | cons call calls ih =>
    obtain ⟨hproper, hrest⟩ := proper
    rw [← htree] at hproper
    rw [answers, answers]
    cases i with
    | zero =>
      have hcall : call ≠ .list := by simpa using hi
      have same := h.same htree hproper fun heq => absurd heq hcall
      simpa using same.result
    | succ i =>
      simpa using ih (h.of_leaves (h.leaves hproper)) (h.same_tree htree hproper) hrest i
        (by simpa using hi)

/-- In a steady directory all answers are the same. -/
theorem Recalls.answers_eq (h : Recalls (cached engine) place w)
    (agree : PagesAgree (cached engine) (memory (cached engine) w) w.tree) (htree : w.tree = w'.tree)
    (proper : AreProper (uncached engine) place calls w') (steady : Steady engine place calls w.tree) :
    answers (cached engine) calls w = answers (uncached engine) calls w' := by
  induction calls generalizing w w' with
  | nil => rfl
  | cons call calls ih =>
    obtain ⟨hproper, hrest⟩ := proper
    rw [← htree] at hproper
    have same := h.same htree hproper fun _ => agree
    have leaves := h.leaves hproper
    have steady' : Steady (cached engine) place (call :: calls) w.tree := steady
    rw [answers, answers, same.result, ih (h.of_leaves leaves) (h.pagesAgree steady' agree leaves) same.tree
      hrest (steady'.of_leaves leaves)]

/-- **A store's memory is not seen.**  Whatever calls are made, a store that remembers answers all of them but
those for lists as one that does not; and in a steady directory it gives the same lists as well. -/
theorem memory_unseen {start : World} (sound : start.tree.Sound)
    (leads : start.tree.Leads engine.pageDirectory place) (free : start.tree.LinkFree place)
    (fresh : memory (cached engine) start = {}) (proper : AreProper (uncached engine) place calls start) :
    (∀ i : Nat, calls[i]? ≠ some .list →
      (answers (cached engine) calls start)[i]? = (answers (uncached engine) calls start)[i]?) ∧
    (Steady engine place calls start.tree →
      answers (cached engine) calls start = answers (uncached engine) calls start) := by
  have agrees := agrees_empty (cached engine) start.tree
  rw [← fresh] at agrees
  have recalls : Recalls (cached engine) place start := ⟨sound, leads, free, agrees.texts⟩
  exact ⟨fun i hi => recalls.answers_same rfl proper i hi,
    fun steady => recalls.answers_eq agrees.pages rfl proper steady⟩

/-- A page is read and listed before and after it is saved. -/
def onePageCalls : List Call := [.list, .read "Home".toList latestVersion,
  .save "x".toList "Home".toList "new".toList, .list, .read "Home".toList 1,
  .read "Home".toList latestVersion]

/-- The wiki of one page is steady, so all answers are the same. -/
theorem onePage_memory_unseen :
    answers (cached wikiEngine) onePageCalls onePage =
      answers (uncached wikiEngine) onePageCalls onePage := by
  have hnamed : "Home".toList ≠ [] := by decide
  have unseen := @memory_unseen wikiEngine ["wiki".toList] onePageCalls onePage onePage_sound
    onePage_stands.toLeads (onePage_linkFree _) rfl
    ⟨trivial, hnamed, ⟨hnamed, by decide +kernel⟩, trivial, hnamed, hnamed, trivial⟩
  refine unseen.2 (Or.inl fun mark page text hmem => ?_)
  obtain ⟨rfl, rfl, rfl⟩ : mark = "x".toList ∧ page = "Home".toList ∧ text = "new".toList := by
    simpa [onePageCalls] using hmem
  decide

/-- A wiki in which a file has the ending of pages for its name, with a directory that has the name of a
page's file. -/
def unnamedPage : World where
  tree := ⟨[(["wiki".toList], .directory),
    (["wiki".toList, ".txt".toList], .file (Utf8.encode "x".toList)),
    (["wiki".toList, "1.x.txt".toList], .directory)]⟩

/-- What is left of that wiki once the page is not saved. -/
def unnamedLeft : Tree :=
  ⟨unnamedPage.tree.entries ++ [(["wiki".toList, "OLD".toList], .directory),
    (["wiki".toList, "OLD".toList, "1.x".toList], .directory)]⟩

/-- The pages are listed, the page whose name looks like a version is not saved, and they are listed once
more. -/
def staleCalls : List Call := [.list, .save "y".toList "1.x".toList [], .list]

theorem unnamedPage_lists :
    listPages unnamedPage.tree wikiEngine.pageDirectory ".txt" = .ok [⟨[], 1⟩] := by
  have sound : unnamedPage.tree.Sound := sound_of_entries (by decide) (by decide)
  have stands : unnamedPage.tree.Standing wikiEngine.pageDirectory ["wiki".toList] := by
    constructor <;> decide
  have hnames : unnamedPage.tree.names ["wiki".toList] = [".txt".toList, "1.x.txt".toList] :=
    List.mergeSort_of_pairwise (by decide)
  refine (listPages_at sound stands.toLeads (linkFree_of_entries (by decide) _)).mpr
    ⟨stands, fun file _ held _ => Or.inr (Or.inr (by decide)), ?_⟩
  rw [pageNames, hnames]
  decide +kernel

theorem unnamedLeft_lists :
    listPages unnamedLeft wikiEngine.pageDirectory ".txt" = .ok [⟨[], 2⟩] := by
  have sound : unnamedLeft.Sound := sound_of_entries (by decide) (by decide)
  have stands : unnamedLeft.Standing wikiEngine.pageDirectory ["wiki".toList] := by
    constructor <;> decide
  have hnames : unnamedLeft.names ["wiki".toList] =
      [".txt".toList, "1.x.txt".toList, "OLD".toList] :=
    List.mergeSort_of_pairwise (by decide)
  have hpages : pageNames unnamedLeft ["wiki".toList] ".txt" = [".txt".toList, "1.x.txt".toList] := by
    rw [pageNames, hnames]
    decide
  refine (listPages_at sound stands.toLeads (linkFree_of_entries (by decide) _)).mpr
    ⟨stands, fun file hfile held hat => ?_, ?_⟩
  · rw [hpages] at hfile
    rcases List.mem_pair.mp hfile with rfl | rfl
    · exact Or.inl (by decide)
    · rw [show unnamedLeft.at? (["wiki".toList] ++ ["1.x.txt".toList]) = some .directory by decide] at hat
      cases hat
  · rw [hpages]
    decide +kernel

theorem make_list_gives {pages : List PageVersion} (hfresh : (memory engine w).pages = none)
    (hlist : listPages w.tree engine.pageDirectory engine.dialect.fileExtension = .ok pages) :
    (Call.make engine .list).Gives w (.pages pages)
      (FilePages.remember ⟨engine, []⟩ (fun cache => { cache with pages := some pages }) w).world :=
  gives_bind.mpr ⟨pages, _, list_gives.mpr (Or.inr ⟨hfresh, hlist, rfl, rfl⟩), gives_pure.mpr ⟨rfl, rfl⟩⟩

/-- **A list may be out of date.**  The save has left a directory that counts as a version, and the store that
remembers has not forgotten the list. -/
theorem list_out_of_date :
    (answers (cached wikiEngine) staleCalls unnamedPage)[2]? = some (.ok (.pages [⟨[], 1⟩])) ∧
    (answers (uncached wikiEngine) staleCalls unnamedPage)[2]? = some (.ok (.pages [⟨[], 2⟩])) := by
  have hthird : ∀ engine, (answers engine staleCalls unnamedPage)[2]? = some (Call.make engine .list
      (Call.make engine (.save "y".toList "1.x".toList []) (Call.make engine .list unnamedPage).world).world).result :=
    fun _ => rfl
  constructor
  · have hfirst := @make_list_gives (cached wikiEngine) unnamedPage _ rfl unnamedPage_lists
    rw [hthird, hfirst.2]
    decide +kernel
  · have hfirst := @make_list_gives (uncached wikiEngine) unnamedPage _ rfl unnamedPage_lists
    have hleft : (Call.make (uncached wikiEngine) (.save "y".toList "1.x".toList []) (FilePages.remember
        ⟨uncached wikiEngine, []⟩ (fun cache => { cache with pages := some [⟨[], 1⟩] })
          unnamedPage).world).world.tree = unnamedLeft := by decide +kernel
    have hlist := unnamedLeft_lists
    rw [← hleft] at hlist
    rw [hthird, hfirst.2, (@make_list_gives (uncached wikiEngine) _ _ rfl hlist).1]

end WikiMigration.Store
