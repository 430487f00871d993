/-
The ground that a run works on.

A run makes the directory of the target if it is not there, and for each engine a directory to work in and a
log, to which it writes as long as it goes on.  All of that is done outside of the two wikis, so it is no
change of either.
-/
import WikiMigration.Proofs.Migration.Accounting
import WikiMigration.Proofs.Migration.Cleaning
import WikiMigration.Proofs.Store.Reach

namespace WikiMigration.Migration

open Text Data Files Files.Tree Store Action

variable {w w' : World} {t t' : Tree} {place : Location} {α : Type}

/-! ### The engines -/

/-- The engine has its directory to work in, and its log, in a directory. -/
structure WorksIn (work : Path) (engine : Engine) : Prop where
  directory : engine.workDirectory = work.child (Engine.workDirectoryName engine.dialect)
  log : engine.logFile = work.child (Engine.logName engine.dialect)

theorem ofRoot_works {place : Place} {dialect pageDirectory root cache override : Value}
    {engine : Engine} (h : Engine.ofRoot place dialect pageDirectory root cache override = .ok engine) :
    ∃ work, Engine.readPath place "work root" root = .ok work ∧ WorksIn work engine := by
  simp only [Engine.ofRoot, bind_eq_ok] at h
  obtain ⟨dialect', -, work, hwork, override', -, pages, -, hengine⟩ := h
  cases hengine
  exact ⟨work, hwork, rfl, rfl⟩

/-- The engines of a run have one directory in common. -/
theorem engines_work {place : Place} {settings : Settings} {source target : Engine}
    (h : settings.engines place = .ok (source, target)) :
    ∃ work, WorksIn work source ∧ WorksIn work target := by
  simp only [Settings.engines, bind_eq_ok] at h
  obtain ⟨engine, -, migration, -, h⟩ := h
  split at h
  · cases h
  simp only [bind_eq_ok, mapError_eq_ok] at h
  obtain ⟨root, -, cache, -, dialect, -, override, -, source', hsource, dialect', -,
    target', htarget, heq⟩ := h
  cases heq
  obtain ⟨work, hwork, works⟩ := ofRoot_works hsource
  obtain ⟨work', hwork', works'⟩ := ofRoot_works htarget
  obtain rfl := Except.ok.inj (hwork.symm.trans hwork')
  exact ⟨work, works, works'⟩

theorem canStand_logName (dialect : Dialect) : Name.CanStand (Engine.logName dialect) := by
  cases dialect <;> decide

/-! ### The ground -/

/-- Two wikis, and the directory that the engines work in. -/
structure Ground where
  site : Site
  source : Engine
  target : Engine
  /-- Where the source is. -/
  home : Location
  /-- Where the target is, or will be. -/
  there : Location
  work : Path
  /-- Where the directory to work in is, or will be. -/
  root : Location
  sourceWorks : WorksIn work source
  targetWorks : WorksIn work target
  apart : ¬ home <+: there ∧ ¬ there <+: home
  outside : ¬ home <+: root ∧ ¬ there <+: root

variable {g : Ground}

/-- What changes where the target is, in view of the source. -/
abbrev Ground.Changes (g : Ground) (touched replaced : List Name → Prop) (t t' : Tree) : Prop :=
  Store.Changes g.home g.there g.site.mark touched replaced t t'

/-- What the tree is like when a run begins. -/
structure Outset (g : Ground) (t : Tree) : Prop where
  sound : t.Sound
  source : t.Standing g.source.pageDirectory g.home
  target : t.Leads g.target.pageDirectory g.there
  work : t.Leads g.work g.root
  sourceFree : t.LinkFree g.home
  targetFree : t.LinkFree g.there
  /-- The links in the directory to work in lead to neither wiki. -/
  workApart : ∀ name target, t.at? (g.root ++ [name]) = some (.link target) →
    ∃ place, t.locate (g.work.child name) = .ok place ∧ ¬ g.home <+: place ∧ ¬ g.there <+: place
  unstaged : Unstaged g.site.mark g.there t

/-- What the tree is like as long as a run goes on: the directories are there. -/
structure Footing (g : Ground) (t : Tree) : Prop extends Outset g t where
  targetMade : t.at? g.there = some .directory
  workMade : t.at? g.root = some .directory

theorem Footing.targetStands (h : Footing g t) : t.Standing g.target.pageDirectory g.there :=
  h.target.standing h.sound h.targetMade

theorem Footing.workStands (h : Footing g t) : t.Standing g.work g.root :=
  h.work.standing h.sound h.workMade

/-- Links that lead to neither wiki go on to do so. -/
theorem Outset.apart_of_moves (h : Outset g t) (moves : Moves t t') {name : Name} {target : List Char}
    (hat : t'.at? (g.root ++ [name]) = some (.link target)) :
    ∃ place, t'.locate (g.work.child name) = .ok place ∧ ¬ g.home <+: place ∧ ¬ g.there <+: place := by
  obtain ⟨place, hend, hout⟩ := h.workApart name target (moves.unlinked _ _ hat)
  exact ⟨place, follow_of_keeps moves.keeps hend (moves.unlinked place), hout⟩

/-- New directories leave a run where it is. -/
theorem Outset.of_grows (h : Outset g t) (grows : t.Grows t')
    (changes : g.Changes Nowhere Nowhere t t') : Outset g t' where
  sound := changes.moves.sound
  source := h.source.of_keeps changes.moves.keeps
  target := h.target.of_grows grows h.sound changes.moves.sound
  work := h.work.of_grows grows h.sound changes.moves.sound
  sourceFree := changes.moves.free h.sourceFree
  targetFree := changes.moves.free h.targetFree
  workApart _ _ hat := h.apart_of_moves changes.moves hat
  unstaged := changes.unstaged h.unstaged

/-- A run keeps its footing whatever it changes. -/
theorem Footing.next {touched replaced : List Name → Prop} (h : Footing g t)
    (changes : g.Changes touched replaced t t') : Footing g t' where
  sound := changes.moves.sound
  source := h.source.of_keeps changes.moves.keeps
  target := (h.targetStands.of_keeps changes.moves.keeps).toLeads
  work := (h.workStands.of_keeps changes.moves.keeps).toLeads
  sourceFree := changes.moves.free h.sourceFree
  targetFree := changes.moves.free h.targetFree
  workApart _ _ hat := h.apart_of_moves changes.moves hat
  unstaged := changes.unstaged h.unstaged
  targetMade := changes.moves.keeps _ _ h.targetMade (by simp)
  workMade := changes.moves.keeps _ _ h.workMade (by simp)

/-! ### What is made -/

theorem Ground.not_there_root (g : Ground) {names : List Name} (hnames : names ≠ []) (name : Name) :
    ¬ g.there ++ names <+: g.root ++ [name] := by
  intro hfront
  rcases List.prefix_concat_iff.mp hfront with heq | hroot
  · obtain ⟨rest, last, rfl⟩ := (List.eq_nil_or_concat names).resolve_left hnames
    rw [List.concat_eq_append, ← List.append_assoc] at heq
    exact g.outside.2 ⟨rest, (List.append_inj_left' heq rfl)⟩
  · exact g.outside.2 ((List.prefix_append _ _).trans hroot)

theorem Ground.eq_home (g : Ground) {place : Location} {name : Name} (hhome : g.home <+: place)
    (hfront : place <+: g.root ++ [name]) : place = g.home := by
  rcases List.prefix_concat_iff.mp (hhome.trans hfront) with heq | hroot
  · exact hfront.eq_of_length_le (by rw [← heq]; exact hhome.length_le) |>.trans heq.symm
  · exact absurd hroot g.outside.1

/-- What is written to a log is no change of the wikis. -/
theorem Footing.writes (h : Footing g t) (dialect : Dialect) {bytes : Bytes}
    (happend : t.append (g.work.child (Engine.logName dialect)) bytes = .ok t') :
    g.Changes Nowhere Nowhere t t' := by
  obtain ⟨spot, hend, hdir, rfl⟩ := append_eq_ok.mp happend
  have hplace : IsFilePlace t _ spot := ⟨hend, hdir, h.sound⟩
  refine .of_aside (hplace.moves _) fun place hother => ?_
  rw [hplace.at?_put, if_neg]
  rintro rfl
  by_cases hlink : ∃ target, t.at? (g.root ++ [Engine.logName dialect]) = some (.link target)
  · obtain ⟨target, hat⟩ := hlink
    obtain ⟨_, hend', hhome, hthere⟩ := h.workApart _ target hat
    obtain rfl := Except.ok.inj (hend.symm.trans hend')
    rcases hother with hwithin | ⟨names, -, rfl⟩
    · exact hhome hwithin
    · exact hthere (List.prefix_append _ _)
  rw [h.workStands.locate_child (canStand_logName dialect) fun target hat => hlink ⟨target, hat⟩] at hend
  obtain rfl := Except.ok.inj hend
  rcases hother with hhome | ⟨names, hnames, heq⟩
  · rw [g.eq_home hhome List.prefix_rfl] at hdir
    exact hdir h.source.directory
  · exact g.not_there_root hnames _ ⟨[], (List.append_nil _).trans heq.symm⟩

theorem Footing.logs (h : Footing g t) {engine : Engine} (works : WorksIn g.work engine)
    (records : List Log.Record) :
    g.Changes Nowhere Nowhere t (logTo g.site engine.logFile records t) := by
  rw [logTo]
  split
  · split
    next t' happend =>
      rw [works.log] at happend
      exact h.writes _ happend
    next => exact .refl h.sound
  · exact .refl h.sound

/-! ### Tasks of the engines -/

theorem engineTask_fails {site : Site} {engine : Engine}
    {logged : Except MigrationError (α × List Log.Record)} {failure : Failure} :
    (engineTask site engine logged).Fails w failure w' ↔
      ∃ e, logged = .error e ∧ .classified e = failure ∧ w = w' := by
  cases logged with
  | error e => simp [engineTask, Fails]
  | ok result => simp [engineTask, Fails]

/-- A step that is no change of the wikis, and of which the stores remember nothing. -/
structure Aside (g : Ground) (w w' : World) : Prop where
  changes : g.Changes Nowhere Nowhere w.tree w'.tree
  caches : w'.caches = w.caches

theorem Aside.refl (sound : w.tree.Sound) : Aside g w w := ⟨.refl sound, rfl⟩

theorem Aside.trans {w₁ : World} (h : Aside g w w₁) (h' : Aside g w₁ w') : Aside g w w' :=
  ⟨h.changes.trans h'.changes, h'.caches.trans h.caches⟩

/-- Those who work on a migration from files to files. -/
def fileCrew (g : Ground) (hooks : List (List Char → Task World (List Char)))
    (renderer : Rendering.Renderer) : Crew World Nat Nat where
  source := FilePages.interface ⟨g.source, g.site.mark⟩
  target := FilePages.interface ⟨g.target, g.site.mark⟩
  sourceFiles := FileAttachments.interface ⟨g.source, g.site.mark⟩
  targetFiles := FileAttachments.interface ⟨g.target, g.site.mark⟩
  render context text :=
    engineTask g.site g.source (Conversion.render renderer (engineLogger g.source)
      { page := context.page.name, editorMode := context.isEditorMode, pluginsEnabled := false }
      (some text))
  write html :=
    engineTask g.site g.target
      (Conversion.writePage g.target.dialect (engineLogger g.target) (some html))
  hooks

end WikiMigration.Migration
