/-
What is left of the source when the target is cleaned.

A run that would clean a directory whose path is that of the source, or leads to it by its names, is
refused, and nothing is changed.  The names do not tell everything, though: a link can make the target a
directory that holds the source, and a target within the source is cleaned like any other.  What holds of
every tree is that cleaning takes away what really stands within the target and nothing else, so every
file of the source that does not stay in place is one that stood within the target.
-/
import WikiMigration.Migration.Setup
import WikiMigration.Proofs.Store.Change
import WikiMigration.Proofs.Store.World

namespace WikiMigration.Migration

open Text Data Files Files.Tree Store Action

variable {t t₁ t₂ t' : Tree} {place home : Location} {w w' : World} {α : Type}

/-! ### Files that last -/

/-- A sound tree stays one, and every file in it stays in place with its bytes. -/
def Lasts (t t' : Tree) : Prop :=
  t.Sound → t'.Sound ∧
    ∀ place bytes, t.at? place = some (.file bytes) → t'.at? place = some (.file bytes)

theorem Lasts.refl (t : Tree) : Lasts t t := fun sound => ⟨sound, fun _ _ h => h⟩

theorem Lasts.trans (h : Lasts t t₁) (h' : Lasts t₁ t₂) : Lasts t t₂ := by
  intro sound
  obtain ⟨sound₁, stays⟩ := h sound
  obtain ⟨sound₂, stays'⟩ := h' sound₁
  exact ⟨sound₂, fun place bytes hat => stays' place bytes (stays place bytes hat)⟩

theorem lasts_makeDirectories (t : Tree) (path : Path) : Lasts t (t.makeDirectories path).2 := by
  intro sound
  obtain ⟨grows, sound'⟩ := (t.makeDirectories_attempts path).grows sound
  exact ⟨sound', fun place bytes hat => grows.at?_some hat⟩

/-- What is written at the end of a file changes no other one. -/
theorem append_ends {path : Path} {bytes : Bytes} (sound : t.Sound)
    (h : t.append path bytes = .ok t') :
    ∃ spot, t'.Sound ∧ t'.locate path = .ok spot ∧
      (∀ place, place ≠ spot → t'.at? place = t.at? place) ∧
      ∀ old, t.at? spot = some (.file old) → t'.at? spot = some (.file (old ++ bytes)) := by
  obtain ⟨spot, hend, hdir, rfl⟩ := append_eq_ok.mp h
  have hplace : IsFilePlace t path spot := ⟨hend, hdir, sound⟩
  refine ⟨spot, hplace.sound_put _, (hplace.put _).leads, fun place hne => ?_, fun old hold => ?_⟩
  · rw [hplace.at?_put, if_neg hne]
  · rw [hplace.at?_put_self, hold]

theorem lasts_append_nil {path : Path} (h : t.append path [] = .ok t') : Lasts t t' := by
  intro sound
  obtain ⟨spot, sound', -, others, own⟩ := append_ends sound h
  refine ⟨sound', fun place bytes hat => ?_⟩
  by_cases hplace : place = spot
  · subst hplace
    rw [own _ hat, List.append_nil]
  · rw [others _ hplace, hat]

/-! ### Tasks after which files last -/

/-- Whatever the task comes to, every file stays in place with its bytes. -/
def Careful (task : Task World α) : Prop := ∀ w w', task.Leaves w w' → Lasts w.tree w'.tree

theorem careful_of_same {task : Task World α} (h : ∀ w, (task w).world = w) : Careful task := by
  rintro w w' rfl
  rw [h]
  exact Lasts.refl _

theorem careful_pure (a : α) : Careful (pure a) := careful_of_same fun _ => rfl

theorem careful_inspect (look : Tree → Result α) : Careful (inspect look) :=
  careful_of_same fun _ => rfl

theorem careful_emit (record : Log.Record) : Careful (.emit record) := careful_of_same fun _ => rfl

theorem Careful.bind {β : Type} {task : Task World α} {next : α → Task World β} (h : Careful task)
    (h' : ∀ a, Careful (next a)) : Careful (task >>= next) := by
  intro w w' hleaves
  rcases leaves_bind.mp hleaves with ⟨e, hfails⟩ | ⟨a, w₁, hgives, hnext⟩
  · exact h _ _ hfails.leaves
  · exact (h _ _ hgives.leaves).trans (h' a _ _ hnext)

theorem careful_makeDirectories (path : Path) : Careful (makeDirectories path) := by
  rintro w w' rfl
  have hsteps : applySteps w.tree [.makeDirectories path] = w.tree.makeDirectories path := by
    rw [applySteps, FileStep.apply]
    cases w.tree.makeDirectories path with
    | mk fault t₁ => cases fault <;> rfl
  have hlasts := lasts_makeDirectories w.tree path
  rw [makeDirectories, makeSteps, hsteps]
  cases hmade : w.tree.makeDirectories path with
  | mk fault t₁ =>
    rw [hmade] at hlasts
    cases fault <;> exact hlasts

theorem careful_prepareEngine (opened : Option Path) (engine : Engine) :
    Careful (prepareEngine opened engine) := by
  refine (careful_makeDirectories _).bind fun _ => (careful_makeDirectories _).bind fun _ => ?_
  split
  · intro w w' hleaves
    rcases leaves_bind.mp hleaves with ⟨e, hfails⟩ | ⟨t₁, w₁, hgives, hchange⟩
    · exact careful_inspect _ _ _ hfails.leaves
    · obtain ⟨happend, rfl⟩ := gives_inspect.mp hgives
      obtain rfl := hchange
      exact lasts_append_nil happend
  · exact careful_pure _

theorem careful_forM {β : Type} {task : β → Task World Unit} (h : ∀ b, Careful (task b))
    (items : List β) : Careful (items.forM task) := by
  induction items with
  | nil => exact careful_pure _
  | cons item rest ih => exact (h item).bind fun _ => ih

theorem careful_describeEngine (role : String) (engine : Engine) :
    Careful (describeEngine role engine) := careful_forM (fun _ => careful_emit _) _

/-! ### Cleaning -/

/-- The tree has lost some of what stood within the directory at a place, and nothing else. -/
structure Cleared (home : Location) (t t' : Tree) : Prop where
  sound : t'.Sound
  fewer : ∀ place entry, t'.at? place = some entry → t.at? place = some entry
  others : ∀ place, ¬ home <+: place → t'.at? place = t.at? place

theorem Cleared.refl (home : Location) (sound : t.Sound) : Cleared home t t :=
  ⟨sound, fun _ _ h => h, fun _ _ => rfl⟩

theorem Cleared.trans (h : Cleared home t t₁) (h' : Cleared home t₁ t₂) : Cleared home t t₂ :=
  ⟨h'.sound, fun place entry hat => h.fewer _ _ (h'.fewer place entry hat),
    fun place hplace => (h'.others place hplace).trans (h.others place hplace)⟩

/-- A path that leads to a directory of what is left led to it before. -/
theorem Cleared.standing {path : Path} (h : Cleared home t t') (stands : t'.Standing path place) :
    t.Standing path place :=
  stands.of_keeps fun other entry hat _ => h.fewer other entry hat

/-- What is removed under a name in a directory really stands in it. -/
theorem cleared_of_removeAll {target : Path} {name : Name} (sound : t.Sound)
    (hname : Name.IsPlain name) (h : t.removeAll (target.child name) = .ok t') :
    ∃ home, t.Standing target home ∧ Cleared home t t' := by
  rw [removeAll, about_eq_ok] at h
  cases hplace : t.locateSelf (target.child name) with
  | error fault => simp [hplace, bind, Except.bind] at h
  | ok place =>
    obtain ⟨home, stands⟩ := standing_of_locateSelf_child sound hplace
    obtain ⟨rfl, -⟩ := stands.eq_of_locateSelf_child hname hplace
    have hcut : t' = t.cut (home ++ [name]) := by
      cases hat : t.at? (home ++ [name]) with
      | none => simp [hplace, hat, bind, Except.bind, throw, throwThe, MonadExceptOf.throw] at h
      | some entry => simpa [hplace, hat, bind, Except.bind, pure, Except.pure, eq_comm] using h
    subst hcut
    refine ⟨home, stands, sound.cut (by simp), fun place entry hat => ?_, fun place hnot => ?_⟩
    · rw [at?_cut _ (by simp)] at hat
      split at hat
      · cases hat
      · exact hat
    · rw [at?_cut _ (by simp), if_neg fun hwithin => hnot ((List.prefix_append _ _).trans hwithin)]

/-- The removal of what has one of the names in the target. -/
def removing (target : Path) (name : Name) : Task World (ForInStep PUnit) := do
  let tree ← inspect fun tree => tree.removeAll (target.child name)
  .change fun world => world.setTree tree
  pure (.yield ⟨⟩)

theorem removing_leaves {target : Path} {name : Name} (sound : w.tree.Sound)
    (hname : Name.IsPlain name) (h : (removing target name).Leaves w w') :
    w' = w ∨ ∃ home, w.tree.Standing target home ∧ Cleared home w.tree w'.tree := by
  rcases leaves_bind.mp h with ⟨e, hfails⟩ | ⟨t₁, w₁, hgives, hchange⟩
  · obtain ⟨-, -, -, rfl⟩ := fails_inspect.mp hfails
    exact Or.inl rfl
  · obtain ⟨hremoved, rfl⟩ := gives_inspect.mp hgives
    obtain rfl := hchange
    exact Or.inr (cleared_of_removeAll sound hname hremoved)

/-- What is removed first does not make the path of the target lead anywhere else, so all that is removed
stands in the same directory. -/
theorem forIn_removing_leaves {start : Tree} {target : Path} (stands : start.Standing target home)
    (names : List Name) (hnames : ∀ name ∈ names, Name.IsPlain name) :
    ∀ w w', (forIn names PUnit.unit fun name _ => removing target name).Leaves w w' →
      Cleared home start w.tree → Cleared home start w'.tree := by
  induction names with
  | nil =>
    rintro w w' rfl cleared
    exact cleared
  | cons name rest ih =>
    intro w w' h cleared
    have hname := hnames name (by simp)
    have step : ∀ w₁, (removing target name).Leaves w w₁ → Cleared home start w₁.tree := by
      intro w₁ h₁
      rcases removing_leaves cleared.sound hname h₁ with rfl | ⟨home', stands', cleared'⟩
      · exact cleared
      · obtain rfl := stands.unique (cleared.standing stands')
        exact cleared.trans cleared'
    rw [List.forIn_cons] at h
    rcases leaves_bind.mp h with ⟨e, hfails⟩ | ⟨next, w₁, hgives, hrest⟩
    · exact step _ hfails.leaves
    · cases next with
      | done => exact hrest ▸ step _ hgives.leaves
      | yield => exact ih (fun n hn => hnames n (by simp [hn])) w₁ w' hrest (step _ hgives.leaves)

theorem empty_eq (target : Path) : empty target =
    ((inspect fun tree => tree.list target) >>= fun names =>
      (forIn names PUnit.unit fun name _ => removing target name) >>= fun _ => pure ()) := rfl

/-- Only what stands in the target is taken away. -/
theorem empty_leaves {target : Path} (sound : w.tree.Sound) (stands : w.tree.Standing target home)
    (h : (empty target).Leaves w w') : Cleared home w.tree w'.tree := by
  rw [empty_eq] at h
  rcases leaves_bind.mp h with ⟨e, hfails⟩ | ⟨names, w₁, hgives, h⟩
  · obtain ⟨-, -, -, rfl⟩ := fails_inspect.mp hfails
    exact .refl home sound
  · obtain ⟨hlist, rfl⟩ := gives_inspect.mp hgives
    rw [list_of_standing stands, Except.ok.injEq] at hlist
    have hnames : ∀ name ∈ names, Name.IsPlain name := by
      intro name hname
      obtain ⟨entry, hat⟩ := mem_names.mp (hlist ▸ hname)
      exact (sound.named _ _ _ hat).plain
    have hloop := forIn_removing_leaves stands names hnames w
    rcases leaves_bind.mp h with ⟨e, hfails⟩ | ⟨_, w₂, hgives, h⟩
    · exact hloop _ hfails.leaves (.refl home sound)
    · obtain rfl := h
      exact hloop _ hgives.leaves (.refl home sound)

/-! ### The target -/

theorem careful_refuse (message : String) : Careful (refuse (α := α) message) :=
  careful_of_same fun _ => rfl

theorem careful_tell (level : Log.Level) (message : String) : Careful (tell level message) :=
  careful_emit _

/-- What the settings and the names tell when a target is emptied: that is asked for, the run is no dry
one, and the source is not in the target. -/
structure MayEmpty (settings : Settings) (source target : Path) : Prop where
  cleans : settings.cleans = true
  real : settings.isDry = false
  apart : leadsInto target source = false

/-- The target is made ready without touching any file, or by taking away what stands in it. -/
theorem prepareTarget_leaves {settings : Settings} {source target : Path} (sound : w.tree.Sound)
    (h : (prepareTarget settings source target).Leaves w w') :
    Lasts w.tree w'.tree ∨ MayEmpty settings source target ∧
      ∃ home, w.tree.Standing target home ∧ Cleared home w.tree w'.tree := by
  rw [prepareTarget] at h
  split at h
  · exact Or.inl (careful_refuse _ _ _ h)
  next hnames =>
  rcases leaves_bind.mp h with ⟨e, hfails⟩ | ⟨there, w₁, hgives, h⟩
  · exact Or.inl (careful_inspect _ _ _ hfails.leaves)
  obtain ⟨-, rfl⟩ := gives_inspect.mp hgives
  split at h
  · split at h
    · exact Or.inl (careful_tell _ _ _ _ h)
    · exact Or.inl (((careful_makeDirectories _).bind fun _ => careful_tell _ _) _ _ h)
  rcases leaves_bind.mp h with ⟨e, hfails⟩ | ⟨isDirectory, w₁, hgives, h⟩
  · exact Or.inl (careful_inspect _ _ _ hfails.leaves)
  obtain ⟨hdirectory, rfl⟩ := gives_inspect.mp hgives
  split at h
  · exact Or.inl (careful_refuse _ _ _ h)
  next hnot =>
    split at h
    · exact Or.inl (careful_tell _ _ _ _ h)
    next hcleans =>
      split at h
      · exact Or.inl (careful_tell _ _ _ _ h)
      next hreal =>
        have hdir : isDirectory = true := by simpa using hnot
        obtain ⟨home, stands⟩ := isDirectory_eq_true.mp (hdir ▸ hdirectory)
        have hasked : settings.cleans = true := by simpa using hcleans
        have mayEmpty : MayEmpty settings source target :=
          ⟨hasked, by simpa using hreal, by simpa [hasked] using hnames⟩
        refine Or.inr ⟨mayEmpty, home, stands, ?_⟩
        rcases leaves_bind.mp h with ⟨e, hfails⟩ | ⟨_, w₁, hgives, h⟩
        · exact empty_leaves sound stands hfails.leaves
        · obtain rfl := h
          exact empty_leaves sound stands hgives.leaves

/-! ### The log -/

/-- What an engine's log gets is written behind what it has. -/
theorem logTo_ends (site : Site) (file : Path) (records : List Log.Record) (sound : t.Sound)
    {bytes : Bytes} (hat : t.at? place = some (.file bytes)) :
    ∃ more, (logTo site file records t).at? place = some (.file (bytes ++ more)) ∧
      (more = [] ∨ (logTo site file records t).locate file = .ok place) := by
  have same : ∃ more, t.at? place = some (.file (bytes ++ more)) ∧
      (more = [] ∨ t.locate file = .ok place) := ⟨[], by rw [List.append_nil, hat], Or.inl rfl⟩
  rw [logTo]
  split
  · split
    next t' happend =>
      obtain ⟨spot, -, hend, others, own⟩ := append_ends sound happend
      by_cases hplace : place = spot
      · subst hplace
        exact ⟨_, own _ hat, Or.inr hend⟩
      · exact ⟨[], by rw [others _ hplace, hat, List.append_nil], Or.inl rfl⟩
    next => exact same
  · exact same

theorem engineTask_leaves {site : Site} {engine : Engine}
    {logged : Except MigrationError (α × List Log.Record)}
    (h : (engineTask site engine logged).Leaves w w') :
    w' = w ∨ ∃ records, w'.tree = logTo site engine.logFile records w.tree := by
  obtain rfl := h
  cases logged with
  | error e => exact Or.inl rfl
  | ok result => exact Or.inr ⟨result.2, rfl⟩

theorem renderer_leaves {site : Site} {engine : Engine}
    (h : ((Staff.usual site).renderer engine).Leaves w w') :
    w' = w ∨ ∃ records, w'.tree = logTo site engine.logFile records w.tree := by
  rcases leaves_bind.mp h with ⟨e, hfails⟩ | ⟨renderer, w₁, hgives, h⟩
  · exact engineTask_leaves hfails.leaves
  · obtain rfl := h
    exact engineTask_leaves hgives.leaves

/-! ### The preparation -/

/-- A file is in place with its bytes; only if it is the log there may be more behind them. -/
def InPlace (log : Path) (place : Location) (bytes : Bytes) (t : Tree) : Prop :=
  ∃ more, t.at? place = some (.file (bytes ++ more)) ∧ (more = [] ∨ t.locate log = .ok place)

theorem inPlace_of_at? {log : Path} {bytes : Bytes} (h : t.at? place = some (.file bytes)) :
    InPlace log place bytes t := ⟨[], by rw [List.append_nil, h], Or.inl rfl⟩

/-- A failure of the system before the run is one of the configuration. -/
theorem preparationFailure_system (e : FileError) :
    ∃ e', preparationFailure e.failure = .classified e' ∧ e'.kind = .configuration := by
  cases hsecond : e.second with
  | none => exact ⟨_, by simp only [FileError.failure, hsecond]; rfl, rfl⟩
  | some second => exact ⟨_, by simp only [FileError.failure, hsecond]; rfl, rfl⟩

theorem prepareTarget_refuses {settings : Settings} {source target : Path}
    (hcleans : settings.cleans = true) (hleads : leadsInto target source = true) (w : World) :
    ∃ e, (prepareTarget settings source target).Fails w (.classified e) w ∧
      e.kind = .configuration := by
  have hrefuse : prepareTarget settings source target =
      refuse ("Refusing to clean target directory " ++ shown target
        ++ ": it contains the source directory") := by
    rw [prepareTarget, if_pos (by simp [hcleans, hleads])]
  rw [hrefuse]
  exact ⟨_, fails_fail.mpr ⟨rfl, rfl⟩, rfl⟩

/-- A careful task leaves a file in place, be it the end or not. -/
theorem Careful.leaves_bind {β : Type} {task : Task World α} {next : α → Task World β}
    (careful : Careful task) (log : Path) {bytes : Bytes} (sound : w.tree.Sound)
    (hat : w.tree.at? place = some (.file bytes)) (h : (task >>= next).Leaves w w') :
    InPlace log place bytes w'.tree ∨ ∃ a w₁, (next a).Leaves w₁ w' ∧ w₁.tree.Sound ∧
      w₁.tree.at? place = some (.file bytes) := by
  rcases Action.leaves_bind.mp h with ⟨e, hfails⟩ | ⟨a, w₁, hgives, hnext⟩
  · exact Or.inl (inPlace_of_at? ((careful _ _ hfails.leaves sound).2 _ _ hat))
  · obtain ⟨sound₁, stays⟩ := careful _ _ hgives.leaves sound
    exact Or.inr ⟨a, w₁, hnext, sound₁, stays _ _ hat⟩

section Preparation

variable {site : Site} {hooks : List (List Char → Task World (List Char))} {settings : Settings}
variable {source target : Engine}

/-- A run is prepared by those who usually work for engines. -/
abbrev preparation (site : Site) (hooks : List (List Char → Task World (List Char)))
    (settings : Settings) : Task World (Plan World Nat Nat) :=
  prepare site { Staff.usual site with hooks } settings

/-- What the names tell of the target is told before anything is changed. -/
theorem preparation_refuses (hengines : settings.engines site.place = .ok (source, target))
    (hcleans : settings.cleans = true)
    (hleads : leadsInto target.pageDirectory source.pageDirectory = true) (w : World) :
    ∃ failure e, (preparation site hooks settings).Fails w failure w ∧
      preparationFailure failure = .classified e ∧ e.kind = .configuration := by
  have hstart : (ofResult (settings.engines site.place) : Task World (Engine × Engine)).Gives w
      (source, target) w := gives_ofResult.mpr ⟨hengines, rfl⟩
  cases hthere : w.tree.isDirectory source.pageDirectory with
  | error e =>
    obtain ⟨e', hclass, hkind⟩ := preparationFailure_system e
    refine ⟨e.failure, e', fails_bind.mpr (Or.inr ⟨_, w, hstart, ?_⟩), hclass, hkind⟩
    exact fails_bind.mpr (Or.inl (fails_inspect.mpr ⟨e, hthere, rfl, rfl⟩))
  | ok there =>
    have hlooked : (inspect fun tree => tree.isDirectory source.pageDirectory).Gives w there w :=
      gives_inspect.mpr ⟨hthere, rfl⟩
    cases there with
    | false =>
      let e := MigrationError.ofConfiguration
        ("Source directory does not exist: " ++ shown source.pageDirectory)
      refine ⟨.classified e, e, fails_bind.mpr (Or.inr ⟨_, w, hstart, ?_⟩), rfl, rfl⟩
      exact fails_bind.mpr (Or.inr ⟨false, w, hlooked, fails_fail.mpr ⟨rfl, rfl⟩⟩)
    | true =>
      obtain ⟨e, hfails, hkind⟩ := prepareTarget_refuses hcleans hleads w
      refine ⟨.classified e, e, fails_bind.mpr (Or.inr ⟨_, w, hstart, ?_⟩), rfl, hkind⟩
      exact fails_bind.mpr (Or.inr ⟨true, w, hlooked, fails_bind.mpr (Or.inl hfails)⟩)

/-- Whatever the preparation comes to, a file that did not stand in the target is in place. -/
theorem preparation_leaves (hengines : settings.engines site.place = .ok (source, target))
    (sound : w.tree.Sound) (h : (preparation site hooks settings).Leaves w w') {bytes : Bytes}
    (hat : w.tree.at? place = some (.file bytes))
    (hout : ∀ home, w.tree.Standing target.pageDirectory home → ¬ home <+: place) :
    InPlace source.logFile place bytes w'.tree := by
  rcases leaves_bind.mp h with ⟨e, hfails⟩ | ⟨engines, w₁, hgives, h⟩
  · obtain ⟨-, rfl⟩ := fails_ofResult.mp hfails
    exact inPlace_of_at? hat
  obtain ⟨hresult, rfl⟩ := gives_ofResult.mp hgives
  obtain rfl := Except.ok.inj (hengines.symm.trans hresult)
  rcases leaves_bind.mp h with ⟨e, hfails⟩ | ⟨there, w₁, hgives, h⟩
  · obtain ⟨-, -, -, rfl⟩ := fails_inspect.mp hfails
    exact inPlace_of_at? hat
  obtain ⟨-, rfl⟩ := gives_inspect.mp hgives
  split at h
  · obtain rfl := h
    exact inPlace_of_at? hat
  -- What is taken away stands in the target, and the file does not.
  have cleaned : ∀ w₁, (prepareTarget settings source.pageDirectory target.pageDirectory).Leaves w w₁ →
      w₁.tree.Sound ∧ w₁.tree.at? place = some (.file bytes) := by
    intro w₁ hleaves
    rcases prepareTarget_leaves sound hleaves with lasts | ⟨-, home, stands, cleared⟩
    · exact ⟨(lasts sound).1, (lasts sound).2 _ _ hat⟩
    · exact ⟨cleared.sound, (cleared.others _ (hout home stands)).trans hat⟩
  rcases leaves_bind.mp h with ⟨e, hfails⟩ | ⟨_, w₁, hgives, h⟩
  · exact inPlace_of_at? (cleaned _ hfails.leaves).2
  obtain ⟨sound, hat⟩ := cleaned _ hgives.leaves
  rcases (careful_prepareEngine _ _).leaves_bind _ sound hat h with h | ⟨_, w₁, h, sound, hat⟩
  · exact h
  rcases (careful_prepareEngine _ _).leaves_bind _ sound hat h with h | ⟨_, w₁, h, sound, hat⟩
  · exact h
  rcases (careful_describeEngine _ _).leaves_bind _ sound hat h with h | ⟨_, w₁, h, sound, hat⟩
  · exact h
  rcases (careful_describeEngine _ _).leaves_bind _ sound hat h with h | ⟨_, w₁, h, sound, hat⟩
  · exact h
  -- The renderer may write to the log, and nothing is written after that.
  have rendered : ∀ w₂, ((Staff.usual site).renderer source).Leaves w₁ w₂ →
      InPlace source.logFile place bytes w₂.tree := by
    intro w₂ hleaves
    rcases renderer_leaves hleaves with rfl | ⟨records, htree⟩
    · exact inPlace_of_at? hat
    · rw [htree]
      exact logTo_ends site source.logFile records sound hat
  rcases leaves_bind.mp h with ⟨e, hfails⟩ | ⟨render, w₂, hgives, h⟩
  · exact rendered _ hfails.leaves
  · obtain rfl := h
    exact rendered _ hgives.leaves

/-- **Cleaning the target spares the source.**  Where the configuration is no good nothing is changed; a
target that is the source by its names, or that it lies in by its names, is refused, and nothing is
changed.  In all cases every file that can be reached from the directory of the source and does not stand
in that of the target stays in place with its bytes, the log of the source's engine being the only one
that may get more of them. -/
theorem cleaning_spares_source (site : Site) (hooks : List (List Char → Task World (List Char)))
    (settings : Settings) (w : World) (sound : w.tree.Sound) :
    (∀ failure, settings.engines site.place = .error failure →
      (preparation site hooks settings).Fails w failure w) ∧
    ∀ source target, settings.engines site.place = .ok (source, target) →
      (settings.cleans = true → leadsInto target.pageDirectory source.pageDirectory = true →
        ∃ failure e, (preparation site hooks settings).Fails w failure w ∧
          preparationFailure failure = .classified e ∧ e.kind = .configuration) ∧
      ∀ w', (preparation site hooks settings).Leaves w w' →
        ∀ names place bytes, w.tree.locate (source.pageDirectory.into names) = .ok place →
          w.tree.at? place = some (.file bytes) →
          (∀ home, w.tree.Standing target.pageDirectory home → ¬ home <+: place) →
          InPlace source.logFile place bytes w'.tree := by
  refine ⟨fun failure hengines => ?_, fun source target hengines => ⟨fun hcleans hleads => ?_, ?_⟩⟩
  · exact fails_bind.mpr (Or.inl (fails_ofResult.mpr ⟨hengines, rfl⟩))
  · exact preparation_refuses hengines hcleans hleads w
  · intro w' h names place bytes _ hat hout
    exact preparation_leaves hengines sound h hat hout

end Preparation

/-! ### Some disks -/

/-- The settings of a run that cleans its target. -/
def cleaningSettings (source target : String) : Settings where
  config := .mapping [(.text "engine", .mapping [(.text "work_directory", .text "/work")])]
  source := .text source
  target := .text target
  language := .text "de"
  reportPath := .null
  isDry := false
  cleans := true
  verifies := true

/-- Where a run is started. -/
def plainSite : Site where
  place := { workingDirectory := Path.root, home := [] }
  mark := "x".toList
  clock := { stamp := "", date := "", seconds := Decimal.Binary64.ofInt 0 }

/-- A wiki on a disk, with an old version of its page, and another name of the disk. -/
def aliasedDisk : World where
  tree := ⟨[(["disk".toList], .directory),
    (["disk".toList, "wiki".toList], .directory),
    (["disk".toList, "wiki".toList, "Main.txt".toList], .file [116]),
    (["disk".toList, "wiki".toList, "OLD".toList], .directory),
    (["disk".toList, "wiki".toList, "OLD".toList, "1.txt".toList], .file [111]),
    (["alias".toList], .link "disk".toList)]⟩

theorem aliasedDisk_sound : aliasedDisk.tree.Sound := sound_of_entries (by decide) (by decide)

/-- A target that is another name of the disk is cleaned, and the source is gone. -/
theorem aliased_target_loses_source :
    aliasedDisk.tree.at? ["disk".toList, "wiki".toList, "Main.txt".toList] = some (.file [116]) ∧
    (preparation plainSite [] (cleaningSettings "/disk/wiki" "/alias") aliasedDisk).result.isOk ∧
    (preparation plainSite [] (cleaningSettings "/disk/wiki" "/alias") aliasedDisk).world.tree.at?
      ["disk".toList, "wiki".toList, "Main.txt".toList] = none := by
  decide +kernel

/-- A target within the source is cleaned, and what it held of the source is gone. -/
theorem nested_target_loses_archive :
    aliasedDisk.tree.at? ["disk".toList, "wiki".toList, "OLD".toList, "1.txt".toList] =
      some (.file [111]) ∧
    (preparation plainSite [] (cleaningSettings "/disk/wiki" "/disk/wiki/OLD")
      aliasedDisk).result.isOk ∧
    (preparation plainSite [] (cleaningSettings "/disk/wiki" "/disk/wiki/OLD")
      aliasedDisk).world.tree.at?
      ["disk".toList, "wiki".toList, "OLD".toList, "1.txt".toList] = none := by
  decide +kernel

/-- What does not stand in the target within the source is spared, and a target around the source by its
names is refused. -/
theorem nested_target_spares_page :
    (∃ source target,
      (cleaningSettings "/disk/wiki" "/disk/wiki/OLD").engines plainSite.place = .ok (source, target) ∧
      ∀ w', (preparation plainSite [] (cleaningSettings "/disk/wiki" "/disk/wiki/OLD")).Leaves
        aliasedDisk w' → InPlace source.logFile
          ["disk".toList, "wiki".toList, "Main.txt".toList] [116] w'.tree) ∧
    ∃ failure e, (preparation plainSite [] (cleaningSettings "/disk/wiki" "/disk")).Fails
      aliasedDisk failure aliasedDisk ∧ preparationFailure failure = .classified e ∧
        e.kind = .configuration := by
  constructor
  · have h := (cleaning_spares_source plainSite [] (cleaningSettings "/disk/wiki" "/disk/wiki/OLD")
      aliasedDisk aliasedDisk_sound).2 _ _ rfl
    refine ⟨_, _, rfl, fun w' leaves => ?_⟩
    refine h.2 w' leaves ["Main.txt".toList] _ _ (by decide +kernel) (by decide +kernel) ?_
    intro home stands
    obtain rfl : home = ["disk".toList, "wiki".toList, "OLD".toList] :=
      stands.unique (by constructor <;> decide +kernel)
    decide
  · have h := (cleaning_spares_source plainSite [] (cleaningSettings "/disk/wiki" "/disk")
      aliasedDisk aliasedDisk_sound).2 _ _ rfl
    exact h.1 rfl (by decide +kernel)

end WikiMigration.Migration
