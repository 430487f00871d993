/-
How a run ends, and what a run that could not be prepared has done.

There are three ends.  A run that could not be prepared is aborted, and what leaves it is a classified
failure.  A run that was prepared comes to its report whatever happens to the pages; there it ends if the
report cannot be handed on, and otherwise it is done.  So the stage a run is left in tells which end it was.

Only the preparation aborts a run.  Whatever it fails at, every file is in place with its bytes, unless the
target was to be emptied: that comes before the directories to work in, the logs and the renderer, so a run
that fails at one of these may have lost what stood in its target, and nothing else.
-/
import WikiMigration.Proofs.Migration.Accounting
import WikiMigration.Proofs.Migration.Outset

namespace WikiMigration.Migration

open Text Data Files Files.Tree Store Action

/-! ### Runs that abort -/

section Run

variable {σ ρ τ : Type} {r final : Runner σ} {failure : Failure}

theorem preserves_perform {α : Type} (task : Task σ α) : (perform task).Preserves Runner.stage :=
  .of_same fun _ => rfl

/-- Whatever reporting comes to, the run is in that stage. -/
theorem conclude_leaves {plan : Plan σ ρ τ} {outcomes : List PageOutcome}
    (h : (conclude plan outcomes).Leaves r final) : final.stage = .reporting := by
  have emits : ∀ event : Event, Preserves Runner.stage (.emit event : RunStep σ Unit) :=
    fun _ => .of_same fun _ => rfl
  rcases leaves_bind.mp h with ⟨e, hfails⟩ | ⟨_, r₁, hgives, h⟩
  · exact absurd hfails not_fails_change
  · obtain rfl := gives_change.mp hgives
    refine Preserves.bind (.of_same fun _ => rfl) (fun now => ?_) _ _ h
    refine (preserves_perform _).bind fun _ => ?_
    dsimp only
    split
    · exact (emits _).bind fun _ => (preserves_perform _).bind fun _ => .of_same fun _ => rfl
    · exact (emits _).bind fun _ => (preserves_perform _).bind fun _ => .of_same fun _ => rfl

/-- **Only the preparation aborts a run.** -/
theorem fails_of_aborted {prepare : Task σ (Plan σ ρ τ)} (raises : (run prepare).Fails r failure final)
    (aborted : final.stage = .aborted) :
    ∃ cause, prepare.Fails r.world cause final.world ∧ failure = preparationFailure cause := by
  rcases gives_or_fails prepare r.world with ⟨plan, start, prepared⟩ | ⟨cause, start, failed⟩
  swap
  · obtain ⟨rfl, rfl⟩ := raises.unique (run_aborts failed)
    exact ⟨cause, failed, rfl⟩
  -- A run that was prepared goes on to the report, and only that can fail.
  exfalso
  obtain ⟨pages, listed, -, showsListing⟩ := listPages_ends plan { r with world := start }
  obtain ⟨outcomes, r₁, _, -, -, showsPages⟩ :=
    processPages_ends plan pages { r with world := listed, stage := .enumerating }
  have attempted : (perform prepare).attempt.Gives r (.ok plan) { r with world := start } :=
    gives_attempt.mpr (Shows.perform prepared).gives
  have begun := fails_of_gives (f := fun _ => (perform prepare).attempt >>= proceed)
    (Shows.begin "Initializing" r).gives raises
  have goesOn := fails_of_gives (f := proceed) attempted begun
  change (listPages plan >>= fun pages => processPages plan pages >>= fun outcomes =>
    conclude plan outcomes >>= fun report => enter .done >>= fun _ => pure report).Fails _ _ _ at goesOn
  have processes := fails_of_gives showsListing.gives goesOn
  have concludes := fails_of_gives showsPages.gives processes
  rcases fails_bind.mp concludes with hfails | ⟨_, r₂, -, hdone⟩
  · exact absurd ((conclude_leaves hfails.leaves).symm.trans aborted) (by decide)
  · rcases fails_bind.mp hdone with hfails | ⟨_, r₃, -, hfails⟩
    · exact not_fails_change hfails
    · exact not_fails_pure hfails

end Run

/-! ### Preparations that fail -/

section Preparation

variable {α β : Type} {w w' : World}

/-- If the task fails, every file is in place with its bytes. -/
def FailsCarefully (task : Task World α) : Prop :=
  ∀ w failure w', task.Fails w failure w' → Lasts w.tree w'.tree

theorem Careful.bind_failsCarefully {task : Task World α} {next : α → Task World β} (h : Careful task)
    (h' : ∀ a, FailsCarefully (next a)) : FailsCarefully (task >>= next) := by
  intro w failure w' hfails
  rcases fails_bind.mp hfails with hfails | ⟨a, w₁, hgives, hfails⟩
  · exact h _ _ hfails.leaves
  · exact (h _ _ hgives.leaves).trans (h' a _ _ _ hfails)

/-- A task after which nothing fails need not be careful when it does not. -/
theorem FailsCarefully.bind {task : Task World α} {next : α → Task World β} (h : FailsCarefully task)
    (h' : ∀ a w failure w', ¬ (next a).Fails w failure w') : FailsCarefully (task >>= next) := by
  intro w failure w' hfails
  rcases fails_bind.mp hfails with hfails | ⟨a, w₁, -, hfails⟩
  · exact h _ _ _ hfails
  · exact absurd hfails (h' a _ _ _)

/-- A renderer that is not to be had writes to no log. -/
theorem renderer_failsCarefully (site : Site) (engine : Engine) :
    FailsCarefully ((Staff.usual site).renderer engine) := by
  refine FailsCarefully.bind (fun w failure w' hfails => ?_) fun _ _ _ _ => not_fails_pure
  obtain ⟨-, -, -, rfl⟩ := engineTask_fails.mp hfails
  exact Lasts.refl _

variable {site : Site} {hooks : List (List Char → Task World (List Char))} {settings : Settings}

/-- The file stands in a target that is to be emptied, by the settings and the names and by what is
there. -/
def ToBeEmptied (site : Site) (settings : Settings) (t : Tree) (place : Location) : Prop :=
  ∃ source target home, settings.engines site.place = .ok (source, target) ∧
    MayEmpty settings source.pageDirectory target.pageDirectory ∧
    t.isDirectory source.pageDirectory = .ok true ∧ t.Standing target.pageDirectory home ∧ home <+: place

/-- A preparation that fails has at most emptied the target. -/
theorem preparation_fails {failure : Failure} {place : Location} {bytes : Bytes} (sound : w.tree.Sound)
    (h : (preparation site hooks settings).Fails w failure w')
    (hat : w.tree.at? place = some (.file bytes)) :
    w'.tree.at? place = some (.file bytes) ∨ ToBeEmptied site settings w.tree place := by
  rcases fails_bind.mp h with hfails | ⟨⟨source, target⟩, w₁, hgives, h⟩
  · obtain ⟨-, rfl⟩ := fails_ofResult.mp hfails
    exact Or.inl hat
  obtain ⟨hengines, rfl⟩ := gives_ofResult.mp hgives
  rcases fails_bind.mp h with hfails | ⟨there, w₁, hgives, h⟩
  · obtain ⟨-, -, -, rfl⟩ := fails_inspect.mp hfails
    exact Or.inl hat
  obtain ⟨hthere, rfl⟩ := gives_inspect.mp hgives
  split at h
  · obtain ⟨-, rfl⟩ := fails_fail.mp h
    exact Or.inl hat
  next hnot =>
  have hsource : w.tree.isDirectory source.pageDirectory = .ok true := by
    rw [hthere]
    simpa using hnot
  have cleaned : ∀ w₁, (prepareTarget settings source.pageDirectory target.pageDirectory).Leaves w w₁ →
      w₁.tree.Sound ∧ (w₁.tree.at? place = some (.file bytes) ∨ ToBeEmptied site settings w.tree place) := by
    intro w₁ hleaves
    rcases prepareTarget_leaves sound hleaves with lasts | ⟨mayEmpty, home, stands, cleared⟩
    · exact ⟨(lasts sound).1, Or.inl ((lasts sound).2 _ _ hat)⟩
    refine ⟨cleared.sound, ?_⟩
    by_cases hhome : home <+: place
    · exact Or.inr ⟨source, target, home, hengines, mayEmpty, hsource, stands, hhome⟩
    · exact Or.inl ((cleared.others _ hhome).trans hat)
  rcases fails_bind.mp h with hfails | ⟨_, w₁, hgives, h⟩
  · exact (cleaned _ hfails.leaves).2
  obtain ⟨sound₁, hleft⟩ := cleaned _ hgives.leaves
  -- What comes after the target is made ready leaves all files in place if it fails.
  have rest : Lasts w₁.tree w'.tree := by
    refine (Careful.bind_failsCarefully (careful_prepareEngine _ _) fun _ => ?_) _ _ _ h
    refine (careful_prepareEngine _ _).bind_failsCarefully fun _ => ?_
    refine (careful_describeEngine _ _).bind_failsCarefully fun _ => ?_
    refine (careful_describeEngine _ _).bind_failsCarefully fun _ => ?_
    refine (renderer_failsCarefully site source).bind fun render w failure w' hfails => ?_
    rcases fails_bind.mp hfails with hfails | ⟨_, _, -, hfails⟩
    · exact absurd (fails_ofResult.mp hfails).1 nofun
    rcases fails_bind.mp hfails with hfails | ⟨_, _, -, hfails⟩
    · exact not_fails_emit hfails
    · exact not_fails_pure hfails
  exact hleft.imp_left ((rest sound₁).2 _ _)

end Preparation

/-- **A run that aborts keeps all files, but for those that it was to delete first.** -/
theorem aborted_run_keeps_files (site : Site) (hooks : List (List Char → Task World (List Char)))
    (settings : Settings) (r final : Runner World) (failure : Failure) (sound : r.world.tree.Sound)
    (raises : (run (preparation site hooks settings)).Fails r failure final)
    (aborted : final.stage = .aborted) :
    ∀ place bytes, r.world.tree.at? place = some (.file bytes) →
      final.world.tree.at? place = some (.file bytes) ∨ ToBeEmptied site settings r.world.tree place := by
  obtain ⟨cause, failed, -⟩ := fails_of_aborted raises aborted
  exact fun place bytes hat => preparation_fails sound failed hat

/-- The settings of a run whose renderer is not to be had. -/
def unrenderedSettings (cleans : Bool) : Settings where
  config := .mapping [(.text "engine", .mapping [(.text "work_directory", .text "/work"),
    (.text "parser_override", .text "no_such_module.Renderer")])]
  source := .text "/wiki"
  target := .text "/out"
  language := .text "de"
  reportPath := .null
  isDry := false
  cleans := cleans
  verifies := true

/-- A wiki, and a target with a page of old. -/
def oldTarget : World where
  tree := ⟨[(["wiki".toList], .directory), (["wiki".toList, "Main.txt".toList], .file [116]),
    (["out".toList], .directory), (["out".toList, "Old.md".toList], .file [111])]⟩

theorem oldTarget_sound : oldTarget.tree.Sound := sound_of_entries (by decide) (by decide)

/-- A run that empties its target may abort after that. -/
theorem aborted_run_loses_target :
    oldTarget.tree.at? ["out".toList, "Old.md".toList] = some (.file [111]) ∧
    (run (preparation plainSite [] (unrenderedSettings true)) { world := oldTarget }).world.stage =
      .aborted ∧
    (run (preparation plainSite [] (unrenderedSettings true)) { world := oldTarget }).world.world.tree.at?
      ["out".toList, "Old.md".toList] = none := by
  decide +kernel

theorem unrendered_run_keeps_target :
    ∃ failure final, (run (preparation plainSite [] (unrenderedSettings false))).Fails
        { world := oldTarget } failure final ∧ final.stage = .aborted ∧
      (oldTarget.tree.at? ["out".toList, "Old.md".toList] = some (.file [111]) →
        final.world.tree.at? ["out".toList, "Old.md".toList] = some (.file [111])) := by
  have failing : (preparation plainSite [] (unrenderedSettings false) oldTarget).result.isOk = false := by
    decide +kernel
  rcases gives_or_fails (preparation plainSite [] (unrenderedSettings false)) oldTarget with
    ⟨plan, start, prepared⟩ | ⟨failure, start, failed⟩
  · rw [prepared.1] at failing
    cases failing
  have raises := @run_aborts _ _ _ _ { world := oldTarget } _ _ failed
  refine ⟨_, _, raises, rfl, fun hat => ?_⟩
  rcases aborted_run_keeps_files plainSite [] (unrenderedSettings false) { world := oldTarget } _ _
    oldTarget_sound raises rfl _ _ hat with hkept | ⟨source, target, home, -, mayEmpty, -⟩
  · exact hkept
  · cases mayEmpty.cleans

/-! ### The three ends -/

section Run

variable {σ ρ τ : Type}

/-- The end of a run: what it came to, and the stage it is left in. -/
inductive RunEnds (plan? : Except Failure (Plan σ ρ τ)) (r : Runner σ) (step : RunStep σ Report) : Prop
  | done {report : Report} {final : Runner σ} (gives : step.Gives r report final)
      (stage : final.stage = .done)
  | aborted {e : MigrationError} {final : Runner σ} (fails : step.Fails r (.classified e) final)
      (stage : final.stage = .aborted)
  /-- The report could not be handed on. -/
  | unreported {plan : Plan σ ρ τ} {report : Report} {failure : Failure} {w w' : σ} {final : Runner σ}
      (prepared : plan? = .ok plan) (refused : (plan.exportReport report).Fails w failure w')
      (fails : step.Fails r failure final) (stage : final.stage = .reporting)

/-- What leaves a run that cannot be prepared is classified. -/
theorem preparationFailure_classified (failure : Failure) :
    ∃ e, preparationFailure failure = .classified e := by
  cases failure with
  | classified e => exact ⟨e, rfl⟩
  | system sort message => exact ⟨_, rfl⟩
  | other sort message => exact ⟨_, rfl⟩

theorem perform_fails_iff {α : Type} {task : Task σ α} {r r' : Runner σ} {failure : Failure}
    (h : (perform task).Fails r failure r') : ∃ w', task.Fails r.world failure w' := by
  exact ⟨_, h.1, rfl⟩

/-- Reporting fails only where the report is handed on. -/
theorem conclude_fails {plan : Plan σ ρ τ} {outcomes : List PageOutcome} {r final : Runner σ}
    {failure : Failure} (h : (conclude plan outcomes).Fails r failure final) :
    ∃ report w w', (plan.exportReport report).Fails w failure w' := by
  unfold conclude at h
  have entered := fails_of_gives (Shows.enter .reporting r).gives h
  have begun := fails_of_gives (gives_world.mpr ⟨rfl, rfl⟩) entered
  have noted := fails_of_gives (Shows.note _ _ _ _).gives begun
  -- The report is shown, or a record says that it has been; neither fails.
  have handed : ∀ (event : Event) (report : Report) (r : Runner σ),
      (do .emit event; perform (plan.exportReport report); return report : RunStep σ Report).Fails r
        failure final → ∃ w w', (plan.exportReport report).Fails w failure w' := by
    intro event report r h
    have emitted := fails_of_gives (a := ()) (gives_emit.mpr rfl) h
    rcases fails_bind.mp emitted with hfails | ⟨_, r₁, -, hfails⟩
    · exact ⟨_, perform_fails_iff hfails⟩
    · exact absurd hfails not_fails_pure
  dsimp only at noted
  split at noted
  · exact ⟨_, handed _ _ _ noted⟩
  · exact ⟨_, handed _ _ _ noted⟩

/-- A run that was prepared comes to its report. -/
theorem runPlan_ends (plan : Plan σ ρ τ) (r : Runner σ) :
    (∃ report final, (runPlan plan).Gives r report final ∧ final.stage = .done) ∨
    ∃ report failure w w' final, (plan.exportReport report).Fails w failure w' ∧
      (runPlan plan).Fails r failure final ∧ final.stage = .reporting := by
  obtain ⟨pages, listed, -, showsListing⟩ := listPages_ends plan r
  obtain ⟨outcomes, r₁, _, -, -, showsPages⟩ :=
    processPages_ends plan pages { r with world := listed, stage := .enumerating }
  rcases gives_or_fails (conclude plan outcomes) r₁ with ⟨report, r₂, concluded⟩ | ⟨failure, r₂, failed⟩
  · refine Or.inl ⟨report, { r₂ with stage := .done }, ?_, rfl⟩
    refine gives_bind.mpr ⟨_, _, showsListing.gives, gives_bind.mpr ⟨_, _, showsPages.gives, ?_⟩⟩
    refine gives_bind.mpr ⟨report, r₂, concluded, ?_⟩
    exact gives_bind.mpr ⟨(), _, (Shows.enter .done r₂).gives, gives_pure.mpr ⟨rfl, rfl⟩⟩
  · obtain ⟨report, w, w', refused⟩ := conclude_fails failed
    refine Or.inr ⟨report, failure, w, w', r₂, refused, ?_, conclude_leaves failed.leaves⟩
    refine fails_bind.mpr (Or.inr ⟨_, _, showsListing.gives, ?_⟩)
    refine fails_bind.mpr (Or.inr ⟨_, _, showsPages.gives, ?_⟩)
    exact fails_bind.mpr (Or.inl failed)

/-- **Every run ends in one of three ways, and its stage tells in which.** -/
theorem run_ends_in (prepare : Task σ (Plan σ ρ τ)) (r : Runner σ) :
    RunEnds (prepare r.world).result r (run prepare) := by
  rcases gives_or_fails prepare r.world with ⟨plan, start, prepared⟩ | ⟨cause, start, failed⟩
  · have attempted : (perform prepare).attempt.Gives r (.ok plan) { r with world := start } :=
      gives_attempt.mpr (Shows.perform prepared).gives
    have begun := (Shows.begin "Initializing" r).gives
    rcases runPlan_ends plan { r with world := start } with
      ⟨report, final, gives, stage⟩ | ⟨report, failure, w, w', final, refused, fails, stage⟩
    · have whole : (run prepare).Gives r report final :=
        gives_bind.mpr ⟨_, _, begun, gives_bind.mpr ⟨_, _, attempted, gives⟩⟩
      exact .done whole stage
    · refine .unreported prepared.1 refused ?_ stage
      exact fails_bind.mpr (Or.inr ⟨_, _, begun, fails_bind.mpr (Or.inr ⟨_, _, attempted, fails⟩)⟩)
  · obtain ⟨e, he⟩ := preparationFailure_classified cause
    have aborts := run_aborts failed
    rw [he] at aborts
    exact .aborted aborts rfl

end Run

/-! ### Reports that cannot be handed on -/

/-- The value is given as the name of a file and is none: neither a text nor the number of an open file. -/
def IsNameless (value : Value) : Prop :=
  value.isGiven = true ∧ openFile? value = none ∧ ∀ s, value ≠ .text s

theorem named_fails {α : Type} {text : List Char} {result : Result α} {failure : Failure}
    (h : named text result = .error failure) : ∃ sort message, failure = .system sort message := by
  cases result with
  | ok a => cases h
  | error e => exact ⟨_, _, (Except.error.inj h).symm⟩

/-- Writing a file fails as the system does, or on account of the name of the file: a name that is none is
a failure of another sort than one that cannot be. -/
theorem writeFile_fails {workingDirectory : Path} {name : Value} {content : String} {tree : Tree}
    {failure : Failure} (h : writeFile workingDirectory name content tree = .error failure) :
    (∃ sort message, failure = .system sort message) ∨
    (∃ message, failure = .other "ValueError" message ∧ ¬ IsNameless name) ∨
    (∃ message, failure = .other "TypeError" message ∧ openFile? name = none ∧ ∀ s, name ≠ .text s) := by
  unfold writeFile at h
  split at h
  · next number hopen =>
    obtain rfl := Except.error.inj h
    by_cases hnegative : number < 0
    · refine Or.inr (Or.inl ⟨_, if_pos hnegative, ?_⟩)
      rintro ⟨-, hclosed, -⟩
      exact absurd (hopen.symm.trans hclosed) (by simp)
    · exact Or.inl ⟨_, _, if_neg hnegative⟩
  · next hclosed =>
    by_cases htext : ∃ s, name = .text s
    · obtain ⟨s, rfl⟩ := htext
      by_cases hnul : s.toList.contains '\x00' = true
      · rw [fileName, if_pos hnul] at h
        exact Or.inr (Or.inl ⟨_, (Except.error.inj h).symm, fun nameless => nameless.2.2 s rfl⟩)
      · rw [fileName, if_neg hnul] at h
        exact Or.inl (named_fails h)
    · have hnot : ∀ s, name ≠ .text s := fun s hs => htext ⟨s, hs⟩
      have hname : fileName name = .error (.other "TypeError"
          ("expected str, bytes or os.PathLike object, not " ++ name.kindName)) := by
        unfold fileName
        split
        · next s => exact absurd rfl (hnot s)
        · rfl
      rw [hname] at h
      exact Or.inr (Or.inr ⟨_, (Except.error.inj h).symm, hclosed, hnot⟩)

/-- A report cannot be handed on only if its file is named and cannot be: a name that is none is a failure
of its own sort. -/
theorem exportTo_fails {site : Site} {settings : Settings} {report : Report} {w w' : World}
    {failure : Failure} (h : (exportTo site settings report).Fails w failure w') :
    (∃ message, failure = .other "ValueError" message ∧ ¬ IsNameless settings.reportPath) ∨
    (∃ message, failure = .other "TypeError" message ∧ IsNameless settings.reportPath) := by
  have hresult := h.1
  unfold exportTo at hresult
  split at hresult
  · next hgiven =>
    split at hresult
    · cases hresult
    · next failure' hwrite =>
      obtain rfl := Except.error.inj hresult
      unfold Report.writeTo at hwrite
      split at hwrite
      · cases hwrite
      · cases hwrite
      · next e hsystem he =>
        obtain rfl := Except.error.inj hwrite
        rcases writeFile_fails he with ⟨sort, message, hfailure⟩ | hvalue | ⟨message, htype, hnameless⟩
        · exact absurd hfailure (hsystem sort message)
        · exact Or.inl hvalue
        · exact Or.inr ⟨message, htype, hgiven, hnameless⟩
  · cases hresult

/-- A report is handed on as the settings of the run say. -/
theorem prepare_gives_export {site : Site} {staff : Staff} {settings : Settings} {w w' : World}
    {plan : Plan World Nat Nat} (h : (prepare site staff settings).Gives w plan w') :
    plan.exportReport = exportTo site settings := by
  unfold prepare at h
  obtain ⟨⟨source, target⟩, w₁, -, h⟩ := gives_bind.mp h
  obtain ⟨there, w₂, -, h⟩ := gives_bind.mp h
  split at h
  · exact absurd h gives_fail
  iterate 5 obtain ⟨_, _, -, h⟩ := gives_bind.mp h
  obtain ⟨render, _, -, h⟩ := gives_bind.mp h
  obtain ⟨write, _, -, h⟩ := gives_bind.mp h
  obtain ⟨_, _, -, h⟩ := gives_bind.mp h
  obtain ⟨rfl, -⟩ := gives_pure.mp h
  rfl

end WikiMigration.Migration
