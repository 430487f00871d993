/-
The code that a session ends with.

A session ends with zero exactly if its run is done, and what it complains about it ends with two.  It
should do nothing else, but there are three ways for a failure to leave it: a configuration that cannot be
loaded for a reason that is not provided for, a valid one whose section about the log is not of the form that
the log asks for, and one whose report is to be written to what is no name of a file.  They are all; and each
of them takes a file with a configuration.
-/
import WikiMigration.Command.Session
import WikiMigration.Proofs.Command.Parse
import WikiMigration.Proofs.Config.Defaults
import WikiMigration.Proofs.Migration.Ending

namespace WikiMigration.Command

open Data Files Migration Store Action
open Config (Setting)

/-! ### Which failures are complained about -/

/-- The result is a failure that no complaint is about. -/
def Uncaught {α : Type} (result : Except Failure α) : Prop :=
  ∃ failure, result = .error failure ∧ complaint? failure = none

theorem uncaught_map {α β : Type} {result : Except Failure α} {f : α → β} :
    Uncaught (result.map f) ↔ Uncaught result := by
  cases result <;> simp [Uncaught, Except.map]

theorem exists_map_ok {α β : Type} {result : Except Failure α} {f : α → β} :
    (∃ b, result.map f = .ok b) ↔ ∃ a, result = .ok a := by
  cases result <;> simp [Except.map]

/-- A configuration that cannot be loaded, for a reason that no complaint is about. -/
inductive IsUnmended : Config.LoadError → Prop
  | directory : IsUnmended .isDirectory
  | endless : IsUnmended .endless
  /-- A scalar that is not written as its tag asks may fail with any sort of failure. -/
  | unreadable {sort message : String} (notValue : sort ∉ valueSorts) :
    IsUnmended (.document (.unreadable sort message))

theorem complaint?_other (sort message : String) :
    complaint? (.other sort message) = none ↔ sort ∉ valueSorts := by
  unfold complaint?
  by_cases h : sort ∈ valueSorts
  · simp [h]
  · simp [h]

theorem complaint?_loadError (path : String) (e : Config.LoadError) :
    complaint? (e.failure path) = none ↔ IsUnmended e := by
  constructor
  · intro h
    cases e with
    | notFound => cases h
    | isDirectory => exact .directory
    | undecodable e => exact absurd ((complaint?_other _ _).mp h) (by decide)
    | notMapping => exact absurd ((complaint?_other _ _).mp h) (by decide)
    | endless => exact .endless
    | document e =>
      cases e with
      | malformed e => exact absurd ((complaint?_other _ _).mp h) (by decide)
      | unreadable sort message => exact .unreadable ((complaint?_other _ _).mp h)
  · intro h
    cases h with
    | directory => rfl
    | endless => exact (complaint?_other _ _).mpr (by decide)
    | unreadable notValue => exact (complaint?_other _ _).mpr notValue

/-! ### The log -/

section Log

variable {config : Value} {entries : List (Scalar × Value)} {site : Site}

/-- The section about the log; one that is left out has no settings. -/
def logSection (config : Value) : Value := (Config.valueAt? ["logging"] config).getD (.mapping [])

/-- The log can go by the configuration: its section is left out or a mapping, a level that is given is a
text, the number of flags is no list and no mapping if no level is given, and a file that is given is a
text. -/
structure CanLog (config : Value) : Prop where
  mapping : ∃ entries, logSection config = .mapping entries
  level : (Setting.logLevel.value config).isGiven = true → ∃ s, Setting.logLevel.value config = .text s
  verbosity : (Setting.logLevel.value config).isGiven = false →
    ∃ s, Setting.verbosity.value config = .scalar s
  file : (Setting.logFile.value config).isGiven = true → ∃ s, Setting.logFile.value config = .text s

/-- The level to log at, of values of which a text is the name of a level: it is there if the values are of
the form that is asked for, and otherwise the failure is not complained about. -/
theorem resolveLevel_cases (verbosity : Value) {name : Value}
    (known : ∀ s, name = .text s → ∃ level, Log.Level.ofAnyCase? s = some level) :
    let formed := (name.isGiven = true → ∃ s, name = .text s) ∧
      (name.isGiven = false → ∃ s, verbosity = .scalar s)
    (Uncaught (Log.resolveLevel verbosity name) ∧ ¬ formed) ∨
      ((∃ level, Log.resolveLevel verbosity name = .ok level) ∧ formed) := by
  intro formed
  unfold Log.resolveLevel
  by_cases hgiven : name.isGiven = true
  · have hformed : formed ↔ ∃ s, name = .text s := by simp [formed, hgiven]
    rw [if_neg (by simp [hgiven]), hformed]
    split
    · next s =>
      obtain ⟨level, hlevel⟩ := known s rfl
      rw [hlevel]
      exact Or.inr ⟨⟨level, rfl⟩, s, rfl⟩
    · next hnot =>
      refine Or.inl ⟨⟨_, rfl, (complaint?_other _ _).mpr (by decide)⟩, ?_⟩
      rintro ⟨s, hs⟩
      exact hnot s hs
  · have hnot : name.isGiven = false := by simpa using hgiven
    have hformed : formed ↔ ∃ s, verbosity = .scalar s := by simp [formed, hnot]
    rw [if_pos (by simp [hnot]), hformed]
    cases verbosity with
    | scalar s => exact Or.inr ⟨⟨_, rfl⟩, s, rfl⟩
    | list items => exact Or.inl ⟨⟨_, rfl, (complaint?_other _ _).mpr (by decide)⟩, by simp⟩
    | mapping entries => exact Or.inl ⟨⟨_, rfl, (complaint?_other _ _).mpr (by decide)⟩, by simp⟩

theorem part_logging (own : List (Scalar × Value)) :
    part "logging" (.mapping own) = .ok (logSection (.mapping own)) := by
  unfold logSection
  rw [Config.valueAt?_one]
  rfl

/-- What a key of the section has is what the configuration has at that path. -/
theorem getD_lookup {own : List (Scalar × Value)} (hsection : logSection (.mapping own) = .mapping entries)
    (key : String) (fallback : Value) :
    (lookup (.text key) entries).getD fallback =
      (Config.valueAt? ["logging", key] (.mapping own)).getD fallback := by
  unfold logSection at hsection
  rw [Config.valueAt?_one] at hsection
  rw [Config.valueAt?_two]
  cases hfound : (Value.mapping own).get? "logging" with
  | none =>
    rw [hfound] at hsection
    cases hsection
    rfl
  | some value =>
    rw [hfound] at hsection
    obtain rfl : value = .mapping entries := hsection
    rfl

/-- A section that is no mapping keeps the log from beginning. -/
theorem logSettings_of_other (own : List (Scalar × Value))
    (hother : ∀ entries, logSection (.mapping own) ≠ .mapping entries) :
    Uncaught (LogSettings.ofConfig (.mapping own)) := by
  have hfails : ∃ message, entryOr "verbosity" (.int 0) (logSection (.mapping own)) =
      .error (.other "AttributeError" message) := by
    unfold entryOr
    split
    · next entries heq => exact absurd heq (hother entries)
    · exact ⟨_, rfl⟩
  obtain ⟨message, hfails⟩ := hfails
  have hfailed : LogSettings.ofConfig (.mapping own) = .error (.other "AttributeError" message) :=
    bind_eq_error.mpr (Or.inr ⟨_, part_logging own, bind_eq_error.mpr (Or.inl hfails)⟩)
  exact ⟨_, hfailed, (complaint?_other _ _).mpr (by decide)⟩

theorem logSettings_of_mapping (own : List (Scalar × Value))
    (hsection : logSection (.mapping own) = .mapping entries) :
    LogSettings.ofConfig (.mapping own) =
      (Log.resolveLevel ((Config.valueAt? ["logging", "verbosity"] (.mapping own)).getD (.int 0))
        (Setting.logLevel.value (.mapping own))).bind
          fun level => .ok { level, file := Setting.logFile.value (.mapping own) } := by
  have hlevel : Setting.logLevel.value (.mapping own) = (lookup (.text "level") entries).getD .null :=
    (getD_lookup hsection "level" .null).symm
  have hfile : Setting.logFile.value (.mapping own) = (lookup (.text "file") entries).getD .null :=
    (getD_lookup hsection "file" .null).symm
  unfold LogSettings.ofConfig
  rw [part_logging, hsection, hlevel, hfile, ← getD_lookup hsection "verbosity" (.int 0)]
  rfl

/-- What a valid configuration has been checked for: where the pages are, and the level of the log. -/
theorem check_eq_ok (h : Config.check config = .ok ()) :
    Config.checkGiven config .sourceDirectory = .ok () ∧ Config.checkLevel config = .ok () := by
  unfold Config.check at h
  obtain ⟨_, hgiven, h⟩ := bind_eq_ok.mp h
  obtain ⟨_, -, h⟩ := bind_eq_ok.mp h
  obtain ⟨_, -, h⟩ := bind_eq_ok.mp h
  obtain ⟨_, -, h⟩ := bind_eq_ok.mp h
  obtain ⟨_, -, h⟩ := bind_eq_ok.mp h
  obtain ⟨_, -, h⟩ := bind_eq_ok.mp h
  obtain ⟨_, hsource, -⟩ := bind_eq_ok.mp hgiven
  exact ⟨hsource, h⟩

/-- A level that has been checked is known. -/
theorem level_of_checked (hcheck : Config.check config = .ok ()) {s : String}
    (hlevel : Setting.logLevel.value config = .text s) : ∃ level, Log.Level.ofAnyCase? s = some level := by
  have hchecked := (check_eq_ok hcheck).2
  unfold Config.checkLevel at hchecked
  rw [hlevel] at hchecked
  change (if (Log.Level.ofAnyCase? s).isSome then _ else _) = _ at hchecked
  split at hchecked
  · next hsome => exact Option.isSome_iff_exists.mp hsome
  · cases hchecked

/-- The value under verbosity is no list and no mapping, whatever stands for one that is not there. -/
theorem verbosity_scalar {own : List (Scalar × Value)} :
    (∃ s, (Config.valueAt? ["logging", "verbosity"] (.mapping own)).getD (.int 0) = .scalar s) ↔
      ∃ s, Setting.verbosity.value (.mapping own) = .scalar s := by
  show _ ↔ ∃ s, (Config.valueAt? ["logging", "verbosity"] (.mapping own)).getD .null = .scalar s
  cases Config.valueAt? ["logging", "verbosity"] (.mapping own) with
  | none => exact ⟨fun _ => ⟨_, rfl⟩, fun _ => ⟨_, rfl⟩⟩
  | some value => exact Iff.rfl

/-- **The settings of the log of a valid configuration.**  They are there, or the configuration is not of
the form that the log asks for and the failure is not complained about. -/
theorem logSettings_of_checked {own : List (Scalar × Value)} (hcheck : Config.check (.mapping own) = .ok ()) :
    (Uncaught (LogSettings.ofConfig (.mapping own)) ∧ ¬ CanLog (.mapping own)) ∨
    ∃ settings, LogSettings.ofConfig (.mapping own) = .ok settings ∧
      settings.file = Setting.logFile.value (.mapping own) ∧
      (CanLog (.mapping own) ↔ (settings.file.isGiven = true → ∃ s, settings.file = .text s)) := by
  by_cases hmapping : ∃ entries, logSection (.mapping own) = .mapping entries
  swap
  · refine Or.inl ⟨logSettings_of_other own fun entries heq => hmapping ⟨entries, heq⟩, ?_⟩
    exact fun canLog => hmapping canLog.mapping
  obtain ⟨entries, hsection⟩ := hmapping
  have hsettings := logSettings_of_mapping own hsection
  have known : ∀ s, Setting.logLevel.value (.mapping own) = .text s →
      ∃ level, Log.Level.ofAnyCase? s = some level := fun s hs => level_of_checked hcheck hs
  rcases resolveLevel_cases ((Config.valueAt? ["logging", "verbosity"] (.mapping own)).getD (.int 0)) known with
    ⟨⟨failure, hfails, huncaught⟩, hunformed⟩ | ⟨⟨level, hlevel⟩, hformed⟩
  · rw [hfails] at hsettings
    refine Or.inl ⟨⟨failure, hsettings, huncaught⟩, fun canLog => hunformed ⟨canLog.level, fun hnot => ?_⟩⟩
    exact verbosity_scalar.mpr (canLog.verbosity hnot)
  · rw [hlevel] at hsettings
    refine Or.inr ⟨_, hsettings, rfl, fun canLog => canLog.file, fun hfile => ?_⟩
    exact ⟨⟨entries, hsection⟩, hformed.1, fun hnot => verbosity_scalar.mp (hformed.2 hnot), hfile⟩

/-! ### The beginning of the log -/

/-- Only the name of its file keeps the log from beginning. -/
theorem startLog_fails {settings : LogSettings} {w w' : World} {failure : Failure}
    (h : (startLog site settings).Fails w failure w') : logPath site settings.file = .error failure := by
  rcases fails_bind.mp h with hfails | ⟨_, _, -, hfails⟩
  · rcases fails_bind.mp hfails with hfails | ⟨path, _, -, hfails⟩
    · exact (fails_ofResult.mp hfails).1
    · exfalso
      cases path with
      | none => exact not_fails_pure hfails
      | some path =>
        rcases fails_bind.mp hfails with hfails | ⟨appended, _, -, hfails⟩
        · exact not_fails_attempt hfails
        · cases appended with
          | ok tree =>
            rcases fails_bind.mp hfails with hfails | ⟨_, _, -, hfails⟩
            · exact not_fails_change hfails
            rcases fails_bind.mp hfails with hfails | ⟨_, _, -, hfails⟩
            · exact not_fails_emit hfails
            · exact not_fails_pure hfails
          | error _ =>
            rcases fails_bind.mp hfails with hfails | ⟨_, _, -, hfails⟩
            · exact not_fails_emit hfails
            · exact not_fails_pure hfails
  · rcases fails_bind.mp hfails with hfails | ⟨_, _, -, hfails⟩
    · exact absurd hfails not_fails_emit
    · exact absurd hfails not_fails_pure

/-- The path of the file that the log goes to: a file that is given and is no text is not complained about,
and every other one that cannot be named is. -/
theorem logPath_cases (site : Site) (file : Value) :
    (∃ failure, logPath site file = .error failure ∧
      (complaint? failure = none ↔ ¬ (file.isGiven = true → ∃ s, file = .text s))) ∨
    ((∃ path?, logPath site file = .ok path?) ∧ (file.isGiven = true → ∃ s, file = .text s)) := by
  unfold logPath
  by_cases hgiven : file.isGiven = true
  swap
  · rw [if_neg hgiven]
    exact Or.inr ⟨⟨none, rfl⟩, fun h => absurd h hgiven⟩
  rw [if_pos hgiven]
  unfold fileName
  split
  · next s =>
    split
    · refine Or.inl ⟨_, rfl, fun huncaught => ?_, fun hnot => absurd (fun _ => ⟨s, rfl⟩) hnot⟩
      exact absurd ((complaint?_other _ _).mp huncaught) (by decide)
    · exact Or.inr ⟨⟨_, rfl⟩, fun _ => ⟨s, rfl⟩⟩
  · next hother =>
    refine Or.inl ⟨_, rfl, fun _ htext => ?_, fun _ => (complaint?_other _ _).mpr (by decide)⟩
    obtain ⟨s, hs⟩ := htext hgiven
    exact hother s hs

/-- How the log begins, or fails to. -/
theorem startLog_cases (site : Site) (settings : LogSettings) (w : World) :
    let named := settings.file.isGiven = true → ∃ s, settings.file = .text s
    (∃ failure, (startLog site settings w).result = .error failure ∧ (complaint? failure = none ↔ ¬ named)) ∨
      ((∃ file, (startLog site settings w).result = .ok file) ∧ named) := by
  intro named
  rcases gives_or_fails (startLog site settings) w with ⟨file, w', hgives⟩ | ⟨failure, w', hfails⟩
  · refine Or.inr ⟨⟨file, hgives.1⟩, ?_⟩
    obtain ⟨opened, _, hopens, -⟩ := gives_bind.mp hgives
    obtain ⟨path?, _, hpath, -⟩ := gives_bind.mp hopens
    rcases logPath_cases site settings.file with ⟨failure, hfailed, -⟩ | ⟨-, hnamed⟩
    · cases hfailed.symm.trans (gives_ofResult.mp hpath).1
    · exact hnamed
  · rcases logPath_cases site settings.file with ⟨failure', hfailed, huncaught⟩ | ⟨⟨path?, hpath⟩, -⟩
    · obtain rfl := Except.error.inj (hfailed.symm.trans (startLog_fails hfails))
      exact Or.inl ⟨_, hfails.1, huncaught⟩
    · cases hpath.symm.trans (startLog_fails hfails)

end Log

/-! ### The run of a session -/

section Run

variable {site : Site} {staff : Staff} {arguments : Arguments}

/-- Two outcomes have the same result and leave the same world. -/
def EndsAs {ω σ α : Type} (first second : Outcome ω σ α) : Prop :=
  first.result = second.result ∧ first.world = second.world

theorem EndsAs.trans {ω σ α : Type} {first second third : Outcome ω σ α} (h : EndsAs first second)
    (h' : EndsAs second third) : EndsAs first third := ⟨h.1.trans h'.1, h.2.trans h'.2⟩

/-- A step that changes nothing is no part of how a run ends. -/
theorem endsAs_bind {α β : Type} {x : RunStep World α} {f : α → RunStep World β} {r : Runner World} {a : α}
    (h : x.Gives r a r) : EndsAs ((x >>= f) r) (f a r) := by
  rw [bind_apply_of_gives h]
  exact ⟨rfl, rfl⟩

theorem say_gives (level : Log.Level) (message : String) (r : Runner World) :
    (perform (say level message)).Gives r () r :=
  Shows.gives (Shows.perform (gives_emit.mpr rfl))

theorem forM_say_gives (level : Log.Level) (messages : List String) (r : Runner World) :
    (messages.forM fun message => perform (say level message)).Gives r () r := by
  induction messages with
  | nil => exact gives_pure.mpr ⟨rfl, rfl⟩
  | cons message rest ih => exact gives_bind.mpr ⟨(), r, say_gives level message r, ih⟩

/-- What a session says before its run is no part of how it ends. -/
theorem migrate_endsAs {config : Value} {settings : Settings}
    (hsettings : Settings.ofConfig config = .ok settings) (r : Runner World) :
    EndsAs (migrate site staff arguments config r) (run (prepare site staff settings) r) := by
  have emits : ∀ event : Event, (Action.emit event : RunStep World Unit).Gives r () r :=
    fun _ => gives_emit.mpr rfl
  have rest : EndsAs ((do
      begin "Configuration"
      (configLines config).forM fun message => perform (say .info message)
      .emit (.line ("Source directory: " ++ shownDirectory site config "source_directory"))
      .emit (.line ("Target directory: " ++ shownDirectory site config "target_directory"))
      let settings ← .ofResult (Settings.ofConfig config)
      run (prepare site staff settings) : RunStep World Report) r)
      (run (prepare site staff settings) r) := by
    refine (endsAs_bind (Shows.begin "Configuration" r).gives).trans ?_
    refine (endsAs_bind (forM_say_gives .info (configLines config) r)).trans ?_
    refine (endsAs_bind (emits _)).trans ?_
    refine (endsAs_bind (emits _)).trans ?_
    exact endsAs_bind (gives_ofResult.mpr ⟨hsettings, rfl⟩)
  unfold migrate
  refine (endsAs_bind (Shows.begin "JSPWiki Migration Tool" r).gives).trans ?_
  refine (endsAs_bind (emits _)).trans ?_
  dsimp only
  split
  · exact (endsAs_bind (emits _)).trans rest
  · exact rest

/-- A setting that must be given stands in a section that is a mapping. -/
theorem mapping_of_checkGiven {config : Value} {setting : Setting}
    (h : Config.checkGiven config setting = .ok ()) :
    ∃ entries, config.get? setting.group = some (.mapping entries) := by
  have hvalue : setting.value config ≠ .null := by
    intro hnull
    unfold Config.checkGiven at h
    rw [hnull] at h
    cases h
  unfold Setting.value at hvalue
  rw [Config.valueAt?_two] at hvalue
  cases hgroup : config.get? setting.group with
  | none =>
    rw [hgroup] at hvalue
    exact absurd rfl hvalue
  | some value =>
    rw [hgroup] at hvalue
    cases value with
    | mapping entries => exact ⟨entries, rfl⟩
    | scalar s => exact absurd rfl hvalue
    | list items => exact absurd rfl hvalue

/-- A valid configuration has the settings of a run. -/
theorem settings_of_checked {own : List (Scalar × Value)} (hcheck : Config.check (.mapping own) = .ok ()) :
    ∃ settings, Settings.ofConfig (.mapping own) = .ok settings ∧
      settings.reportPath = Setting.reportPath.value (.mapping own) := by
  obtain ⟨entries, hentries⟩ := mapping_of_checkGiven (check_eq_ok hcheck).1
  change (Value.mapping own).get? "migration" = _ at hentries
  have hpart : part "migration" (.mapping own) = .ok (.mapping entries) := by
    show Except.ok (((Value.mapping own).get? "migration").getD (.mapping [])) = _
    rw [hentries]
    rfl
  refine ⟨_, bind_eq_ok.mpr ⟨_, hpart, rfl⟩, ?_⟩
  show (lookup (.text "report_path") entries).getD .null = _
  unfold Setting.value
  rw [Config.valueAt?_two]
  show _ = (((Value.mapping own).get? "migration").bind (·.get? "report_path")).getD .null
  rw [hentries]
  rfl

/-- The run of a session: it is done, or its failure is complained about unless the report is to be written
to what is no name of a file. -/
theorem migrate_settles {own : List (Scalar × Value)} (hcheck : Config.check (.mapping own) = .ok ())
    (w : World) {outcome : Outcome Event (Runner World) Report}
    (houtcome : outcome = migrate site staff arguments (.mapping own) { world := w }) :
    ((∃ report, outcome.result = .ok report) ↔ outcome.world.stage = .done) ∧
    (Uncaught outcome.result ↔ outcome.world.stage = .reporting ∧
      IsNameless (Setting.reportPath.value (.mapping own))) := by
  obtain ⟨settings, hsettings, hreport⟩ := settings_of_checked hcheck
  obtain ⟨hresult, hworld⟩ := @migrate_endsAs site staff arguments _ _ hsettings { world := w }
  rw [← houtcome] at hresult hworld
  rw [hresult, hworld, ← hreport]
  cases run_ends_in (prepare site staff settings) { world := w } with
  | done gives stage =>
    rw [gives.1, gives.2, stage]
    refine ⟨⟨fun _ => rfl, fun _ => ⟨_, rfl⟩⟩, ?_, ?_⟩
    · rintro ⟨_, h, -⟩
      cases h
    · rintro ⟨h, -⟩
      cases h
  | aborted fails stage =>
    rw [fails.1, fails.2, stage]
    refine ⟨⟨fun ⟨_, h⟩ => (by cases h), nofun⟩, ?_, ?_⟩
    · rintro ⟨_, h, huncaught⟩
      cases h
      cases huncaught
    · rintro ⟨h, -⟩
      cases h
  | unreported planned refused fails stage =>
    rw [fails.1, fails.2, stage]
    refine ⟨⟨fun ⟨_, h⟩ => (by cases h), nofun⟩, ?_⟩
    rw [prepare_gives_export ⟨planned, rfl⟩] at refused
    rcases exportTo_fails refused with ⟨message, rfl, hnamed⟩ | ⟨message, rfl, hnameless⟩
    · refine ⟨?_, fun h => absurd h.2 hnamed⟩
      rintro ⟨_, h, huncaught⟩
      cases h
      exact absurd ((complaint?_other _ _).mp huncaught) (by decide)
    · exact ⟨fun _ => ⟨rfl, hnameless⟩, fun _ => ⟨_, rfl, (complaint?_other _ _).mpr (by decide)⟩⟩

end Run

/-! ### The session -/

section Session

/-- The configuration of a session, and the settings of its log. -/
def prepared (environment : Config.Environment) (site : Site) (arguments : Arguments) (tree : Tree) :
    Except Failure (Value × LogSettings) := do
  let config ← configure environment site arguments tree
  return (config, ← LogSettings.ofConfig config)

/-- The stage that the run of a session is left in, if a run begins. -/
def stageOf (environment : Config.Environment) (site : Site) (staff : Staff) (arguments : Arguments)
    (tree : Tree) : Option Stage :=
  match prepared environment site arguments tree with
  | .error _ => none
  | .ok (config, settings) =>
    let start := startLog site settings { tree }
    match start.result with
    | .error _ => none
    | .ok _ => some (migrate site staff arguments config { world := start.world }).world.stage

/-- A failure leaves the session. -/
inductive Escapes (environment : Config.Environment) (site : Site) (staff : Staff) (arguments : Arguments)
    (tree : Tree) : Prop
  /-- The file with the configuration cannot be loaded, for a reason that no complaint is about. -/
  | unloadable {path : String} {e : Config.LoadError} (named : argument arguments "config" = .text path)
    (fails : Config.load environment (sourceAt site.place.workingDirectory tree path) = .error e)
    (unmended : IsUnmended e)
  /-- The log cannot go by the configuration, which is valid. -/
  | unlogged {config : Value} (configured : configure environment site arguments tree = .ok config)
    (unformed : ¬ CanLog config)
  /-- The report is to be written to what is no name of a file. -/
  | unreported {config : Value} (configured : configure environment site arguments tree = .ok config)
    (reporting : stageOf environment site staff arguments tree = some .reporting)
    (nameless : IsNameless (Setting.reportPath.value config))

variable {environment : Config.Environment} {site : Site} {staff : Staff} {arguments : Arguments} {tree : Tree}

theorem loadConfig_uncaught :
    Uncaught (loadConfig environment site arguments tree) ↔
      ∃ path e, argument arguments "config" = .text path ∧
        Config.load environment (sourceAt site.place.workingDirectory tree path) = .error e ∧ IsUnmended e := by
  unfold loadConfig
  split
  · next path hpath =>
    constructor
    · rintro ⟨failure, hfailure, huncaught⟩
      obtain ⟨e, he, rfl⟩ := mapError_eq_error.mp hfailure
      exact ⟨path, e, hpath, he, (complaint?_loadError path e).mp huncaught⟩
    · rintro ⟨path', e, hpath', he, hunmended⟩
      obtain rfl := Scalar.text.inj (Value.scalar.inj (hpath.symm.trans hpath'))
      exact ⟨_, mapError_eq_error.mpr ⟨e, he, rfl⟩, (complaint?_loadError _ e).mpr hunmended⟩
  · next hnot =>
    constructor
    · rintro ⟨failure, hfailure, -⟩
      cases hfailure
    · rintro ⟨path, e, hpath, -⟩
      exact absurd hpath (hnot path)

/-- What is configured is valid. -/
theorem configure_eq_ok {config : Value} (h : configure environment site arguments tree = .ok config) :
    ∃ loaded, loadConfig environment site arguments tree = .ok loaded ∧
      config = .mapping (Config.withArguments (argument arguments) (Config.entriesOf (some loaded))) ∧
      Config.check config = .ok () := by
  obtain ⟨loaded, hloaded, h⟩ := bind_eq_ok.mp h
  obtain ⟨_, hcheck, h⟩ := bind_eq_ok.mp h
  obtain rfl := Except.ok.inj h
  exact ⟨loaded, hloaded, rfl, mapError_eq_ok.mp hcheck⟩

/-- A fault of a configuration is complained about, so that only loading it may fail otherwise. -/
theorem configure_uncaught :
    Uncaught (configure environment site arguments tree) ↔
      Uncaught (loadConfig environment site arguments tree) := by
  constructor
  · rintro ⟨failure, hfailure, huncaught⟩
    rcases bind_eq_error.mp hfailure with hload | ⟨loaded, -, hfailure⟩
    · exact ⟨failure, hload, huncaught⟩
    · rcases bind_eq_error.mp hfailure with hcheck | ⟨_, -, hfailure⟩
      · obtain ⟨fault, -, rfl⟩ := mapError_eq_error.mp hcheck
        cases huncaught
      · cases hfailure
  · rintro ⟨failure, hfailure, huncaught⟩
    exact ⟨failure, bind_eq_error.mpr (Or.inl hfailure), huncaught⟩

/-- Where the configuration is valid, the log or the report is what escapes. -/
theorem escapes_of_configured {config : Value} (h : configure environment site arguments tree = .ok config) :
    Escapes environment site staff arguments tree ↔
      ¬ CanLog config ∨ (stageOf environment site staff arguments tree = some .reporting ∧
        IsNameless (Setting.reportPath.value config)) := by
  constructor
  · intro hescapes
    cases hescapes with
    | unloadable named fails unmended =>
      obtain ⟨_, hfailure, -⟩ := configure_uncaught.mpr (loadConfig_uncaught.mpr ⟨_, _, named, fails, unmended⟩)
      cases h.symm.trans hfailure
    | unlogged configured unformed =>
      obtain rfl := Except.ok.inj (h.symm.trans configured)
      exact Or.inl unformed
    | unreported configured reporting nameless =>
      obtain rfl := Except.ok.inj (h.symm.trans configured)
      exact Or.inr ⟨reporting, nameless⟩
  · rintro (unformed | ⟨reporting, nameless⟩)
    · exact .unlogged h unformed
    · exact .unreported h reporting nameless

/-- A session for which all operands are given. -/
def AllGiven (arguments : Arguments) : Prop :=
  ∀ operand ∈ operands, (argument arguments operand.key).isGiven = true

theorem session_eq (given : AllGiven arguments) :
    session environment site staff arguments tree =
      match prepared environment site arguments tree with
      | .error failure => conclude (.error failure) "" "" tree
      | .ok (config, settings) => sessionWith site staff arguments config settings tree := by
  unfold session
  rw [if_neg]
  · rfl
  · intro hnot
    obtain ⟨operand, hmem, hoperand⟩ := List.any_eq_true.mp hnot
    rw [given operand hmem] at hoperand
    cases hoperand

/-- What a session comes to: it is done exactly if its run is, and otherwise it failed, with a failure that
is complained about or one that escapes. -/
def Settles (environment : Config.Environment) (site : Site) (staff : Staff) (arguments : Arguments)
    (tree : Tree) (result : Except Failure String) : Prop :=
  ((∃ shown, result = .ok shown) ↔ stageOf environment site staff arguments tree = some .done) ∧
  (Uncaught result ↔ Escapes environment site staff arguments tree)

theorem settles_of_unprepared {failure : Failure}
    (h : prepared environment site arguments tree = .error failure) :
    Settles environment site staff arguments tree (.error failure) := by
  have hstage : stageOf environment site staff arguments tree = none := by
    unfold stageOf
    rw [h]
  refine ⟨by simp [hstage], ?_⟩
  rcases bind_eq_error.mp h with hconfigure | ⟨config, hconfigure, h⟩
  · have hiff : Uncaught (Except.error failure : Except Failure String) ↔
        Uncaught (configure environment site arguments tree) := by
      rw [hconfigure]
      simp [Uncaught]
    rw [hiff, configure_uncaught, loadConfig_uncaught]
    constructor
    · rintro ⟨path, e, named, fails, unmended⟩
      exact .unloadable named fails unmended
    · intro hescapes
      cases hescapes with
      | unloadable named fails unmended => exact ⟨_, _, named, fails, unmended⟩
      | unlogged configured unformed => cases hconfigure.symm.trans configured
      | unreported configured reporting nameless => cases hconfigure.symm.trans configured
  · have hsettings : LogSettings.ofConfig config = .error failure := by
      rcases bind_eq_error.mp h with hsettings | ⟨_, -, h⟩
      · exact hsettings
      · cases h
    rw [escapes_of_configured hconfigure, hstage]
    obtain ⟨loaded, -, rfl, hcheck⟩ := configure_eq_ok hconfigure
    rcases logSettings_of_checked hcheck with ⟨⟨failure', hfailure', huncaught⟩, hunformed⟩ | ⟨_, hok, -⟩
    · obtain rfl := Except.error.inj (hsettings.symm.trans hfailure')
      exact ⟨fun _ => Or.inl hunformed, fun _ => ⟨_, rfl, huncaught⟩⟩
    · cases hsettings.symm.trans hok

theorem stageOf_of_start {config : Value} {settings : LogSettings}
    (h : prepared environment site arguments tree = .ok (config, settings)) :
    stageOf environment site staff arguments tree =
      match (startLog site settings { tree }).result with
      | .error _ => none
      | .ok _ => some (migrate site staff arguments config
          { world := (startLog site settings { tree }).world }).world.stage := by
  unfold stageOf
  rw [h]

/-- Once the log has begun, a session comes to what its run comes to. -/
theorem sessionWith_of_start {config : Value} {settings : LogSettings} {file : Option Path}
    (hfile : (startLog site settings { tree }).result = .ok file) :
    ∃ output errors tree', sessionWith site staff arguments config settings tree =
      conclude ((migrate site staff arguments config
        { world := (startLog site settings { tree }).world }).result.map fun _ => farewell config)
        output errors tree' := by
  unfold sessionWith
  dsimp only
  rw [hfile]
  exact ⟨_, _, _, rfl⟩

/-- How a session ends that could be prepared. -/
theorem settles_of_prepared {config : Value} {settings : LogSettings}
    (h : prepared environment site arguments tree = .ok (config, settings)) :
    ∃ result output errors tree',
      sessionWith site staff arguments config settings tree = conclude result output errors tree' ∧
      Settles environment site staff arguments tree result := by
  obtain ⟨config', hconfigure, hprepared⟩ := bind_eq_ok.mp h
  obtain ⟨settings', hsettings, hpair⟩ := bind_eq_ok.mp hprepared
  cases hpair
  have hescapes := @escapes_of_configured environment site staff arguments tree _ hconfigure
  have hstage := @stageOf_of_start environment site staff arguments tree _ _ h
  obtain ⟨loaded, -, rfl, hcheck⟩ := configure_eq_ok hconfigure
  rcases logSettings_of_checked hcheck with ⟨⟨_, hfailure, -⟩, -⟩ | ⟨settings', hok, -, hcanLog⟩
  · cases hsettings.symm.trans hfailure
  obtain rfl := Except.ok.inj (hsettings.symm.trans hok)
  rcases startLog_cases site settings { tree } with ⟨failure, hfailure, huncaught⟩ | ⟨⟨file, hfile⟩, hnamed⟩
  · rw [hfailure] at hstage
    refine ⟨.error failure, "", "", (startLog site settings { tree }).world.tree, ?_, ?_⟩
    · unfold sessionWith
      dsimp only
      rw [hfailure]
    · have hresult : Uncaught (Except.error failure : Except Failure String) ↔ complaint? failure = none := by
        simp [Uncaught]
      refine ⟨by simp [hstage], ?_⟩
      rw [hresult, huncaught, hescapes, hcanLog, hstage]
      simp
  · rw [hfile] at hstage
    obtain ⟨output, errors, tree', hsession⟩ := @sessionWith_of_start site staff arguments tree
      (.mapping (Config.withArguments (argument arguments) (Config.entriesOf (some loaded)))) _ _ hfile
    have hsettles := @migrate_settles site staff arguments _ hcheck
      (startLog site settings { tree }).world _ rfl
    refine ⟨_, output, errors, tree', hsession, ?_, ?_⟩
    · rw [exists_map_ok, hstage, hsettles.1]
      simp
    · rw [uncaught_map, hsettles.2, hescapes, hcanLog, hstage]
      constructor
      · exact fun h => Or.inr ⟨congrArg some h.1, h.2⟩
      · rintro (hunnamed | ⟨hreporting, hnameless⟩)
        · exact absurd hnamed hunnamed
        · exact ⟨Option.some.inj hreporting, hnameless⟩

/-! ### The code -/

/-- What a session settles, told by its code: zero for a run that is done, two with a complaint for a failure
that is complained about, and none for every other failure. -/
theorem Settles.code {result : Except Failure String} (h : Settles environment site staff arguments tree result)
    (output errors : String) (tree' : Tree) :
    let ended := conclude result output errors tree'
    (ended.code = .ok 0 ↔ stageOf environment site staff arguments tree = some .done) ∧
    (ended.code = .ok 2 ↔ stageOf environment site staff arguments tree ≠ some .done ∧
      ¬ Escapes environment site staff arguments tree) ∧
    (ended.code = .ok 2 → ∃ before message,
      ended.errors = before ++ "Error processing: " ++ message ++ "\n") ∧
    ((∃ failure, ended.code = .error failure) ↔ Escapes environment site staff arguments tree) := by
  intro ended
  rw [ne_eq, ← h.1, ← h.2]
  cases result with
  | ok shown =>
    have hcode : ended.code = .ok 0 := rfl
    rw [hcode]
    refine ⟨⟨fun _ => ⟨shown, rfl⟩, fun _ => rfl⟩, by simp, fun h => ?_, by simp [Uncaught]⟩
    cases h
  | error failure =>
    cases hcomplaint : complaint? failure with
    | some message =>
      have hended : ended = ⟨.ok 2, output, errors ++ "Error processing: " ++ message ++ "\n", tree'⟩ := by
        show conclude (.error failure) output errors tree' = _
        unfold conclude
        dsimp only
        rw [hcomplaint]
      simp only [hended]
      refine ⟨by simp, by simp [Uncaught, hcomplaint], fun _ => ⟨errors, message, rfl⟩, ?_⟩
      simp [Uncaught, hcomplaint]
    | none =>
      have hcode : ended.code = .error failure := by
        show (conclude (.error failure) output errors tree').code = _
        unfold conclude
        dsimp only
        rw [hcomplaint]
      simp [hcode, Uncaught, hcomplaint]

/-- What is given for a switch that takes a value is a text, if anything is. -/
theorem argument_text {line : List String} (parsed : parse line = .ok arguments) {s : Switch}
    (hs : s ∈ switches) {placeholder : String} (heffect : s.effect = .value placeholder) :
    argument arguments s.key = .null ∨ ∃ t, argument arguments s.key = .text t := by
  unfold argument
  cases hlookup : lookup (.text s.key) arguments with
  | none => exact Or.inl rfl
  | some value =>
    have htakes := takes_of_parse parsed s hs value hlookup
    unfold Switch.Takes at htakes
    rw [heffect] at htakes
    exact htakes

/-- What the settings hold that the log and the report go by, where they come from the arguments. -/
structure IsPlainlySet (setting : Setting) (held : Option Value) : Prop where
  level : setting = .logLevel → held = some .null
  file : setting = .logFile ∨ setting = .reportPath → held = some .null ∨ ∃ t, held = some (.text t)
  verbosity : setting = .verbosity → ∃ s, held = some (.scalar s)

theorem plainlySet_of_parse {line : List String} (parsed : parse line = .ok arguments) :
    ∀ argument' ∈ Config.argumentTable, ∀ value, argument'.value? (argument arguments) = some value →
      IsPlainlySet argument'.setting (some value) := by
  intro argument' hmem value hvalue
  have hplain : argument'.flag = none → value = argument arguments argument'.name := by
    intro hflag
    unfold Config.Argument.value? at hvalue
    rw [hflag] at hvalue
    dsimp only at hvalue
    split at hvalue
    · exact (Option.some.inj hvalue).symm
    · cases hvalue
  -- No argument is about the level, and those about files and flags are no flags themselves.
  have hlevel : ∀ a ∈ Config.argumentTable, a.setting ≠ .logLevel := by decide
  have hfile : ∀ a ∈ Config.argumentTable, a.setting = .logFile ∨ a.setting = .reportPath →
      a.flag = none ∧ ∃ s ∈ switches, s.key = a.name ∧ (s.effect = .value "LOG_FILE" ∨ s.effect = .value "REPORT") := by
    decide
  have hverbosity : ∀ a ∈ Config.argumentTable, a.setting = .verbosity →
      a.flag = none ∧ ∃ s ∈ switches, s.key = a.name ∧ s.effect = .count := by decide
  refine ⟨fun h => absurd h (hlevel argument' hmem), fun h => ?_, fun h => ?_⟩
  · obtain ⟨hflag, s, hs, hkey, heffect⟩ := hfile argument' hmem h
    have htext : argument arguments s.key = .null ∨ ∃ t, argument arguments s.key = .text t := by
      rcases heffect with heffect | heffect
      · exact argument_text parsed hs heffect
      · exact argument_text parsed hs heffect
    rw [hplain hflag, ← hkey]
    simpa using htext
  · obtain ⟨hflag, s, hs, hkey, heffect⟩ := hverbosity argument' hmem h
    rw [hplain hflag, ← hkey]
    unfold argument
    cases hlookup : lookup (.text s.key) arguments with
    | none => exact ⟨.null, rfl⟩
    | some value =>
      have htakes := takes_of_parse parsed s hs value hlookup
      unfold Switch.Takes at htakes
      rw [heffect] at htakes
      obtain ⟨n, rfl⟩ := htakes
      exact ⟨.int n, rfl⟩

theorem plainlySet_defaults (setting : Setting) :
    IsPlainlySet setting (setting.held? (Config.entriesOf (some Config.defaults))) := by
  refine ⟨?_, ?_, ?_⟩
  · rintro rfl
    rfl
  · rintro (rfl | rfl)
    · exact Or.inl rfl
    · exact Or.inl rfl
  · rintro rfl
    exact ⟨_, rfl⟩

section Plain

variable {own : List (Scalar × Value)} (plain : ∀ s : Setting, IsPlainlySet s (s.held? own))
include plain

theorem file_of_plainlySet {setting : Setting} (h : setting = .logFile ∨ setting = .reportPath) :
    setting.value (.mapping own) = .null ∨ ∃ t, setting.value (.mapping own) = .text t := by
  rcases (plain setting).file h with hnull | ⟨t, htext⟩
  · exact Or.inl (congrArg (·.getD .null) hnull)
  · exact Or.inr ⟨t, congrArg (·.getD .null) htext⟩

theorem canLog_of_plainlySet (hsection : ∃ entries, logSection (.mapping own) = .mapping entries) :
    CanLog (.mapping own) := by
  refine ⟨hsection, fun hgiven => ?_, fun _ => ?_, fun hgiven => ?_⟩
  · have hnull : Setting.logLevel.value (.mapping own) = .null :=
      congrArg (·.getD .null) ((plain .logLevel).level rfl)
    rw [hnull] at hgiven
    cases hgiven
  · obtain ⟨verbosity, hverbosity⟩ := (plain .verbosity).verbosity rfl
    exact ⟨verbosity, congrArg (·.getD .null) hverbosity⟩
  · refine (file_of_plainlySet plain (Or.inl rfl)).resolve_left fun hnull => ?_
    rw [hnull] at hgiven
    cases hgiven

theorem not_isNameless_of_plainlySet : ¬ IsNameless (Setting.reportPath.value (.mapping own)) := by
  intro nameless
  rcases file_of_plainlySet plain (Or.inr rfl) with hnull | ⟨t, htext⟩
  · rw [hnull] at nameless
    cases nameless.1
  · exact nameless.2.2 t htext

end Plain

/-- Arguments alone let no failure escape. -/
theorem not_escapes_of_arguments {line : List String} (parsed : parse line = .ok arguments)
    (hconfig : argument arguments "config" = .null) : ¬ Escapes environment site staff arguments tree := by
  have hload : loadConfig environment site arguments tree = .ok Config.defaults := by
    unfold loadConfig
    rw [hconfig]
  cases hconfigure : configure environment site arguments tree with
  | error failure =>
    intro hescapes
    cases hescapes with
    | unloadable named fails unmended => cases hconfig.symm.trans named
    | unlogged configured unformed => cases hconfigure.symm.trans configured
    | unreported configured reporting nameless => cases hconfigure.symm.trans configured
  | ok config =>
    rw [escapes_of_configured hconfigure]
    obtain ⟨loaded, hloaded, rfl, -⟩ := configure_eq_ok hconfigure
    obtain rfl := Except.ok.inj (hload.symm.trans hloaded)
    have plain := Config.holds_withArguments plainlySet_defaults (plainlySet_of_parse parsed)
    obtain ⟨entries, hentries⟩ := @Config.section_withArguments (argument arguments)
      (Config.entriesOf (some Config.defaults)) "logging" _ rfl
    have hsection : ∃ entries, logSection (.mapping (Config.withArguments (argument arguments)
        (Config.entriesOf (some Config.defaults)))) = .mapping entries := by
      refine ⟨entries, ?_⟩
      unfold logSection
      rw [Config.valueAt?_one]
      exact congrArg (·.getD (.mapping [])) hentries
    rintro (unformed | ⟨-, nameless⟩)
    · exact unformed (canLog_of_plainlySet plain hsection)
    · exact not_isNameless_of_plainlySet plain nameless

end Session

/-- **Zero for a run that is done, two with a complaint otherwise, unless a failure escapes.**  Which failures
escape is told by the configuration and the end of the run, and without a file with a configuration none
does. -/
theorem exit_code (environment : Config.Environment) (site : Site) (staff : Staff) (line : List String)
    (arguments : Arguments) (tree : Tree) (parsed : parse line = .ok arguments) (given : AllGiven arguments) :
    let ended := session environment site staff arguments tree
    let stage := stageOf environment site staff arguments tree
    (ended.code = .ok 0 ↔ stage = some .done) ∧
    (ended.code = .ok 2 ↔ stage ≠ some .done ∧ ¬ Escapes environment site staff arguments tree) ∧
    (ended.code = .ok 2 → ∃ before message,
      ended.errors = before ++ "Error processing: " ++ message ++ "\n") ∧
    ((∃ failure, ended.code = .error failure) ↔ Escapes environment site staff arguments tree) ∧
    (argument arguments "config" = .null → ¬ Escapes environment site staff arguments tree) := by
  intro ended stage
  have hended : ∃ result output errors tree', ended = conclude result output errors tree' ∧
      Settles environment site staff arguments tree result := by
    show ∃ result output errors tree',
      session environment site staff arguments tree = conclude result output errors tree' ∧ _
    rw [session_eq given]
    cases hprepared : prepared environment site arguments tree with
    | error failure => exact ⟨_, _, _, _, rfl, settles_of_unprepared hprepared⟩
    | ok prepared => exact settles_of_prepared hprepared
  obtain ⟨result, output, errors, tree', hconclude, hsettles⟩ := hended
  rw [hconclude]
  obtain ⟨hzero, htwo, hcomplaint, hescapes⟩ := hsettles.code output errors tree'
  exact ⟨hzero, htwo, hcomplaint, hescapes, not_escapes_of_arguments parsed⟩

/-- The arguments of a command line, if it has any. -/
def argumentsOf (line : List String) : Arguments := (parse line).toOption.getD []

/-- The names that stand by their place, of a migration. -/
def plainLine : List String := ["wiki", "out", "de"]

/-- Where there is no wiki, the session ends with a complaint. -/
theorem missing_wiki_complains :
    parse plainLine = .ok (argumentsOf plainLine) ∧ AllGiven (argumentsOf plainLine) ∧
    let ended := session (fun _ => none) plainSite (Staff.usual plainSite) (argumentsOf plainLine) ⟨[]⟩
    ended.code = .ok 2 ∧ ∃ before message, ended.errors = before ++ "Error processing: " ++ message ++ "\n" := by
  have parsed : parse plainLine = .ok (argumentsOf plainLine) := toOption_eq_some.mp (by decide +kernel)
  have given : AllGiven (argumentsOf plainLine) := by
    unfold AllGiven
    decide +kernel
  have hstage : stageOf (fun _ => none) plainSite (Staff.usual plainSite) (argumentsOf plainLine) ⟨[]⟩ ≠
      some .done := by decide +kernel
  obtain ⟨-, htwo, hcomplaint, -, harguments⟩ :=
    exit_code (fun _ => none) plainSite (Staff.usual plainSite) plainLine _ ⟨[]⟩ parsed given
  have hcode := htwo.mpr ⟨hstage, harguments (by decide +kernel)⟩
  exact ⟨parsed, given, hcode, hcomplaint hcode⟩

/-- A command line that names a directory as the file with the configuration. -/
def directoryLine : List String := ["--config", "conf", "wiki", "out", "de"]

/-- That directory, beside a wiki. -/
def directoryTree : Tree :=
  ⟨[(["conf".toList], .directory), (["wiki".toList], .directory),
    (["wiki".toList, "Main.txt".toList], .file [116])]⟩

/-- The failure to read a directory escapes. -/
theorem directory_escapes :
    parse directoryLine = .ok (argumentsOf directoryLine) ∧ AllGiven (argumentsOf directoryLine) ∧
    (session (fun _ => none) plainSite (Staff.usual plainSite) (argumentsOf directoryLine)
      directoryTree).code = .error (.system "IsADirectoryError" "[Errno 21] Is a directory: 'conf'") := by
  refine ⟨toOption_eq_some.mp (by decide +kernel), ?_, failureOf_eq_some.mp (by decide +kernel)⟩
  unfold AllGiven
  decide +kernel

end WikiMigration.Command
