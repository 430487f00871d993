/-
What a configuration holds under the arguments of a command line.

The arguments of a command line set single settings.  Setting one leaves all others, also those of its section.  So
what each setting holds after the arguments have been laid over a configuration is what one of the arguments gives,
or what it held before.  Whatever lies beside the settings that are given is as it was.

Only a section that is no mapping can lose anything: it gives way to the first setting of it that is given, and the
further ones join that one, so that it holds just what is given.  Configurations are values, so the one that the
arguments are laid over stays what it is.
-/
import WikiMigration.Config.Arguments
import WikiMigration.Proofs.Data.Entries

namespace WikiMigration.Config

open Data

variable {given : Given} {config : List (Scalar × Value)}

theorem valueAt?_one (value : Value) (group : String) : valueAt? [group] value = value.get? group := by
  unfold valueAt?
  cases value.get? group <;> rfl

theorem valueAt?_two (value : Value) (group key : String) :
    valueAt? [group, key] value = (value.get? group).bind (·.get? key) := by
  unfold valueAt?
  cases value.get? group with
  | none => rfl
  | some value => exact valueAt?_one value key

/-- What a setting holds. -/
def Setting.held? (setting : Setting) (config : List (Scalar × Value)) : Option Value :=
  valueAt? [setting.group, setting.key] (.mapping config)

theorem held?_eq (setting : Setting) (config : List (Scalar × Value)) :
    setting.held? config =
      lookup (.text setting.key) (entriesOf (lookup (.text setting.group) config)) := by
  unfold Setting.held?
  rw [valueAt?_two]
  show (lookup (.text setting.group) config).bind _ = _
  cases lookup (.text setting.group) config with
  | none => rfl
  | some value => cases value <;> rfl

/-! ### One setting -/

/-- The section with the setting is a mapping then; everything else is as it was. -/
theorem lookup_settingAssign (setting : Setting) (value : Value) (group : Scalar) :
    lookup group (setting.assign value config) =
      if group = .text setting.group then
        some (.mapping (Data.assign (.text setting.key) value
          (entriesOf (lookup (.text setting.group) config))))
      else lookup group config := lookup_assign_text

/-- Under the keys of the setting stands its value then, and under all others what stood there. -/
theorem lookup_entriesOf_settingAssign (setting : Setting) (value : Value) (group key : Scalar) :
    lookup key (entriesOf (lookup group (setting.assign value config))) =
      if group = .text setting.group ∧ key = .text setting.key then some value
      else lookup key (entriesOf (lookup group config)) := by
  rw [lookup_settingAssign]
  by_cases hgroup : group = .text setting.group
  · rw [if_pos hgroup, hgroup]
    show lookup key (Data.assign (.text setting.key) value _) = _
    simp only [lookup_assign_text, true_and]
  · rw [if_neg hgroup, if_neg fun h => hgroup h.1]

theorem held?_assign (setting other : Setting) (value : Value) :
    other.held? (setting.assign value config) =
      if other = setting then some value else other.held? config := by
  have hsame : (Scalar.text other.group = .text setting.group ∧ Scalar.text other.key = .text setting.key)
      ↔ other = setting := by
    cases other
    cases setting
    simp
  rw [held?_eq, held?_eq, lookup_entriesOf_settingAssign]
  simp only [hsame]

/-! ### All arguments -/

/-- The arguments belong to one setting each. -/
theorem nodup_settings : (argumentTable.map Argument.setting).Nodup := by decide

variable {table : List Argument} {argument : Argument}

/-- What no setting that is given changes, the arguments do not change. -/
theorem foldl_apply_eq {α : Type} (view : List (Scalar × Value) → α)
    (h : ∀ argument ∈ table, ∀ value, argument.value? given = some value →
      ∀ config, view (argument.setting.assign value config) = view config) :
    view (table.foldl (Argument.apply given) config) = view config := by
  induction table generalizing config with
  | nil => rfl
  | cons argument rest ih =>
    rw [List.forall_mem_cons] at h
    rw [List.foldl_cons, ih h.2, Argument.apply]
    cases hvalue : argument.value? given with
    | none => rfl
    | some value => exact h.1 value hvalue config

/-- Each setting holds what its argument gives, or what it held. -/
theorem held?_foldl_apply (hdistinct : (table.map Argument.setting).Nodup) (h : argument ∈ table) :
    argument.setting.held? (table.foldl (Argument.apply given) config) =
      (argument.value? given).or (argument.setting.held? config) := by
  induction table generalizing config with
  | nil => cases h
  | cons first rest ih =>
    rw [List.map_cons, List.nodup_cons] at hdistinct
    rw [List.foldl_cons]
    rcases List.mem_cons.mp h with rfl | hmem
    · have hothers : argument.setting.held? (rest.foldl (Argument.apply given) (Argument.apply given config argument))
          = argument.setting.held? (Argument.apply given config argument) :=
        foldl_apply_eq argument.setting.held? fun other hother value _ config => by
          have hne : argument.setting ≠ other.setting := fun heq =>
            hdistinct.1 (heq ▸ List.mem_map_of_mem hother)
          rw [held?_assign, if_neg hne]
      rw [hothers, Argument.apply]
      cases argument.value? given with
      | none => rfl
      | some value => exact (held?_assign _ _ value).trans (if_pos rfl)
    · have hfirst : argument.setting ≠ first.setting := fun heq =>
        hdistinct.1 (heq ▸ List.mem_map_of_mem hmem)
      rw [ih hdistinct.2 hmem, Argument.apply]
      cases first.value? given with
      | none => rfl
      | some value => exact congrArg _ ((held?_assign _ _ value).trans (if_neg hfirst))

/-- What every setting keeps when it is set by one of the arguments, it keeps under all of them. -/
theorem holds_withArguments {P : Setting → Option Value → Prop} (h : ∀ s, P s (s.held? config))
    (hgiven : ∀ argument ∈ argumentTable, ∀ value, argument.value? given = some value →
      P argument.setting (some value)) :
    ∀ s, P s (s.held? (withArguments given config)) := by
  intro s
  by_cases hs : ∃ argument ∈ argumentTable, argument.setting = s
  · obtain ⟨argument, hmem, rfl⟩ := hs
    rw [withArguments, held?_foldl_apply nodup_settings hmem]
    cases hvalue : argument.value? given with
    | none => exact h argument.setting
    | some value => exact hgiven argument hmem value hvalue
  · have hkept : s.held? (withArguments given config) = s.held? config :=
      foldl_apply_eq s.held? fun argument hmem value _ config => by
        rw [held?_assign, if_neg fun heq => hs ⟨argument, hmem, heq.symm⟩]
    rw [hkept]
    exact h s

/-! ### Beside the settings -/

/-- The path to the setting of an argument. -/
def Argument.path (argument : Argument) : List Scalar :=
  [.text argument.setting.group, .text argument.setting.key]

/-- The entries that the arguments give a section, in their order. -/
def givenEntries (given : Given) (group : String) (table : List Argument) : List (Scalar × Value) :=
  table.filterMap fun argument =>
    if argument.setting.group = group then
      (argument.value? given).map fun value => (.text argument.setting.key, value)
    else none

/-- What becomes of a section by entries: with none it is left alone, and if it is no mapping it gives way. -/
def sectionWith (added : List (Scalar × Value)) (old : Option Value) : Option Value :=
  if added = [] then old
  else some (.mapping (added.foldl (fun all entry => Data.assign entry.1 entry.2 all) (entriesOf old)))

theorem sectionWith_cons (entry : Scalar × Value) (rest : List (Scalar × Value)) (old : Option Value) :
    sectionWith (entry :: rest) old
      = sectionWith rest (some (.mapping (Data.assign entry.1 entry.2 (entriesOf old)))) := by
  cases rest <;> rfl

theorem lookup_foldl_apply (group : String) :
    lookup (.text group) (table.foldl (Argument.apply given) config) =
      sectionWith (givenEntries given group table) (lookup (.text group) config) := by
  induction table generalizing config with
  | nil => rfl
  | cons argument rest ih =>
    rw [List.foldl_cons, ih, Argument.apply]
    cases hvalue : argument.value? given with
    | none => simp [givenEntries, hvalue]
    | some value =>
      show sectionWith _ (lookup (.text group) (argument.setting.assign value config)) = _
      rw [lookup_settingAssign]
      by_cases hgroup : argument.setting.group = group
      · subst hgroup
        have hgiven : givenEntries given argument.setting.group (argument :: rest)
            = (.text argument.setting.key, value) :: givenEntries given argument.setting.group rest := by
          simp [givenEntries, hvalue]
        rw [if_pos rfl, hgiven, sectionWith_cons]
      · rw [if_neg (by simpa using Ne.symm hgroup)]
        simp [givenEntries, hgroup]

/-- A section that is a mapping stays one. -/
theorem section_withArguments {group : String} {entries : List (Scalar × Value)}
    (h : lookup (.text group) config = some (.mapping entries)) :
    ∃ entries', lookup (.text group) (withArguments given config) = some (.mapping entries') := by
  rw [withArguments, lookup_foldl_apply, h, sectionWith]
  split
  · exact ⟨entries, rfl⟩
  · exact ⟨_, rfl⟩

end WikiMigration.Config
