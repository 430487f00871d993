/-
What a configuration that was loaded holds.

The document of the file is laid over the defaults.  In a section that is a mapping each setting has the
value that the document gives it, with its references resolved, and its default if the document gives none;
what the document adds is kept.  A section that is there and is no mapping is laid over the defaults as a
whole, so that one which is empty takes all defaults of the section away.
-/
import WikiMigration.Config.Load
import WikiMigration.Proofs.Config.Arguments
import WikiMigration.Proofs.Yaml.Keys

namespace WikiMigration.Config

open Text Data

variable {environment : Environment} {old own entries : List (Scalar × Value)} {s : String}

/-! ### Laying entries over others -/

@[simp] theorem overlay_none (value : Value) : overlay none value = value := by
  cases value <;> rfl

@[simp] theorem overlay_scalar (old : Scalar) (value : Value) : overlay (some (.scalar old)) value = value := by
  cases value <;> rfl

/-- A text key has the value that is laid over the old one, or else the old one. -/
theorem lookup_overlayEntries (distinct : Distinct own) :
    lookup (.text s) (overlayEntries old own) =
      match lookup (.text s) own with
      | some value => some (overlay (lookup (.text s) old) value)
      | none => lookup (.text s) old := by
  induction own generalizing old with
  | nil => rfl
  | cons entry rest ih =>
    obtain ⟨key, value⟩ := entry
    obtain ⟨hfirst, hrest⟩ := List.pairwise_cons.mp distinct
    show lookup (.text s) (overlayEntries (assign key (overlay (lookup key old) value) old) rest) = _
    rw [ih hrest, lookup_cons]
    by_cases hkey : key = .text s
    · -- The key does not come again, so what is assigned here stays.
      subst hkey
      have hnot : lookup (.text s) rest = none := by
        refine lookup_eq_none_iff.mpr fun entry hmem => ?_
        have hdiffers := hfirst entry hmem
        rw [text_sameKey, decide_eq_false_iff_not] at hdiffers
        rw [sameKey_text]
        simpa using Ne.symm hdiffers
      rw [hnot, if_pos (by rw [sameKey_text]; simp)]
      exact lookup_assign_self
    · rw [lookup_assign_other hkey, if_neg (by rw [sameKey_text]; simpa using hkey)]

/-- An entry over which nothing is laid stays. -/
theorem mem_overlayEntries_of_other {entry : Scalar × Value} (hmem : entry ∈ old)
    (hother : ∀ laid ∈ own, entry.1.sameKey laid.1 = false) : entry ∈ overlayEntries old own := by
  induction own generalizing old with
  | nil => exact hmem
  | cons first rest ih =>
    rw [List.forall_mem_cons] at hother
    exact ih (mem_assign_of_other hmem hother.1) hother.2

/-- An entry with a new key is kept. -/
theorem mem_overlayEntries_of_new (distinct : Distinct own) {entry : Scalar × Value} (hmem : entry ∈ own)
    (hnew : lookup entry.1 old = none) : entry ∈ overlayEntries old own := by
  induction own generalizing old with
  | nil => cases hmem
  | cons first rest ih =>
    obtain ⟨hfirst, hrest⟩ := List.pairwise_cons.mp distinct
    show entry ∈ overlayEntries (assign first.1 (overlay (lookup first.1 old) first.2) old) rest
    rcases List.mem_cons.mp hmem with rfl | hmem
    · refine mem_overlayEntries_of_other ?_ hfirst
      rw [hnew, overlay_none, assign_of_lookup_eq_none hnew]
      exact List.mem_append_right _ List.mem_cons_self
    · exact ih hrest hmem (lookup_assign_eq_none hnew (hfirst entry hmem))

/-! ### Resolving references -/

theorem resolveEntries_eq_map :
    resolveEntries environment entries = entries.map fun entry => (entry.1, resolveValue environment entry.2) := by
  induction entries with
  | nil => rfl
  | cons entry rest ih =>
    show (entry.1, resolveValue environment entry.2) :: resolveEntries environment rest = _
    rw [ih]
    rfl

theorem lookup_resolveEntries (key : Scalar) :
    lookup key (resolveEntries environment entries) =
      (lookup key entries).map (resolveValue environment) := by
  induction entries with
  | nil => rfl
  | cons entry rest ih =>
    show lookup key ((entry.1, resolveValue environment entry.2) :: resolveEntries environment rest) = _
    rw [lookup_cons, lookup_cons, ih]
    by_cases hkey : entry.1.sameKey key = true
    · rw [if_pos hkey, if_pos hkey]
      rfl
    · rw [if_neg hkey, if_neg hkey]

theorem distinct_resolveEntries (distinct : Distinct entries) :
    Distinct (resolveEntries environment entries) := by
  rw [resolveEntries_eq_map]
  exact List.pairwise_map.mpr distinct

/-! ### The configuration of a document -/

/-- The section of a document is left out, or is a mapping. -/
def IsSection (document : Value) (group : String) : Prop :=
  ∀ value, valueAt? [group] document = some value → ∃ own, value = .mapping own

/-- The bytes are those of a file with the document. -/
def Holds (bytes : List UInt8) (document : Value) : Prop :=
  ∃ text, readText bytes = .ok text ∧ Yaml.read text = .ok document

/-- No mapping of a document has a key twice. -/
theorem Holds.distinct {bytes : List UInt8} {document : Value} (holds : Holds bytes document) :
    Distinct (entriesOf (some document)) ∧
      ∀ key own, (key, Value.mapping own) ∈ entriesOf (some document) → Distinct own := by
  obtain ⟨text, -, hread⟩ := holds
  cases document with
  | scalar s => exact ⟨List.Pairwise.nil, fun key own hmem => absurd hmem List.not_mem_nil⟩
  | list items => exact ⟨List.Pairwise.nil, fun key own hmem => absurd hmem List.not_mem_nil⟩
  | mapping entries => exact Yaml.distinct_read hread

/-- A document that is loaded is laid over the defaults, with its references resolved. -/
theorem load_eq {bytes : List UInt8} {document config : Value} (holds : Holds bytes document)
    (h : load environment (.file bytes) = .ok config) :
    config = .mapping (overlayEntries (entriesOf (some defaults))
      (resolveEntries environment (entriesOf (some document)))) := by
  obtain ⟨text, htext, hread⟩ := holds
  obtain ⟨text', htext', h⟩ := bind_eq_ok.mp h
  obtain ⟨document', hread', h⟩ := bind_eq_ok.mp h
  obtain rfl := Except.ok.inj (htext.symm.trans (mapError_eq_ok.mp htext'))
  obtain rfl := Except.ok.inj (hread.symm.trans (mapError_eq_ok.mp hread'))
  unfold ofDocument at h
  split at h
  · exact (Except.ok.inj h).symm
  · split at h
    · cases h
    · exact (Except.ok.inj h).symm
  · cases h

section Loaded

variable {bytes : List UInt8} {document config : Value} {group key : String}

theorem get?_eq_lookup (document : Value) (key : String) :
    document.get? key = lookup (.text key) (entriesOf (some document)) := by
  cases document <;> rfl

/-- A section of what was loaded: that of the document, laid over the default one. -/
theorem section_loaded (holds : Holds bytes document)
    (h : load environment (.file bytes) = .ok config) (group : String) :
    config.get? group =
      match document.get? group with
      | some value => some (overlay (defaults.get? group) (resolveValue environment value))
      | none => defaults.get? group := by
  rw [load_eq holds h, get?_eq_lookup, get?_eq_lookup document, get?_eq_lookup defaults]
  show lookup (.text group) (overlayEntries _ _) = _
  rw [lookup_overlayEntries (distinct_resolveEntries holds.distinct.1), lookup_resolveEntries]
  cases lookup (.text group) (entriesOf (some document)) <;> rfl

/-- The settings of a section, with texts as keys and no parts in their values. -/
structure AreSettings (settings : List (Scalar × Value)) : Prop where
  keys : ∀ entry ∈ settings, ∃ s, entry.1 = .text s
  values : ∀ entry ∈ settings, ∃ s, entry.2 = .scalar s

/-- Every section of the defaults has such settings. -/
theorem section_defaults {value : Value} (h : defaults.get? group = some value) :
    ∃ settings, value = .mapping settings ∧ AreSettings settings := by
  have hmem := mem_of_lookup h
  simp only [mappingOf, List.map_cons, List.map_nil, List.mem_cons, Prod.mk.injEq, List.not_mem_nil,
    or_false] at hmem
  rcases hmem with ⟨-, rfl⟩ | ⟨-, rfl⟩ | ⟨-, rfl⟩
  · exact ⟨_, rfl, by simp, by simp⟩
  · exact ⟨_, rfl, by simp, by simp⟩
  · exact ⟨_, rfl, by simp, by simp⟩

/-- A key that is new among the texts is new among all keys that are texts. -/
theorem lookup_eq_none_of_texts (hkeys : ∀ entry ∈ entries, ∃ s, entry.1 = .text s) {key : Scalar}
    (h : ∀ s, key = .text s → lookup (.text s) entries = none) : lookup key entries = none := by
  refine lookup_eq_none_iff.mpr fun entry hmem => ?_
  obtain ⟨s, hs⟩ := hkeys entry hmem
  rw [hs, text_sameKey, decide_eq_false_iff_not]
  intro hkey
  have hnone := lookup_eq_none_iff.mp (h s hkey.symm) entry hmem
  rw [hs, sameKey_text, decide_eq_false_iff_not] at hnone
  exact hnone rfl

/-- No section of a document has a key twice. -/
theorem Holds.distinct_section {own : List (Scalar × Value)} (holds : Holds bytes document)
    (hown : document.get? group = some (.mapping own)) : Distinct own := by
  rw [get?_eq_lookup] at hown
  exact holds.distinct.2 _ own (mem_of_lookup hown)

/-- A setting that has a default has the value of the document, or else its default. -/
theorem setting_loaded (holds : Holds bytes document) (h : load environment (.file bytes) = .ok config)
    (hsection : IsSection document group) {default : Value}
    (hdefault : valueAt? [group, key] defaults = some default) :
    valueAt? [group, key] config =
      some (((valueAt? [group, key] document).map (resolveValue environment)).getD default) := by
  have hloaded := section_loaded holds h group
  rw [valueAt?_two] at hdefault
  obtain ⟨value, hgroup, hkey⟩ := Option.bind_eq_some_iff.mp hdefault
  obtain ⟨settings, rfl, hsettings⟩ := section_defaults hgroup
  rw [valueAt?_two, valueAt?_two]
  cases hown : document.get? group with
  | none =>
    rw [hown, hgroup] at hloaded
    rw [hloaded]
    exact hkey
  | some value =>
    obtain ⟨own, rfl⟩ := hsection value ((valueAt?_one document group).trans hown)
    rw [hown, hgroup] at hloaded
    rw [hloaded]
    show lookup (.text key) (overlayEntries settings (resolveEntries environment own)) =
      some (((lookup (.text key) own).map (resolveValue environment)).getD default)
    rw [lookup_overlayEntries (distinct_resolveEntries (holds.distinct_section hown)),
      lookup_resolveEntries]
    cases hfound : lookup (.text key) own with
    | none => exact hkey
    | some found =>
      -- A default is no mapping, so what the document gives takes its place.
      obtain ⟨s, hs⟩ := hsettings.values _ (mem_of_lookup hkey)
      obtain rfl : default = .scalar s := hs
      have hold : lookup (.text key) settings = some (.scalar s) := hkey
      simp [hold]

/-- What a section of the document adds is kept. -/
theorem added_loaded (holds : Holds bytes document) (h : load environment (.file bytes) = .ok config)
    {own : List (Scalar × Value)} (hown : valueAt? [group] document = some (.mapping own)) :
    ∃ loaded, valueAt? [group] config = some (.mapping loaded) ∧
      ∀ entry ∈ own, (∀ s, entry.1 = .text s → valueAt? [group, s] defaults = none) →
        (entry.1, resolveValue environment entry.2) ∈ loaded := by
  have hloaded := section_loaded holds h group
  rw [valueAt?_one] at hown ⊢
  rw [hown] at hloaded
  have hmem : ∀ entry ∈ own, (entry.1, resolveValue environment entry.2) ∈
      resolveEntries environment own := by
    intro entry hentry
    rw [resolveEntries_eq_map]
    exact List.mem_map.mpr ⟨entry, hentry, rfl⟩
  cases hgroup : defaults.get? group with
  | none =>
    rw [hgroup] at hloaded
    exact ⟨_, hloaded, fun entry hentry _ => hmem entry hentry⟩
  | some value =>
    obtain ⟨settings, rfl, hsettings⟩ := section_defaults hgroup
    rw [hgroup] at hloaded
    refine ⟨_, hloaded, fun entry hentry hnew => ?_⟩
    have hdistinct : Distinct (resolveEntries environment own) :=
      distinct_resolveEntries (holds.distinct_section hown)
    refine mem_overlayEntries_of_new hdistinct (hmem entry hentry) ?_
    refine lookup_eq_none_of_texts hsettings.keys fun s hs => ?_
    have hnone := hnew s hs
    rw [valueAt?_two, hgroup] at hnone
    exact hnone

/-- What the document adds beside the sections of the defaults is kept. -/
theorem section_added (holds : Holds bytes document) (h : load environment (.file bytes) = .ok config)
    {entry : Scalar × Value} (hmem : entry ∈ entriesOf (some document))
    (hnew : ∀ s, entry.1 = .text s → valueAt? [s] defaults = none) :
    (entry.1, resolveValue environment entry.2) ∈ entriesOf (some config) := by
  rw [load_eq holds h]
  refine mem_overlayEntries_of_new (distinct_resolveEntries holds.distinct.1) ?_ ?_
  · rw [resolveEntries_eq_map]
    exact List.mem_map.mpr ⟨entry, hmem, rfl⟩
  · refine lookup_eq_none_of_texts (by simp [defaults, mappingOf, entriesOf]) fun s hs => ?_
    have hnone := hnew s hs
    rw [valueAt?_one, get?_eq_lookup] at hnone
    exact hnone

end Loaded

/-- **The defaults fill in what a file leaves out.**  Each setting that has a default has the value that
the document gives it, with its references resolved, or else its default, as long as its section is left out
or is a mapping; and all that the document adds is kept, within the sections and beside them. -/
theorem defaults_fill_in (environment : Environment) (bytes : List UInt8) (document config : Value)
    (holds : Holds bytes document) (loaded : load environment (.file bytes) = .ok config) :
    (∀ group key default, IsSection document group → valueAt? [group, key] defaults = some default →
      valueAt? [group, key] config =
        some (((valueAt? [group, key] document).map (resolveValue environment)).getD default)) ∧
    (∀ group own, valueAt? [group] document = some (.mapping own) →
      ∃ loaded, valueAt? [group] config = some (.mapping loaded) ∧
        ∀ entry ∈ own, (∀ s, entry.1 = .text s → valueAt? [group, s] defaults = none) →
          (entry.1, resolveValue environment entry.2) ∈ loaded) ∧
    (∀ entry ∈ entriesOf (some document), (∀ s, entry.1 = .text s → valueAt? [s] defaults = none) →
      (entry.1, resolveValue environment entry.2) ∈ entriesOf (some config)) := by
  refine ⟨fun group key default hsection hdefault => ?_, fun group own hown => ?_,
    fun entry hmem hnew => ?_⟩
  · exact setting_loaded holds loaded hsection hdefault
  · exact added_loaded holds loaded hown
  · exact section_added holds loaded hmem hnew

/-- The text of a file with a reference, a setting that the defaults do not have, and a section of that
kind. -/
def smallText : List Char := "engine:\n  work_directory: $\x7bHOME\x7d/work\n  tries: 3\nnotes: [a]\n".toList

/-- The document of that file. -/
def smallDocument : Value :=
  mappingOf [("engine", mappingOf [("work_directory", .text "$\x7bHOME\x7d/work"), ("tries", .int 3)]),
    ("notes", .list [.text "a"])]

/-- What is loaded of it where the home of the user is set. -/
def smallConfig : Value :=
  mappingOf [
    ("migration", (defaults.get? "migration").getD .null),
    ("engine", mappingOf [("work_directory", .text "/home/u/work"), ("cache_enabled", .bool false),
      ("parser_override", .null), ("tries", .int 3)]),
    ("logging", (defaults.get? "logging").getD .null),
    ("notes", .list [.text "a"])]

/-- The environment in which the home of the user is set. -/
def homeSet : Environment := fun name => if name = "HOME".toList then some "/home/u".toList else none

theorem small_holds : Holds (Utf8.encode smallText) smallDocument :=
  ⟨smallText, toOption_eq_some.mp (by decide +kernel), toOption_eq_some.mp (by decide +kernel)⟩

theorem small_defaults_fill_in :
    Holds (Utf8.encode smallText) smallDocument ∧
    load homeSet (.file (Utf8.encode smallText)) = .ok smallConfig ∧
    valueAt? ["engine", "cache_enabled"] smallConfig =
      some (((valueAt? ["engine", "cache_enabled"] smallDocument).map (resolveValue homeSet)).getD
        (.bool false)) := by
  have hload : load homeSet (.file (Utf8.encode smallText)) = .ok smallConfig :=
    toOption_eq_some.mp (by decide +kernel)
  refine ⟨small_holds, hload, ?_⟩
  have hfills := defaults_fill_in homeSet _ _ _ small_holds hload
  refine hfills.1 "engine" "cache_enabled" (.bool false) ?_ (by decide +kernel)
  intro value hvalue
  exact ⟨_, (Option.some.inj hvalue).symm⟩

/-- A file whose section holds nothing. -/
def emptySection : List UInt8 := Utf8.encode "engine:\n".toList

/-- A section that holds nothing takes the defaults of the section away. -/
theorem empty_section_has_no_defaults :
    Holds emptySection (mappingOf [("engine", .null)]) ∧
    valueAt? ["engine", "work_directory"] defaults = some (.text "./target") ∧
    ∃ config, load (fun _ => none) (.file emptySection) = .ok config ∧
      valueAt? ["engine", "work_directory"] config = none := by
  refine ⟨⟨"engine:\n".toList, toOption_eq_some.mp (by decide +kernel),
    toOption_eq_some.mp (by decide +kernel)⟩, by decide +kernel, ?_⟩
  refine ⟨mappingOf [
    ("migration", (defaults.get? "migration").getD .null),
    ("engine", .null),
    ("logging", (defaults.get? "logging").getD .null)], toOption_eq_some.mp (by decide +kernel), ?_⟩
  decide +kernel

end WikiMigration.Config
