/-
Which configurations are accepted.

The settings are checked one after the other, and each check asks one thing of the value that the setting holds; a
setting that is not there holds null, whatever stands in the place of its section.  So a configuration is accepted
exactly if every setting is as it should be, and otherwise the first check that fails is the error, which names a
setting that is wrong.

The language and the override of the renderer should be a language code and the path of a class as a whole.  The
checks pass over a line feed at their end, so a configuration in which one stands there is accepted as well; it is
the only thing that is accepted and should not be.
-/
import WikiMigration.Config.Check
import WikiMigration.Proofs.Action
import WikiMigration.Proofs.Config.Arguments
import WikiMigration.Proofs.Text.Lines

namespace WikiMigration.Config

open Text Data

variable {config : Value} {text : List Char}

/-! ### The forms of texts -/

/-- The text is a language code: two or three small letters, with a low line and two capitals behind them or without. -/
def IsLanguageCode (text : List Char) : Prop :=
  ∃ letters region, text = letters ++ region ∧ (letters.length = 2 ∨ letters.length = 3) ∧
    (∀ c ∈ letters, c.isLower = true) ∧
    (region = [] ∨ ∃ a b, region = ['_', a, b] ∧ a.isUpper = true ∧ b.isUpper = true)

/-- The text is the path of a class: names with dots between them, and behind a dot or a colon the last name. -/
def IsClassPath (text : List Char) : Prop :=
  ∃ names joint last, text = joinWith ['.'] names ++ joint :: last ∧ names ≠ [] ∧
    (∀ name ∈ names, Rendering.isName name = true) ∧ (joint = '.' ∨ joint = ':') ∧ Rendering.isName last = true

/-- The text is of the form, or is with a line feed behind it. -/
def OrLineFeed (form : List Char → Prop) (text : List Char) : Prop :=
  form text ∨ ∃ front, text = front ++ ['\n'] ∧ form front

theorem orLineFeed_iff {p : List Char → Bool} {form : List Char → Prop} (h : ∀ text, p text = true ↔ form text) :
    (p text || match text.reverse with
      | '\n' :: rest => p rest.reverse
      | _ => false) = true ↔ OrLineFeed form text := by
  rw [Bool.or_eq_true, OrLineFeed, h]
  refine or_congr_right ?_
  constructor
  · intro hread
    split at hread
    next rest hrest =>
      refine ⟨rest.reverse, ?_, (h _).mp hread⟩
      rw [← List.reverse_reverse text, hrest, List.reverse_cons]
    next => cases hread
  · rintro ⟨front, rfl, hfront⟩
    rw [List.reverse_append, List.reverse_singleton, List.singleton_append]
    simpa using (h front).mpr hfront

theorem isLanguageName_iff : isLanguageName text = true ↔ IsLanguageCode text := by
  constructor
  · intro h
    unfold isLanguageName at h
    rw [Bool.and_eq_true, Bool.or_eq_true, Bool.or_eq_true, beq_iff_eq, beq_iff_eq] at h
    obtain ⟨hlength, hregion⟩ := h
    refine ⟨text.takeWhile Char.isLower, text.drop (text.takeWhile Char.isLower).length, ?_, hlength,
      fun c hc => List.mem_takeWhile_imp hc, ?_⟩
    · rw [drop_takeWhile, List.takeWhile_append_dropWhile]
    · rcases hregion with hempty | hcapitals
      · exact Or.inl (List.isEmpty_iff.mp hempty)
      · split at hcapitals
        next a b hregion => exact Or.inr ⟨a, b, hregion, Bool.and_eq_true_iff.mp hcapitals⟩
        next => cases hcapitals
  · rintro ⟨letters, region, rfl, hlength, hletters, hregion⟩
    have hends : ∀ c ∈ region.head?, c.isLower = false := by
      rcases hregion with rfl | ⟨a, b, rfl, -⟩
      · exact fun c hc => by cases hc
      · exact fun c hc => by
          obtain rfl := Option.some.inj hc
          decide
    unfold isLanguageName
    simp only [takeWhile_front hletters hends, List.drop_left, Bool.and_eq_true, Bool.or_eq_true, beq_iff_eq]
    refine ⟨hlength, ?_⟩
    rcases hregion with rfl | ⟨a, b, rfl, ha, hb⟩
    · exact Or.inl rfl
    · exact Or.inr (Bool.and_eq_true_iff.mpr ⟨ha, hb⟩)

theorem isLanguage_iff : isLanguage text = true ↔ OrLineFeed IsLanguageCode text :=
  orLineFeed_iff fun _ => isLanguageName_iff

/-! ### Paths of classes -/

/-- A name holds neither a dot nor a colon. -/
theorem not_mem_name {name : List Char} (h : Rendering.isName name = true) {c : Char} (hc : c = '.' ∨ c = ':') :
    c ∉ name := by
  cases name with
  | nil => cases h
  | cons first rest =>
    rw [Rendering.isName, Bool.and_eq_true, List.all_eq_true] at h
    intro hmem
    rcases List.mem_cons.mp hmem with rfl | hmem
    · rcases hc with rfl | rfl <;> exact absurd h.1 (by decide)
    · have hword := h.2 c hmem
      rcases hc with rfl | rfl <;> exact absurd hword (by decide)

theorem not_mem_dotted {names : List (List Char)} (h : ∀ name ∈ names, Rendering.isName name = true) :
    ':' ∉ joinWith ['.'] names := by
  intro hmem
  rcases mem_joinWith hmem with hdot | ⟨name, hname, hmem⟩
  · exact absurd hdot (by decide)
  · exact not_mem_name (h name hname) (Or.inr rfl) hmem

theorem dottedNames?_eq_some {names : List (List Char)} :
    Rendering.dottedNames? text = some names ↔
      text = joinWith ['.'] names ∧ names ≠ [] ∧ ∀ name ∈ names, Rendering.isName name = true := by
  unfold Rendering.dottedNames?
  constructor
  · intro h
    dsimp only at h
    split at h
    next hnames =>
      obtain rfl := Option.some.inj h
      exact ⟨(joinWith_splitAt '.' text).symm, splitAt_ne_nil '.' text, List.all_eq_true.mp hnames⟩
    next => cases h
  · rintro ⟨rfl, hne, hnames⟩
    have hsplit := splitAt_joinWith hne fun name hname => not_mem_name (hnames name hname) (Or.inl rfl)
    simp only [hsplit]
    exact if_pos (List.all_eq_true.mpr hnames)

theorem joinWith_concat (mark last : List Char) {names : List (List Char)} (hne : names ≠ []) :
    joinWith mark (names ++ [last]) = joinWith mark names ++ mark ++ last := by
  induction names with
  | nil => exact absurd rfl hne
  | cons name rest ih =>
    by_cases hrest : rest = []
    · subst hrest
      rfl
    · rw [List.cons_append, joinWith_cons _ _ (by simp), ih hrest, joinWith_cons _ _ hrest]
      simp only [List.append_assoc]

/-- With a colon the class stands behind it. -/
theorem isOverridePath_colon {names : List (List Char)} {last : List Char} (hne : names ≠ [])
    (hall : ∀ name ∈ names, Rendering.isName name = true) :
    Rendering.isOverridePath (joinWith ['.'] names ++ ':' :: last) = Rendering.isName last := by
  have hdotted := dottedNames?_eq_some.mpr ⟨rfl, hne, hall⟩
  unfold Rendering.isOverridePath
  simp only [cut?_append (not_mem_dotted hall), hdotted]
  rfl

/-- Without one the path has two names at least. -/
theorem isOverridePath_dotted {names : List (List Char)} (hne : names ≠ [])
    (hall : ∀ name ∈ names, Rendering.isName name = true) :
    Rendering.isOverridePath (joinWith ['.'] names) = decide (2 ≤ names.length) := by
  have hcut : cut? [':'] (joinWith ['.'] names) = none :=
    cut?_eq_none.mpr fun hwithin => not_mem_dotted hall (hwithin.subset List.mem_cons_self)
  have hdotted := dottedNames?_eq_some.mpr ⟨rfl, hne, hall⟩
  unfold Rendering.isOverridePath
  simp only [hcut, hdotted]

theorem isClassPath_of_isOverridePath (h : Rendering.isOverridePath text = true) : IsClassPath text := by
  unfold Rendering.isOverridePath at h
  split at h
  next front last hcut =>
    rw [Bool.and_eq_true, Option.isSome_iff_exists] at h
    obtain ⟨⟨names, hnames⟩, hlast⟩ := h
    obtain ⟨rfl, hne, hall⟩ := dottedNames?_eq_some.mp hnames
    exact ⟨names, ':', last, by rw [cut?_eq_some hcut, List.append_assoc]; rfl, hne, hall, Or.inr rfl, hlast⟩
  next =>
    split at h
    next names hnames =>
      obtain ⟨rfl, -, hall⟩ := dottedNames?_eq_some.mp hnames
      have hlength : 2 ≤ names.length := of_decide_eq_true h
      obtain ⟨front, last, rfl⟩ := List.eq_nil_or_concat names |>.resolve_left (by rintro rfl; cases hlength)
      rw [List.concat_eq_append] at hall hlength ⊢
      rw [List.forall_mem_append] at hall
      have hne : front ≠ [] := by
        rintro rfl
        exact absurd hlength (by simp)
      exact ⟨front, '.', last, by rw [joinWith_concat _ _ hne, List.append_assoc]; rfl, hne, hall.1, Or.inl rfl,
        hall.2 last List.mem_cons_self⟩
    next => cases h

theorem isOverridePath_iff : Rendering.isOverridePath text = true ↔ IsClassPath text := by
  refine ⟨isClassPath_of_isOverridePath, ?_⟩
  rintro ⟨names, joint, last, rfl, hne, hall, hjoint, hlast⟩
  rcases hjoint with rfl | rfl
  · have hpath : joinWith ['.'] names ++ '.' :: last = joinWith ['.'] (names ++ [last]) := by
      rw [joinWith_concat _ _ hne, List.append_assoc]
      rfl
    have hnames : ∀ name ∈ names ++ [last], Rendering.isName name = true :=
      List.forall_mem_append.mpr ⟨hall, by simpa using hlast⟩
    have hpos := List.length_pos_iff.mpr hne
    rw [hpath, isOverridePath_dotted (by simp) hnames, decide_eq_true_eq, List.length_append,
      List.length_singleton]
    omega
  · rw [isOverridePath_colon hne hall, hlast]

theorem isOverride_iff : Rendering.isOverride text = true ↔ OrLineFeed IsClassPath text :=
  orLineFeed_iff fun _ => isOverridePath_iff

/-! ### Valid configurations -/

/-- The settings that must be given. -/
def requiredSettings : List Setting := [.sourceDirectory, .targetDirectory, .language, .workDirectory]

/-- The settings that are dialects. -/
def dialectSettings : List Setting := [.sourceDialect, .targetDialect]

/-- The settings that are truth values. -/
def flagSettings : List Setting := [.cleanTarget, .dryRun, .verifyAttachments, .progressBars, .cacheEnabled]

/-- The value is neither null nor the empty text, and no text with the beginning of a reference. -/
structure IsFilled (value : Value) : Prop where
  notNull : value ≠ .null
  notEmpty : value ≠ .text ""
  resolved : ∀ s, value = .text s → ¬"$\x7b".toList <:+: s.toList

/-- The value is a text of the form. -/
def IsTextOf (form : List Char → Prop) (value : Value) : Prop := ∃ s, value = .text s ∧ form s.toList

/-- The value is the name of a dialect. -/
def IsDialect (value : Value) : Prop := ∃ dialect : Dialect, value = .text dialect.name

/-- The value is a truth value. -/
def IsFlag (value : Value) : Prop := ∃ b, value = .bool b

/-- The upper case of the value, as a text, is the name of a level. -/
def IsLevel (value : Value) : Prop := ∃ level : Log.Level, upper value.toText.toList = level.name.toList

/-- Every setting is as it should be, for a form of languages and a form of overrides. -/
structure IsValid (isLanguage isOverride : List Char → Prop) (config : Value) : Prop where
  required : ∀ setting ∈ requiredSettings, IsFilled (setting.value config)
  language : IsTextOf isLanguage (Setting.language.value config)
  dialects : ∀ setting ∈ dialectSettings, IsDialect (setting.value config)
  flags : ∀ setting ∈ flagSettings, IsFlag (setting.value config)
  override : Setting.parserOverride.value config = .null ∨ IsTextOf isOverride (Setting.parserOverride.value config)
  level : Setting.logLevel.value config = .null ∨ IsLevel (Setting.logLevel.value config)

/-! ### Faults -/

/-- The setting that a fault is about. -/
def Fault.setting : Fault → Setting
  | .missing setting => setting
  | .unresolved setting _ => setting
  | .notLanguage _ => .language
  | .notDialect setting => setting
  | .notBoolean setting => setting
  | .notOverride _ => .parserOverride
  | .notLevel => .logLevel

/-- What the fault says is so. -/
def Fault.IsIn (config : Value) : Fault → Prop
  | .missing setting =>
    setting ∈ requiredSettings ∧ (setting.value config = .null ∨ setting.value config = .text "")
  | .unresolved setting s =>
    setting ∈ requiredSettings ∧ setting.value config = .text s ∧ "$\x7b".toList <:+: s.toList
  | .notLanguage value =>
    value = Setting.language.value config ∧ ¬IsTextOf (OrLineFeed IsLanguageCode) value
  | .notDialect setting => setting ∈ dialectSettings ∧ ¬IsDialect (setting.value config)
  | .notBoolean setting => setting ∈ flagSettings ∧ ¬IsFlag (setting.value config)
  | .notOverride value =>
    value = Setting.parserOverride.value config ∧ value ≠ .null ∧ ¬IsTextOf (OrLineFeed IsClassPath) value
  | .notLevel => Setting.logLevel.value config ≠ .null ∧ ¬IsLevel (Setting.logLevel.value config)

theorem infix_append_left {s t : String} (h : s.toList <:+: t.toList) (u : String) :
    s.toList <:+: (t ++ u).toList := by
  rw [String.toList_append]
  exact h.trans (List.prefix_append _ _).isInfix

theorem infix_append_right (t s : String) : s.toList <:+: (t ++ s).toList := by
  rw [String.toList_append]
  exact (List.suffix_append _ _).isInfix

/-- The message of a fault names the setting that it is about. -/
theorem text_infix_message (fault : Fault) : fault.setting.text.toList <:+: fault.message.toList := by
  cases fault with
  | missing setting => exact infix_append_right _ _
  | unresolved setting s =>
    have hfront := infix_append_left (infix_append_right "Configuration field '" setting.text)
      "' contains unsubstituted environment variable: "
    exact infix_append_left (infix_append_left (infix_append_left (infix_append_left hfront _) _) _) _
  | notLanguage value => exact infix_append_left (s := Setting.language.text) (by decide) _
  | notDialect setting => exact infix_append_left (infix_append_left List.infix_rfl _) _
  | notBoolean setting => exact infix_append_left List.infix_rfl _
  | notOverride value => exact infix_append_left (s := Setting.parserOverride.text) (by decide) _
  | notLevel => exact infix_append_left (by decide) _

/-! ### Checks -/

/-- A check passes exactly if what it asks for is so, and otherwise tells what is wrong. -/
structure Checks (config : Value) (check : Check) (isSo : Prop) : Prop where
  passes : check = .ok () ↔ isSo
  tells : ∀ fault, check = .error fault → fault.IsIn config

variable {setting : Setting} {settings : List Setting} {fault : Fault} {first second : Check} {isSo isSo' : Prop}

theorem checks_ok (config : Value) (h : isSo) : Checks config (.ok ()) isSo where
  passes := iff_of_true rfl h
  tells _ herror := by cases herror

theorem checks_error (h : ¬isSo) (hfault : fault.IsIn config) : Checks config (.error fault) isSo where
  passes := iff_of_false (by simp) h
  tells _ herror := Except.error.inj herror ▸ hfault

theorem checks_ite {b : Bool} (h : b = true ↔ isSo) (hfault : ¬isSo → fault.IsIn config) :
    Checks config (if b then .ok () else .error fault) isSo := by
  split
  next hb => exact checks_ok config (h.mp hb)
  next hb => exact checks_error (fun hso => hb (h.mpr hso)) (hfault fun hso => hb (h.mpr hso))

/-- Two checks, one after the other. -/
theorem Checks.bind (h : Checks config first isSo) (h' : Checks config second isSo') :
    Checks config (first >>= fun _ => second) (isSo ∧ isSo') where
  passes := by
    rw [bind_eq_ok, ← h.passes, ← h'.passes]
    exact ⟨fun ⟨_, hfirst, hsecond⟩ => ⟨hfirst, hsecond⟩, fun ⟨hfirst, hsecond⟩ => ⟨(), hfirst, hsecond⟩⟩
  tells fault herror := by
    rcases bind_eq_error.mp herror with hfirst | ⟨_, -, hsecond⟩
    · exact h.tells fault hfirst
    · exact h'.tells fault hsecond

/-- A check of some settings, one after the other. -/
theorem checks_forM {check : Setting → Check} {isFit : Value → Prop}
    (h : ∀ setting ∈ settings, Checks config (check setting) (isFit (setting.value config))) :
    Checks config (settings.forM check) (∀ setting ∈ settings, isFit (setting.value config)) where
  passes := forM_eq_ok.trans (forall₂_congr fun setting hmem => (h setting hmem).passes)
  tells fault herror := by
    obtain ⟨setting, hmem, hsetting⟩ := mem_of_forM_eq_error herror
    exact (h setting hmem).tells fault hsetting

/-! ### The checks of the settings -/

theorem isTextOf_text {form : List Char → Prop} {s : String} : IsTextOf form (.text s) ↔ form s.toList := by
  constructor
  · rintro ⟨t, ht, hform⟩
    obtain rfl : s = t := by simpa using ht
    exact hform
  · exact fun hform => ⟨s, rfl, hform⟩

theorem checkGiven_checks (config : Value) (hmem : setting ∈ requiredSettings) :
    Checks config (checkGiven config setting) (IsFilled (setting.value config)) := by
  unfold checkGiven
  split
  next hvalue => exact checks_error (fun h => h.notNull hvalue) ⟨hmem, Or.inl hvalue⟩
  next s hvalue =>
    rw [hvalue]
    split
    next hempty =>
      obtain rfl : s = "" := by simpa using hempty
      exact checks_error (fun h => h.notEmpty rfl) ⟨hmem, Or.inr hvalue⟩
    next hempty =>
      split
      next hrefers =>
        have hinfix := hasInfix_iff.mp hrefers
        exact checks_error (fun h => h.resolved s rfl hinfix) ⟨hmem, hvalue, hinfix⟩
      next hrefers =>
        refine checks_ok config ⟨by simp, by simpa using hempty, fun t ht hinfix => hrefers ?_⟩
        obtain rfl : s = t := by simpa using ht
        exact hasInfix_iff.mpr hinfix
  next hnull htext => exact checks_ok config ⟨hnull, htext "", fun s hs => absurd hs (htext s)⟩

theorem checkLanguage_checks (config : Value) :
    Checks config (checkLanguage config)
      (IsTextOf (OrLineFeed IsLanguageCode) (Setting.language.value config)) := by
  unfold checkLanguage
  split
  next s hvalue =>
    rw [hvalue, isTextOf_text]
    exact checks_ite isLanguage_iff fun hnot => ⟨hvalue.symm, fun h => hnot (isTextOf_text.mp h)⟩
  next hother =>
    have hnot : ¬IsTextOf (OrLineFeed IsLanguageCode) (Setting.language.value config) :=
      fun ⟨s, hs, _⟩ => hother s hs
    exact checks_error hnot ⟨rfl, hnot⟩

theorem isSome_ofName?_iff {s : String} : (Dialect.ofName? s).isSome = true ↔ IsDialect (.text s) := by
  simp only [Dialect.ofName?, List.find?_isSome, beq_iff_eq, IsDialect]
  constructor
  · rintro ⟨dialect, -, hname⟩
    exact ⟨dialect, by rw [hname]⟩
  · rintro ⟨dialect, hname⟩
    exact ⟨dialect, by cases dialect <;> decide, by simpa using hname.symm⟩

theorem checkDialect_checks (config : Value) (hmem : setting ∈ dialectSettings) :
    Checks config (checkDialect config setting) (IsDialect (setting.value config)) := by
  unfold checkDialect
  split
  next s hvalue =>
    rw [hvalue]
    exact checks_ite isSome_ofName?_iff fun hnot => ⟨hmem, hvalue ▸ hnot⟩
  next hother =>
    have hnot : ¬IsDialect (setting.value config) := fun ⟨dialect, hdialect⟩ => hother dialect.name hdialect
    exact checks_error hnot ⟨hmem, hnot⟩

theorem checkBoolean_checks (config : Value) (hmem : setting ∈ flagSettings) :
    Checks config (checkBoolean config setting) (IsFlag (setting.value config)) := by
  unfold checkBoolean
  split
  next b hvalue => exact checks_ok config ⟨b, hvalue⟩
  next hother =>
    have hnot : ¬IsFlag (setting.value config) := fun ⟨b, hb⟩ => hother b hb
    exact checks_error hnot ⟨hmem, hnot⟩

theorem checkOverride_checks (config : Value) :
    Checks config (checkOverride config) (Setting.parserOverride.value config = .null ∨
      IsTextOf (OrLineFeed IsClassPath) (Setting.parserOverride.value config)) := by
  unfold checkOverride
  split
  next hvalue => exact checks_ok config (Or.inl hvalue)
  next s hvalue =>
    rw [hvalue, isTextOf_text]
    refine checks_ite (isOverride_iff.trans (by simp)) fun hnot => ?_
    exact ⟨hvalue.symm, by simp, fun h => hnot (Or.inr (isTextOf_text.mp h))⟩
  next hnull hother =>
    have hnot : ¬IsTextOf (OrLineFeed IsClassPath) (Setting.parserOverride.value config) :=
      fun ⟨s, hs, _⟩ => hother s hs
    exact checks_error (not_or.mpr ⟨hnull, hnot⟩) ⟨rfl, hnull, hnot⟩

theorem isSome_ofAnyCase?_iff {value : Value} : (Log.Level.ofAnyCase? value.toText).isSome = true ↔ IsLevel value := by
  simp only [Log.Level.ofAnyCase?, Log.Level.ofName?, List.find?_isSome, beq_iff_eq, IsLevel, String.ext_iff,
    String.toList_ofList]
  constructor
  · rintro ⟨level, -, hname⟩
    exact ⟨level, hname.symm⟩
  · rintro ⟨level, hname⟩
    exact ⟨level, by cases level <;> decide, hname.symm⟩

theorem checkLevel_checks (config : Value) :
    Checks config (checkLevel config) (Setting.logLevel.value config = .null ∨
      IsLevel (Setting.logLevel.value config)) := by
  unfold checkLevel
  split
  next hvalue => exact checks_ok config (Or.inl hvalue)
  next hnull =>
    refine checks_ite (isSome_ofAnyCase?_iff.trans (or_iff_right hnull).symm) fun hnot => ?_
    exact ⟨hnull, fun h => hnot (Or.inr h)⟩

/-- The whole check asks for every setting what it should be. -/
theorem check_checks (config : Value) :
    Checks config (check config) (IsValid (OrLineFeed IsLanguageCode) (OrLineFeed IsClassPath) config) := by
  -- The directory to work in is asked for behind the flags, apart from the other settings that must be given.
  have hfront : ∀ setting ∈ [Setting.sourceDirectory, .targetDirectory, .language], setting ∈ requiredSettings := by
    decide
  have hsplit : ∀ setting ∈ requiredSettings,
      setting ∈ [Setting.sourceDirectory, .targetDirectory, .language] ∨ setting = .workDirectory := by
    decide
  have hall := (checks_forM fun setting hmem => checkGiven_checks config (hfront setting hmem)).bind <|
    (checkLanguage_checks config).bind <|
    (checks_forM fun setting hmem => checkDialect_checks config hmem).bind <|
    (checks_forM fun setting hmem => checkBoolean_checks config hmem).bind <|
    (checkGiven_checks config (show Setting.workDirectory ∈ requiredSettings by decide)).bind <|
    (checkOverride_checks config).bind (checkLevel_checks config)
  refine ⟨hall.passes.trans ?_, hall.tells⟩
  constructor
  · rintro ⟨hgiven, hlanguage, hdialects, hflags, hwork, hoverride, hlevel⟩
    refine ⟨fun setting hmem => ?_, hlanguage, hdialects, hflags, hoverride, hlevel⟩
    rcases hsplit setting hmem with hmem | rfl
    · exact hgiven setting hmem
    · exact hwork
  · rintro ⟨hgiven, hlanguage, hdialects, hflags, hoverride, hlevel⟩
    exact ⟨fun setting hmem => hgiven setting (hfront setting hmem), hlanguage, hdialects, hflags,
      hgiven .workDirectory (by decide), hoverride, hlevel⟩

/-! ### What is accepted -/

/-- The text ends with a line feed. -/
def EndsLine (text : List Char) : Prop := ∃ front, text = front ++ ['\n']

theorem orLineFeed_iff_of_not_endsLine {form : List Char → Prop} (h : ¬EndsLine text) :
    OrLineFeed form text ↔ form text :=
  ⟨fun hform => hform.resolve_right fun ⟨front, hfront, _⟩ => h ⟨front, hfront⟩, Or.inl⟩

/-- Where neither the language nor the override ends with a line feed, none is passed over. -/
theorem isValid_iff_of_not_endsLine
    (hlanguage : ∀ s, Setting.language.value config = .text s → ¬EndsLine s.toList)
    (hoverride : ∀ s, Setting.parserOverride.value config = .text s → ¬EndsLine s.toList) :
    IsValid (OrLineFeed IsLanguageCode) (OrLineFeed IsClassPath) config ↔ IsValid IsLanguageCode IsClassPath config := by
  have hform : ∀ {form : List Char → Prop} {value : Value}, (∀ s, value = .text s → ¬EndsLine s.toList) →
      (IsTextOf (OrLineFeed form) value ↔ IsTextOf form value) := fun hvalue =>
    exists_congr fun s => and_congr_right fun hs => orLineFeed_iff_of_not_endsLine (hvalue s hs)
  constructor
  · intro h
    exact ⟨h.required, (hform hlanguage).mp h.language, h.dialects, h.flags, h.override.imp_right (hform hoverride).mp,
      h.level⟩
  · intro h
    exact ⟨h.required, (hform hlanguage).mpr h.language, h.dialects, h.flags,
      h.override.imp_right (hform hoverride).mpr, h.level⟩

/-- **Which configurations are accepted.**  A configuration is accepted exactly if every setting of it is as it should
be, up to a line feed at the end of the language and of the override; so where these do not end with one, exactly the
valid configurations are accepted.  Every other configuration is refused with an error of the configuration that
belongs to no page: its message names a setting, and what it says of the setting is so. -/
theorem accepted_iff_valid (config : Value) :
    (check config = .ok () ↔ IsValid (OrLineFeed IsLanguageCode) (OrLineFeed IsClassPath) config) ∧
    ((∀ s, Setting.language.value config = .text s → ¬EndsLine s.toList) →
      (∀ s, Setting.parserOverride.value config = .text s → ¬EndsLine s.toList) →
      (check config = .ok () ↔ IsValid IsLanguageCode IsClassPath config)) ∧
    ∀ fault, check config = .error fault →
      fault.error.kind = .configuration ∧ fault.error.page = none ∧
        fault.setting.text.toList <:+: fault.error.message.toList ∧ fault.IsIn config := by
  have hchecks := check_checks config
  refine ⟨hchecks.passes, fun hlanguage hoverride => ?_, fun fault herror => ?_⟩
  · exact hchecks.passes.trans (isValid_iff_of_not_endsLine hlanguage hoverride)
  · exact ⟨rfl, rfl, text_infix_message fault, hchecks.tells fault herror⟩

/-- The defaults with a source, a target and a language. -/
def configurationFor (language : String) : Value :=
  .mapping <| Setting.language.assign (.text language) <| Setting.targetDirectory.assign (.text "md/de") <|
    Setting.sourceDirectory.assign (.text "wiki/de") <| entriesOf (some defaults)

/-- A line feed behind the language is passed over, although the language is no language code then. -/
theorem language_with_line_feed_accepted :
    check (configurationFor "de\n") = .ok () ∧ ¬IsValid IsLanguageCode IsClassPath (configurationFor "de\n") := by
  refine ⟨toOption_eq_some.mp (by decide +kernel), fun h => ?_⟩
  obtain ⟨s, hs, hcode⟩ := h.language
  have hlanguage : Setting.language.value (configurationFor "de\n") = .text "de\n" := by decide +kernel
  obtain rfl : s = "de\n" := by simpa [hlanguage] using hs.symm
  exact absurd (isLanguageName_iff.mpr hcode) (by decide)

end WikiMigration.Config
