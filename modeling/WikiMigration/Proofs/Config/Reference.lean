/-
The references of a configuration are resolved in one reading.

A reference begins with a dollar sign, and no other character of it is one, so two references never overlap, and
none begins before a place and ends behind it where a dollar sign stands.  That is why a text can be cut at any of
its references: what stands in front of it and what stands behind it are resolved as if they stood alone, and the
value of the variable stands between the two as it is, whatever it looks like and whatever it stands next to.

In a value only the texts at its ends are resolved.  Its outline, which is the value with these texts left blank,
stays the same, with all keys and all other scalars; outline and texts together make up the value.
-/
import Mathlib.Data.List.Forall2
import WikiMigration.Config.Reference
import WikiMigration.Proofs.Text.Lines
import WikiMigration.Proofs.Text.Scan

namespace WikiMigration.Config

open Text Data

variable {environment : Environment} {text front behind name result : List Char} {n : Nat}

/-! ### References -/

/-- The text is the name of a variable: a letter or a low line, and then letters, digits and low lines. -/
def IsVariable (name : List Char) : Prop :=
  (∃ c ∈ name.head?, startsName c = true) ∧ ∀ c ∈ name, isNameChar c = true

/-- The reference to a variable. -/
def referenceTo (name : List Char) : List Char := "$\x7b".toList ++ name ++ "\x7d".toList

/-- The text has a reference to a variable that is set. -/
def RefersToSet (environment : Environment) (text : List Char) : Prop :=
  ∃ name value, IsVariable name ∧ environment name = some value ∧ referenceTo name <:+: text

theorem length_referenceTo (name : List Char) : (referenceTo name).length = name.length + 3 := by
  simp [referenceTo]

theorem referenceTo_append (name behind : List Char) :
    referenceTo name ++ behind = '$' :: '\x7b' :: (name ++ '\x7d' :: behind) := by
  simp [referenceTo]

theorem takeWhile_name (hname : IsVariable name) (behind : List Char) :
    (name ++ '\x7d' :: behind).takeWhile isNameChar = name :=
  takeWhile_front hname.2 fun _ hc => Option.some.inj hc ▸ rfl

/-- A reference is read where one stands, and nowhere else. -/
theorem reference?_eq_some :
    reference? text = some (name, n) ↔ IsVariable name ∧ n = name.length + 3 ∧ referenceTo name <+: text := by
  constructor
  · intro h
    unfold reference? at h
    split at h
    next rest =>
      dsimp only at h
      split at h
      next hreads =>
        obtain ⟨rfl, rfl⟩ := Prod.mk.inj (Option.some.inj h)
        rw [Bool.and_eq_true, beq_iff_eq] at hreads
        obtain ⟨hstarts, hends⟩ := hreads
        refine ⟨⟨?_, fun c hc => List.mem_takeWhile_imp hc⟩, rfl, ?_⟩
        · cases hhead : (rest.takeWhile isNameChar).head? with
          | none =>
            rw [hhead] at hstarts
            cases hstarts
          | some c =>
            rw [hhead] at hstarts
            exact ⟨c, rfl, hstarts⟩
        · obtain ⟨more, hmore⟩ := List.head?_eq_some_iff.mp hends
          refine ⟨more, ?_⟩
          rw [referenceTo_append, ← hmore, drop_takeWhile, List.takeWhile_append_dropWhile]
      next => cases h
    next => cases h
  · rintro ⟨hname, rfl, behind, rfl⟩
    rw [referenceTo_append]
    simp only [reference?, takeWhile_name hname, List.drop_left]
    obtain ⟨⟨c, hc, hstarts⟩, -⟩ := hname
    rw [Option.mem_def] at hc
    rw [hc, if_pos (by simp [hstarts])]

/-- A reference has no dollar sign but its first character. -/
theorem not_mem_tail_referenceTo (hname : IsVariable name) : '$' ∉ (referenceTo name).tail := by
  have hnone : '$' ∉ name := fun h => absurd (hname.2 '$' h) (by decide)
  simpa [referenceTo] using hnone

/-- A reference that starts in front of a dollar sign ends in front of it. -/
theorem prefix_of_prefix_append (hname : IsVariable name) (hfront : front ≠ [])
    (h : referenceTo name <+: front ++ '$' :: behind) : referenceTo name <+: front := by
  rcases List.prefix_or_prefix_of_prefix h (List.prefix_append front _) with hwithin | ⟨rest, hrest⟩
  · exact hwithin
  · obtain ⟨c, others, rfl⟩ := List.exists_cons_of_ne_nil hfront
    cases rest with
    | nil =>
      rw [List.append_nil] at hrest
      exact hrest ▸ List.prefix_rfl
    | cons d more =>
      obtain ⟨last, hlast⟩ := h
      rw [← hrest, List.append_assoc] at hlast
      obtain ⟨rfl, -⟩ := List.cons.inj (List.append_cancel_left hlast)
      refine absurd ?_ (not_mem_tail_referenceTo hname)
      rw [← hrest]
      simp

/-! ### Cutting a text at a reference -/

/-- What stands in front of a reference is scanned as if it stood alone. -/
theorem reference?_append (hfront : front ≠ []) (behind : List Char) :
    reference? (front ++ '$' :: behind) = reference? front := by
  refine Option.ext fun found => ?_
  obtain ⟨name, n⟩ := found
  rw [reference?_eq_some, reference?_eq_some]
  constructor
  · rintro ⟨hname, hlength, hprefix⟩
    exact ⟨hname, hlength, prefix_of_prefix_append hname hfront hprefix⟩
  · rintro ⟨hname, hlength, hprefix⟩
    exact ⟨hname, hlength, hprefix.trans (List.prefix_append _ _)⟩

theorem parts_referenceTo (hname : IsVariable name) (behind : List Char) :
    parts reference? (referenceTo name ++ behind) = .found name :: parts reference? behind := by
  have hread : reference? (referenceTo name ++ behind) = some (name, name.length + 2 + 1) :=
    reference?_eq_some.mpr ⟨hname, rfl, List.prefix_append _ _⟩
  rw [referenceTo_append] at hread ⊢
  rw [parts_of_some hread]
  simp

/-- **A text is resolved part by part.**  At each of its references it can be cut: the value of the variable stands
between what the two parts are resolved to, and the reference itself if the variable is not set. -/
theorem resolveText_reference (environment : Environment) (hname : IsVariable name) (front behind : List Char) :
    resolveText environment (front ++ referenceTo name ++ behind) =
      resolveText environment front ++ (environment name).getD (referenceTo name) ++ resolveText environment behind := by
  have hcut : parts reference? (front ++ (referenceTo name ++ behind)) =
      parts reference? front ++ parts reference? (referenceTo name ++ behind) := by
    refine parts_append (fun text name n hread => ?_) fun rest _ hrest => ?_
    · obtain ⟨-, rfl, hprefix⟩ := reference?_eq_some.mp hread
      have hlength := hprefix.length_le
      rw [length_referenceTo] at hlength
      omega
    · rw [referenceTo_append]
      exact reference?_append hrest _
  rw [List.append_assoc, resolveText, substitute, hcut, parts_referenceTo hname, List.flatMap_append,
    List.flatMap_cons, List.append_assoc]
  rfl

/-- A text that refers to nothing that is set stays. -/
theorem resolveText_eq_self (h : ¬RefersToSet environment text) : resolveText environment text = text := by
  induction hlength : text.length using Nat.strongRecOn generalizing text with
  | _ length ih =>
    subst hlength
    cases text with
    | nil => rfl
    | cons c rest =>
      cases hread : reference? (c :: rest) with
      | none =>
        have hrest : ¬RefersToSet environment rest := fun ⟨name, value, hname, hset, hinfix⟩ =>
          h ⟨name, value, hname, hset, hinfix.trans (List.suffix_cons c rest).isInfix⟩
        rw [resolveText, substitute_of_none hread]
        exact congrArg (c :: ·) (ih rest.length (Nat.lt_succ_self _) hrest rfl)
      | some found =>
        obtain ⟨name, n⟩ := found
        obtain ⟨hname, -, behind, hbehind⟩ := reference?_eq_some.mp hread
        rw [← hbehind] at h ⊢
        have hunset : environment name = none := by
          cases hset : environment name with
          | none => rfl
          | some value => exact absurd ⟨name, value, hname, hset, (List.prefix_append _ _).isInfix⟩ h
        have hrest : ¬RefersToSet environment behind := fun ⟨name, value, hname, hset, hinfix⟩ =>
          h ⟨name, value, hname, hset, hinfix.trans (List.suffix_append _ _).isInfix⟩
        have hshorter : behind.length < (c :: rest).length := by
          rw [← hbehind, List.length_append, length_referenceTo]
          omega
        have hcut := resolveText_reference environment hname [] behind
        rw [hunset, ih _ hshorter hrest rfl] at hcut
        exact hcut

/-! ### Reading from left to right -/

/-- What a text is read as, once and from left to right: up to the first reference to a variable that is set all
stays, the value of the variable stands in the place of the reference, and the reading goes on behind it. -/
inductive Resolves (environment : Environment) : List Char → List Char → Prop
  | kept {text : List Char} (unset : ¬RefersToSet environment text) : Resolves environment text text
  | replaced {front name value behind result : List Char} (unset : ¬RefersToSet environment front)
      (isName : IsVariable name) (set : environment name = some value)
      (rest : Resolves environment behind result) :
      Resolves environment (front ++ referenceTo name ++ behind) (front ++ value ++ result)

theorem not_refersToSet_nil (environment : Environment) : ¬RefersToSet environment [] := by
  rintro ⟨name, value, -, -, hinfix⟩
  have hlength := hinfix.length_le
  rw [length_referenceTo] at hlength
  cases hlength

theorem Resolves.eq (h : Resolves environment text result) : result = resolveText environment text := by
  induction h with
  | kept unset => exact (resolveText_eq_self unset).symm
  | replaced unset isName set _ ih =>
    rw [resolveText_reference environment isName, resolveText_eq_self unset, set, ← ih]
    rfl

/-- A character with which no reference to a set variable begins is passed over. -/
theorem Resolves.cons {c : Char} (h : Resolves environment text result)
    (hnone : ∀ name value, IsVariable name → environment name = some value → ¬referenceTo name <+: c :: text) :
    Resolves environment (c :: text) (c :: result) := by
  have hkept : ∀ {front}, front <+: text → ¬RefersToSet environment front → ¬RefersToSet environment (c :: front) := by
    rintro front hfront unset ⟨name, value, hname, hset, hinfix⟩
    rcases List.infix_cons_iff.mp hinfix with hreads | hinfix
    · exact hnone name value hname hset (hreads.trans (List.cons_prefix_cons.mpr ⟨rfl, hfront⟩))
    · exact unset ⟨name, value, hname, hset, hinfix⟩
  cases h with
  | kept unset => exact .kept (hkept List.prefix_rfl unset)
  | replaced unset isName set rest =>
    rw [List.append_assoc] at hkept
    exact .replaced (hkept (List.prefix_append _ _) unset) isName set rest

/-- Every text can be read. -/
theorem exists_resolves (environment : Environment) (text : List Char) : ∃ result, Resolves environment text result := by
  induction hlength : text.length using Nat.strongRecOn generalizing text with
  | _ length ih =>
    subst hlength
    cases text with
    | nil => exact ⟨[], .kept (not_refersToSet_nil environment)⟩
    | cons c rest =>
      by_cases hfirst : ∃ name value, IsVariable name ∧ environment name = some value ∧ referenceTo name <+: c :: rest
      · obtain ⟨name, value, hname, hset, behind, hbehind⟩ := hfirst
        have hshorter : behind.length < (c :: rest).length := by
          rw [← hbehind, List.length_append, length_referenceTo]
          omega
        obtain ⟨result, hresult⟩ := ih _ hshorter behind rfl
        rw [← hbehind]
        exact ⟨_, Resolves.replaced (not_refersToSet_nil environment) hname hset hresult⟩
      · obtain ⟨result, hresult⟩ := ih rest.length (Nat.lt_succ_self _) rest rfl
        exact ⟨c :: result, hresult.cons fun name value hname hset hprefix =>
          hfirst ⟨name, value, hname, hset, hprefix⟩⟩

theorem resolves_iff : Resolves environment text result ↔ result = resolveText environment text := by
  refine ⟨Resolves.eq, ?_⟩
  rintro rfl
  obtain ⟨result, hresult⟩ := exists_resolves environment text
  exact hresult.eq ▸ hresult

/-! ### Values -/

mutual

/-- The value with all its texts left blank. -/
def outline : Value → Value
  | .scalar (.text _) => .text ""
  | .scalar s => .scalar s
  | .list items => .list (outlineItems items)
  | .mapping entries => .mapping (outlineEntries entries)

/-- The items with all their texts left blank. -/
def outlineItems : List Value → List Value
  | [] => []
  | item :: rest => outline item :: outlineItems rest

/-- The entries with all texts of their values left blank. -/
def outlineEntries : List (Scalar × Value) → List (Scalar × Value)
  | [] => []
  | (key, value) :: rest => (key, outline value) :: outlineEntries rest

end

mutual

/-- The texts of a value, in order; keys are none of them. -/
def textsOf : Value → List String
  | .scalar (.text s) => [s]
  | .scalar _ => []
  | .list items => textsOfItems items
  | .mapping entries => textsOfEntries entries

/-- The texts of items. -/
def textsOfItems : List Value → List String
  | [] => []
  | item :: rest => textsOf item ++ textsOfItems rest

/-- The texts of the values of entries. -/
def textsOfEntries : List (Scalar × Value) → List String
  | [] => []
  | (_, value) :: rest => textsOf value ++ textsOfEntries rest

end

mutual

theorem outline_resolveValue (environment : Environment) :
    ∀ value : Value, outline (resolveValue environment value) = outline value
  | .scalar s => by cases s <;> rfl
  | .list items => congrArg Value.list (outline_resolveItems environment items)
  | .mapping entries => congrArg Value.mapping (outline_resolveEntries environment entries)

theorem outline_resolveItems (environment : Environment) :
    ∀ items : List Value, outlineItems (resolveItems environment items) = outlineItems items
  | [] => rfl
  | item :: rest => congrArg₂ List.cons (outline_resolveValue environment item) (outline_resolveItems environment rest)

theorem outline_resolveEntries (environment : Environment) :
    ∀ entries : List (Scalar × Value), outlineEntries (resolveEntries environment entries) = outlineEntries entries
  | [] => rfl
  | (key, value) :: rest =>
    congrArg₂ (fun value rest => (key, value) :: rest) (outline_resolveValue environment value)
      (outline_resolveEntries environment rest)

end

/-- The text of a string that is resolved. -/
def resolveString (environment : Environment) (s : String) : String :=
  String.ofList (resolveText environment s.toList)

mutual

theorem textsOf_resolveValue (environment : Environment) :
    ∀ value : Value, textsOf (resolveValue environment value) = (textsOf value).map (resolveString environment)
  | .scalar s => by cases s <;> rfl
  | .list items => textsOf_resolveItems environment items
  | .mapping entries => textsOf_resolveEntries environment entries

theorem textsOf_resolveItems (environment : Environment) : ∀ items : List Value,
    textsOfItems (resolveItems environment items) = (textsOfItems items).map (resolveString environment)
  | [] => rfl
  | item :: rest => by
    simp only [resolveItems, textsOfItems, List.map_append, textsOf_resolveValue environment item,
      textsOf_resolveItems environment rest]

theorem textsOf_resolveEntries (environment : Environment) : ∀ entries : List (Scalar × Value),
    textsOfEntries (resolveEntries environment entries) = (textsOfEntries entries).map (resolveString environment)
  | [] => rfl
  | (key, value) :: rest => by
    simp only [resolveEntries, textsOfEntries, List.map_append, textsOf_resolveValue environment value,
      textsOf_resolveEntries environment rest]

end

mutual

theorem length_textsOf_outline : ∀ value : Value, (textsOf (outline value)).length = (textsOf value).length
  | .scalar s => by cases s <;> rfl
  | .list items => length_textsOf_outlineItems items
  | .mapping entries => length_textsOf_outlineEntries entries

theorem length_textsOf_outlineItems :
    ∀ items : List Value, (textsOfItems (outlineItems items)).length = (textsOfItems items).length
  | [] => rfl
  | item :: rest => by
    simp only [outlineItems, textsOfItems, List.length_append, length_textsOf_outline item,
      length_textsOf_outlineItems rest]

theorem length_textsOf_outlineEntries : ∀ entries : List (Scalar × Value),
    (textsOfEntries (outlineEntries entries)).length = (textsOfEntries entries).length
  | [] => rfl
  | (key, value) :: rest => by
    simp only [outlineEntries, textsOfEntries, List.length_append, length_textsOf_outline value,
      length_textsOf_outlineEntries rest]

end

/-- Values with one outline have as many texts as each other. -/
theorem length_textsOf_eq {value other : Value} (h : outline value = outline other) :
    (textsOf value).length = (textsOf other).length := by
  rw [← length_textsOf_outline value, h, length_textsOf_outline]

mutual

/-- A value is made up of its outline and its texts. -/
theorem eq_of_outline : ∀ {value other : Value}, outline value = outline other → textsOf value = textsOf other →
    value = other
  | .scalar s, other, houtline, htexts => by
    cases other with
    | scalar t => cases s <;> cases t <;> simp_all [outline, textsOf]
    | list items => cases s <;> simp [outline] at houtline
    | mapping entries => cases s <;> simp [outline] at houtline
  | .list items, other, houtline, htexts => by
    cases other with
    | scalar t => cases t <;> simp [outline] at houtline
    | list others => exact congrArg Value.list (items_eq_of_outline (Value.list.inj houtline) htexts)
    | mapping entries => simp [outline] at houtline
  | .mapping entries, other, houtline, htexts => by
    cases other with
    | scalar t => cases t <;> simp [outline] at houtline
    | list items => simp [outline] at houtline
    | mapping others => exact congrArg Value.mapping (entries_eq_of_outline (Value.mapping.inj houtline) htexts)

theorem items_eq_of_outline : ∀ {items others : List Value}, outlineItems items = outlineItems others →
    textsOfItems items = textsOfItems others → items = others
  | [], [], _, _ => rfl
  | [], _ :: _, houtline, _ => by cases houtline
  | _ :: _, [], houtline, _ => by cases houtline
  | item :: rest, other :: others, houtline, htexts => by
    obtain ⟨hfirst, hrest⟩ := List.cons.inj houtline
    obtain ⟨hfirst', hrest'⟩ := List.append_inj htexts (length_textsOf_eq hfirst)
    rw [eq_of_outline hfirst hfirst', items_eq_of_outline hrest hrest']

theorem entries_eq_of_outline : ∀ {entries others : List (Scalar × Value)},
    outlineEntries entries = outlineEntries others → textsOfEntries entries = textsOfEntries others → entries = others
  | [], [], _, _ => rfl
  | [], (_, _) :: _, houtline, _ => by cases houtline
  | (_, _) :: _, [], houtline, _ => by cases houtline
  | (key, value) :: rest, (key', value') :: others, houtline, htexts => by
    obtain ⟨hfirst, hrest⟩ := List.cons.inj houtline
    obtain ⟨rfl, hvalue⟩ := Prod.mk.inj hfirst
    obtain ⟨hvalue', hrest'⟩ := List.append_inj htexts (length_textsOf_eq hvalue)
    rw [eq_of_outline hvalue hvalue', entries_eq_of_outline hrest hrest']

end

/-- Texts that are read one by one are texts that are resolved one by one. -/
theorem forall₂_resolves_iff {texts others : List String} :
    List.Forall₂ (fun s t => Resolves environment s.toList t.toList) texts others ↔
      others = texts.map (resolveString environment) := by
  have hone : ∀ s t : String, Resolves environment s.toList t.toList ↔ t = resolveString environment s := by
    intro s t
    rw [resolves_iff, resolveString, String.ext_iff, String.toList_ofList]
  constructor
  · intro h
    induction h with
    | nil => rfl
    | cons hfirst _ ih => rw [List.map_cons, (hone _ _).mp hfirst, ih]
  · rintro rfl
    induction texts with
    | nil => exact .nil
    | cons s rest ih => exact .cons ((hone s _).mpr rfl) ih

/-- **The references of a value are resolved in one reading.**  What a value becomes is the value with its outline in
which each text has become what it is read as, once and from left to right; no other value is.  A text can be cut at
each of its references: the value of the variable, or the reference itself if the variable is not set, stands between
what the parts become, and is not read again.  A text without a reference to a variable that is set stays. -/
theorem references_resolved_once (environment : Environment) :
    (∀ value other : Value, other = resolveValue environment value ↔
      outline other = outline value ∧
        List.Forall₂ (fun s t => Resolves environment s.toList t.toList) (textsOf value) (textsOf other)) ∧
    (∀ front name behind, IsVariable name →
      resolveText environment (front ++ referenceTo name ++ behind) =
        resolveText environment front ++ (environment name).getD (referenceTo name) ++
          resolveText environment behind) ∧
    ∀ text, ¬RefersToSet environment text → resolveText environment text = text := by
  refine ⟨fun value other => ?_, fun front name behind hname => resolveText_reference environment hname front behind,
    fun text => resolveText_eq_self⟩
  rw [forall₂_resolves_iff, ← textsOf_resolveValue, ← outline_resolveValue environment value]
  constructor
  · rintro rfl
    exact ⟨rfl, rfl⟩
  · rintro ⟨houtline, htexts⟩
    exact eq_of_outline houtline htexts

/-- The value of a variable looks like a reference, alone and with what stands around it. -/
example :
    resolveText (fun name => if name = ['A'] then some "${B}$".toList else if name = ['B'] then some ['b'] else none)
      "$${A}{B} ${B}${C}${1x}${a-b}$\x7b".toList =
      "$${B}${B} b${C}${1x}${a-b}$\x7b".toList := by decide

end WikiMigration.Config
