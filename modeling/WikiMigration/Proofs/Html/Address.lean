/-
Which addresses are read back as names.

An address of the wiki engine is looked for at the front of a text and behind each slash of its first line,
whatever stands before the slash.  The name that is read from it is shorter than the text, so a text stays as it
is exactly if no address of the engine is found in it.  All of this is told for texts with no line feed in their
section, if they have one; on one line, the search looks behind every slash.
-/
import WikiMigration.Html.Clean
import WikiMigration.Proofs.Text.Lines
import WikiMigration.Proofs.Url.Percent

namespace WikiMigration.Html

open Text

variable {α : Type} {read : List Char → Option α} {p : List Char → Bool} {text rest : List Char} {c : Char}

/-! ### Where an address starts -/

/-- Whether something behind a slash of the text passes the test. -/
def anyBehindSlash (p : List Char → Bool) : List Char → Bool
  | [] => false
  | c :: rest => (c == '/' && p rest) || anyBehindSlash p rest

/-- Whether the address of a page starts at the front of the text, with a name in it. -/
def startsPage (text : List Char) : Bool :=
  pageMarks.any fun mark => (after? mark text).any fun rest => rest.head?.any fun c => c != '&' && c != '#'

/-- Whether the address of an attachment starts at the front of the text, with a path in it. -/
def startsAttachment (text : List Char) : Bool :=
  (after? "attach/".toList text).any fun rest => rest.head?.any fun c => c != '?' && c != '#'

/-- Whether an address of the engine starts at the front of the text or behind a slash of it. -/
def holdsAddress (text : List Char) : Bool :=
  (startsPage text || anyBehindSlash startsPage text)
    || (startsAttachment text || anyBehindSlash startsAttachment text)

theorem isEmpty_takeWhile (p : Char → Bool) (text : List Char) :
    (text.takeWhile p).isEmpty = !(text.head?.any p) := by
  cases text with
  | nil => rfl
  | cons c rest =>
    rw [List.head?_cons, Option.any_some]
    cases hc : p c with
    | true => simp [hc]
    | false => simp [hc]

/-- Something that passes the test starts at the front of the text or behind a slash of its first line. -/
def StartsIn (p : List Char → Bool) (text : List Char) : Prop :=
  p text = true ∨ ∃ front rest, text = front ++ '/' :: rest ∧ '\n' ∉ front ∧ p rest = true

/-- An address of the engine starts at the front of the text or behind a slash of its first line. -/
def HasAddress (text : List Char) : Prop := StartsIn startsPage text ∨ StartsIn startsAttachment text

/-- The section of a text, with the sign before it. -/
def sectionOf (text : List Char) : List Char := text.dropWhile (· != '#')

theorem not_mem_sectionOf (h : c ∉ sectionOf text) (hsuffix : rest <:+ text) : c ∉ sectionOf rest := by
  obtain ⟨front, rfl⟩ := hsuffix
  rw [sectionOf, List.dropWhile_append] at h
  split at h
  · exact h
  · exact fun hmem => h (List.mem_append_right _ ((List.dropWhile_sublist _).subset hmem))

theorem isSome_pageRest? (h : '\n' ∉ sectionOf rest) :
    (pageRest? rest).isSome = rest.head?.any fun c => c != '&' && c != '#' := by
  have hfeed : ∀ n, '\n' ∉ ((rest.drop n).dropWhile (· != '#')).dropLast := fun n hmem =>
    not_mem_sectionOf h (List.drop_suffix n rest) (List.dropLast_subset _ hmem)
  simp only [pageRest?, isEmpty_takeWhile, List.contains_eq_mem, hfeed, decide_false, Bool.false_eq_true, if_false]
  cases rest.head?.any fun c => c != '&' && c != '#' <;> rfl

theorem isSome_pageAtFront? (h : '\n' ∉ sectionOf text) : (pageAtFront? text).isSome = startsPage text := by
  have hmark : ∀ mark, ((after? mark text).bind pageRest?).isSome
      = (after? mark text).any fun rest => rest.head?.any fun c => c != '&' && c != '#' := by
    intro mark
    cases hafter : after? mark text with
    | none => rfl
    | some rest => exact isSome_pageRest? (not_mem_sectionOf h ⟨mark, (after?_eq_some.mp hafter).symm⟩)
  rw [Bool.eq_iff_iff, pageAtFront?, List.isSome_findSome?, startsPage]
  simp only [hmark]

theorem isSome_attachmentAtFront? (text : List Char) :
    (attachmentAtFront? text).isSome = startsAttachment text := by
  unfold attachmentAtFront? startsAttachment
  cases after? "attach/".toList text with
  | none => rfl
  | some rest =>
    simp only [isEmpty_takeWhile, Option.any_some]
    cases rest.head?.any fun c => c != '?' && c != '#' <;> rfl

/-- Behind a slash something is read exactly if something can be, as far as the first line goes. -/
theorem isSome_behindLastSlash? (hread : ∀ rest, rest <:+ text → (read rest).isSome = p rest) :
    (behindLastSlash? read text).isSome = true
      ↔ ∃ front rest, text = front ++ '/' :: rest ∧ '\n' ∉ front ∧ p rest = true := by
  induction text with
  | nil => simp [behindLastSlash?]
  | cons c more ih =>
    have hmore := ih fun rest hsuffix => hread rest (hsuffix.trans (List.suffix_cons c more))
    have hfound : (behindLastSlash? read (c :: more)).isSome = true
        ↔ c ≠ '\n' ∧ ((behindLastSlash? read more).isSome = true ∨ c = '/' ∧ p more = true) := by
      rw [behindLastSlash?, ← hread more (List.suffix_cons c more)]
      cases behindLastSlash? read more <;> by_cases hfeed : c = '\n' <;> by_cases hslash : c = '/' <;>
        simp [hfeed, hslash]
    rw [hfound, hmore]
    constructor
    · rintro ⟨hfeed, ⟨front, rest, rfl, hfront, hrest⟩ | ⟨rfl, hrest⟩⟩
      · exact ⟨c :: front, rest, rfl, by simp [Ne.symm hfeed, hfront], hrest⟩
      · exact ⟨[], more, rfl, by simp, hrest⟩
    · rintro ⟨front, rest, heq, hfront, hrest⟩
      cases front with
      | nil =>
        obtain ⟨rfl, rfl⟩ := List.cons.inj heq
        exact ⟨by decide, Or.inr ⟨rfl, hrest⟩⟩
      | cons first front =>
        obtain ⟨rfl, rfl⟩ := List.cons.inj heq
        rw [List.mem_cons, not_or] at hfront
        exact ⟨Ne.symm hfront.1, Or.inl ⟨front, rest, rfl, hfront.2, hrest⟩⟩

theorem isSome_readAddress? (hread : ∀ rest, rest <:+ text → (read rest).isSome = p rest) :
    (readAddress? read text).isSome = true ↔ StartsIn p text := by
  rw [StartsIn, ← isSome_behindLastSlash? hread, ← hread text List.suffix_rfl, readAddress?]
  cases behindLastSlash? read text <;> simp

theorem anyBehindSlash_iff :
    anyBehindSlash p text = true ↔ ∃ front rest, text = front ++ '/' :: rest ∧ p rest = true := by
  induction text with
  | nil => simp [anyBehindSlash]
  | cons c more ih =>
    simp only [anyBehindSlash, Bool.or_eq_true, Bool.and_eq_true, beq_iff_eq, ih]
    constructor
    · rintro (⟨rfl, hrest⟩ | ⟨front, rest, rfl, hrest⟩)
      · exact ⟨[], more, rfl, hrest⟩
      · exact ⟨c :: front, rest, rfl, hrest⟩
    · rintro ⟨front, rest, heq, hrest⟩
      cases front with
      | nil =>
        obtain ⟨rfl, rfl⟩ := List.cons.inj heq
        exact Or.inl ⟨rfl, hrest⟩
      | cons first front =>
        obtain ⟨rfl, rfl⟩ := List.cons.inj heq
        exact Or.inr ⟨front, rest, rfl, hrest⟩

/-- On one line, what starts in the text is looked for behind every slash. -/
theorem startsIn_iff (h : '\n' ∉ text) : StartsIn p text ↔ (p text || anyBehindSlash p text) = true := by
  rw [Bool.or_eq_true, anyBehindSlash_iff, StartsIn]
  refine or_congr_right ⟨fun ⟨front, rest, heq, _, hrest⟩ => ⟨front, rest, heq, hrest⟩, ?_⟩
  rintro ⟨front, rest, rfl, hrest⟩
  exact ⟨front, rest, rfl, fun hmem => h (List.mem_append_left _ hmem), hrest⟩

theorem hasAddress_iff (h : '\n' ∉ text) : HasAddress text ↔ holdsAddress text = true := by
  rw [HasAddress, startsIn_iff h, startsIn_iff h, ← Bool.or_eq_true]
  rfl

/-! ### What is read -/

theorem suffix_of_behindLastSlash? {a : α} (h : behindLastSlash? read text = some a) :
    ∃ rest, rest <:+ text ∧ read rest = some a := by
  induction text with
  | nil => cases h
  | cons c more ih =>
    rw [behindLastSlash?] at h
    split at h
    · cases h
    split at h
    next b hbehind =>
      obtain rfl := Option.some.inj h
      obtain ⟨rest, hsuffix, hread⟩ := ih hbehind
      exact ⟨rest, hsuffix.trans (List.suffix_cons c more), hread⟩
    next =>
      split at h
      · exact ⟨more, List.suffix_cons c more, h⟩
      · cases h

/-- What is read is read at the front of some end of the text. -/
theorem suffix_of_readAddress? {a : α} (h : readAddress? read text = some a) :
    ∃ rest, rest <:+ text ∧ read rest = some a := by
  rw [readAddress?] at h
  cases hbehind : behindLastSlash? read text with
  | some b =>
    rw [hbehind] at h
    obtain rfl := Option.some.inj h
    exact suffix_of_behindLastSlash? hbehind
  | none =>
    rw [hbehind] at h
    exact ⟨text, List.suffix_rfl, h⟩

theorem length_pageRest? {name section_ : List Char} (h : pageRest? rest = some (name, section_)) :
    name.length + section_.length ≤ rest.length := by
  have hbehind : ∀ n, ((rest.drop n).dropWhile (· != '#')).length ≤ rest.length - n := fun n =>
    (List.dropWhile_sublist _).length_le.trans_eq List.length_drop
  have hname : (rest.takeWhile fun c => c != '&' && c != '#').length ≤ rest.length :=
    (List.takeWhile_sublist _).length_le
  unfold pageRest? at h
  dsimp only at h
  split at h
  · cases h
  split at h
  · cases h
  obtain ⟨rfl, rfl⟩ := Prod.mk.inj (Option.some.inj h)
  have hsection := hbehind (rest.takeWhile fun c => c != '&' && c != '#').length
  split
  · rw [List.length_dropLast]
    omega
  · omega

theorem length_pageAtFront? {name section_ : List Char} (h : pageAtFront? text = some (name, section_)) :
    name.length + section_.length < text.length := by
  obtain ⟨mark, hmark, hfound⟩ := List.exists_of_findSome?_eq_some h
  obtain ⟨rest, hafter, hrest⟩ := Option.bind_eq_some_iff.mp hfound
  have hpos : 0 < mark.length := (by decide : ∀ mark ∈ pageMarks, 0 < mark.length) mark hmark
  have hlength := length_pageRest? hrest
  have htext := length_after? hafter
  omega

theorem length_attachmentAtFront? {path : List Char} (h : attachmentAtFront? text = some path) :
    path.length < text.length := by
  unfold attachmentAtFront? at h
  split at h
  · cases h
  next rest hafter =>
    dsimp only at h
    split at h
    · cases h
    · obtain rfl := Option.some.inj h
      have hpath : (rest.takeWhile fun c => c != '?' && c != '#').length ≤ rest.length :=
        (List.takeWhile_sublist _).length_le
      have htext := length_after? hafter
      have hmark : "attach/".toList.length = 7 := by decide
      omega

/-- **A text with no line feed in its section is returned as it is exactly if it has no address of the engine.** -/
theorem plainName_eq_self_iff_not_hasAddress (h : '\n' ∉ sectionOf text) :
    plainName text = text ↔ ¬HasAddress text := by
  have hpage := isSome_readAddress? fun rest hsuffix => isSome_pageAtFront? (not_mem_sectionOf h hsuffix)
  have hattachment := isSome_readAddress? fun rest (_ : rest <:+ text) => isSome_attachmentAtFront? rest
  have hshorter : ∀ {found : List Char}, found.length < text.length → found ≠ text := fun hlt heq =>
    Nat.ne_of_lt hlt (congrArg List.length heq)
  rw [HasAddress, ← hpage, ← hattachment, plainName]
  cases hread : readAddress? pageAtFront? text with
  | some found =>
    obtain ⟨name, section_⟩ := found
    obtain ⟨rest, hsuffix, hrest⟩ := suffix_of_readAddress? hread
    have hne : Url.decodeQuery name ++ section_ ≠ text := by
      have hname := Url.length_decodeQuery_le name
      have hlength := length_pageAtFront? hrest
      have hle := hsuffix.length_le
      exact hshorter (by rw [List.length_append]; omega)
    simp [hne]
  | none =>
    cases hread' : readAddress? attachmentAtFront? text with
    | some path =>
      obtain ⟨rest, hsuffix, hrest⟩ := suffix_of_readAddress? hread'
      have hne : Url.decode path ≠ text := by
        have hpath := Url.length_decode_le path
        have hlength := length_attachmentAtFront? hrest
        have hle := hsuffix.length_le
        exact hshorter (by omega)
      simp [hne]
    | none => simp

/-- An address on one line is returned as it is exactly if no address of the engine starts in it. -/
theorem plainName_eq_self_iff (h : '\n' ∉ text) : plainName text = text ↔ holdsAddress text = false := by
  rw [plainName_eq_self_iff_not_hasAddress fun hmem => h ((List.dropWhile_sublist _).subset hmem), hasAddress_iff h,
    Bool.not_eq_true]

end WikiMigration.Html
