/-
Renaming the characters that markup takes no notice of.

Reading a page looks at some characters: at letters and digits, at blanks, and at those that markup is
made of.  All others it passes on as they come, the angle brackets, the ampersand and the double quote
among them.  A renaming exchanges only such characters, so reading a renamed text gives the renamed parts:
the same lines are items, rows or headings, and the same cells stand in a row.
-/
import Mathlib.Data.List.TakeWhile
import WikiMigration.Proofs.Url.Percent
import WikiMigration.Wiki.Page

namespace WikiMigration.Wiki

open Text

/-- The characters that markup is made of, besides letters, digits and blanks. -/
def markupChars : List Char := "\x00~[]\x7b\x7d_'!*#|\\%^,-+/():;.?".toList

/-- Whether markup takes no notice of the character. -/
def isInert (c : Char) : Bool :=
  !isWordChar c && !isBlank c && !isDecimal c && !markupChars.contains c

/-- An exchange of inert characters. -/
structure Renaming where
  toFun : Char → Char
  injective : ∀ c d, toFun c = toFun d → c = d
  fixes : ∀ c, isInert c = false → toFun c = c

instance : CoeFun Renaming fun _ => Char → Char := ⟨Renaming.toFun⟩

/-- The text with its characters renamed. -/
def Renaming.text (σ : Renaming) (text : List Char) : List Char := text.map σ

/-! ### Characters -/

theorem isInert_eq_true {c : Char} : isInert c = true ↔
    isWordChar c = false ∧ isBlank c = false ∧ isDecimal c = false ∧ c ∉ markupChars := by
  simp [isInert, and_assoc]

theorem isWordChar_of_isLatin {c : Char} (h : isLatin c = true) : isWordChar c = true := by
  have hascii : c.toNat < 0x80 := by
    have hreserved : Url.isUnreserved c = true := by simp [Url.isUnreserved, h]
    simpa [Url.isAscii] using Url.isAscii_of_isUnreserved hreserved
  simp [isWordChar, isAlphanumeric, hascii, h]

theorem isWordChar_of_isDigit {c : Char} (h : isDigit c = true) : isWordChar c = true := by
  have hascii : c.toNat < 0x80 := by
    have hreserved : Url.isUnreserved c = true := by simp [Url.isUnreserved, h]
    simpa [Url.isAscii] using Url.isAscii_of_isUnreserved hreserved
  simp [isWordChar, isAlphanumeric, hascii, h]

theorem isInert_of_mem {mark : List Char} (hmark : mark.all (fun c => !isInert c) = true) :
    ∀ c ∈ mark, isInert c = false := by
  intro c hc
  simpa using List.all_eq_true.mp hmark c hc

/-- A class of characters that holds no inert one, or all of them. -/
def SeesInert (p : Char → Bool) (b : Bool) : Prop := ∀ c, isInert c = true → p c = b

theorem ne_of_isInert {c d : Char} (hc : isInert c = true) (hd : isInert d = false) : c ≠ d := by
  rintro rfl
  rw [hd] at hc
  cases hc

theorem seesInert_ne {d : Char} (hd : isInert d = false) : SeesInert (· != d) true :=
  fun _ hc => bne_iff_ne.mpr (ne_of_isInert hc hd)

theorem seesInert_beq {d : Char} (hd : isInert d = false) : SeesInert (· == d) false :=
  fun _ hc => beq_eq_false_iff_ne.mpr (ne_of_isInert hc hd)

/-- Nothing of a class that holds no inert character is inert. -/
theorem SeesInert.not_inert {p : Char → Bool} (hp : SeesInert p false) {c : Char} (h : p c = true) :
    isInert c = false := by
  by_contra hne
  rw [hp c (by simpa using hne)] at h
  cases h

theorem SeesInert.or {p q : Char → Bool} (hp : SeesInert p false) (hq : SeesInert q false) :
    SeesInert (fun c => p c || q c) false := fun c hc => by simp [hp c hc, hq c hc]

theorem seesInert_isBlank : SeesInert isBlank false := fun _ hc => (isInert_eq_true.mp hc).2.1

theorem seesInert_isWordChar : SeesInert isWordChar false := fun _ hc => (isInert_eq_true.mp hc).1

theorem seesInert_isDecimal : SeesInert isDecimal false := fun _ hc => (isInert_eq_true.mp hc).2.2.1

/-- A class within one that holds no inert character holds none. -/
theorem SeesInert.of_imp {p q : Char → Bool} (hq : SeesInert q false)
    (h : ∀ c, p c = true → q c = true) : SeesInert p false := by
  intro c hc
  by_contra hne
  have hin := h c (Bool.not_eq_false _ ▸ hne)
  rw [hq c hc] at hin
  cases hin

theorem seesInert_isLatin : SeesInert isLatin false :=
  seesInert_isWordChar.of_imp fun _ => isWordChar_of_isLatin

theorem seesInert_isDigit : SeesInert isDigit false :=
  seesInert_isWordChar.of_imp fun _ => isWordChar_of_isDigit

namespace Renaming

variable {σ : Renaming} {p : Char → Bool} {b : Bool} {c d : Char}

theorem inert (σ : Renaming) (c : Char) : isInert (σ c) = isInert c := by
  by_cases hc : isInert c = true
  · rw [hc]
    by_contra hne
    have hfixed := σ.fixes _ (Bool.eq_false_iff.mpr hne)
    exact hne ((σ.injective _ _ hfixed).symm ▸ hc)
  · rw [σ.fixes c (Bool.eq_false_iff.mpr hc)]

/-- A class that treats all inert characters alike holds a renamed character if it holds the character. -/
theorem class_eq (σ : Renaming) (hp : SeesInert p b) (c : Char) : p (σ c) = p c := by
  by_cases hc : isInert c = true
  · rw [hp c hc, hp (σ c) ((σ.inert c).trans hc)]
  · rw [σ.fixes c (Bool.eq_false_iff.mpr hc)]

/-- A character that markup is made of is what only itself is renamed to. -/
theorem eq_iff (σ : Renaming) (hd : isInert d = false) : σ c = d ↔ c = d := by
  constructor
  · intro h
    exact σ.injective _ _ (h.trans (σ.fixes d hd).symm)
  · rintro rfl
    exact σ.fixes c hd

theorem beq_eq (σ : Renaming) (hd : isInert d = false) : (σ c == d) = (c == d) := by
  rw [Bool.eq_iff_iff, beq_iff_eq, beq_iff_eq, σ.eq_iff hd]

theorem eq_beq (σ : Renaming) (hd : isInert d = false) : (d == σ c) = (d == c) := by
  rw [Bool.beq_comm, σ.beq_eq hd, Bool.beq_comm]

/-! ### Texts -/

variable {text : List Char} {mark : List Char}

@[simp] theorem text_nil (σ : Renaming) : σ.text [] = [] := rfl

@[simp] theorem text_cons (σ : Renaming) (c : Char) (text : List Char) :
    σ.text (c :: text) = σ c :: σ.text text := rfl

theorem takeWhile_text (σ : Renaming) (hp : SeesInert p b) (text : List Char) :
    (σ.text text).takeWhile p = σ.text (text.takeWhile p) := by
  rw [Renaming.text, List.takeWhile_map, Renaming.text]
  congr 2
  exact funext (σ.class_eq hp)

theorem dropWhile_text (σ : Renaming) (hp : SeesInert p b) (text : List Char) :
    (σ.text text).dropWhile p = σ.text (text.dropWhile p) := by
  rw [Renaming.text, List.dropWhile_map, Renaming.text]
  congr 2
  exact funext (σ.class_eq hp)

theorem all_text (σ : Renaming) (hp : SeesInert p b) (text : List Char) :
    (σ.text text).all p = text.all p := by
  rw [Renaming.text, List.all_map]
  congr 1
  exact funext (σ.class_eq hp)

/-- What a class takes of a text takes the same of the renamed one. -/
theorem filter_text (σ : Renaming) (hp : SeesInert p b) (text : List Char) :
    (σ.text text).filter p = σ.text (text.filter p) := by
  rw [Renaming.text, List.filter_map, Renaming.text]
  congr 2
  exact funext (σ.class_eq hp)

@[simp] theorem length_text (σ : Renaming) (text : List Char) :
    (σ.text text).length = text.length := List.length_map ..

@[simp] theorem isEmpty_text (σ : Renaming) (text : List Char) :
    (σ.text text).isEmpty = text.isEmpty := by
  cases text <;> rfl

theorem drop_text (σ : Renaming) (n : Nat) (text : List Char) :
    (σ.text text).drop n = σ.text (text.drop n) := List.map_drop.symm

theorem take_text (σ : Renaming) (n : Nat) (text : List Char) :
    (σ.text text).take n = σ.text (text.take n) := List.map_take.symm

theorem reverse_text (σ : Renaming) (text : List Char) :
    (σ.text text).reverse = σ.text text.reverse := List.map_reverse.symm

theorem append_text (σ : Renaming) (text rest : List Char) :
    σ.text (text ++ rest) = σ.text text ++ σ.text rest := List.map_append

theorem trim_text (σ : Renaming) (text : List Char) : trim (σ.text text) = σ.text (trim text) := by
  simp only [trim, trimWith, trimRightWith, trimLeftWith, σ.dropWhile_text seesInert_isBlank,
    reverse_text]

theorem isBlankText_text (σ : Renaming) (text : List Char) :
    isBlankText (σ.text text) = isBlankText text := σ.all_text seesInert_isBlank text

/-- A text of characters that markup is made of stands for itself. -/
theorem text_eq_self (σ : Renaming) (hmark : ∀ c ∈ mark, isInert c = false) : σ.text mark = mark := by
  rw [Renaming.text]
  exact (List.map_congr_left fun c hc => σ.fixes c (hmark c hc)).trans (List.map_id _)

/-- So does a text of a class that holds no inert character. -/
theorem text_eq_self_of_class (σ : Renaming) (hp : SeesInert p false) (h : ∀ c ∈ text, p c = true) :
    σ.text text = text := σ.text_eq_self fun c hc => hp.not_inert (h c hc)

theorem text_injective (σ : Renaming) {text text' : List Char} (h : σ.text text = σ.text text') :
    text = text' := List.map_injective_iff.mpr (fun c d => σ.injective c d) h

theorem text_eq_iff (σ : Renaming) (hmark : ∀ c ∈ mark, isInert c = false) :
    σ.text text = mark ↔ text = mark := by
  constructor
  · intro h
    exact σ.text_injective (h.trans (σ.text_eq_self hmark).symm)
  · rintro rfl
    exact σ.text_eq_self hmark

theorem text_eq_cons (σ : Renaming) (hd : isInert d = false) {rest : List Char}
    (h : σ.text text = d :: rest) : ∃ rest', text = d :: rest' := by
  cases text with
  | nil => cases h
  | cons c rest' =>
    rw [text_cons, List.cons.injEq] at h
    exact ⟨rest', by rw [(σ.eq_iff hd).mp h.1]⟩

theorem after?_text (σ : Renaming) (hmark : ∀ c ∈ mark, isInert c = false) (text : List Char) :
    after? mark (σ.text text) = (after? mark text).map σ.text := by
  induction mark generalizing text with
  | nil => rfl
  | cons o mark ih =>
    cases text with
    | nil => rfl
    | cons c rest =>
      have hrest := ih (fun d hd => hmark d (by simp [hd])) rest
      rw [text_cons, after?, after?, σ.eq_beq (hmark o (by simp)), hrest]
      split <;> rfl

theorem cut?_text (σ : Renaming) (hmark : ∀ c ∈ mark, isInert c = false) (text : List Char) :
    cut? mark (σ.text text) =
      (cut? mark text).map fun (before, behind) => (σ.text before, σ.text behind) := by
  induction text with
  | nil =>
    rw [text_nil, cut?]
    split <;> rfl
  | cons c rest ih =>
    have hafter := σ.after?_text hmark (c :: rest)
    rw [text_cons] at hafter ⊢
    rw [cut?, cut?, hafter, ih]
    cases after? mark (c :: rest) with
    | some behind => rfl
    | none => cases cut? mark rest <;> rfl

theorem hasInfix_text (σ : Renaming) (hmark : ∀ c ∈ mark, isInert c = false) (text : List Char) :
    hasInfix mark (σ.text text) = hasInfix mark text := by
  rw [hasInfix, σ.cut?_text hmark, Option.isSome_map, hasInfix]

theorem startsWith_text (σ : Renaming) (hmark : ∀ c ∈ mark, isInert c = false) (text : List Char) :
    startsWith mark (σ.text text) = startsWith mark text := by
  rw [startsWith, σ.after?_text hmark, Option.isSome_map, startsWith]

theorem splitAt_text (σ : Renaming) (hd : isInert d = false) (text : List Char) :
    splitAt d (σ.text text) = (splitAt d text).map σ.text := by
  induction text with
  | nil => rfl
  | cons c rest ih =>
    rw [text_cons, splitAt, splitAt, σ.beq_eq hd, ih]
    split
    · rfl
    · cases splitAt d rest <;> rfl

theorem normalizeNewlines_text (σ : Renaming) (text : List Char) :
    normalizeNewlines (σ.text text) = σ.text (normalizeNewlines text) := by
  have hreturn : isInert '\r' = false := by decide
  have hfeed : isInert '\n' = false := by decide
  induction text using normalizeNewlines.induct with
  | case1 => rfl
  | case2 rest ih =>
    rw [text_cons, text_cons, σ.fixes _ hreturn, σ.fixes _ hfeed, normalizeNewlines, ih,
      normalizeNewlines, text_cons, σ.fixes _ hfeed]
  | case3 c rest hnot ih =>
    have hnot' : ∀ rest', σ c = '\r' → σ.text rest = '\n' :: rest' → False := by
      intro rest' hc hrest
      obtain ⟨rest, hrest⟩ := σ.text_eq_cons hfeed hrest
      exact hnot rest ((σ.eq_iff hreturn).mp hc) hrest
    rw [text_cons, normalizeNewlines.eq_3 _ _ hnot', normalizeNewlines.eq_3 _ _ hnot, ih,
      σ.beq_eq hreturn, text_cons]
    congr 1
    split
    · exact (σ.fixes _ hfeed).symm
    · rfl

theorem unlines_text (σ : Renaming) (pieces : List (List Char)) :
    unlines (pieces.map σ.text) = σ.text (unlines pieces) := by
  have hfeed : σ.text ['\n'] = ['\n'] := σ.text_eq_self (isInert_of_mem (by decide))
  unfold unlines
  induction pieces using joinWith.induct with
  | case1 => rfl
  | case2 piece => rfl
  | case3 piece pieces hnot ih =>
    cases pieces with
    | nil => exact absurd rfl hnot
    | cons next pieces =>
      have hjoin : joinWith ['\n'] (piece :: next :: pieces) =
          piece ++ ['\n'] ++ joinWith ['\n'] (next :: pieces) := rfl
      rw [hjoin, append_text, append_text, hfeed, ← ih]
      rfl

end Renaming

/-! ### Lines -/

variable {σ : Renaming}

/-- The kind of a line with the texts in it renamed. -/
def LineKind.renamed (σ : Renaming) : LineKind → LineKind
  | .preformattedOpening first => .preformattedOpening (σ.text first)
  | .styleOpening style => .styleOpening (σ.text style)
  | .heading level title => .heading level (σ.text title)
  | .item kinds content => .item kinds (σ.text content)
  | .definition term meaning => .definition (σ.text term) (σ.text meaning)
  | kind => kind

theorem styleOpening?_text (σ : Renaming) (stripped : List Char) :
    styleOpening? (σ.text stripped) = (styleOpening? stripped).map σ.text := by
  rw [styleOpening?, styleOpening?, σ.after?_text (isInert_of_mem (by decide))]
  cases after? "%%".toList stripped with
  | none => rfl
  | some rest =>
    cases rest with
    | nil => rfl
    | cons c rest =>
      by_cases hc : c = '('
      · subst hc
        have hopen : σ '(' = '(' := σ.fixes _ (by decide)
        have hclose : isInert ')' = false := by decide
        simp only [Option.map_some, Renaming.text_cons, hopen]
        rw [σ.takeWhile_text (seesInert_ne hclose), Renaming.length_text, Renaming.drop_text]
        cases hbehind : rest.drop (rest.takeWhile (· != ')')).length with
        | nil => rfl
        | cons d behind =>
          have hd' : σ d = ')' ↔ d = ')' := σ.eq_iff hclose
          by_cases hd : d = ')'
          · subst hd
            simp only [Renaming.text_cons, σ.fixes ')' hclose, Renaming.isBlankText_text]
            split <;> simp [hopen, σ.fixes ')' hclose, Renaming.append_text]
          · have hnone : σ d ≠ ')' := fun h => hd (hd'.mp h)
            simp [hd, hnone]
      · have hopen : σ c ≠ '(' := fun h => hc ((σ.eq_iff (by decide)).mp h)
        have hmore : SeesInert (fun d => isWordChar d || d == '-') false :=
          seesInert_isWordChar.or (seesInert_beq (by decide))
        simp only [Option.map_some, Renaming.text_cons]
        rw [σ.takeWhile_text hmore, Renaming.length_text, Renaming.drop_text]
        simp only [Renaming.isBlankText_text, σ.class_eq seesInert_isLatin]
        split <;> simp

theorem isRule_text (σ : Renaming) (line : List Char) : isRule (σ.text line) = isRule line := by
  rw [isRule, isRule, σ.takeWhile_text (seesInert_beq (by decide)), Renaming.length_text,
    Renaming.drop_text, Renaming.isBlankText_text]

theorem heading?_text (σ : Renaming) (line : List Char) :
    heading? (σ.text line) = (heading? line).map fun (level, title) => (level, σ.text title) := by
  rw [heading?, heading?, σ.takeWhile_text (seesInert_beq (by decide))]
  simp only [Renaming.take_text, Renaming.isEmpty_text, Renaming.length_text, Renaming.drop_text,
    Renaming.trim_text]
  split <;> rfl

theorem item?_text (σ : Renaming) (line : List Char) :
    item? (σ.text line) = (item? line).map fun (kinds, content) => (kinds, σ.text content) := by
  have hmarkers : SeesInert (fun c => c == '*' || c == '#') false :=
    (seesInert_beq (by decide)).or (seesInert_beq (by decide))
  have hmarker : σ.text (line.takeWhile fun c => c == '*' || c == '#') =
      line.takeWhile fun c => c == '*' || c == '#' :=
    σ.text_eq_self_of_class hmarkers fun c hc =>
      List.mem_takeWhile_imp (p := fun c => c == '*' || c == '#') hc
  rw [item?, item?, σ.takeWhile_text hmarkers]
  simp only [Renaming.drop_text, hmarker, trimLeft, trimLeftWith, σ.dropWhile_text seesInert_isBlank]
  split <;> rfl

theorem definition?_text (σ : Renaming) (line : List Char) :
    definition? (σ.text line) =
      (definition? line).map fun (term, meaning) => (σ.text term, σ.text meaning) := by
  cases line with
  | nil => rfl
  | cons c rest =>
    have hc' : σ c = ';' ↔ c = ';' := σ.eq_iff (by decide)
    by_cases hc : c = ';'
    · subst hc
      rw [Renaming.text_cons, hc'.mpr rfl, definition?, definition?,
        σ.cut?_text (isInert_of_mem (by decide))]
      cases cut? [':'] rest with
      | none => rfl
      | some parts => simp [Renaming.trim_text]
    · have hne : σ c ≠ ';' := fun h => hc (hc'.mp h)
      simp [definition?, hc, hne]

theorem head?_eq_iff (σ : Renaming) {d : Char} (hd : isInert d = false) (text : List Char) :
    (σ.text text).head? = some d ↔ text.head? = some d := by
  cases text with
  | nil => simp
  | cons c rest => simpa using σ.eq_iff hd

theorem head?_text (σ : Renaming) {d : Char} (hd : isInert d = false) (text : List Char) :
    ((σ.text text).head? == some d) = (text.head? == some d) := by
  rw [Bool.eq_iff_iff, beq_iff_eq, beq_iff_eq, head?_eq_iff σ hd]

theorem contains_text (σ : Renaming) {d : Char} (hd : isInert d = false) (text : List Char) :
    (σ.text text).contains d = text.contains d := by
  rw [Bool.eq_iff_iff, List.contains_iff_mem, List.contains_iff_mem, Renaming.text, List.mem_map]
  constructor
  · rintro ⟨c, hc, heq⟩
    exact (σ.eq_iff hd).mp heq ▸ hc
  · exact fun h => ⟨d, h, σ.fixes d hd⟩

theorem beq_text (σ : Renaming) (text text' : List Char) :
    (σ.text text == σ.text text') = (text == text') := by
  rw [Bool.eq_iff_iff, beq_iff_eq, beq_iff_eq]
  exact ⟨fun h => σ.text_injective h, fun h => by rw [h]⟩

/-- A renamed line is of the same kind. -/
theorem kind_text (σ : Renaming) (inStyle : Bool) (line : List Char) :
    LineKind.of inStyle (σ.text line) = (LineKind.of inStyle line).renamed σ := by
  have hopening : ∀ text, (after? preformattedMark (σ.text text)).filter
        (fun rest => !hasInfix preformattedEnd rest) =
      ((after? preformattedMark text).filter fun rest => !hasInfix preformattedEnd rest).map σ.text := by
    intro text
    rw [σ.after?_text (isInert_of_mem (by decide)), Option.filter_map]
    congr 2
    funext rest
    exact congrArg (!·) (σ.hasInfix_text (isInert_of_mem (by decide)) rest)
  have hclosing : ∀ text, (σ.text text == "/%".toList) = (text == "/%".toList) := by
    intro text
    rw [Bool.eq_iff_iff, beq_iff_eq, beq_iff_eq, σ.text_eq_iff (isInert_of_mem (by decide))]
  unfold LineKind.of
  simp only [Renaming.trim_text, hopening, hclosing, Renaming.isEmpty_text, styleOpening?_text,
    isRule_text, heading?_text, item?_text, definition?_text, head?_text σ (d := '|') (by decide)]
  cases (after? preformattedMark (trim line)).filter fun rest => !hasInfix preformattedEnd rest with
  | some first => rfl
  | none =>
    simp only [Option.map_none]
    split
    · rfl
    split
    · rfl
    cases styleOpening? (trim line) with
    | some style => rfl
    | none =>
      simp only [Option.map_none]
      split
      · rfl
      split
      · rfl
      cases heading? line with
      | some heading => rfl
      | none =>
        cases item? line with
        | some item => rfl
        | none => cases definition? line <;> rfl

/-! ### Fragments -/

/-- The fragment with the texts in it renamed. -/
def Fragment.renamed (σ : Renaming) : Fragment → Fragment
  | .paragraph lines => .paragraph (lines.map σ.text)
  | .table rows => .table (rows.map σ.text)
  | .item content => .item (σ.text content)
  | .preformatted lines closed => .preformatted (lines.map σ.text) closed
  | .heading level title => .heading level (σ.text title)
  | .definition term meaning => .definition (σ.text term) (σ.text meaning)
  | .styleOpening style => .styleOpening (σ.text style)
  | fragment => fragment

/-- What is open, with the texts in it renamed. -/
def Pending.renamed (σ : Renaming) (pending : Pending) : Pending :=
  { pending with
    paragraph := pending.paragraph.map σ.text
    rows := pending.rows.map σ.text
    preformatted := pending.preformatted.map fun lines => lines.map σ.text }

theorem closeLists_renamed (lists : List ListKind) :
    (closeLists lists).map (Fragment.renamed σ) = closeLists lists := by
  rw [closeLists, List.map_map]
  rfl

theorem openLists_renamed (kinds : List ListKind) :
    (openLists kinds).map (Fragment.renamed σ) = openLists kinds := by
  induction kinds with
  | nil => rfl
  | cons kind kinds ih =>
    cases kinds with
    | nil => rfl
    | cons next kinds =>
      have hopen : openLists (kind :: next :: kinds) =
          .listOpening kind :: .itemOpening :: openLists (next :: kinds) := rfl
      rw [hopen, List.map_cons, List.map_cons, ih]
      rfl

theorem itemFragments_renamed (lists kinds : List ListKind) (content : List Char) :
    (itemFragments lists kinds content).map (Fragment.renamed σ) =
      itemFragments lists kinds (σ.text content) := by
  unfold itemFragments
  dsimp only
  rw [List.map_append, List.map_append, closeLists_renamed]
  congr 2
  split
  · rfl
  · exact openLists_renamed _

theorem paragraphEnd_renamed (pending : Pending) :
    (pending.renamed σ).paragraphEnd = pending.paragraphEnd.map (Fragment.renamed σ) := by
  unfold Pending.paragraphEnd
  cases hlines : pending.paragraph <;> simp [Pending.renamed, hlines, Fragment.renamed]

theorem tableEnd_renamed (pending : Pending) :
    (pending.renamed σ).tableEnd = pending.tableEnd.map (Fragment.renamed σ) := by
  unfold Pending.tableEnd
  cases hrows : pending.rows <;> simp [Pending.renamed, hrows, Fragment.renamed]

theorem blocksEnd_renamed (pending : Pending) :
    (pending.renamed σ).blocksEnd = pending.blocksEnd.map (Fragment.renamed σ) := by
  rw [Pending.blocksEnd, Pending.blocksEnd, paragraphEnd_renamed, tableEnd_renamed, List.map_append,
    List.map_append, closeLists_renamed]
  rfl

theorem stepPreformatted_renamed (pending : Pending) (read : List (List Char)) (line : List Char) :
    (pending.renamed σ).stepPreformatted (read.map σ.text) (σ.text line) =
      ((pending.stepPreformatted read line).1.renamed σ,
        (pending.stepPreformatted read line).2.map (Fragment.renamed σ)) := by
  unfold Pending.stepPreformatted
  rw [σ.cut?_text (isInert_of_mem (by decide))]
  cases cut? preformattedEnd line with
  | none => simp [Pending.renamed]
  | some parts =>
    simp only [Option.map_some, Renaming.isBlankText_text]
    split <;> simp [Pending.renamed, Fragment.renamed]

theorem stepLine_renamed (pending : Pending) (line : List Char) :
    (pending.renamed σ).stepLine (σ.text line) =
      ((pending.stepLine line).1.renamed σ,
        (pending.stepLine line).2.map (Fragment.renamed σ)) := by
  have hlists : (pending.renamed σ).lists = pending.lists := rfl
  have hstyles : (pending.renamed σ).styles = pending.styles := rfl
  unfold Pending.stepLine
  rw [hstyles, kind_text]
  cases LineKind.of (pending.styles != 0) line with
  | preformattedOpening first =>
    simp only [LineKind.renamed, blocksEnd_renamed, Renaming.isBlankText_text]
    split <;> rfl
  | blank => simp only [LineKind.renamed, blocksEnd_renamed]; rfl
  | row =>
    simp only [LineKind.renamed, paragraphEnd_renamed, hlists, List.map_append, closeLists_renamed]
    simp [Pending.renamed]
  | styleOpening style =>
    simp only [LineKind.renamed, blocksEnd_renamed, List.map_append]
    rfl
  | styleClosing =>
    simp only [LineKind.renamed, blocksEnd_renamed, List.map_append]
    rfl
  | rule =>
    simp only [LineKind.renamed, blocksEnd_renamed, List.map_append]
    rfl
  | heading level title =>
    simp only [LineKind.renamed, blocksEnd_renamed, List.map_append]
    rfl
  | item kinds content =>
    simp only [LineKind.renamed, tableEnd_renamed, paragraphEnd_renamed, hlists, List.map_append,
      itemFragments_renamed]
    rfl
  | definition term meaning =>
    simp only [LineKind.renamed, blocksEnd_renamed, List.map_append]
    rfl
  | text =>
    simp only [LineKind.renamed, tableEnd_renamed, hlists, List.map_append, closeLists_renamed]
    simp [Pending.renamed]

/-- Reading a renamed line leaves the renamed open and gives the renamed fragments. -/
theorem step_renamed (pending : Pending) (line : List Char) :
    (pending.renamed σ).step (σ.text line) =
      ((pending.step line).1.renamed σ, (pending.step line).2.map (Fragment.renamed σ)) := by
  have hpre : (pending.renamed σ).preformatted =
      pending.preformatted.map fun lines => lines.map σ.text := rfl
  unfold Pending.step
  rw [hpre]
  cases pending.preformatted with
  | some read => exact stepPreformatted_renamed pending read line
  | none => exact stepLine_renamed pending line

theorem finish_renamed (pending : Pending) :
    (pending.renamed σ).finish = pending.finish.map (Fragment.renamed σ) := by
  have hpre : (pending.renamed σ).preformatted =
      pending.preformatted.map fun lines => lines.map σ.text := rfl
  unfold Pending.finish
  rw [hpre, blocksEnd_renamed, List.map_append, List.map_append, List.map_replicate]
  cases pending.preformatted <;> rfl

theorem fragmentsFrom_renamed (pending : Pending) (lines : List (List Char)) :
    fragmentsFrom (pending.renamed σ) (lines.map σ.text) =
      (fragmentsFrom pending lines).map (Fragment.renamed σ) := by
  induction lines generalizing pending with
  | nil => exact finish_renamed pending
  | cons line rest ih =>
    rw [List.map_cons, fragmentsFrom, fragmentsFrom, step_renamed]
    dsimp only
    rw [ih, List.map_append]

theorem pageLines_text (σ : Renaming) (text : List Char) :
    pageLines (σ.text text) = (pageLines text).map σ.text := by
  rw [pageLines, σ.filter_text (seesInert_ne (by decide)), σ.normalizeNewlines_text, lines,
    σ.splitAt_text (by decide)]
  rfl

/-- A renamed page has the renamed fragments. -/
theorem fragmentsOf_text (σ : Renaming) (text : List Char) :
    fragmentsOf (σ.text text) = (fragmentsOf text).map (Fragment.renamed σ) := by
  rw [fragmentsOf, pageLines_text, fragmentsOf, ← fragmentsFrom_renamed]
  rfl

/-! ### Rows -/

/-- The cell with its content renamed. -/
def Cell.renamed (σ : Renaming) (cell : Cell) : Cell := { cell with content := σ.text cell.content }

theorem endedCell_renamed (cell : Option Bool) (read : List Char) :
    endedCell cell (σ.text read) = (endedCell cell read).map (Cell.renamed σ) := by
  cases cell with
  | none => rfl
  | some isHeader => simp [endedCell, Cell.renamed, Renaming.reverse_text]

theorem lastCell_renamed (cell : Option Bool) (read : List Char) :
    lastCell cell (σ.text read) = (lastCell cell read).map (Cell.renamed σ) := by
  cases cell with
  | none => rfl
  | some isHeader =>
    rw [lastCell, lastCell, Renaming.isBlankText_text]
    split
    · rfl
    · simp [Cell.renamed, Renaming.reverse_text]

theorem cellsFrom_renamed (σ : Renaming) (depth : Nat) (cell : Option Bool) (read row : List Char) :
    cellsFrom depth cell (σ.text read) (σ.text row) =
      (cellsFrom depth cell read row).map (Cell.renamed σ) := by
  have hbar : isInert '|' = false := by decide
  have htilde : isInert '~' = false := by decide
  induction depth, cell, read, row using cellsFrom.induct with
  | case1 depth cell read => exact lastCell_renamed cell read
  | case2 depth cell read rest ih =>
    rw [Renaming.text_cons, Renaming.text_cons, σ.fixes _ htilde, σ.fixes _ hbar, cellsFrom, cellsFrom,
      ← ih, Renaming.text_cons, Renaming.text_cons, σ.fixes _ htilde, σ.fixes _ hbar]
  | case3 depth cell read rest hdepth ih =>
    rw [Renaming.text_cons, Renaming.text_cons, σ.fixes _ hbar, cellsFrom, cellsFrom, if_pos hdepth,
      if_pos hdepth, List.map_append, endedCell_renamed, ← ih]
    rfl
  | case4 depth cell read rest hdepth ih =>
    rw [Renaming.text_cons, Renaming.text_cons, σ.fixes _ hbar, cellsFrom, cellsFrom, if_neg hdepth,
      if_neg hdepth, ← ih, Renaming.text_cons, Renaming.text_cons, σ.fixes _ hbar]
  | case5 depth cell read rest hnot hdepth ih =>
    have hnot' : ∀ rest', σ.text rest = '|' :: rest' → False := fun rest' h =>
      (σ.text_eq_cons hbar h).elim hnot
    rw [Renaming.text_cons, σ.fixes _ hbar, cellsFrom.eq_4 _ _ _ _ hnot', cellsFrom.eq_4 _ _ _ _ hnot,
      if_pos hdepth, if_pos hdepth, List.map_append, endedCell_renamed, ← ih]
    rfl
  | case6 depth cell read rest hnot hdepth ih =>
    have hnot' : ∀ rest', σ.text rest = '|' :: rest' → False := fun rest' h =>
      (σ.text_eq_cons hbar h).elim hnot
    rw [Renaming.text_cons, σ.fixes _ hbar, cellsFrom.eq_4 _ _ _ _ hnot', cellsFrom.eq_4 _ _ _ _ hnot,
      if_neg hdepth, if_neg hdepth, ← ih, Renaming.text_cons, σ.fixes _ hbar]
  | case7 depth cell read c rest hescaped hheader hplain _ ih =>
    have hescaped' : ∀ rest', σ c = '~' → σ.text rest = '|' :: rest' → False := fun rest' hc h =>
      (σ.text_eq_cons hbar h).elim fun rest hrest => hescaped rest ((σ.eq_iff htilde).mp hc) hrest
    have hheader' : ∀ rest', σ c = '|' → σ.text rest = '|' :: rest' → False := fun rest' hc h =>
      (σ.text_eq_cons hbar h).elim fun rest hrest => hheader rest ((σ.eq_iff hbar).mp hc) hrest
    have hplain' : σ c = '|' → False := fun hc => hplain ((σ.eq_iff hbar).mp hc)
    rw [Renaming.text_cons, cellsFrom.eq_5 _ _ _ _ _ hescaped' hheader' hplain',
      cellsFrom.eq_5 _ _ _ _ _ hescaped hheader hplain, ← ih, σ.beq_eq (by decide),
      σ.beq_eq (by decide), Renaming.text_cons]

/-- A renamed row has the renamed cells. -/
theorem splitRow_text (σ : Renaming) (row : List Char) :
    splitRow (σ.text row) = (splitRow row).map (Cell.renamed σ) := cellsFrom_renamed σ 0 none [] row

end WikiMigration.Wiki
