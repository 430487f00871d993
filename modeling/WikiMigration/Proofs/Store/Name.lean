/-
What the names of the stores' files tell.

A name is read back from its file name, so names of their own have files of their own.  A file name
that stands for a name is never one that a walk treats in a way of its own.  The name of the file of a
version is read as that version, and the name of a staging file is none of those that the stores look
for, whatever it is staged for.
-/
import WikiMigration.Dialect
import WikiMigration.Proofs.Files.Tree
import WikiMigration.Proofs.Text.Lines
import WikiMigration.Proofs.Url.Percent
import WikiMigration.Store.Layout

namespace WikiMigration

/-! ### Numbers -/

namespace Text

theorem isDigit_iff {c : Char} : isDigit c = true ↔ c.isDigit = true := by
  simp [isDigit, Char.isDigit, Char.le_def]

theorem isDecimal_of_isDigit {c : Char} (h : isDigit c = true) : isDecimal c = true := by
  have hle : c ≤ '9' := by
    simp only [isDigit, Bool.and_eq_true, decide_eq_true_eq] at h
    exact h.2
  have hlt : c.toNat < 0x80 := Nat.lt_of_le_of_lt (Url.le_toNat hle) (by decide)
  rw [isDecimal, if_pos hlt]
  exact h

theorem decimalNumber?_fold {digits : List Char} (h : ∀ c ∈ digits, isDigit c = true) (n : Nat) :
    digits.foldl (fun n c => do return (← n) * 10 + (← decimalValue? c)) (some n) =
      some (Nat.ofDigitChars 10 digits n) := by
  induction digits generalizing n with
  | nil => rw [List.foldl_nil, Nat.ofDigitChars_nil]
  | cons c digits ih =>
    have hvalue : decimalValue? c = some (c.toNat - 48) := if_pos (h c (by simp))
    rw [List.foldl_cons, hvalue, Nat.ofDigitChars_cons, Nat.mul_comm]
    exact ih (fun d hd => h d (by simp [hd])) _

/-- A number is read back from its digits. -/
theorem decimalNumber?_toDigits (n : Nat) : decimalNumber? (Nat.toDigits 10 n) = some n := by
  have hempty : (Nat.toDigits 10 n).isEmpty = false := by simp [Nat.toDigits_ne_nil]
  rw [decimalNumber?, hempty, if_neg (by decide), decimalNumber?_fold, Nat.ofDigitChars_ten_toDigits]
  exact fun c hc => isDigit_iff.mpr (Nat.isDigit_of_mem_toDigits (by decide) (by decide) hc)

end Text

namespace Store

open Text Files

/-! ### Names as file names -/

theorem unmangle_mangle (name : List Char) : unmangle (mangle name) = name := by
  rw [mangle]
  split
  next rest heq =>
    cases name with
    | nil => cases heq
    | cons c name =>
      have hc : c = '.' := by
        have hmem : '.' ∈ Url.written c := by
          rw [Url.encodeQuery_cons] at heq
          cases hw : Url.written c with
          | nil => exact absurd hw (Url.written_ne_nil c)
          | cons d ds =>
            rw [hw, List.cons_append] at heq
            rw [(List.cons.inj heq).1]
            exact List.mem_cons_self
        exact (Url.mem_written hmem).2 rfl
      subst hc
      rw [Url.encodeQuery_cons] at heq
      have hrest : rest = Url.encodeQuery name := (List.cons.inj heq).2.symm
      subst hrest
      have hascii : ∀ c ∈ ("%2E".toList ++ Url.encodeQuery name).map Url.spaced,
          Url.isAscii c = true := by
        intro c hc
        obtain ⟨d, hd, rfl⟩ := List.mem_map.mp hc
        refine Url.isAscii_spaced ?_
        rcases List.mem_append.mp hd with hd | hd
        · have hall : "%2E".toList.all Url.isAscii = true := by decide
          exact List.all_eq_true.mp hall d hd
        · exact (Url.mem_encodeQuery hd).1
      show Url.decodeRuns [] (("%2E".toList ++ Url.encodeQuery name).map Url.spaced) = _
      rw [Url.decodeRuns_of_isAscii hascii, List.reverse_nil, List.nil_append, List.map_append]
      have hdot : ("%2E".toList).map Url.spaced = (Url.encodeByte 0x2E).map Url.spaced := by decide
      rw [hdot, Url.decodeBytes_encodeByte, Url.decodeBytes_encodeQuery]
      exact Utf8.decodeLossy_encode ('.' :: name)
  next => exact Url.decodeQuery_encodeQuery name

theorem mangle_injective : Function.Injective mangle :=
  Function.LeftInverse.injective unmangle_mangle

theorem mangle_ne_nil {name : List Char} (h : name ≠ []) : mangle name ≠ [] := by
  intro hnil
  refine h ?_
  rw [← unmangle_mangle name, hnil]
  rfl

/-- No file name that stands for a name begins with a dot. -/
theorem head_mangle (name rest : List Char) : mangle name ≠ '.' :: rest := by
  rw [mangle]
  split
  next => exact fun h => absurd (List.cons.inj h).1 (by decide)
  next hnot => exact fun h => hnot rest h

theorem isPlain_mangle {name : List Char} (h : name ≠ []) : Name.IsPlain (mangle name) :=
  ⟨mangle_ne_nil h, head_mangle _ _, head_mangle _ _⟩

/-! ### Endings -/

/-- An ending of the files of pages: a dot and something without a dot, and not the ending of staging
files. -/
structure IsEnding (ending : List Char) : Prop where
  dotted : ∃ rest, ending = '.' :: rest ∧ rest ≠ [] ∧ '.' ∉ rest
  notStaging : ¬ ending <:+ ".tmp".toList ∧ ¬ ".tmp".toList <:+ ending
  notAttachments : ¬ ending <:+ attachmentsSuffix ∧ ¬ attachmentsSuffix <:+ ending

theorem isEnding_fileExtension (dialect : Dialect) : IsEnding dialect.fileExtension.toList := by
  cases dialect
  · exact ⟨⟨"txt".toList, by decide⟩, by decide, by decide⟩
  · exact ⟨⟨"md".toList, by decide⟩, by decide, by decide⟩

theorem IsEnding.ne_nil {ending : List Char} (h : IsEnding ending) : ending ≠ [] := by
  obtain ⟨rest, rfl, -⟩ := h.dotted
  simp

/-- Texts that end in the same way have endings one of which ends with the other. -/
theorem suffix_or_suffix {a b x y : List Char} (h : a ++ x = b ++ y) : x <:+ y ∨ y <:+ x :=
  List.suffix_or_suffix_of_suffix (List.suffix_append a x) (h ▸ List.suffix_append b y)

theorem isPlain_append {front ending : List Char} (h : 3 ≤ ending.length) :
    Name.IsPlain (front ++ ending) := by
  have hlength : 3 ≤ (front ++ ending).length := by
    rw [List.length_append]
    omega
  refine ⟨fun heq => ?_, fun heq => ?_, fun heq => ?_⟩
  all_goals
    rw [heq] at hlength
    exact absurd hlength (by decide)

/-! ### Versions -/

theorem attachmentExtension_class (file : List Char) :
    attachmentExtension file ≠ [] ∧ '.' ∉ attachmentExtension file := by
  rw [attachmentExtension]
  split
  · dsimp only
    split
    · decide
    next hempty =>
      have hnil : (file.reverse.takeWhile (· != '.')).reverse ≠ [] := by
        simpa using hempty
      refine ⟨mangle_ne_nil hnil, fun hdot => ?_⟩
      have hnot : '.' ∉ (file.reverse.takeWhile (· != '.')).reverse := by
        intro hmem
        have hall := List.all_eq_true.mp (List.all_takeWhile (p := (· != '.')) (l := file.reverse))
        have hne := hall '.' (List.mem_reverse.mp hmem)
        simp at hne
      rw [mangle] at hdot
      split at hdot
      next rest heq =>
        exact hnot ((Url.mem_encodeQuery (heq ▸ List.mem_cons_self)).2 rfl)
      next => exact hnot ((Url.mem_encodeQuery hdot).2 rfl)
  · decide

/-- The digits of a version. -/
def digits (version : Nat) : List Char := (toString (version : Int)).toList

theorem digits_eq (version : Nat) : digits version = Nat.toDigits 10 version := by
  rw [digits, Int.toString_eq_repr, Int.repr_eq_if, if_pos (Int.natCast_nonneg _), Int.toNat_natCast,
    Nat.toList_repr]

theorem isDecimal_of_mem_digits {version : Nat} {c : Char} (h : c ∈ digits version) :
    isDecimal c = true := by
  rw [digits_eq] at h
  exact isDecimal_of_isDigit
    (isDigit_iff.mpr (Nat.isDigit_of_mem_toDigits (by decide) (by decide) h))

/-- The file of a version is read as that version. -/
theorem versionOf?_digits (version : Nat) {rest : List Char} (h : rest ≠ []) (hdot : '.' ∉ rest) :
    versionOf? (digits version ++ '.' :: rest) = some version := by
  have htake : (digits version ++ '.' :: rest).takeWhile isDecimal = digits version := by
    rw [List.takeWhile_append_of_pos fun c hc => isDecimal_of_mem_digits hc,
      List.takeWhile_cons_of_neg (by decide), List.append_nil]
  have hempty : rest.isEmpty = false := by simpa using h
  have hcontains : rest.contains '.' = false := by simpa using hdot
  rw [versionOf?, htake, List.drop_left]
  simp only [hempty, hcontains, Bool.or_self, Bool.false_eq_true, if_false]
  rw [digits_eq, decimalNumber?_toDigits]

theorem versionOf?_versionName (file : List Char) (version : Nat) :
    versionOf? (versionName file version) = some version :=
  versionOf?_digits version (attachmentExtension_class file).1 (attachmentExtension_class file).2

theorem versionOf?_archived {ending : List Char} (h : IsEnding ending) (version : Nat) :
    versionOf? (digits version ++ ending) = some version := by
  obtain ⟨rest, rfl, hrest, hdot⟩ := h.dotted
  exact versionOf?_digits version hrest hdot

/-- What begins with a dot is no version. -/
theorem versionOf?_dot (rest : List Char) : versionOf? ('.' :: rest) = none := by
  have htake : ('.' :: rest).takeWhile isDecimal = [] := List.takeWhile_cons_of_neg (by decide)
  rw [versionOf?, htake]
  simp [decimalNumber?]

theorem digits_head (version : Nat) : ∃ c rest, digits version = c :: rest ∧ c ≠ '.' := by
  cases hdigits : digits version with
  | nil =>
    rw [digits_eq] at hdigits
    exact absurd hdigits Nat.toDigits_ne_nil
  | cons c rest =>
    refine ⟨c, rest, rfl, ?_⟩
    rintro rfl
    have hdecimal : isDecimal '.' = true :=
      isDecimal_of_mem_digits (show '.' ∈ digits version by simp [hdigits])
    revert hdecimal
    decide

theorem isPlain_versionText (version : Nat) (rest : List Char) :
    Name.IsPlain (digits version ++ rest) := by
  obtain ⟨c, more, hdigits, hc⟩ := digits_head version
  rw [hdigits]
  refine ⟨by simp, fun h => hc (List.cons.inj h).1, fun h => hc (List.cons.inj h).1⟩

theorem isPlain_versionName (file : List Char) (version : Nat) :
    Name.IsPlain (versionName file version) := isPlain_versionText _ _

/-! ### Staging files -/

/-- The name of the file that is written before it takes the place of one of the given name. -/
def stagingName (mark name : Name) : Name := '.' :: name ++ '.' :: mark ++ ".tmp".toList

theorem stagingFile_child (mark : Name) (directory : Path) (name : Name) :
    stagingFile mark (directory.child name) = directory.child (stagingName mark name) := by
  simp [stagingFile, stagingName, Path.child, parent]

theorem suffix_stagingName (mark name : Name) : ".tmp".toList <:+ stagingName mark name :=
  List.suffix_append _ _

/-- **A staging file is none of the files that the stores look for.** -/
theorem stagingName_unseen (mark name : Name) :
    (∀ ending, IsEnding ending → endsWith ending (stagingName mark name) = false) ∧
      endsWith fileSuffix (stagingName mark name) = false ∧
      versionOf? (stagingName mark name) = none := by
  refine ⟨fun ending h => ?_, ?_, versionOf?_dot _⟩
  · refine Bool.eq_false_iff.mpr fun hends => ?_
    rcases List.suffix_or_suffix_of_suffix (endsWith_iff.mp hends)
      (suffix_stagingName mark name) with hsuffix | hsuffix
    · exact h.notStaging.1 hsuffix
    · exact h.notStaging.2 hsuffix
  · refine Bool.eq_false_iff.mpr fun hends => ?_
    rcases List.suffix_or_suffix_of_suffix (endsWith_iff.mp hends)
      (suffix_stagingName mark name) with hsuffix | hsuffix
    · revert hsuffix
      decide
    · revert hsuffix
      decide

end Store

end WikiMigration
