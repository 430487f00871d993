/-
A text is read back from its bytes, and a name from its percent-encoding.

The bytes of a character are told by the range of its code point, and what stands at the front of them
is that character again; so both ways of reading give back what was written, whatever follows.

An encoded name holds only characters of which each stands for itself, for a space or for a part of a
byte, so it too can be read from its front: what one character was written as gives the bytes of the
character.
-/
import Mathlib.Data.List.Basic
import WikiMigration.Url.Percent

namespace WikiMigration.Text.Utf8

/-! ### The front of some bytes -/

/-- The code point of a character is no surrogate and not too large. -/
theorem toNat_valid (c : Char) : c.toNat < 0xD800 ∨ 0xDFFF < c.toNat ∧ c.toNat < 0x110000 :=
  c.valid

theorem toNat_ofNat_byte {n : Nat} (h : n < 256) : (UInt8.ofNat n).toNat = n := by
  rw [UInt8.toNat_ofNat']
  omega

/-- A second byte that is allowed behind a lead byte. -/
structure IsSecond (lead second : Nat) : Prop where
  continues : 0x80 ≤ second ∧ second ≤ 0xBF
  notOverlong : lead = 0xE0 → 0xA0 ≤ second
  noSurrogate : lead = 0xED → second ≤ 0x9F
  notOverlong' : lead = 0xF0 → 0x90 ≤ second
  notTooLarge : lead = 0xF4 → second ≤ 0x8F

theorem IsSecond.in_range {lead second : Nat} (h : IsSecond lead second) :
    (decide (second < (secondRange lead).1) || decide ((secondRange lead).2 < second)) = false := by
  obtain ⟨⟨hlow, hhigh⟩, h₁, h₂, h₃, h₄⟩ := h
  simp only [secondRange, beq_iff_eq]
  split
  next heq => simpa using ⟨h₁ heq, hhigh⟩
  split
  next heq => simpa using ⟨hlow, h₂ heq⟩
  split
  next heq => simpa using ⟨h₃ heq, hhigh⟩
  split
  next heq => simpa using ⟨hlow, h₄ heq⟩
  next => simpa using ⟨hlow, hhigh⟩

theorem trailing?_one {lead : Nat} (h : 0xC2 ≤ lead) (h' : lead < 0xE0) :
    trailing? lead = some 1 := by
  have h₁ : ¬ lead < 0x80 := by omega
  simp [trailing?, h₁, h, h']

theorem trailing?_two {lead : Nat} (h : 0xE0 ≤ lead) (h' : lead < 0xF0) :
    trailing? lead = some 2 := by
  have h₁ : ¬ lead < 0x80 := by omega
  have h₂ : ¬ lead < 0xE0 := by omega
  simp [trailing?, h₁, h₂, h, h']

theorem trailing?_three {lead : Nat} (h : 0xF0 ≤ lead) (h' : lead < 0xF5) :
    trailing? lead = some 3 := by
  have h₁ : ¬ lead < 0x80 := by omega
  have h₂ : ¬ lead < 0xE0 := by omega
  have h₃ : ¬ lead < 0xF0 := by omega
  simp [trailing?, h₁, h₂, h₃, h, h']

theorem isContinuation_of {b : Nat} (h : 0x80 ≤ b) (h' : b < 0xC0) : isContinuation b = true := by
  simp [isContinuation, h, h']

section Front

variable {c : Char}

theorem front_one (h : c.toNat ≤ 0x7F) (rest : List UInt8) :
    front (UInt8.ofNat c.toNat) rest = .ok (c, 0) := by
  have htrailing : trailing? c.toNat = some 0 := if_pos (by omega)
  simp only [front, toNat_ofNat_byte (show c.toNat < 256 by omega), htrailing, Char.ofNat_toNat]

theorem front_two (h : 0x7F < c.toNat) (h' : c.toNat ≤ 0x7FF) (rest : List UInt8) :
    front (UInt8.ofNat (c.toNat / 64 + 0xC0)) (UInt8.ofNat (c.toNat % 0x40 + 0x80) :: rest) =
      .ok (c, 1) := by
  have hsecond : IsSecond (c.toNat / 64 + 0xC0) (c.toNat % 0x40 + 0x80) := by
    constructor <;> omega
  have hvalue : (c.toNat / 64 + 0xC0) % 0x20 * 0x40 + (c.toNat % 0x40 + 0x80) % 0x40 = c.toNat := by
    omega
  simp only [front, toNat_ofNat_byte (show c.toNat / 64 + 0xC0 < 256 by omega),
    toNat_ofNat_byte (show c.toNat % 0x40 + 0x80 < 256 by omega),
    trailing?_one (show 0xC2 ≤ c.toNat / 64 + 0xC0 by omega) (by omega), hsecond.in_range,
    Bool.false_eq_true, if_false, beq_self_eq_true, if_true, hvalue, Char.ofNat_toNat]

theorem front_three (h : 0x7FF < c.toNat) (h' : c.toNat ≤ 0xFFFF) (rest : List UInt8) :
    front (UInt8.ofNat (c.toNat / 4096 + 0xE0)) (UInt8.ofNat (c.toNat / 64 % 0x40 + 0x80) ::
      UInt8.ofNat (c.toNat % 0x40 + 0x80) :: rest) = .ok (c, 2) := by
  have hvalid := toNat_valid c
  have hsecond : IsSecond (c.toNat / 4096 + 0xE0) (c.toNat / 64 % 0x40 + 0x80) := by
    constructor <;> omega
  have hvalue : ((c.toNat / 4096 + 0xE0) % 0x10 * 0x40 + (c.toNat / 64 % 0x40 + 0x80) % 0x40) * 0x40
      + (c.toNat % 0x40 + 0x80) % 0x40 = c.toNat := by omega
  simp only [front, toNat_ofNat_byte (show c.toNat / 4096 + 0xE0 < 256 by omega),
    toNat_ofNat_byte (show c.toNat / 64 % 0x40 + 0x80 < 256 by omega),
    toNat_ofNat_byte (show c.toNat % 0x40 + 0x80 < 256 by omega),
    trailing?_two (show 0xE0 ≤ c.toNat / 4096 + 0xE0 by omega) (by omega), hsecond.in_range,
    isContinuation_of (show 0x80 ≤ c.toNat % 0x40 + 0x80 by omega) (by omega), Bool.false_eq_true,
    if_false, beq_self_eq_true, if_true, hvalue, Bool.not_true, show (2 == 1) = false from rfl,
    Char.ofNat_toNat]

theorem front_four (h : 0xFFFF < c.toNat) (rest : List UInt8) :
    front (UInt8.ofNat (c.toNat / 262144 + 0xF0)) (UInt8.ofNat (c.toNat / 4096 % 0x40 + 0x80) ::
      UInt8.ofNat (c.toNat / 64 % 0x40 + 0x80) :: UInt8.ofNat (c.toNat % 0x40 + 0x80) :: rest) =
      .ok (c, 3) := by
  have hvalid := toNat_valid c
  have hsecond : IsSecond (c.toNat / 262144 + 0xF0) (c.toNat / 4096 % 0x40 + 0x80) := by
    constructor <;> omega
  have hvalue : (((c.toNat / 262144 + 0xF0) % 8 * 0x40 + (c.toNat / 4096 % 0x40 + 0x80) % 0x40)
      * 0x40 + (c.toNat / 64 % 0x40 + 0x80) % 0x40) * 0x40 + (c.toNat % 0x40 + 0x80) % 0x40 =
      c.toNat := by omega
  simp only [front, toNat_ofNat_byte (show c.toNat / 262144 + 0xF0 < 256 by omega),
    toNat_ofNat_byte (show c.toNat / 4096 % 0x40 + 0x80 < 256 by omega),
    toNat_ofNat_byte (show c.toNat / 64 % 0x40 + 0x80 < 256 by omega),
    toNat_ofNat_byte (show c.toNat % 0x40 + 0x80 < 256 by omega),
    trailing?_three (show 0xF0 ≤ c.toNat / 262144 + 0xF0 by omega) (by omega), hsecond.in_range,
    isContinuation_of (show 0x80 ≤ c.toNat % 0x40 + 0x80 by omega) (by omega),
    isContinuation_of (show 0x80 ≤ c.toNat / 64 % 0x40 + 0x80 by omega) (by omega),
    Bool.false_eq_true, if_false, hvalue, Bool.not_true, show (3 == 1) = false from rfl,
    show (3 == 2) = false from rfl, Char.ofNat_toNat]

end Front

/-- What stands at the front of the bytes of a character is the character. -/
theorem front_encode (c : Char) (rest : List UInt8) :
    ∃ lead more, String.utf8EncodeChar c = lead :: more ∧
      front lead (more ++ rest) = .ok (c, more.length) := by
  have hvalid := toNat_valid c
  rw [String.utf8EncodeChar]
  simp only [show c.val.toNat = c.toNat from rfl]
  split
  next h₁ => exact ⟨_, _, rfl, front_one h₁ rest⟩
  split
  next h₁ h₂ =>
    have hlead : c.toNat / 64 % 0x20 = c.toNat / 64 := by omega
    rw [hlead]
    exact ⟨_, _, rfl, front_two (by omega) h₂ rest⟩
  split
  next h₁ h₂ h₃ =>
    have hlead : c.toNat / 4096 % 0x10 = c.toNat / 4096 := by omega
    rw [hlead]
    exact ⟨_, _, rfl, front_three (by omega) h₃ rest⟩
  next h₁ h₂ h₃ =>
    have hlead : c.toNat / 262144 % 0x08 = c.toNat / 262144 := by omega
    rw [hlead]
    exact ⟨_, _, rfl, front_four (by omega) rest⟩

/-! ### Reading -/

theorem decodeFrom_skip (skipped rest : List UInt8) (position : Nat) :
    decodeFrom skipped.length position (skipped ++ rest) =
      decodeFrom 0 (position + skipped.length) rest := by
  induction skipped generalizing position with
  | nil => rfl
  | cons b skipped ih =>
    rw [List.length_cons, List.cons_append, decodeFrom, ih, Nat.add_assoc, Nat.add_comm 1]

theorem decodeFrom_encode (text : List Char) (position : Nat) :
    decodeFrom 0 position (encode text) = .ok text := by
  induction text generalizing position with
  | nil => rfl
  | cons c rest ih =>
    obtain ⟨lead, more, hbytes, hfront⟩ := front_encode c (encode rest)
    have hencode : encode (c :: rest) = lead :: (more ++ encode rest) := by
      rw [encode, List.flatMap_cons, hbytes]
      rfl
    rw [hencode, decodeFrom, hfront]
    dsimp only
    rw [decodeFrom_skip, ih]
    rfl

/-- **Text is read back from its bytes.** -/
theorem decode_encode (text : List Char) : decode (encode text) = .ok text :=
  decodeFrom_encode text 0

theorem decodeLossyFrom_skip (skipped rest : List UInt8) :
    decodeLossyFrom skipped.length (skipped ++ rest) = decodeLossyFrom 0 rest := by
  induction skipped with
  | nil => rfl
  | cons b skipped ih =>
    rw [List.length_cons, List.cons_append, decodeLossyFrom, ih]

theorem decodeLossy_encode (text : List Char) : decodeLossy (encode text) = text := by
  rw [decodeLossy]
  induction text with
  | nil => rfl
  | cons c rest ih =>
    obtain ⟨lead, more, hbytes, hfront⟩ := front_encode c (encode rest)
    have hencode : encode (c :: rest) = lead :: (more ++ encode rest) := by
      rw [encode, List.flatMap_cons, hbytes]
      rfl
    rw [hencode, decodeLossyFrom, hfront]
    dsimp only
    rw [decodeLossyFrom_skip, ih]

/-- Reading gives no more characters than there are bytes. -/
theorem length_decodeLossyFrom_le (skip : Nat) (bytes : List UInt8) :
    (decodeLossyFrom skip bytes).length ≤ bytes.length := by
  fun_induction decodeLossyFrom skip bytes with
  | case1 => exact Nat.le_refl 0
  | case2 _ _ _ ih => exact Nat.le_succ_of_le ih
  | case3 _ _ _ _ _ ih => exact Nat.succ_le_succ ih
  | case4 _ _ _ _ _ ih => exact Nat.succ_le_succ ih

end WikiMigration.Text.Utf8

namespace WikiMigration.Url

open Text

/-! ### The characters of an encoded name -/

/-- A plus sign read as a space, all else as it is. -/
def spaced (c : Char) : Char := if c == '+' then ' ' else c

theorem hexValue?_upperHexDigit {n : Nat} (h : n < 16) : hexValue? (upperHexDigit n) = some n := by
  have hall : ∀ m : Fin 16, hexValue? (upperHexDigit m) = some m.val := by decide
  exact hall ⟨n, h⟩

/-- A digit of an encoded byte is none of the characters that stand for something else. -/
theorem upperHexDigit_class {n : Nat} (h : n < 16) :
    isAscii (upperHexDigit n) = true ∧ upperHexDigit n ≠ '+' ∧ upperHexDigit n ≠ '.' := by
  have hall : ∀ m : Fin 16, isAscii (upperHexDigit m) = true ∧ upperHexDigit m ≠ '+' ∧
      upperHexDigit m ≠ '.' := by decide
  exact hall ⟨n, h⟩

theorem le_toNat {a b : Char} (h : a ≤ b) : a.toNat ≤ b.toNat := h

theorem isAscii_of_isUnreserved {c : Char} (h : isUnreserved c = true) : isAscii c = true := by
  simp only [isUnreserved, isLatin, isDigit, Bool.or_eq_true, Bool.and_eq_true,
    decide_eq_true_eq, beq_iff_eq] at h
  rw [isAscii, decide_eq_true_eq]
  rcases h with (((((⟨-, h⟩ | ⟨-, h⟩) | ⟨-, h⟩) | rfl) | rfl) | rfl) | rfl
  · exact Nat.lt_of_le_of_lt (le_toNat h) (by decide)
  · exact Nat.lt_of_le_of_lt (le_toNat h) (by decide)
  · exact Nat.lt_of_le_of_lt (le_toNat h) (by decide)
  all_goals decide

theorem ne_of_isUnreserved {c d : Char} (h : isUnreserved c = true)
    (hd : isUnreserved d = false) : c ≠ d := by
  rintro rfl
  rw [h] at hd
  cases hd

/-- What a character of a name is written as. -/
def written (c : Char) : List Char :=
  if isUnreserved c then [c] else if c == ' ' then ['+'] else encodeChar c

theorem encodeQuery_cons (c : Char) (rest : List Char) :
    encodeQuery (c :: rest) = written c ++ encodeQuery rest := by
  rw [encodeQuery, List.flatMap_cons]
  rfl

theorem written_ne_nil (c : Char) : written c ≠ [] := by
  rw [written]
  split
  · simp
  split
  · simp
  · rw [encodeChar]
    cases hbytes : String.utf8EncodeChar c with
    | nil => exact absurd hbytes String.utf8EncodeChar_ne_nil
    | cons b rest => simp [encodeByte]

theorem mem_encodeByte {b : UInt8} {d : Char} (h : d ∈ encodeByte b) :
    d = '%' ∨ ∃ n < 16, d = upperHexDigit n := by
  simp only [encodeByte, List.mem_cons, List.not_mem_nil, or_false] at h
  have hb : b.toNat < 256 := b.toNat_lt
  rcases h with rfl | rfl | rfl
  · exact Or.inl rfl
  · exact Or.inr ⟨_, by omega, rfl⟩
  · exact Or.inr ⟨_, by omega, rfl⟩

/-- Each character of an encoded name is ASCII, and a dot only if it stands for itself. -/
theorem mem_written {c d : Char} (h : d ∈ written c) : isAscii d = true ∧ (d = '.' → c = '.') := by
  rw [written] at h
  split at h
  next hplain =>
    obtain rfl := List.mem_singleton.mp h
    exact ⟨isAscii_of_isUnreserved hplain, id⟩
  split at h
  next =>
    obtain rfl := List.mem_singleton.mp h
    exact ⟨by decide, fun h => absurd h (by decide)⟩
  next =>
    obtain ⟨b, -, hb⟩ := List.mem_flatMap.mp h
    rcases mem_encodeByte hb with rfl | ⟨n, hn, rfl⟩
    · exact ⟨by decide, fun h => absurd h (by decide)⟩
    · obtain ⟨hascii, -, hdot⟩ := upperHexDigit_class hn
      exact ⟨hascii, fun h => absurd h hdot⟩

theorem mem_encodeQuery {name : List Char} {d : Char} (h : d ∈ encodeQuery name) :
    isAscii d = true ∧ (d = '.' → '.' ∈ name) := by
  obtain ⟨c, hc, hd⟩ := List.mem_flatMap.mp h
  obtain ⟨hascii, hdot⟩ := mem_written hd
  exact ⟨hascii, fun h => hdot h ▸ hc⟩

theorem isUnreserved_upperHexDigit {n : Nat} (h : n < 16) : isUnreserved (upperHexDigit n) = true := by
  have hall : ∀ m : Fin 16, isUnreserved (upperHexDigit m) = true := by decide
  exact hall ⟨n, h⟩

/-- What a character is encoded as holds only characters that are never encoded, and percent signs. -/
theorem class_of_mem_encodeChar {c d : Char} (h : d ∈ encodeChar c) :
    isUnreserved d = true ∨ d = '%' := by
  obtain ⟨b, -, hb⟩ := List.mem_flatMap.mp h
  rcases mem_encodeByte hb with rfl | ⟨n, hn, rfl⟩
  · exact Or.inr rfl
  · exact Or.inl (isUnreserved_upperHexDigit hn)

/-- An encoded name holds only characters that are never encoded, plus signs and percent signs. -/
theorem class_of_mem_encodeQuery {name : List Char} {d : Char} (h : d ∈ encodeQuery name) :
    isUnreserved d = true ∨ d = '+' ∨ d = '%' := by
  obtain ⟨c, -, hd⟩ := List.mem_flatMap.mp h
  split at hd
  next hplain => exact Or.inl (List.mem_singleton.mp hd ▸ hplain)
  split at hd
  next => exact Or.inr (Or.inl (List.mem_singleton.mp hd))
  next => exact (class_of_mem_encodeChar hd).imp_right Or.inr

theorem not_mem_encodeQuery {c : Char} (h : (isUnreserved c || c == '+' || c == '%') = false) (name : List Char) :
    c ∉ encodeQuery name := by
  intro hmem
  rcases class_of_mem_encodeQuery hmem with hclass | rfl | rfl
  · simp [hclass] at h
  · cases h
  · cases h

/-! ### Reading -/

theorem decodeBytes_cons {c : Char} (h : c ≠ '%') (rest : List Char) :
    decodeBytes (c :: rest) = UInt8.ofNat c.toNat :: decodeBytes rest := by
  have hne : (c == '%') = false := by simpa using h
  match rest with
  | [] => rfl
  | [d] => rfl
  | d :: e :: rest => simp [decodeBytes, hne]

theorem decodeBytes_encodeByte (b : UInt8) (rest : List Char) :
    decodeBytes ((encodeByte b).map spaced ++ rest) = b :: decodeBytes rest := by
  have hb : b.toNat < 256 := b.toNat_lt
  have hhigh : b.toNat / 16 < 16 := by omega
  have hlow : b.toNat % 16 < 16 := by omega
  have hspaced : ∀ {n}, n < 16 → spaced (upperHexDigit n) = upperHexDigit n := fun hn =>
    if_neg (by simpa using (upperHexDigit_class hn).2.1)
  have hpercent : spaced '%' = '%' := by decide
  simp only [encodeByte, List.map_cons, List.map_nil, hpercent, hspaced hhigh, hspaced hlow,
    List.cons_append, List.nil_append, decodeBytes, beq_self_eq_true, if_true,
    hexValue?_upperHexDigit hhigh, hexValue?_upperHexDigit hlow]
  rw [show b.toNat / 16 * 16 + b.toNat % 16 = b.toNat by omega, UInt8.ofNat_toNat]

theorem decodeBytes_encodeBytes (bytes : List UInt8) (rest : List Char) :
    decodeBytes ((bytes.flatMap encodeByte).map spaced ++ rest) = bytes ++ decodeBytes rest := by
  induction bytes with
  | nil => rfl
  | cons b bytes ih =>
    rw [List.flatMap_cons, List.map_append, List.append_assoc, decodeBytes_encodeByte, ih]
    rfl

theorem utf8EncodeChar_of_isAscii {c : Char} (h : isAscii c = true) :
    String.utf8EncodeChar c = [UInt8.ofNat c.toNat] := by
  rw [isAscii, decide_eq_true_eq] at h
  exact if_pos (by show c.toNat ≤ 0x7f; omega)

theorem decodeBytes_written (c : Char) (rest : List Char) :
    decodeBytes ((written c).map spaced ++ rest) = String.utf8EncodeChar c ++ decodeBytes rest := by
  rw [written]
  split
  next hplain =>
    have hspaced : spaced c = c := if_neg (by simpa using ne_of_isUnreserved hplain (by decide))
    rw [List.map_singleton, hspaced, utf8EncodeChar_of_isAscii (isAscii_of_isUnreserved hplain),
      List.singleton_append, decodeBytes_cons (ne_of_isUnreserved hplain (by decide))]
    rfl
  split
  next hspace =>
    obtain rfl := beq_iff_eq.mp hspace
    rw [List.map_singleton, show spaced '+' = ' ' by decide, List.singleton_append,
      decodeBytes_cons (by decide), utf8EncodeChar_of_isAscii (by decide)]
    rfl
  next => exact decodeBytes_encodeBytes _ rest

theorem decodeBytes_encodeQuery (name : List Char) :
    decodeBytes ((encodeQuery name).map spaced) = Utf8.encode name := by
  induction name with
  | nil => rfl
  | cons c rest ih =>
    rw [encodeQuery_cons, List.map_append, decodeBytes_written, ih]
    rfl

theorem decodeRuns_of_isAscii {text : List Char} (h : ∀ c ∈ text, isAscii c = true)
    (run : List Char) :
    decodeRuns run text = Utf8.decodeLossy (decodeBytes (run.reverse ++ text)) := by
  induction text generalizing run with
  | nil => simp [decodeRuns]
  | cons c rest ih =>
    rw [decodeRuns, if_pos (h c (by simp)), ih (fun d hd => h d (by simp [hd]))]
    simp

theorem isAscii_spaced {c : Char} (h : isAscii c = true) : isAscii (spaced c) = true := by
  rw [spaced]
  split
  · decide
  · exact h

/-- **A name is read back from its encoding.** -/
theorem decodeQuery_encodeQuery (name : List Char) : decodeQuery (encodeQuery name) = name := by
  have hascii : ∀ c ∈ (encodeQuery name).map spaced, isAscii c = true := by
    intro c hc
    obtain ⟨d, hd, rfl⟩ := List.mem_map.mp hc
    exact isAscii_spaced (mem_encodeQuery hd).1
  show decodeRuns [] ((encodeQuery name).map spaced) = name
  rw [decodeRuns_of_isAscii hascii, List.reverse_nil, List.nil_append, decodeBytes_encodeQuery,
    Utf8.decodeLossy_encode]

/-! ### Lengths -/

theorem length_decodeBytes_le (run : List Char) : (decodeBytes run).length ≤ run.length := by
  fun_induction decodeBytes run with
  | case1 | case2 | case3 => exact Nat.le_refl _
  | case4 c h l rest _ high low _ _ ih =>
    simp only [List.length_cons]
    omega
  | case5 c h l rest _ _ ih => exact Nat.succ_le_succ ih
  | case6 c h l rest _ ih => exact Nat.succ_le_succ ih

theorem length_decodeRuns_le (run text : List Char) :
    (decodeRuns run text).length ≤ run.length + text.length := by
  have hrun : ∀ run : List Char, (Utf8.decodeLossy (decodeBytes run.reverse)).length ≤ run.length := by
    intro run
    have hread := length_decodeBytes_le run.reverse
    rw [List.length_reverse] at hread
    exact Nat.le_trans (Utf8.length_decodeLossyFrom_le 0 _) hread
  induction text generalizing run with
  | nil => exact hrun run
  | cons c rest ih =>
    rw [decodeRuns]
    split
    · have hrest := ih (c :: run)
      simp only [List.length_cons] at hrest ⊢
      omega
    · have hread := hrun run
      have hrest := ih []
      simp only [List.length_append, List.length_cons, List.length_nil] at hrest ⊢
      omega

/-- Reading an encoded text makes it no longer. -/
theorem length_decode_le (text : List Char) : (decode text).length ≤ text.length := by
  have hread := length_decodeRuns_le [] text
  rwa [List.length_nil, Nat.zero_add] at hread

theorem length_decodeQuery_le (text : List Char) : (decodeQuery text).length ≤ text.length := by
  have hread := length_decode_le (text.map fun c => if c == '+' then ' ' else c)
  rwa [List.length_map] at hread

end WikiMigration.Url
