/-
Bytes read as UTF-8.

A fault covers the longest run of bytes that could still have started a character; reading goes on
behind it.  Surrogates, overlong forms and code points beyond U+10FFFF are faults.
-/
namespace WikiMigration.Text.Utf8

/-- Why bytes are no character. -/
inductive Fault where
  | invalidStart
  | invalidContinuation
  | unexpectedEnd
  deriving DecidableEq, Repr

/-- What a fault is called in a message. -/
def Fault.reason : Fault → String
  | .invalidStart => "invalid start byte"
  | .invalidContinuation => "invalid continuation byte"
  | .unexpectedEnd => "unexpected end of data"

/-- The bytes of a text. -/
def encode (text : List Char) : List UInt8 :=
  text.flatMap String.utf8EncodeChar

/-- Whether the byte continues a character. -/
def isContinuation (b : Nat) : Bool := 0x80 ≤ b && b < 0xC0

/-- The bytes the second byte may be, for the lead byte: the ends of the range keep out overlong
forms, surrogates and code points that are too large. -/
def secondRange (lead : Nat) : Nat × Nat :=
  if lead == 0xE0 then (0xA0, 0xBF)
  else if lead == 0xED then (0x80, 0x9F)
  else if lead == 0xF0 then (0x90, 0xBF)
  else if lead == 0xF4 then (0x80, 0x8F)
  else (0x80, 0xBF)

/-- How many bytes follow the lead byte, if it is one. -/
def trailing? (lead : Nat) : Option Nat :=
  if lead < 0x80 then some 0
  else if 0xC2 ≤ lead && lead < 0xE0 then some 1
  else if 0xE0 ≤ lead && lead < 0xF0 then some 2
  else if 0xF0 ≤ lead && lead < 0xF5 then some 3
  else none

/-- What stands at the front of some bytes: a character and the number of its bytes behind the
first, or a fault and the number of bytes behind the first that belong to it. -/
def front (lead : UInt8) (rest : List UInt8) : Except (Fault × Nat) (Char × Nat) :=
  let b0 := lead.toNat
  match trailing? b0 with
  | none => .error (.invalidStart, 0)
  | some 0 => .ok (Char.ofNat b0, 0)
  | some count =>
    match rest with
    | [] => .error (.unexpectedEnd, 0)
    | second :: rest =>
      let b1 := second.toNat
      let (low, high) := secondRange b0
      if b1 < low || high < b1 then .error (.invalidContinuation, 0)
      else if count == 1 then .ok (Char.ofNat ((b0 % 0x20) * 0x40 + b1 % 0x40), 1)
      else match rest with
        | [] => .error (.unexpectedEnd, 1)
        | third :: rest =>
          let b2 := third.toNat
          if !isContinuation b2 then .error (.invalidContinuation, 1)
          else if count == 2 then
            .ok (Char.ofNat (((b0 % 0x10) * 0x40 + b1 % 0x40) * 0x40 + b2 % 0x40), 2)
          else match rest with
            | [] => .error (.unexpectedEnd, 2)
            | fourth :: _ =>
              let b3 := fourth.toNat
              if !isContinuation b3 then .error (.invalidContinuation, 2)
              else .ok (Char.ofNat
                ((((b0 % 8) * 0x40 + b1 % 0x40) * 0x40 + b2 % 0x40) * 0x40 + b3 % 0x40), 3)

/-- The characters of the bytes behind the next `skip`, each fault read as U+FFFD. -/
def decodeLossyFrom : Nat → List UInt8 → List Char
  | _, [] => []
  | skip + 1, _ :: rest => decodeLossyFrom skip rest
  | 0, lead :: rest =>
    match front lead rest with
    | .ok (c, more) => c :: decodeLossyFrom more rest
    | .error (_, more) => Char.ofNat 0xFFFD :: decodeLossyFrom more rest

/-- The characters of the bytes, each fault read as U+FFFD. -/
def decodeLossy (bytes : List UInt8) : List Char := decodeLossyFrom 0 bytes

/-- Bytes that are no text: where the first fault starts, the bytes of it, and what it is. -/
structure DecodeError where
  position : Nat
  bytes : List UInt8
  fault : Fault
  deriving DecidableEq, Repr

/-- The characters of the bytes behind the next `skip`; `position` counts the bytes before. -/
def decodeFrom : Nat → Nat → List UInt8 → Except DecodeError (List Char)
  | _, _, [] => .ok []
  | skip + 1, position, _ :: rest => decodeFrom skip (position + 1) rest
  | 0, position, lead :: rest =>
    match front lead rest with
    | .ok (c, more) => (decodeFrom more (position + 1) rest).map (c :: ·)
    | .error (fault, more) => .error ⟨position, (lead :: rest).take (more + 1), fault⟩

/-- The characters of the bytes, or their first fault. -/
def decode (bytes : List UInt8) : Except DecodeError (List Char) := decodeFrom 0 0 bytes

/-- The digit of a value below sixteen, in lower case. -/
def hexDigit (n : Nat) : Char :=
  if n < 10 then Char.ofNat (48 + n) else Char.ofNat (87 + n)

/-- Two hexadecimal digits. -/
def hexByte (b : UInt8) : List Char := [hexDigit (b.toNat / 16), hexDigit (b.toNat % 16)]

/-- The message of a fault names its byte, or the span of its bytes. -/
def DecodeError.message (e : DecodeError) : String :=
  match e.bytes with
  | [b] =>
    "'utf-8' codec can't decode byte 0x" ++ String.ofList (hexByte b) ++ " in position "
      ++ toString e.position ++ ": " ++ e.fault.reason
  | _ =>
    "'utf-8' codec can't decode bytes in position " ++ toString e.position ++ "-"
      ++ toString (e.position + e.bytes.length - 1) ++ ": " ++ e.fault.reason

end WikiMigration.Text.Utf8
