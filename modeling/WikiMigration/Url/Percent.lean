/-
Percent-encoding of names.

A name is written as its UTF-8 bytes: letters, digits and `_.-~` stand for themselves, all other
bytes become a percent sign and two hexadecimal digits.  In a query a space is written as a plus
sign.  Decoding reads the encoded bytes of each ASCII run as UTF-8 and leaves a percent sign that no
two digits follow as it is.
-/
import WikiMigration.Text.Lines
import WikiMigration.Text.Utf8
import WikiMigration.Text.WordChar

namespace WikiMigration.Url

open Text

/-- Whether the character is never encoded. -/
def isUnreserved (c : Char) : Bool :=
  isLatin c || isDigit c || c == '_' || c == '.' || c == '-' || c == '~'

/-- The digit of a value below sixteen, in upper case. -/
def upperHexDigit (n : Nat) : Char :=
  if n < 10 then Char.ofNat (48 + n) else Char.ofNat (55 + n)

/-- A percent sign and the two digits of the byte. -/
def encodeByte (b : UInt8) : List Char :=
  ['%', upperHexDigit (b.toNat / 16), upperHexDigit (b.toNat % 16)]

/-- The bytes of the character, each percent-encoded. -/
def encodeChar (c : Char) : List Char :=
  (String.utf8EncodeChar c).flatMap encodeByte

/-- A path: slashes stay. -/
def encodePath (path : List Char) : List Char :=
  path.flatMap fun c => if isUnreserved c || c == '/' then [c] else encodeChar c

/-- A name in a query: a space becomes a plus sign. -/
def encodeQuery (name : List Char) : List Char :=
  name.flatMap fun c =>
    if isUnreserved c then [c] else if c == ' ' then ['+'] else encodeChar c

/-- The value of a hexadecimal digit in either case. -/
def hexValue? (c : Char) : Option Nat :=
  if isDigit c then some (c.toNat - 48)
  else if 'a' ≤ c && c ≤ 'f' then some (c.toNat - 87)
  else if 'A' ≤ c && c ≤ 'F' then some (c.toNat - 55)
  else none

/-- The bytes of an ASCII run: encoded bytes are read, all else stands for itself. -/
def decodeBytes : List Char → List UInt8
  | [] => []
  | [c] => [UInt8.ofNat c.toNat]
  | [c, d] => [UInt8.ofNat c.toNat, UInt8.ofNat d.toNat]
  | c :: h :: l :: rest =>
    if c == '%' then
      match hexValue? h, hexValue? l with
      | some high, some low => UInt8.ofNat (high * 16 + low) :: decodeBytes rest
      | _, _ => UInt8.ofNat c.toNat :: decodeBytes (h :: l :: rest)
    else UInt8.ofNat c.toNat :: decodeBytes (h :: l :: rest)

/-- Whether the character is below U+0080. -/
def isAscii (c : Char) : Bool := c.toNat < 0x80

/-- Reads the ASCII runs of a text as encoded UTF-8; `run` is the current one, last character
first. -/
def decodeRuns (run : List Char) : List Char → List Char
  | [] => Utf8.decodeLossy (decodeBytes run.reverse)
  | c :: rest =>
    if isAscii c then decodeRuns (c :: run) rest
    else Utf8.decodeLossy (decodeBytes run.reverse) ++ c :: decodeRuns [] rest

/-- The text that a percent-encoded text stands for. -/
def decode (text : List Char) : List Char := decodeRuns [] text

/-- The text that a name in a query stands for: a plus sign is a space. -/
def decodeQuery (text : List Char) : List Char :=
  decode (text.map fun c => if c == '+' then ' ' else c)

end WikiMigration.Url
