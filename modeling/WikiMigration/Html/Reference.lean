/-
Character references.

A reference is an ampersand and either a number sign and a number or a name.  The number is decimal,
or hexadecimal behind an x; code points that are no characters become U+FFFD, and those from U+0080
to U+009F are read as the Windows code page has them.  Of the names the longest one counts; some old
names need no semicolon, but within an attribute value such a name is left alone when a letter, a
digit or an equals sign follows.
-/
import WikiMigration.Html.Entity
import WikiMigration.Text.Scan
import WikiMigration.Text.WordChar
import WikiMigration.Url.Percent

namespace WikiMigration.Html

open Text

/-- The characters of the Windows code page from 128 to 159; zero where it has none. -/
def windowsCodes : List Nat :=
  [0x20AC, 0, 0x201A, 0x192, 0x201E, 0x2026, 0x2020, 0x2021, 0x2C6, 0x2030, 0x160, 0x2039, 0x152, 0,
    0x17D, 0, 0, 0x2018, 0x2019, 0x201C, 0x201D, 0x2022, 0x2013, 0x2014, 0x2DC, 0x2122, 0x161, 0x203A,
    0x153, 0, 0x17E, 0x178]

/-- The character of a number. -/
def numberedChar (n : Nat) : Char :=
  if n == 0 || 0x10FFFF < n || (0xD800 ≤ n && n < 0xE000) then Char.ofNat 0xFFFD
  else if 0x80 ≤ n && n < 0xA0 then
    let code := (windowsCodes[n - 0x80]?).getD 0
    Char.ofNat (if code == 0 then n else code)
  else Char.ofNat n

/-- The number that digits of a base stand for. -/
def numberOf (base : Nat) (digits : List Char) : Nat :=
  digits.foldl (fun n c => n * base + (Url.hexValue? c).getD 0) 0

/-- Whether the character is a hexadecimal digit. -/
def isHexDigit (c : Char) : Bool := (Url.hexValue? c).isSome

/-- A numbered reference: its character and its length, for the text behind the number sign. -/
def numbered? (rest : List Char) : Option (List Char × Nat) :=
  let (mark, base, digits) :=
    match rest with
    | 'x' :: more => (1, 16, more.takeWhile isHexDigit)
    | 'X' :: more => (1, 16, more.takeWhile isHexDigit)
    | _ => (0, 10, rest.takeWhile isDigit)
  if digits.isEmpty then none
  else
    let closed := (rest.drop (mark + digits.length)).head? == some ';'
    some ([numberedChar (numberOf base digits)],
      2 + mark + digits.length + (if closed then 1 else 0))

/-- The longest old name that starts a text, with what it stands for; `fuel` is the greatest length
tried. -/
def bareName? (text : List Char) : Nat → Option (List Char × Nat)
  | 0 => none
  | fuel + 1 =>
    let name := String.ofList (text.take (fuel + 1))
    if bareEntities.contains name then (entity? name).map fun cs => (cs, fuel + 1)
    else bareName? text fuel

/-- A named reference: its characters and its length, for the text behind the ampersand. -/
def named? (inAttribute : Bool) (rest : List Char) : Option (List Char × Nat) :=
  let run := rest.takeWhile fun c => isLatin c || isDigit c
  let closed :=
    if (rest.drop run.length).head? == some ';' then
      (entity? (String.ofList run)).map fun cs => (cs, run.length + 2)
    else none
  match closed with
  | some found => some found
  | none =>
    match bareName? run (min run.length 32) with
    | none => none
    | some (cs, length) =>
      let follower := (rest.drop length).head?
      if inAttribute && follower.any (fun c => c == '=' || isLatin c || isDigit c) then none
      else some (cs, length + 1)

/-- A reference at the front of a text. -/
def referencePattern (inAttribute : Bool) : Pattern Char (List Char)
  | '&' :: '#' :: rest => numbered? rest
  | '&' :: rest => named? inAttribute rest
  | _ => none

/-- The text with its references read. -/
def readReferences (inAttribute : Bool) (text : List Char) : List Char :=
  substitute (referencePattern inAttribute) id text

end WikiMigration.Html
