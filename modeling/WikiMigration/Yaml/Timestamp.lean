/-
Dates and points in time as scalars.

A date is written as year, month and day.  A point in time adds the time of day, with a fraction of a
second of which the first six digits count, and may add its distance from universal time.
-/
import WikiMigration.Decimal.Text
import WikiMigration.Text.Lines

namespace WikiMigration.Yaml

open Text Decimal

/-- A time of day, with its distance from universal time in minutes if it has one. -/
structure TimeOfDay where
  hour : Nat
  minute : Nat
  second : Nat
  microsecond : Nat
  offset : Option Int
  deriving DecidableEq, Repr

/-- A date, or a point in time. -/
structure Timestamp where
  year : Nat
  month : Nat
  day : Nat
  time : Option TimeOfDay
  deriving DecidableEq, Repr

namespace Timestamp

/-- The number that some digits write. -/
def number (digits : List Char) : Nat :=
  digits.foldl (fun n c => 10 * n + (c.toNat - '0'.toNat)) 0

/-- The number that `least` to `most` digits at the front write, and what follows them. -/
def field (least most : Nat) (text : List Char) : Option (Nat × List Char) :=
  let digits := (text.take most).takeWhile Char.isDigit
  if digits.length < least then none else some (number digits, text.drop digits.length)

/-- What follows the mark. -/
def past (mark : Char) : List Char → Option (List Char)
  | c :: rest => if c == mark then some rest else none
  | [] => none

/-- What follows the sign that stands between a date and a time. -/
def pastSeparator : List Char → Option (List Char)
  | 'T' :: rest => some rest
  | 't' :: rest => some rest
  | c :: rest =>
    if c == ' ' || c == '\t' then some (rest.dropWhile fun c => c == ' ' || c == '\t') else none
  | [] => none

/-- The fraction of a second at the front, in millionths, and what follows it. -/
def fraction : List Char → Nat × List Char
  | '.' :: rest =>
    let digits := rest.takeWhile Char.isDigit
    (number ((digits ++ List.replicate 6 '0').take 6), rest.drop digits.length)
  | text => (0, text)

/-- The distance from universal time that ends a text. -/
def zone (text : List Char) : Option (Option Int) :=
  let body := text.dropWhile fun c => c == ' ' || c == '\t'
  match body with
  | [] => if text.isEmpty then some none else none
  | ['Z'] => some (some 0)
  | sign :: rest => do
    let direction : Int ← if sign == '+' then some 1 else if sign == '-' then some (-1) else none
    let (hours, rest) ← field 1 2 rest
    let (minutes, rest) ← if rest.isEmpty then some (0, []) else past ':' rest >>= field 2 2
    if rest.isEmpty then some (some (direction * (60 * hours + minutes))) else none

/-- The timestamp that a text is written as, with fields of any size. -/
def read (text : List Char) : Option Timestamp := do
  let (year, rest) ← field 4 4 text
  let (month, rest) ← past '-' rest >>= field 1 2
  let (day, rest) ← past '-' rest >>= field 1 2
  if rest.isEmpty then return ⟨year, month, day, none⟩
  let (hour, rest) ← pastSeparator rest >>= field 1 2
  let (minute, rest) ← past ':' rest >>= field 2 2
  let (second, rest) ← past ':' rest >>= field 2 2
  let (microsecond, rest) := fraction rest
  let offset ← zone rest
  return ⟨year, month, day, some ⟨hour, minute, second, microsecond, offset⟩⟩

/-- Whether a plain scalar is a timestamp: a bare date has all its digits. -/
def isWritten (text : List Char) : Bool :=
  match read text with
  | some stamp => stamp.time.isSome || text.length == 10
  | none => false

/-- The number of days in a month. -/
def daysIn (year month : Nat) : Nat :=
  if month == 2 then
    if year % 4 == 0 && (year % 100 != 0 || year % 400 == 0) then 29 else 28
  else if month == 4 || month == 6 || month == 9 || month == 11 then 30
  else 31

/-- What is wrong with the fields of a timestamp. -/
def fault? (stamp : Timestamp) : Option String :=
  if stamp.year == 0 then some "year 0 is out of range"
  else if stamp.month == 0 || 12 < stamp.month then some "month must be in 1..12"
  else if stamp.day == 0 || daysIn stamp.year stamp.month < stamp.day then
    some "day is out of range for month"
  else
    match stamp.time with
    | none => none
    | some time =>
      if 23 < time.hour then some "hour must be in 0..23"
      else if 59 < time.minute then some "minute must be in 0..59"
      else if 59 < time.second then some "second must be in 0..59"
      else none

/-- The date as text. -/
def dateText (stamp : Timestamp) : String :=
  padZeros 4 (Nat.repr stamp.year) ++ "-" ++ padZeros 2 (Nat.repr stamp.month) ++ "-"
    ++ padZeros 2 (Nat.repr stamp.day)

/-- A distance from universal time as text. -/
def offsetText (offset : Int) : String :=
  (if offset < 0 then "-" else "+") ++ padZeros 2 (Nat.repr (offset.natAbs / 60)) ++ ":"
    ++ padZeros 2 (Nat.repr (offset.natAbs % 60))

/-- The timestamp as text. -/
def text (stamp : Timestamp) : String :=
  match stamp.time with
  | none => stamp.dateText
  | some time =>
    stamp.dateText ++ " " ++ padZeros 2 (Nat.repr time.hour) ++ ":"
      ++ padZeros 2 (Nat.repr time.minute) ++ ":" ++ padZeros 2 (Nat.repr time.second)
      ++ (if time.microsecond == 0 then "" else "." ++ padZeros 6 (Nat.repr time.microsecond))
      ++ (time.offset.map offsetText).getD ""

/-- A distance from universal time in quoted form. -/
def quotedOffset (offset : Int) : String :=
  if offset == 0 then "datetime.timezone.utc"
  else
    let days := if offset < 0 then "days=-1, " else ""
    let seconds := if offset < 0 then 86400 + 60 * offset else 60 * offset
    "datetime.timezone(datetime.timedelta(" ++ days ++ "seconds=" ++ toString seconds ++ "))"

/-- The timestamp in quoted form: seconds and fractions of them that are zero are left out. -/
def quoted (stamp : Timestamp) : String :=
  let date := [stamp.year, stamp.month, stamp.day]
  match stamp.time with
  | none => "datetime.date(" ++ ", ".intercalate (date.map Nat.repr) ++ ")"
  | some time =>
    let exact := if time.microsecond != 0 then [time.second, time.microsecond]
      else if time.second != 0 then [time.second] else []
    let zone := (time.offset.map fun offset => "tzinfo=" ++ quotedOffset offset).toList
    "datetime.datetime("
      ++ ", ".intercalate ((date ++ [time.hour, time.minute] ++ exact).map Nat.repr ++ zone) ++ ")"

/-- The name of the kind of value the timestamp is. -/
def kindName (stamp : Timestamp) : String := if stamp.time.isSome then "datetime" else "date"

end Timestamp

end WikiMigration.Yaml
