/-
Numbers as text.

A number is written with the fewest digits that read back: positionally from one ten-thousandth up
to below ten to the sixteenth, with an exponent of at least two digits elsewhere.  A number with
fixed places is rounded to the nearest, a tie to the even digit.

A duration in seconds that is shorter than a minute is written with one place; a longer one is written in whole
units, the rest of a second left out.
-/
import WikiMigration.Decimal.Binary64

namespace WikiMigration.Decimal

/-! ### The fewest digits that read back as the same number

The reals that round to a finite number form an interval around it, ends included exactly when the
mantissa is even.  On the grid of numbers with one significant digit, then two, and so on, the two
neighbours of the number are tried; the first grid with one of them inside the interval gives the
digits, the nearer neighbour if both are inside.  Seventeen digits always suffice.
-/

/-- Digits and a power of ten: `digits` times ten to the power. -/
structure Digits where
  digits : Nat
  power : Int
  deriving DecidableEq, Repr

/-- A ratio times ten to the power, as a ratio. -/
def scaleTen (num den : Nat) (power : Int) : Nat × Nat :=
  if 0 ≤ power then (num * Nat.pow 10 power.toNat, den) else (num, den * Nat.pow 10 (-power).toNat)

/-- Whether the ratio is at least ten to the power. -/
def atLeastTenTo (num den : Nat) (power : Int) : Bool :=
  if 0 ≤ power then den * Nat.pow 10 power.toNat ≤ num else den ≤ num * Nat.pow 10 (-power).toNat

/-- The least power of ten above the ratio, searched upwards in `fuel` steps. -/
def powerAbove (num den : Nat) : Nat → Int → Int
  | 0, power => power
  | fuel + 1, power =>
    if atLeastTenTo num den power then powerAbove num den fuel (power + 1) else power

/-- A digit sequence without the zeros at its end; `fuel` bounds their number. -/
def dropZeros : Nat → Nat → Int → Digits
  | 0, digits, power => ⟨digits, power⟩
  | fuel + 1, digits, power =>
    if digits % 10 == 0 && digits != 0 then dropZeros fuel (digits / 10) (power + 1)
    else ⟨digits, power⟩

/-- The interval of the reals that round to a number: its lower and upper end over one denominator,
and whether the ends belong to it. -/
def roundingInterval (mantissa : Nat) (exponent : Int) : Nat × Nat × Nat × Bool :=
  let below := if mantissa == Nat.pow 2 52 && Binary64.leastExponent < exponent then 1 else 2
  let (low, den) := Binary64.ratio (4 * mantissa - below) exponent
  let (high, _) := Binary64.ratio (4 * mantissa + 2) exponent
  (low, high, 4 * den, mantissa % 2 == 0)

/-- Whether the decimal lies between the two ends. -/
def insideInterval (candidate : Nat) (power : Int) (low high den : Nat) (closed : Bool) : Bool :=
  let (c, d) := scaleTen candidate 1 power
  let lower := if closed then low * d ≤ c * den else low * d < c * den
  let upper := if closed then c * den ≤ high * d else c * den < high * d
  lower && upper

/-- The nearer of the neighbours inside the interval on the grid of the power, if one is inside. -/
def gridHit? (num den low high wide : Nat) (closed : Bool) (power : Int) : Option Nat :=
  let (n, d) := scaleTen num den (-power)
  let q := n / d
  let r := n % d
  let lower := insideInterval q power low high wide closed
  let upper := insideInterval (q + 1) power low high wide closed
  if lower && upper then
    some (if 2 * r < d then q else if 2 * r == d then (if q % 2 == 0 then q else q + 1) else q + 1)
  else if lower then some q
  else if upper then some (q + 1)
  else none

/-- Tries the grids of more and more digits. -/
def shortestFrom (num den low high wide : Nat) (closed : Bool) : Nat → Int → Digits
  | 0, power => ⟨(scaleTen num den (-power)).1 / (scaleTen num den (-power)).2, power⟩
  | fuel + 1, power =>
    match gridHit? num den low high wide closed power with
    | some digits => dropZeros 20 digits power
    | none => shortestFrom num den low high wide closed fuel (power - 1)

/-- The fewest digits of a positive finite number. -/
def shortest (mantissa : Nat) (exponent : Int) : Digits :=
  let (num, den) := Binary64.ratio mantissa exponent
  let (low, high, wide, closed) := roundingInterval mantissa exponent
  let guess : Int := ((num.log2 : Int) - den.log2) * 30103 / 100000 - 1
  let above := powerAbove num den 5 guess
  shortestFrom num den low high wide closed 17 (above - 1)

/-! ### Numbers as text -/

/-- The text with zeros before it up to a width. -/
def padZeros (width : Nat) (text : String) : String :=
  String.ofList (List.replicate (width - text.length) '0') ++ text

/-- Decimal places: the digits with the point before the last `places` of them. -/
def withPoint (places digits : Nat) : String :=
  if places == 0 then Nat.repr digits
  else
    Nat.repr (digits / Nat.pow 10 places) ++ "."
      ++ padZeros places (Nat.repr (digits % Nat.pow 10 places))

/-- The text of digits and a power of ten. -/
def Digits.text (d : Digits) : String :=
  let text := Nat.repr d.digits
  let point : Int := text.length + d.power
  if -4 < point && point ≤ 16 then
    if 0 ≤ d.power then
      text ++ String.ofList (List.replicate d.power.toNat '0') ++ ".0"
    else withPoint (-d.power).toNat d.digits
  else
    let exponent := point - 1
    let sign := if exponent < 0 then "-" else "+"
    let rest := (text.drop 1).toString
    (text.take 1).toString ++ (if rest.isEmpty then "" else "." ++ rest) ++ "e" ++ sign
      ++ padZeros 2 (Nat.repr exponent.natAbs)

/-- The text of a number. -/
def Binary64.text : Binary64 → String
  | .finite negative mantissa exponent =>
    (if negative then "-" else "")
      ++ (if mantissa == 0 then "0.0" else (shortest mantissa exponent).text)
  | .infinite negative => if negative then "-inf" else "inf"
  | .nan => "nan"

/-- The text of a number with fixed decimal places. -/
def Binary64.fixed (places : Nat) : Binary64 → String
  | .finite negative mantissa exponent =>
    let (num, den) := Binary64.ratio mantissa exponent
    (if negative then "-" else "") ++ withPoint places (roundHalfEven (num * Nat.pow 10 places) den)
  | x => x.text

/-- The number nearest to this one among those with the given decimal places. -/
def Binary64.roundTo (places : Nat) : Binary64 → Binary64
  | .finite negative mantissa exponent =>
    let (num, den) := Binary64.ratio mantissa exponent
    Binary64.ofRatio negative (roundHalfEven (num * Nat.pow 10 places) den) (Nat.pow 10 places)
  | x => x

/-! ### Durations -/

/-- The whole number of units that a finite duration holds, rounded down. -/
def Binary64.wholeUnits (unit : Nat) : Binary64 → Int
  | .finite negative mantissa exponent =>
    let (num, den) := Binary64.ratio mantissa exponent
    Binary64.signed negative num / (den * unit : Nat)
  | _ => 0

/-- A duration as text. -/
def Binary64.durationText (seconds : Binary64) : String :=
  let whole := seconds.wholeUnits 1
  if whole < 60 then seconds.fixed 1 ++ "s"
  else
    let rest := toString (whole % 60) ++ "s"
    if whole < 3600 then toString (whole / 60) ++ "m " ++ rest
    else toString (whole / 3600) ++ "h " ++ toString (whole % 3600 / 60) ++ "m " ++ rest

end WikiMigration.Decimal
