/-
Binary floating-point numbers with 53 significant bits.

A finite number is a sign, a mantissa below 2^53 and a power of two not below 2^-1074; the mantissa
is at least 2^52 unless the power is the least one, so that each number has one form.  Arithmetic is
exact on the ratios that the numbers are, and rounds once, to the nearest number, a tie to the even
mantissa.
-/
namespace WikiMigration.Decimal

/-- A number of the format. -/
inductive Binary64 where
  | finite (negative : Bool) (mantissa : Nat) (exponent : Int)
  | infinite (negative : Bool)
  | nan
  deriving DecidableEq, Repr

/-- The whole number nearest to a ratio, a tie to the even one. -/
def roundHalfEven (num den : Nat) : Nat :=
  let q := num / den
  let r := 2 * (num % den)
  if r < den then q
  else if r == den then (if q % 2 == 0 then q else q + 1)
  else q + 1

/-- The whole number nearest to `num / den` divided by `base` to the power. -/
def roundScaled (base : Nat) (num den : Nat) (power : Int) : Nat :=
  if 0 ≤ power then roundHalfEven num (den * Nat.pow base power.toNat)
  else roundHalfEven (num * Nat.pow base (-power).toNat) den

/-- Whether `num / den` is less than `bound` times two to the power. -/
def ratioBelow (num den bound : Nat) (power : Int) : Bool :=
  if 0 ≤ power then num < bound * den * Nat.pow 2 power.toNat
  else num * Nat.pow 2 (-power).toNat < bound * den

namespace Binary64

/-- The least power of two. -/
def leastExponent : Int := -1074

/-- The greatest power of two. -/
def greatestExponent : Int := 971

/-- Zero of the given sign. -/
def zero (negative : Bool) : Binary64 := .finite negative 0 leastExponent

/-- The number nearest to a ratio; `den` is positive. -/
def ofRatio (negative : Bool) (num den : Nat) : Binary64 :=
  if num == 0 then zero negative
  else
    let guess : Int := (num.log2 : Int) - den.log2 - 52
    let exponent := max leastExponent
      (if ratioBelow num den (Nat.pow 2 52) guess then guess - 1 else guess)
    let mantissa := roundScaled 2 num den exponent
    let (mantissa, exponent) :=
      if mantissa == Nat.pow 2 53 then (Nat.pow 2 52, exponent + 1) else (mantissa, exponent)
    if greatestExponent < exponent then .infinite negative
    else .finite negative mantissa exponent

/-- The number nearest to a whole number of tenths, hundredths and so on: `digits` times ten to the
power. -/
def ofDecimal (negative : Bool) (digits : Nat) (power : Int) : Binary64 :=
  let size : Int := (Nat.repr digits).length + power
  if digits == 0 then zero negative
  else if 400 < size then .infinite negative
  else if size < -400 then zero negative
  else if 0 ≤ power then ofRatio negative (digits * Nat.pow 10 power.toNat) 1
  else ofRatio negative digits (Nat.pow 10 (-power).toNat)

/-- The number nearest to a whole number. -/
def ofInt (n : Int) : Binary64 := ofRatio (n < 0) n.natAbs 1

/-- The magnitude of a finite number as a ratio. -/
def ratio (mantissa : Nat) (exponent : Int) : Nat × Nat :=
  if 0 ≤ exponent then (mantissa * Nat.pow 2 exponent.toNat, 1)
  else (mantissa, Nat.pow 2 (-exponent).toNat)

/-- The number nearest to a signed ratio; an exact zero is positive. -/
def ofSignedRatio (num : Int) (den : Nat) : Binary64 := ofRatio (num < 0) num.natAbs den

/-- A magnitude with its sign. -/
def signed (negative : Bool) (magnitude : Nat) : Int :=
  if negative then -(magnitude : Int) else magnitude

/-- The opposite number. -/
def neg : Binary64 → Binary64
  | .finite negative mantissa exponent => .finite (!negative) mantissa exponent
  | .infinite negative => .infinite (!negative)
  | .nan => .nan

/-- The sum of two numbers. -/
def add : Binary64 → Binary64 → Binary64
  | .finite s m e, .finite t n f =>
    let (a, b) := ratio m e
    let (c, d) := ratio n f
    let sum := signed s (a * d) + signed t (c * b)
    if sum == 0 then zero (s && t) else ofSignedRatio sum (b * d)
  | .infinite s, .infinite t => if s == t then .infinite s else .nan
  | .infinite s, .finite _ _ _ => .infinite s
  | .finite _ _ _, .infinite t => .infinite t
  | _, _ => .nan

/-- The difference of two numbers. -/
def sub (x y : Binary64) : Binary64 := add x (neg y)

/-- The product of two numbers. -/
def mul : Binary64 → Binary64 → Binary64
  | .finite s m e, .finite t n f =>
    let (a, b) := ratio m e
    let (c, d) := ratio n f
    ofRatio (s != t) (a * c) (b * d)
  | .infinite s, .finite t n _ => if n == 0 then .nan else .infinite (s != t)
  | .finite s m _, .infinite t => if m == 0 then .nan else .infinite (s != t)
  | .infinite s, .infinite t => .infinite (s != t)
  | _, _ => .nan

/-- Whether two numbers are equal: the two zeros are, and nothing equals the number that is none. -/
def beq : Binary64 → Binary64 → Bool
  | .finite s m e, .finite t n f => m == n && (m == 0 || (s == t && e == f))
  | .infinite s, .infinite t => s == t
  | _, _ => false

end Binary64

end WikiMigration.Decimal
