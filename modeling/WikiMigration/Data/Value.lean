/-
Configuration values.

A value is a scalar, a list, or a mapping from scalars to values that remembers the order in which
its keys came.  Scalars that only a document can hold, such as dates, carry the texts they are
written as.
-/
import WikiMigration.Decimal.Binary64

namespace WikiMigration.Data

open Decimal

/-- A value without parts. -/
inductive Scalar where
  | null
  | bool (b : Bool)
  | int (n : Int)
  | float (x : Binary64)
  | text (s : String)
  /-- A value of another kind: the name of the kind, its text, and the text that shows it within
  another value. -/
  | other (kind : String) (text : String) (quoted : String)
  deriving DecidableEq, Repr

/-- A configuration value. -/
inductive Value where
  | scalar (s : Scalar)
  | list (items : List Value)
  | mapping (entries : List (Scalar × Value))
  deriving Repr

mutual

/-- Whether two values are equal. -/
def Value.decEq : (a b : Value) → Decidable (a = b)
  | .scalar s, .scalar t => decidable_of_iff (s = t) (by simp)
  | .list xs, .list ys => @decidable_of_iff _ (xs = ys) (by simp) (decEqItems xs ys)
  | .mapping xs, .mapping ys => @decidable_of_iff _ (xs = ys) (by simp) (decEqEntries xs ys)
  | .scalar _, .list _ => isFalse nofun
  | .scalar _, .mapping _ => isFalse nofun
  | .list _, .scalar _ => isFalse nofun
  | .list _, .mapping _ => isFalse nofun
  | .mapping _, .scalar _ => isFalse nofun
  | .mapping _, .list _ => isFalse nofun

/-- Whether two lists of values are equal. -/
def decEqItems : (xs ys : List Value) → Decidable (xs = ys)
  | [], [] => isTrue rfl
  | [], _ :: _ => isFalse nofun
  | _ :: _, [] => isFalse nofun
  | x :: xs, y :: ys =>
    @decidable_of_iff _ (x = y ∧ xs = ys) (by simp)
      (@instDecidableAnd _ _ (x.decEq y) (decEqItems xs ys))

/-- Whether two lists of entries are equal. -/
def decEqEntries : (xs ys : List (Scalar × Value)) → Decidable (xs = ys)
  | [], [] => isTrue rfl
  | [], _ :: _ => isFalse nofun
  | _ :: _, [] => isFalse nofun
  | (k, x) :: xs, (l, y) :: ys =>
    @decidable_of_iff _ (k = l ∧ x = y ∧ xs = ys) (by simp [and_assoc])
      (@instDecidableAnd _ _ _ (@instDecidableAnd _ _ (x.decEq y) (decEqEntries xs ys)))

end

instance : DecidableEq Value := Value.decEq

namespace Value

@[match_pattern] abbrev null : Value := .scalar .null
@[match_pattern] abbrev bool (b : Bool) : Value := .scalar (.bool b)
@[match_pattern] abbrev int (n : Int) : Value := .scalar (.int n)
@[match_pattern] abbrev float (x : Binary64) : Value := .scalar (.float x)
@[match_pattern] abbrev text (s : String) : Value := .scalar (.text s)

end Value

/-- The number that a scalar is, if it is one: the two truth values count as one and zero. -/
def Scalar.number? : Scalar → Option Binary64
  | .bool b => some (Binary64.ofInt (if b then 1 else 0))
  | .int n => some (Binary64.ofInt n)
  | .float x => some x
  | _ => none

/-- The whole number that a scalar is, if it is one. -/
def Scalar.int? : Scalar → Option Int
  | .bool b => some (if b then 1 else 0)
  | .int n => some n
  | _ => none

/-- Whether two scalars are one key: equal numbers are, whatever their kind. -/
def Scalar.sameKey (a b : Scalar) : Bool :=
  match a.int?, b.int? with
  | some m, some n => m == n
  | _, _ =>
    match a.number?, b.number? with
    | some x, some y => x.beq y
    | _, _ => decide (a = b)

/-- The value under a key. -/
def lookup (key : Scalar) : List (Scalar × Value) → Option Value
  | [] => none
  | (k, v) :: rest => if k.sameKey key then some v else lookup key rest

/-- The entries with the value under the key replaced, or with a new entry at the end. -/
def assign (key : Scalar) (value : Value) : List (Scalar × Value) → List (Scalar × Value)
  | [] => [(key, value)]
  | (k, v) :: rest =>
    if k.sameKey key then (k, value) :: rest else (k, v) :: assign key value rest

/-- The entries without the key. -/
def erase (key : Scalar) (entries : List (Scalar × Value)) : List (Scalar × Value) :=
  entries.filter fun entry => !entry.1.sameKey key

/-- The value under a text key of a mapping; `none` for every other value. -/
def Value.get? (value : Value) (key : String) : Option Value :=
  match value with
  | .mapping entries => lookup (.text key) entries
  | _ => none

/-- Whether the value counts as given: null, false, zero and everything empty do not. -/
def Value.isGiven : Value → Bool
  | .null => false
  | .bool b => b
  | .int n => n != 0
  | .float x => !x.beq (Binary64.zero false)
  | .text s => s != ""
  | .scalar (.other _ _ _) => true
  | .list items => !items.isEmpty
  | .mapping entries => !entries.isEmpty

end WikiMigration.Data
