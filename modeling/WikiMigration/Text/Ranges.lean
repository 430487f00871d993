/-
Sets of characters given by ranges of code points.

A property of Unicode is a list of closed ranges, in ascending order.  Characters below U+0080 are
left to the module of the property, which names them outright.
-/
namespace WikiMigration.Text

/-- Closed ranges of code points, in ascending order. -/
abbrev Ranges := List (Nat × Nat)

/-- Whether one of the ranges holds the code point. -/
def Ranges.holds (ranges : Ranges) (n : Nat) : Bool :=
  ranges.any fun range => range.1 ≤ n && n ≤ range.2

end WikiMigration.Text
