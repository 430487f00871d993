/-
A stream with a meter: what is read passes through it and is counted and checksummed.
-/
import WikiMigration.Checksum.Sha256

namespace WikiMigration.Checksum

/-- What has passed, in order. -/
structure Meter where
  passed : List UInt8 := []

namespace Meter

/-- The meter once some bytes have passed. -/
def pass (meter : Meter) (bytes : List UInt8) : Meter := ⟨meter.passed ++ bytes⟩

/-- The number of bytes that have passed. -/
def count (meter : Meter) : Nat := meter.passed.length

/-- The checksum of what has passed. -/
def digest (meter : Meter) : List UInt8 := sha256 meter.passed

end Meter

/-- Reads on in a stream through a meter: the bytes read, what is left of the stream, and the meter
behind them.  Without a size all that is left is read. -/
def readThrough (meter : Meter) (left : List UInt8) (size : Option Nat) :
    List UInt8 × List UInt8 × Meter :=
  let bytes := match size with
    | some n => left.take n
    | none => left
  (bytes, left.drop bytes.length, meter.pass bytes)

end WikiMigration.Checksum
