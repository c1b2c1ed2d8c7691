import PacketProtocol.Bytes
import PacketProtocol.Binary.Format
/-!
# Double precision

A double is its bit pattern. `equal` is equality of numbers: zeros of either sign agree and a NaN
differs from everything. Conversions round to the nearest double, ties to even.
-/

namespace PacketProtocol

open scoped Numerals

/-- A double-precision number by its 64 bits. -/
structure Binary64 where
  bits : UInt64
deriving DecidableEq, Repr

namespace Binary64

/-- The bits without the sign. -/
def magnitude (x : Binary64) : Nat := x.bits.toNat % 2 ^ (63 : Nat)

/-- The sign bit. -/
def negative (x : Binary64) : Bool := 2 ^ (63 : Nat) ≤ x.bits.toNat

def ofParts (negative : Bool) (magnitude : Nat) : Binary64 :=
  ⟨UInt64.ofNat (magnitude + if negative then 2 ^ (63 : Nat) else 0)⟩

/-- The quiet NaN with an empty payload. -/
def nan : Binary64 := ⟨0x7ff8000000000000⟩

def isNaN (x : Binary64) : Bool := Format.binary64.infinity < x.magnitude

def isFinite (x : Binary64) : Bool := x.magnitude < Format.binary64.infinity

/-- Equality of numbers. -/
def equal (x y : Binary64) : Bool :=
  !x.isNaN && !y.isNaN && x.magnitude == y.magnitude && (x.negative == y.negative || x.magnitude == 0)

/-- Whether the number is less than zero. -/
def isBelowZero (x : Binary64) : Bool := x.negative && !x.isNaN && x.magnitude != 0

/-- The exact absolute value of a finite number. -/
def scaled (x : Binary64) : Scaled := Format.binary64.scaled x.magnitude

def abs (x : Binary64) : Binary64 := ofParts false x.magnitude

/-- The double nearest to a fraction with the given sign. -/
def ofRatio (negative : Bool) (num den : Nat) : Binary64 :=
  ofParts negative (Format.binary64.round num den)

/-- The double nearest to an integer. -/
def ofInt (n : Int) : Binary64 := ofRatio (n < 0) n.natAbs 1

/-- The integer a number is equal to, when it is one below `2 ^ 53` in magnitude. -/
def integer? (x : Binary64) : Option Int :=
  let whole := x.scaled.floorAt 0
  if x.isFinite && x.scaled.numerator % x.scaled.denominator == 0 && whole < 2 ^ (53 : Nat) then
    some (if x.negative then -whole else whole)
  else none

/-- The eight octets of the bit pattern. -/
def toBytes (x : Binary64) : Bytes := Bytes.bigEndian 8 x.bits.toNat

/-- The double with these eight octets. -/
def ofBytes (bytes : Bytes) : Binary64 := ⟨UInt64.ofNat (Bytes.toNat bytes)⟩

end Binary64

end PacketProtocol
