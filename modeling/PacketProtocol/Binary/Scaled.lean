import PacketProtocol.Numerals
/-!
# Scaled integers

Exact numbers of the form `significand * 2 ^ scale`. Every finite floating-point number is one, so
comparing, cutting and rounding floats is integer arithmetic here.
-/

namespace PacketProtocol

open scoped Numerals

/-- The number `significand * 2 ^ scale`. -/
structure Scaled where
  significand : Nat
  scale : Int
deriving DecidableEq, Repr

namespace Scaled

/-- Numerator of the number as a fraction over `denominator`. -/
def numerator (x : Scaled) : Nat := x.significand * 2 ^ x.scale.toNat

/-- A power of two. -/
def denominator (x : Scaled) : Nat := 2 ^ (-x.scale).toNat

/-- The number in units of `2 ^ unit`, cut to a whole number of them. -/
def floorAt (x : Scaled) (unit : Int) : Nat :=
  x.significand * 2 ^ (x.scale - unit).toNat / 2 ^ (unit - x.scale).toNat

/-- Whether the number is at least `2 ^ exponent`. -/
def reaches (x : Scaled) (exponent : Int) : Bool :=
  2 ^ (exponent - x.scale).toNat ≤ x.significand * 2 ^ (x.scale - exponent).toNat

end Scaled

end PacketProtocol
