import PacketProtocol.Parser
/-!
# Decimals on the wire

A number travels as two signed varints: its whole part, and its fraction mirrored, so that zeros
after the point survive. At most `maxPlaces` places are kept. Both integers carry the sign, so the
number is negative when either is.
-/

namespace PacketProtocol.Fraction

open scoped Numerals

def maxPlaces : Nat := 14

/-- The decimal that is sent for a finite number: the shortest, or if that has too many places the
nearest with `maxPlaces`, zeros at its end dropped. -/
def kept (x : Binary64) : Decimal :=
  if maxPlaces < x.shortest.places then (x.fixed maxPlaces).trim else x.shortest

/-- The two integers of a decimal under a sign. -/
def encode (x : Binary64) : Except EncodeFault Bytes := do
  if !x.isFinite then
    throw (.notFinite x)
  let decimal := kept x
  if 2 ^ (63 : Nat) ≤ decimal.whole then
    throw (.decimalTooLarge x)
  let sign : Int := if x.isBelowZero then -1 else 1
  let whole ← ZigZag.encode (sign * decimal.whole)
  let fraction ← ZigZag.encode (sign * decimal.mirrored)
  return whole ++ fraction

/-- The number nearest to the decimal that was sent. -/
def parser : Parser Binary64 := do
  let whole ← Parser.signedVarint
  let fraction ← Parser.signedVarint
  let decimal := Decimal.ofMirrored whole.natAbs fraction.natAbs
  return Binary64.ofDecimal (whole < 0 ∨ fraction < 0) decimal

end PacketProtocol.Fraction
