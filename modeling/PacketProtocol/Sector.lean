import PacketProtocol.Bytes
import PacketProtocol.Fault
/-!
# Sectors

Integers as base-128 digits, most significant first, the sign told by the half of the octets the
digits lie in: `0 … 127` for non-negative numbers, `129 … 255` for the non-zero digits of negative
ones. A zero digit is `0` either way, so `128` is no unit.
-/

namespace PacketProtocol.Sector

open scoped Numerals

def base : Nat := 128

/-- Units that the largest magnitude needs. -/
def maxUnits : Nat := 10

/-- Base-128 digits of a magnitude; zero has one. -/
def digitCount (magnitude : Nat) : Nat :=
  if magnitude < base then 1 else 1 + digitCount (magnitude / base)
termination_by magnitude
decreasing_by simp only [base] at *; omega

/-- The fewest units that hold an integer. -/
def size (n : Int64) : Nat := digitCount n.toInt.natAbs

/-- The unit of a digit under the sign of its number. -/
def unit (negative : Bool) (digit : Nat) : UInt8 :=
  if negative && digit != 0 then UInt8.ofNat (digit + base) else UInt8.ofNat digit

/-- The low `width` digits of a magnitude as units. -/
def units (negative : Bool) : Nat → Nat → Bytes
  | 0, _ => []
  | width + 1, magnitude =>
    unit negative (magnitude / base ^ width % base) :: units negative width magnitude

/-- An integer in exactly `width` units. -/
def encode (n : Int64) (width : Nat) : Except EncodeFault Bytes :=
  if size n ≤ width ∧ width ≤ maxUnits then
    .ok (units (n.toInt < 0) width n.toInt.natAbs)
  else .error (.sectorWidth n.toInt (size n) width)

/-- The digit of a unit, if the unit may stand in a number of this sign. -/
def digit (negative : Bool) (unit : UInt8) : Except DecodeFault Nat :=
  if unit = 0 then .ok 0
  else if !negative then .ok unit.toNat
  else if base < unit.toNat then .ok (unit.toNat - base)
  else .error .sectorMixedSign

/-- The number with these base-128 digits, most significant first. -/
def ofDigits (digits : List Nat) : Nat :=
  digits.foldl (fun magnitude digit => base * magnitude + digit) 0

/-- The integer in the units. One unit in the upper half makes the whole number negative. -/
def decode (bytes : Bytes) : Except DecodeFault Int64 := do
  if bytes.isEmpty || maxUnits < bytes.length then
    throw .unexpectedEnd
  let negative := bytes.any fun unit => base ≤ unit.toNat
  let magnitude := ofDigits (← bytes.mapM (digit negative))
  if negative then
    if magnitude ≤ 2 ^ (63 : Nat) then return Int64.ofInt (-magnitude) else throw .sectorOverflow
  else
    if magnitude < 2 ^ (63 : Nat) then return Int64.ofInt magnitude else throw .sectorOverflow

end PacketProtocol.Sector
