import PacketProtocol.Varint
/-!
# Signed varints

Zigzag folds the integers onto the naturals, small magnitudes first: 0, -1, 1, -2, 2, … A signed
varint is the varint of a folded integer.
-/

namespace PacketProtocol.ZigZag

open scoped Numerals

/-- The place of an integer in the order 0, -1, 1, -2, 2, … -/
def fold (n : Int) : Nat := if n < 0 then 2 * n.natAbs - 1 else 2 * n.natAbs

/-- The integer at a place of that order. -/
def unfold (n : Nat) : Int := if n % 2 = 0 then (n / 2 : Nat) else -((n / 2 : Nat) : Int) - 1

@[simp]
theorem unfold_fold (n : Int) : unfold (fold n) = n := by
  unfold unfold fold
  split <;> split <;> omega

@[simp]
theorem fold_unfold (n : Nat) : fold (unfold n) = n := by
  unfold unfold fold
  split <;> split <;> omega

/-- Integers below this in magnitude have a signed varint. -/
def bound : Nat := 2 ^ (48 : Nat)

/-- The signed varint of an integer. -/
def encode (n : Int) : Except EncodeFault Bytes :=
  if n.natAbs < bound then Varint.encode (fold n) else .error (.signedVarintRange n bound)

end PacketProtocol.ZigZag
