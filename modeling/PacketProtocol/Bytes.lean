import PacketProtocol.Numerals
/-!
# Bytes

Messages are lists of octets. Multi-octet words travel most significant octet first; `bigEndian`
writes them and `toNat` reads them.
-/

namespace PacketProtocol

open scoped Numerals

/-- A string of octets, first octet first. -/
abbrev Bytes := List UInt8

namespace Bytes

/-- The low `width` octets of `n`, most significant first. -/
def bigEndian : Nat → Nat → Bytes
  | 0, _ => []
  | width + 1, n => UInt8.ofNat (n / 256 ^ width) :: bigEndian width n

/-- The number whose octets are given most significant first. -/
def toNat (bytes : Bytes) : Nat :=
  bytes.foldl (fun n octet => 256 * n + octet.toNat) 0

@[simp]
theorem length_bigEndian (width n : Nat) : (bigEndian width n).length = width := by
  induction width <;> simp [bigEndian, *]

end Bytes

end PacketProtocol
