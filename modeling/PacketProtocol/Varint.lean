import PacketProtocol.Bytes
import PacketProtocol.Fault
/-!
# Varints

A varint carries seven bits of a number in each octet, least significant group first; the high bit
says whether another octet follows. At most `maxUnits` octets are written or read, so the numbers
are those below `bound`. Reading gives the number and the octets after it.
-/

namespace PacketProtocol.Varint

open scoped Numerals

/-- Most octets of one varint. -/
def maxUnits : Nat := 7

/-- Numbers below this have a varint. -/
def bound : Nat := 2 ^ (49 : Nat)

/-- The base-128 groups of a number, each but the last marked as followed by another. -/
def groups (n : Nat) : Bytes :=
  if n < 128 then [UInt8.ofNat n] else UInt8.ofNat (128 + n % 128) :: groups (n / 128)

/-- The varint of a number. -/
def encode (n : Nat) : Except EncodeFault Bytes :=
  if n < bound then .ok (groups n) else .error (.varintRange n bound)

/-- Reads a varint of at most `room` octets. -/
def decodeWithin : Nat → Bytes → Except DecodeFault (Nat × Bytes)
  | 0, _ => .error .varintTooLong
  | _ + 1, [] => .error .unexpectedEnd
  | room + 1, octet :: rest =>
    if octet < 128 then .ok (octet.toNat, rest)
    else
      match decodeWithin room rest with
      | .error fault => .error fault
      | .ok (high, rest) => .ok (octet.toNat % 128 + 128 * high, rest)

/-- Reads a varint. -/
def decode (bytes : Bytes) : Except DecodeFault (Nat × Bytes) := decodeWithin maxUnits bytes

theorem length_lt_of_decodeWithin {room : Nat} {bytes rest : Bytes} {n : Nat}
    (h : decodeWithin room bytes = .ok (n, rest)) : rest.length < bytes.length := by
  fun_induction decodeWithin room bytes generalizing n rest with
  | case1 => cases h
  | case2 => cases h
  | case3 => cases h; simp
  | case4 => cases h
  | case5 room octet tail hge high rest' heq ih =>
    cases h
    have := ih heq
    simp only [List.length_cons]
    omega

/-- Reading a varint uses at least one octet. -/
theorem length_lt_of_decode {bytes rest : Bytes} {n : Nat} (h : decode bytes = .ok (n, rest)) :
    rest.length < bytes.length :=
  length_lt_of_decodeWithin h

end PacketProtocol.Varint
