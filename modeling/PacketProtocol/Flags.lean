import PacketProtocol.Bytes
/-!
# Packed flags

Eight flags to an octet, the first in the highest bit. The last octet is filled up with `false`.
-/

namespace PacketProtocol.Flags

open scoped Numerals

/-- Octets that hold `count` flags. -/
def packedLength (count : Nat) : Nat := (count + 7) / 8

/-- The flags of an octet, highest bit first. -/
def ofOctet (octet : UInt8) : List Bool :=
  [128, 64, 32, 16, 8, 4, 2, 1].map fun weight => octet.toNat / weight % 2 == 1

/-- The octet of at most eight flags. -/
def toOctet (flags : List Bool) : UInt8 :=
  UInt8.ofNat <| List.sum <|
    List.zipWith (fun weight flag => if flag then weight else 0) [128, 64, 32, 16, 8, 4, 2, 1] flags

def pack : List Bool → Bytes
  | [] => []
  | flag :: rest => toOctet (flag :: rest.take 7) :: pack (rest.drop 7)
termination_by flags => flags.length
decreasing_by simp only [List.length_drop, List.length_cons]; omega

/-- All flags of the octets, those the last was filled up with included. -/
def unpack (bytes : Bytes) : List Bool := bytes.flatMap ofOctet

end PacketProtocol.Flags
