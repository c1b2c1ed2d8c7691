import PacketProtocol.Bytes
import PacketProtocol.Text.Numeral
/-!
# Hexadecimal text

Octets and words as hexadecimal digits, as dumps and reports show them.
-/

namespace PacketProtocol.Text

/-- The hexadecimal digits of a number, with zeros in front up to a width. -/
def hexDigits (width n : Nat) : String :=
  let digits := Nat.toDigits 16 n
  String.ofList (List.replicate (width - digits.length) '0' ++ digits)

/-- Octets as two digits each. -/
def hex (bytes : Bytes) : String := String.join (bytes.map fun octet => hexDigits 2 octet.toNat)

/-- The octets of pairs of digits. -/
def octets? : List Char → Option Bytes
  | [] => some []
  | high :: low :: rest => do
    let octet := 16 * (← digit? 16 high) + (← digit? 16 low)
    return UInt8.ofNat octet :: (← octets? rest)
  | [_] => none

/-- The octets that a text shows. -/
def ofHex? (text : String) : Option Bytes := octets? text.toList

end PacketProtocol.Text
