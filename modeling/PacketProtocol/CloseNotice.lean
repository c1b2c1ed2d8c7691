import PacketProtocol.Bytes
import PacketProtocol.CloseCode
import PacketProtocol.Text.Utf8
/-!
# Close notices

The message that tells a peer over a byte stream why the connection ends: a zero octet, which is no
packet's key, the code in two octets, and the reason.
-/

namespace PacketProtocol

structure CloseNotice where
  code : CloseCode
  reason : String
deriving DecidableEq, Repr, Inhabited

namespace CloseNotice

/-- The first octet of a notice. -/
def marker : UInt8 := 0

def encode (notice : CloseNotice) : Bytes :=
  marker :: Bytes.bigEndian 2 notice.code.number ++ Utf8.encode notice.reason

/-- The notice behind a marker. A code that is missing or unknown is the normal one. -/
def ofBody : Bytes → CloseNotice
  | high :: low :: reason =>
    ⟨(CloseCode.ofNumber? (Bytes.toNat [high, low])).getD .normal, Utf8.decodeLossy reason⟩
  | _ => ⟨.normal, ""⟩

/-- The notice a message is, if it is one. -/
def decode? : Bytes → Option CloseNotice
  | [] => none
  | first :: body => if first = marker then some (ofBody body) else none

end CloseNotice

end PacketProtocol
