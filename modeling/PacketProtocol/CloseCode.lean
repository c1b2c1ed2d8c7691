/-!
# Close codes

The number sent to a peer when this side ends a connection. The numbers are part of the protocol.
-/

namespace PacketProtocol

/-- Why a connection was closed. -/
inductive CloseCode where
  | normal
  | notProtocol
  | versionMismatch
  | malformedPayload
  | rateLimitExceeded
  | handshakeRequired
  | handshakeDuplicate
  | handshakeTimeout
deriving DecidableEq, Repr, Inhabited

namespace CloseCode

def number : CloseCode → Nat
  | normal => 1000
  | notProtocol => 4000
  | versionMismatch => 4001
  | malformedPayload => 4002
  | rateLimitExceeded => 4003
  | handshakeRequired => 4004
  | handshakeDuplicate => 4005
  | handshakeTimeout => 4006

/-- The code with a given number. -/
def ofNumber? : Nat → Option CloseCode
  | 1000 => some normal
  | 4000 => some notProtocol
  | 4001 => some versionMismatch
  | 4002 => some malformedPayload
  | 4003 => some rateLimitExceeded
  | 4004 => some handshakeRequired
  | 4005 => some handshakeDuplicate
  | 4006 => some handshakeTimeout
  | _ => none

def name : CloseCode → String
  | normal => "Normal"
  | notProtocol => "NotProtocol"
  | versionMismatch => "VersionMismatch"
  | malformedPayload => "MalformedPayload"
  | rateLimitExceeded => "RateLimitExceeded"
  | handshakeRequired => "HandshakeRequired"
  | handshakeDuplicate => "HandshakeDuplicate"
  | handshakeTimeout => "HandshakeTimeout"

/-- Name and number, as logs and reports show a code. -/
def text (code : CloseCode) : String := code.name ++ "(" ++ toString code.number ++ ")"

@[simp]
theorem ofNumber?_number (code : CloseCode) : ofNumber? code.number = some code := by
  cases code <;> rfl

/-- Codes that blame the peer's traffic. -/
def isAbuse : CloseCode → Bool
  | malformedPayload | rateLimitExceeded | handshakeRequired | handshakeDuplicate => true
  | _ => false

end CloseCode

end PacketProtocol
