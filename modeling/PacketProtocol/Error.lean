import PacketProtocol.CloseCode
import PacketProtocol.Fault
/-!
# Errors

Everything that can go wrong between two peers, by cause. `message` is the wording, `closeCode` the
code a connection closes with when the error ends it.
-/

namespace PacketProtocol

/-- Why an operation failed. -/
inductive ProtocolError where
  | stream (text : String)
  | decode (fault : DecodeFault)
  | encode (fault : EncodeFault)
  | notProtocol
  | versionMismatch (ours theirs : UInt8)
  | unknownTag (tag : String)
  | unknownKey (key : UInt8)
  | duplicateTag (tag : String)
  | invalidTag (tag : String)
  | duplicateEnum (tag : String)
  | arity (tag : String) (min max : UInt32) (actual : Nat)
  | invalidSchema (fault : SchemaFault)
  | packetDisabled (tag : String)
  | registryFull (bound : Nat)
  | malformedPayload (tag : String) (fault : PayloadFault)
  | batchCorrupt (tag : String) (fault : BatchFault)
  | rateLimited (tag : String)
  | queueFull (tag : String)
  | handshakeRequired
  | handshakeDuplicate
  | handshakeTimeout
  | notReady
  | connectionClosed
  | connectionLimit (bound : Nat)
  | transport (text : String)
  | listener (text : String)
  | config (fault : ConfigFault)
deriving Repr, Inhabited

namespace ProtocolError

def message : ProtocolError → String
  | stream text => s!"I/O error: {text}"
  | decode fault => s!"Decode error: {fault.message}"
  | encode fault => s!"Encode error: {fault.message}"
  | notProtocol => "Peer does not speak this protocol"
  | versionMismatch ours theirs =>
    s!"Protocol version mismatch (local {ours}, remote {theirs})"
  | unknownTag tag => s!"Unknown packet tag: {tag}"
  | unknownKey key => s!"Unknown packet key: {key}"
  | duplicateTag tag => s!"Duplicate packet tag: {tag}"
  | invalidTag tag => s!"Invalid packet tag: {tag}"
  | duplicateEnum tag => s!"Duplicate enum tag: {tag}"
  | arity tag min max actual =>
    s!"Packet '{tag}' expects between {min} and {max} values, got {actual}"
  | invalidSchema fault => s!"Invalid schema: {fault.message}"
  | packetDisabled tag => s!"Packet '{tag}' is disabled"
  | registryFull bound => s!"Too many packets in registry: {bound}"
  | malformedPayload tag fault => s!"Malformed payload for '{tag}': {fault.message}"
  | batchCorrupt tag fault => s!"Batch corrupt for '{tag}': {fault.message}"
  | rateLimited tag => s!"Rate limit exceeded for '{tag}'"
  | queueFull tag => s!"Deferred queue full for '{tag}'"
  | handshakeRequired => "Handshake packet required first"
  | handshakeDuplicate => "Handshake packet already received"
  | handshakeTimeout => "Handshake did not complete in time"
  | notReady => "Connection has not completed the handshake"
  | connectionClosed => "Connection closed"
  | connectionLimit bound => s!"Connection limit reached: {bound}"
  | transport text => s!"Transport error: {text}"
  | listener text => s!"Listener error: {text}"
  | config fault => s!"Configuration error: {fault.message}"

/-- The name of the cause, as reports show it. -/
def kind : ProtocolError → String
  | stream _ => "Io"
  | decode _ => "Decode"
  | encode _ => "Encode"
  | notProtocol => "NotProtocol"
  | versionMismatch .. => "VersionMismatch"
  | unknownTag _ => "UnknownTag"
  | unknownKey _ => "UnknownKey"
  | duplicateTag _ => "DuplicateTag"
  | invalidTag _ => "InvalidTag"
  | duplicateEnum _ => "DuplicateEnum"
  | arity .. => "ArityViolation"
  | invalidSchema _ => "InvalidSchema"
  | packetDisabled _ => "PacketDisabled"
  | registryFull _ => "RegistryFull"
  | malformedPayload .. => "MalformedPayload"
  | batchCorrupt .. => "BatchCorrupt"
  | rateLimited _ => "RateLimited"
  | queueFull _ => "QueueFull"
  | handshakeRequired => "HandshakeRequired"
  | handshakeDuplicate => "HandshakeDuplicate"
  | handshakeTimeout => "HandshakeTimeout"
  | notReady => "NotReady"
  | connectionClosed => "ConnectionClosed"
  | connectionLimit _ => "ConnectionLimit"
  | transport _ => "TransportError"
  | listener _ => "Listener"
  | config _ => "ConfigError"

/-- The code of a connection that this error ends. -/
def closeCode : ProtocolError → CloseCode
  | notProtocol => .notProtocol
  | versionMismatch .. => .versionMismatch
  | rateLimited _ => .rateLimitExceeded
  | handshakeRequired => .handshakeRequired
  | handshakeDuplicate => .handshakeDuplicate
  | handshakeTimeout => .handshakeTimeout
  | decode _ | unknownKey _ | malformedPayload .. | batchCorrupt .. | packetDisabled _ =>
    .malformedPayload
  | _ => .normal

end ProtocolError

/-- The outcome of an operation that can fail. -/
abbrev Result := Except ProtocolError

end PacketProtocol
