import PacketProtocol.Registry
/-!
# Handshakes

The first message of a server: the protocol's mark, its version, the records of the packets clients
send, those of the packets the server sends, each list closed by the delimiter, and the rate window
in seconds. Whatever does not have this form is not of the protocol; another version is told apart.
-/

namespace PacketProtocol

/-- Where a connection stands. -/
inductive ConnectionState where
  /-- The transport is not open yet. -/
  | connecting
  /-- Open, and waiting for the server's handshake. -/
  | awaitingSchema
  /-- Packets go both ways. -/
  | ready
  | closed
deriving DecidableEq, Repr, Inhabited

def ConnectionState.name : ConnectionState → String
  | connecting => "connecting"
  | awaitingSchema => "awaiting-schema"
  | ready => "ready"
  | closed => "closed"

/-- What a handshake tells. -/
structure Handshake where
  version : UInt8
  /-- Packets the client sends. -/
  client : Registry
  /-- Packets the server sends. -/
  server : Registry
  /-- Length of the rate window in seconds; zero for no rate limits. -/
  rateWindow : UInt8
deriving Inhabited

namespace Handshake

/-- The version of the protocol spoken here. -/
def currentVersion : UInt8 := 1

/-- The octets every handshake begins with. -/
def mark : Bytes := [0x54, 0x57, 0x49, 0x52]

/-- The handshake a server with these registries sends. -/
def encode (client server : Registry) (rateWindow : UInt8) : Except EncodeFault Bytes := do
  let client ← client.write
  let server ← server.write
  return mark ++ currentVersion :: client ++ delimiter :: server ++ [delimiter, rateWindow]

/-- What follows the version. -/
def bodyParser (version : UInt8) : Parser Handshake := do
  let client ← Registry.sectionParser
  let server ← Registry.sectionParser
  let bytes ← get
  match bytes with
  | [] => Parser.fail .handshakeTruncated
  | rateWindow :: rest => do
    set rest
    Parser.finish
    return { version, client, server, rateWindow }

/-- Reads a handshake. -/
def parse (bytes : Bytes) : Result Handshake :=
  if bytes.take 4 ≠ mark then .error .notProtocol
  else
    match bytes.drop 4 with
    | [] => .error .notProtocol
    | version :: body =>
      if version ≠ currentVersion then .error (.versionMismatch currentVersion version)
      else
        match bodyParser version body with
        | .ok (handshake, _) => .ok handshake
        | .error _ => .error .notProtocol

/-- Why two versions part, seen from the side that speaks `ours`: the older peer is outdated. -/
def outdatedReason (ours theirs : UInt8) (weAreClient : Bool) : String :=
  let clientIsOlder := if weAreClient then ours < theirs else theirs < ours
  if clientIsOlder then "Client is outdated" else "Server is outdated"

end Handshake

end PacketProtocol
