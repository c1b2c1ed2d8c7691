import PacketProtocol.Config.Settings
import PacketProtocol.Handshake
/-!
# Definitions

What all connections of a server share: the registries of both directions, the enum packages, the
settings, and the handshake. The handshake is written once, when the definition is made; switching
packets on or off later does not change it.
-/

namespace PacketProtocol

/-- A protocol as a server offers it. -/
structure Definition where
  /-- Packets clients send. -/
  client : Registry
  /-- Packets the server sends. -/
  server : Registry
  enums : EnumRegistry
  config : ServerConfig
  /-- The message every connection begins with. -/
  handshake : Bytes
deriving Inhabited

namespace Definition

/-- A definition of these packets. The required first packet must be one of the client's. -/
def make (client server : List Packet) (enums : EnumRegistry) (config : ServerConfig) :
    Result Definition := do
  let client ← Registry.register client
  let server ← Registry.register server
  match config.handshakePacket with
  | some tag => if !client.contains tag then throw (.unknownTag tag)
  | none => pure ()
  let handshake ← (Handshake.encode client server config.rateWindow).mapError .encode
  return { client, server, enums, config, handshake }

/-- The rate window in milliseconds, if there is one. -/
def rateWindow (definition : Definition) : Option Nat := rateWindowMs definition.config.rateWindow

/-- Sets the enabled bit of a client packet. -/
def setClientEnabled (definition : Definition) (tag : String) (enabled : Bool) : Definition :=
  { definition with client := definition.client.setEnabled tag enabled }

/-- Sets the enabled bit of a server packet. -/
def setServerEnabled (definition : Definition) (tag : String) (enabled : Bool) : Definition :=
  { definition with server := definition.server.setEnabled tag enabled }

end Definition

end PacketProtocol
