import PacketProtocol.Config.Level
/-!
# Settings from the environment

Variables that change single settings. A variable that cannot be read as what it is for changes
nothing.
-/

namespace PacketProtocol.Config

open scoped Numerals

/-- The settings that the variables with these values make of the defaults. -/
def ofEnvironment (valueOf? : String → Option String) : Config :=
  let number (bound : Nat) (name : String) : Option Nat :=
    (valueOf? name).bind (Text.unsigned? bound)
  let default : Config := {}
  let handshakePacket := match valueOf? "TAGWIRE_HANDSHAKE_PACKET" with
    | some "" => none
    | some tag => some tag
    | none => default.server.handshakePacket
  { server :=
      { default.server with
        rateWindow :=
          ((number 255 "TAGWIRE_RATE_WINDOW_SECS").map UInt8.ofNat).getD default.server.rateWindow
        handshakePacket
        handshakeTimeout :=
          (number (2 ^ (64 : Nat) - 1) "TAGWIRE_HANDSHAKE_TIMEOUT_MS").getD default.server.handshakeTimeout }
    client :=
      { default.client with
        connectTimeout :=
          (number (2 ^ (64 : Nat) - 1) "TAGWIRE_CONNECT_TIMEOUT_MS").getD default.client.connectTimeout }
    logging :=
      { default.logging with
        level :=
          ((valueOf? "TAGWIRE_LOG_LEVEL").bind LogLevel.ofText?).getD default.logging.level } }

end PacketProtocol.Config
