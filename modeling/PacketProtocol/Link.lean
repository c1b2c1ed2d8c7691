import PacketProtocol.Endpoint
import PacketProtocol.Wire
/-!
# Links

A client and a server connection in memory, each with its wire and clock. What one end writes stays on
its wire until it is delivered to the other.
-/

namespace PacketProtocol

structure Link where
  client : ClientConnection Wire Clock
  server : ServerConnection Wire Clock

namespace Link

/-- The messages a session has written and nobody took. -/
def takeSent (session : Session Wire Clock) : List Bytes × Session Wire Clock :=
  let (messages, transport) := session.transport.take
  (messages, { session with transport })

/-- Brings what the server wrote to the client. -/
def toClient (link : Link) : List Bytes × Link :=
  let (messages, session) := takeSent link.server.session
  (messages,
    { client := messages.foldl ClientConnection.onMessage link.client
      server := { link.server with session } })

/-- Brings what the client wrote to the server. -/
def toServer (link : Link) : List Bytes × Link :=
  let (messages, session) := takeSent link.client.session
  (messages,
    { client := { link.client with session }
      server := messages.foldl ServerConnection.onMessage link.server })

end Link

end PacketProtocol
