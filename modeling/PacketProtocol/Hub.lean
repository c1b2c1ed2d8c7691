import PacketProtocol.Server
/-!
# Hubs

All server connections of one definition, numbered from 1 in the order they were accepted. A closed
connection keeps its place until it is removed or pruned.
-/

namespace PacketProtocol

structure ServerHub (T S : Type) where
  definition : Definition
  /-- Connections with their numbers, which increase. -/
  connections : List (Nat × ServerConnection T S) := []
  /-- The number of the next connection. -/
  nextId : Nat := 1

namespace ServerHub

variable {T S : Type}

/-- A hub without connections. -/
def empty (definition : Definition) : ServerHub T S := { definition }

def size (hub : ServerHub T S) : Nat := hub.connections.length

def ids (hub : ServerHub T S) : List Nat := hub.connections.map Prod.fst

def get? (hub : ServerHub T S) (id : Nat) : Option (ServerConnection T S) :=
  (hub.connections.find? fun entry => entry.1 == id).map Prod.snd

/-- Changes the connection with a number, if it is there. -/
def modify (hub : ServerHub T S) (id : Nat)
    (change : ServerConnection T S → ServerConnection T S) : ServerHub T S :=
  { hub with
    connections := hub.connections.map fun (other, connection) =>
      (other, if other = id then change connection else connection) }

/-- Takes a connection out. -/
def remove (hub : ServerHub T S) (id : Nat) : ServerHub T S :=
  { hub with connections := hub.connections.filter fun entry => entry.1 != id }

/-- Takes out all closed connections. -/
def prune (hub : ServerHub T S) : ServerHub T S :=
  { hub with connections := hub.connections.filter fun entry => entry.2.state != .closed }

/-! ## Enabled bits -/

/-- Sets the enabled bit of a packet the server sends, for all connections. -/
def setOutboundEnabled (hub : ServerHub T S) (tag : String) (enabled : Bool) : ServerHub T S :=
  { hub with
    definition := hub.definition.setServerEnabled tag enabled
    connections := hub.connections.map fun (id, connection) =>
      (id, connection.setOutboundEnabled tag enabled) }

/-- Sets the enabled bit of a packet clients send, for all connections. -/
def setInboundEnabled (hub : ServerHub T S) (tag : String) (enabled : Bool) : ServerHub T S :=
  { hub with
    definition := hub.definition.setClientEnabled tag enabled
    connections := hub.connections.map fun (id, connection) =>
      (id, connection.setInboundEnabled tag enabled) }

/-! ## Accepting -/

/-- What became of an attempt to join a hub. -/
inductive Admission (T S : Type) where
  | accepted (id : Nat) (hub : ServerHub T S)
  /-- There was no room. -/
  | full (limit : Nat)
  /-- The handshake could not be written, and the session closed. -/
  | refused (error : ProtocolError) (session : Session T S)

/-- Accepts a connection, if there is room. -/
def accept [Transport T] [Scheduler S] (hub : ServerHub T S) (transport : T) (scheduler : S) :
    Admission T S :=
  let limit := hub.definition.config.maxConnections
  if limit ≤ hub.size then .full limit
  else
    match ServerConnection.accept hub.definition transport scheduler with
    | .refused e session => .refused e session
    | .serving connection =>
      .accepted hub.nextId
        { hub with
          connections := hub.connections ++ [(hub.nextId, connection)]
          nextId := hub.nextId + 1 }

/-! ## Broadcasting -/

section Broadcasting

variable [Transport T]

/-- The key and payload of a packet for all connections, if it may be sent. -/
def prepare (hub : ServerHub T S) (tag : String) (values : List Value) : Result (UInt8 × Bytes) := do
  let key ← hub.definition.server.keyOf tag
  let packet ← hub.definition.server.byKey key
  if !packet.enabled then
    throw (.packetDisabled tag)
  return (key, ← packet.encode values)

/-- Offers a payload to one connection. What fails is reported to it. -/
def offer (key : UInt8) (payload : Bytes) (connection : ServerConnection T S) :
    Bool × ServerConnection T S :=
  match connection.sendEncoded key payload with
  | (.ok (), connection) => (true, connection)
  | (.error e, connection) => (false, connection.report e)

/-- Sends to every ready connection that is selected: how many took it. The packet is encoded once,
so values that do not fit touch no connection. -/
def broadcastTo (hub : ServerHub T S) (select : Nat → ServerConnection T S → Bool) (tag : String)
    (values : List Value) : Result (Nat × ServerHub T S) := do
  let (key, payload) ← hub.prepare tag values
  let offers := hub.connections.map fun (id, connection) =>
    if connection.session.isReady && select id connection then
      let (taken, connection) := offer key payload connection
      (taken, id, connection)
    else (false, id, connection)
  return (offers.countP Prod.fst, { hub with connections := offers.map Prod.snd })

/-- Sends to every ready connection: how many took it. -/
def broadcast (hub : ServerHub T S) (tag : String) (values : List Value) :
    Result (Nat × ServerHub T S) :=
  hub.broadcastTo (fun _ _ => true) tag values

end Broadcasting

/-! ## Events -/

section Events

variable [Transport T] [Scheduler S]

def onMessage (hub : ServerHub T S) (id : Nat) (bytes : Bytes) : ServerHub T S :=
  hub.modify id fun connection => connection.onMessage bytes

def onTimer (hub : ServerHub T S) (id : Nat) (kind : TimerKind) : ServerHub T S :=
  hub.modify id fun connection => connection.onTimer kind

def onTransportClose (hub : ServerHub T S) (id : Nat) (code : CloseCode) (reason : String) :
    ServerHub T S :=
  hub.modify id fun connection => connection.onTransportClose code reason

end Events

end ServerHub

end PacketProtocol
