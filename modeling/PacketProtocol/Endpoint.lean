import PacketProtocol.Client
import PacketProtocol.Clock
import PacketProtocol.Server
/-!
# Endpoints

Either end of a connection, seen the same way by whatever carries messages and timers to it.
-/

namespace PacketProtocol

inductive Endpoint (T S : Type) where
  | client (connection : ClientConnection T S)
  | server (connection : ServerConnection T S)

namespace Endpoint

variable {T S : Type}

def session : Endpoint T S → Session T S
  | client connection => connection.session
  | server connection => connection.session

def withSession : Endpoint T S → Session T S → Endpoint T S
  | client connection, session => client { connection with session }
  | server connection, session => server { connection with session }

def state (e : Endpoint T S) : ConnectionState := e.session.state

def isClosed (e : Endpoint T S) : Bool := e.state == .closed

/-- Adds a listener for a packet of the other end. -/
def on (e : Endpoint T S) (tag : String) (listener : Listener) : Result (Endpoint T S) :=
  match e with
  | client connection => client <$> connection.on tag listener
  | server connection => server <$> connection.on tag listener

def onClose (e : Endpoint T S) (callback : String) : Endpoint T S :=
  e.withSession (e.session.onClose callback)

def onError (e : Endpoint T S) (callback : String) : Endpoint T S :=
  e.withSession (e.session.onError callback)

/-- Hands an error to the error callback. -/
def report (e : Endpoint T S) (error : ProtocolError) : Endpoint T S :=
  e.withSession (e.session.report error)

/-- Sets the enabled bit of a packet this end sends. -/
def setOutboundEnabled (e : Endpoint T S) (tag : String) (enabled : Bool) : Endpoint T S :=
  match e with
  | client connection => client (connection.setOutboundEnabled tag enabled)
  | server connection => server (connection.setOutboundEnabled tag enabled)

/-- Sets the enabled bit of a packet this end receives. -/
def setInboundEnabled (e : Endpoint T S) (tag : String) (enabled : Bool) : Endpoint T S :=
  match e with
  | client connection => client (connection.setInboundEnabled tag enabled)
  | server connection => server (connection.setInboundEnabled tag enabled)

/-- Payloads of a tag held back by the rate limit. -/
def deferredCount : Endpoint T S → String → Result Nat
  | client connection => connection.deferredCount
  | server connection => connection.deferredCount

/-- Payloads of a tag that wait for the next flush. -/
def batchedCount : Endpoint T S → String → Result Nat
  | client connection => connection.batchedCount
  | server connection => connection.batchedCount

section Events

variable [Transport T] [Scheduler S]

/-- Sends one packet. -/
def send (e : Endpoint T S) (tag : String) (values : List Value) : Result Unit × Endpoint T S :=
  let (result, session) := e.session.send tag values
  (result, e.withSession session)

/-- Takes in one message. -/
def onMessage (e : Endpoint T S) (bytes : Bytes) : Endpoint T S :=
  match e with
  | client connection => client (connection.onMessage bytes)
  | server connection => server (connection.onMessage bytes)

/-- A timer fired. -/
def onTimer (e : Endpoint T S) (kind : TimerKind) : Endpoint T S :=
  match e with
  | client connection => client (connection.onTimer kind)
  | server connection => server (connection.onTimer kind)

/-- The transport is gone. -/
def onTransportClose (e : Endpoint T S) (code : CloseCode) (reason : String) : Endpoint T S :=
  e.withSession (e.session.closedByPeer code reason)

/-- Closes from this end. -/
def close (e : Endpoint T S) (code : CloseCode) (reason : String) : Endpoint T S :=
  e.withSession (e.session.close code reason)

end Events

/-- Lets time pass on the clock of an endpoint: the kinds of the timers that fell due, and the
endpoint after all of them fired. -/
def advance [Transport T] (e : Endpoint T Clock) (ms : Nat) : List TimerKind × Endpoint T Clock :=
  let (kinds, clock) := e.session.scheduler.advance ms
  (kinds, kinds.foldl onTimer (e.withSession { e.session with scheduler := clock }))

end Endpoint

end PacketProtocol
