import PacketProtocol.Config.Settings
import PacketProtocol.Session
/-!
# Clients

The client's end of a connection. The first message it takes in is the server's handshake, from which
it learns both registries and the rate window; until then it may send nothing, and its listeners wait.
-/

namespace PacketProtocol

structure ClientConnection (T S : Type) where
  session : Session T S
  config : ClientConfig
  /-- The timer that gives up on the handshake. -/
  expiry : Option TimerHandle := none
  /-- The negotiated rate window in milliseconds, if there is one. -/
  rateWindow : Option Nat := none

namespace ClientConnection

variable {T S : Type}

/-- A client whose transport is not open yet. -/
def start (transport : T) (scheduler : S) (config : ClientConfig) : ClientConnection T S :=
  { session := .start transport scheduler config.maxDeferred, config }

def state (c : ClientConnection T S) : ConnectionState := c.session.state

/-! ## Callbacks -/

/-- Adds a listener. Before the handshake its tag cannot be checked, so it waits. -/
def on (c : ClientConnection T S) (tag : String) (listener : Listener) :
    Result (ClientConnection T S) :=
  let put (dispatcher : Dispatcher) := { c with session := { c.session with dispatcher } }
  match c.state with
  | .ready => put <$> c.session.dispatcher.register c.session.inbound tag listener
  | .closed => .error .connectionClosed
  | _ => .ok (put (c.session.dispatcher.defer tag listener))

/-- Runs a callback once the connection is ready, which may be now. -/
def onReady (c : ClientConnection T S) (callback : String) : ClientConnection T S :=
  if c.session.isReady then { c with session := c.session.note [.ready callback] }
  else
    { c with session := { c.session with dispatcher := c.session.dispatcher.onReady callback } }

def onClose (c : ClientConnection T S) (callback : String) : ClientConnection T S :=
  { c with session := c.session.onClose callback }

def onError (c : ClientConnection T S) (callback : String) : ClientConnection T S :=
  { c with session := c.session.onError callback }

def report (c : ClientConnection T S) (error : ProtocolError) : ClientConnection T S :=
  { c with session := c.session.report error }

/-! ## Enabled bits -/

/-- Sets the enabled bit of a packet this client sends. -/
def setOutboundEnabled (c : ClientConnection T S) (tag : String) (enabled : Bool) :
    ClientConnection T S :=
  { c with session := c.session.setOutboundEnabled tag enabled }

/-- Sets the enabled bit of a packet this client receives. -/
def setInboundEnabled (c : ClientConnection T S) (tag : String) (enabled : Bool) :
    ClientConnection T S :=
  { c with session := c.session.setInboundEnabled tag enabled }

/-! ## Sending -/

/-- Payloads of a tag held back by the rate limit. -/
def deferredCount (c : ClientConnection T S) (tag : String) : Result Nat :=
  c.session.deferredCount <$> c.session.outbound.keyOf tag

/-- Payloads of a tag that wait for the next flush. -/
def batchedCount (c : ClientConnection T S) (tag : String) : Result Nat :=
  c.session.batchedCount <$> c.session.outbound.keyOf tag

section Sending

variable [Transport T]

/-- Sends one packet, once the connection is ready. -/
def send (c : ClientConnection T S) (tag : String) (values : List Value) :
    Result Unit × ClientConnection T S :=
  let (result, session) := c.session.send tag values
  (result, { c with session })

end Sending

/-! ## Opening -/

section Opening

variable [Scheduler S]

/-- Begins to wait for the handshake. -/
def awaitHandshake (c : ClientConnection T S) : ClientConnection T S :=
  let session := { c.session.count .handshakeAttempt with state := .awaitingSchema }
  let (expiry, session) := session.scheduleOnce .handshakeExpiry c.config.connectTimeout
  { c with session, expiry := some expiry }

/-- The transport is open. -/
def opened (c : ClientConnection T S) : ClientConnection T S :=
  if c.state = .connecting then c.awaitHandshake else c

/-- The handshake is there, so nothing waits for it any more. -/
def stopExpiry (c : ClientConnection T S) : ClientConnection T S :=
  match c.expiry with
  | some handle => { c with session := c.session.cancelTimer handle, expiry := none }
  | none => c

/-- Takes on what the server announced. -/
def adopt (c : ClientConnection T S) (handshake : Handshake) : ClientConnection T S :=
  let rateWindow := rateWindowMs handshake.rateWindow
  let session := c.session.activate handshake.client handshake.server rateWindow
  let (dispatcher, reports) := session.dispatcher.drainPending handshake.server
  let session := { session with dispatcher, state := .ready }.note reports
  let (dispatcher, calls) := session.dispatcher.fireReady
  let session := ({ session with dispatcher }.count .handshakeSuccess).note calls
  { c with session, rateWindow }

variable [Transport T]

/-- Closes over a first message that is no handshake to work with. -/
def refuse (c : ClientConnection T S) (error : ProtocolError) : ClientConnection T S :=
  let reason := match error with
    | .versionMismatch ours theirs => Handshake.outdatedReason ours theirs true
    | other => other.message
  { c with session := (c.session.count .handshakeFailed).close error.closeCode reason }

/-- Takes in the first message. -/
def completeHandshake (c : ClientConnection T S) (bytes : Bytes) : ClientConnection T S :=
  match Handshake.parse bytes with
  | .ok handshake => c.stopExpiry.adopt handshake
  | .error e => c.stopExpiry.refuse e

end Opening

/-! ## Events -/

section Events

variable [Transport T] [Scheduler S]

/-- Takes in one message. One that comes before the transport is said to be open shows that it is. -/
def onMessage (c : ClientConnection T S) (bytes : Bytes) : ClientConnection T S :=
  match c.state with
  | .connecting => c.awaitHandshake.completeHandshake bytes
  | .awaitingSchema => c.completeHandshake bytes
  | .ready => { c with session := c.session.receiveOrFail bytes }
  | .closed => c

/-- The handshake took too long, unless it is there. -/
def expire (c : ClientConnection T S) : ClientConnection T S :=
  let c := { c with expiry := none }
  match c.state with
  | .connecting | .awaitingSchema => { c with session := c.session.handshakeTimedOut }
  | _ => c

/-- A timer fired. -/
def onTimer (c : ClientConnection T S) (kind : TimerKind) : ClientConnection T S :=
  match kind with
  | .handshakeExpiry => c.expire
  | kind => { c with session := c.session.onTimer kind }

/-- The transport is gone. -/
def onTransportClose (c : ClientConnection T S) (code : CloseCode) (reason : String) :
    ClientConnection T S :=
  { c with session := c.session.closedByPeer code reason }

def close (c : ClientConnection T S) (code : CloseCode := .normal) (reason : String := "") :
    ClientConnection T S :=
  { c with session := c.session.close code reason }

end Events

end ClientConnection

end PacketProtocol
