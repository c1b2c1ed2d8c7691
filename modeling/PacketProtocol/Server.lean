import PacketProtocol.Definition
import PacketProtocol.Session
/-!
# Servers

The server's end of a connection. It writes the handshake and is ready at once. If the definition
names a first packet, the client must send that one before any other, once, and in time.
-/

namespace PacketProtocol

structure ServerConnection (T S : Type) where
  session : Session T S
  definition : Definition
  /-- Whether the required first packet came. -/
  firstCame : Bool := false
  /-- The timer that gives up on it. -/
  expiry : Option TimerHandle := none

/-- What became of a new connection. -/
inductive Acceptance (T S : Type) where
  | serving (connection : ServerConnection T S)
  /-- The handshake could not be written, and the session closed. -/
  | refused (error : ProtocolError) (session : Session T S)

namespace ServerConnection

variable {T S : Type}

def state (c : ServerConnection T S) : ConnectionState := c.session.state

/-- Whether the required first packet came, or none is required. -/
def handshakeReceived (c : ServerConnection T S) : Bool :=
  c.firstCame || c.definition.config.handshakePacket.isNone

/-! ## Accepting -/

section Accepting

variable [Scheduler S]

/-- Serves a session whose handshake is written. -/
def serve (definition : Definition) (session : Session T S) : ServerConnection T S :=
  let session := session.activate definition.server definition.client definition.rateWindow
  let session := { session with state := .ready }
  match definition.config.handshakePacket with
  | some _ =>
    let (handle, session) := session.scheduleOnce .handshakeExpiry definition.config.handshakeTimeout
    { session, definition, expiry := some handle }
  | none => { session := session.count .handshakeSuccess, definition }

variable [Transport T]

/-- Writes the handshake to a new connection and serves it. -/
def accept (definition : Definition) (transport : T) (scheduler : S) : Acceptance T S :=
  let session := (Session.start transport scheduler 0).count .handshakeAttempt
  match session.write definition.handshake with
  | (.ok (), session) => .serving (serve definition session)
  | (.error e, session) => .refused e ((session.count .handshakeFailed).close .normal e.message)

end Accepting

/-! ## Callbacks -/

/-- Adds a listener for a packet clients send. -/
def on (c : ServerConnection T S) (tag : String) (listener : Listener) :
    Result (ServerConnection T S) :=
  if c.state = .closed then .error .connectionClosed
  else do
    let dispatcher ← c.session.dispatcher.register c.definition.client tag listener
    return { c with session := { c.session with dispatcher } }

def onClose (c : ServerConnection T S) (callback : String) : ServerConnection T S :=
  { c with session := c.session.onClose callback }

def onError (c : ServerConnection T S) (callback : String) : ServerConnection T S :=
  { c with session := c.session.onError callback }

def report (c : ServerConnection T S) (error : ProtocolError) : ServerConnection T S :=
  { c with session := c.session.report error }

/-! ## Enabled bits -/

/-- Sets the enabled bit of a packet the server sends. -/
def setOutboundEnabled (c : ServerConnection T S) (tag : String) (enabled : Bool) :
    ServerConnection T S :=
  { c with
    session := c.session.setOutboundEnabled tag enabled
    definition := c.definition.setServerEnabled tag enabled }

/-- Sets the enabled bit of a packet clients send. -/
def setInboundEnabled (c : ServerConnection T S) (tag : String) (enabled : Bool) :
    ServerConnection T S :=
  { c with
    session := c.session.setInboundEnabled tag enabled
    definition := c.definition.setClientEnabled tag enabled }

/-! ## Sending -/

/-- Payloads of a tag held back by the rate limit. -/
def deferredCount (c : ServerConnection T S) (tag : String) : Result Nat :=
  c.session.deferredCount <$> c.definition.server.keyOf tag

/-- Payloads of a tag that wait for the next flush. -/
def batchedCount (c : ServerConnection T S) (tag : String) : Result Nat :=
  c.session.batchedCount <$> c.definition.server.keyOf tag

section Sending

variable [Transport T]

/-- Sends one packet. -/
def send (c : ServerConnection T S) (tag : String) (values : List Value) :
    Result Unit × ServerConnection T S :=
  let (result, session) := c.session.send tag values
  (result, { c with session })

/-- Sends an encoded payload. -/
def sendEncoded (c : ServerConnection T S) (key : UInt8) (payload : Bytes) :
    Result Unit × ServerConnection T S :=
  let (result, session) := c.session.sendEncoded key payload
  (result, { c with session })

end Sending

/-! ## Events -/

section Events

variable [Scheduler S]

/-- The required first packet is there. -/
def takeFirst (c : ServerConnection T S) : ServerConnection T S :=
  let session := match c.expiry with
    | some handle => c.session.cancelTimer handle
    | none => c.session
  { c with session := session.count .handshakeSuccess, firstCame := true, expiry := none }

/-- Holds a message against the rule of the required first packet. -/
def checkFirst (c : ServerConnection T S) (bytes : Bytes) : Result Unit × ServerConnection T S :=
  match c.definition.config.handshakePacket with
  | none => (.ok (), c)
  | some required =>
    match c.session.inboundTag bytes with
    | .error e => (.error e, c)
    | .ok tag =>
      match c.firstCame, tag == required with
      | false, true => (.ok (), c.takeFirst)
      | false, false =>
        (.error .handshakeRequired, { c with session := c.session.count .handshakeFailed })
      | true, true => (.error .handshakeDuplicate, c)
      | true, false => (.ok (), c)

variable [Transport T]

/-- Takes in one message. -/
def onMessage (c : ServerConnection T S) (bytes : Bytes) : ServerConnection T S :=
  if c.session.isReady then
    match c.checkFirst bytes with
    | (.ok (), c) => { c with session := c.session.receiveOrFail bytes }
    | (.error e, c) => { c with session := c.session.fail e }
  else c

/-- The required first packet took too long, unless it came. -/
def expire (c : ServerConnection T S) : ServerConnection T S :=
  let c := { c with expiry := none }
  if !c.firstCame && c.session.isReady then { c with session := c.session.handshakeTimedOut } else c

/-- A timer fired. -/
def onTimer (c : ServerConnection T S) (kind : TimerKind) : ServerConnection T S :=
  match kind with
  | .handshakeExpiry => c.expire
  | kind => { c with session := c.session.onTimer kind }

/-- The transport is gone. -/
def onTransportClose (c : ServerConnection T S) (code : CloseCode) (reason : String) :
    ServerConnection T S :=
  { c with session := c.session.closedByPeer code reason }

def close (c : ServerConnection T S) (code : CloseCode := .normal) (reason : String := "") :
    ServerConnection T S :=
  { c with session := c.session.close code reason }

end Events

end ServerConnection

end PacketProtocol
