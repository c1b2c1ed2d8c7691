import PacketProtocol.Batcher
import PacketProtocol.DeferredQueue
import PacketProtocol.Dispatcher
import PacketProtocol.Handshake
import PacketProtocol.Transport
/-!
# Sessions

The engine of one connection, the same for clients and servers. Outbound packets are encoded, pass
the rate limit, wait in the deferred queue or a batch, and are written. An inbound message is taken
apart, counted and decoded as a whole before any listener runs, so a bad message dispatches nothing.
An ordinary message is a packet's key and its payload, a batched one the key and fragments.
-/

namespace PacketProtocol

/-- The state of one connection over a transport and a scheduler. -/
structure Session (T S : Type) where
  state : ConnectionState := .connecting
  transport : T
  scheduler : S
  /-- Packets this side sends. -/
  outbound : Registry := .empty
  /-- Packets this side receives. -/
  inbound : Registry := .empty
  sendLimiter : RateLimiter := .unlimited
  receiveLimiter : RateLimiter := .unlimited
  deferred : DeferredQueue
  /-- One batcher for each batched outbound packet, keys increasing. -/
  batchers : List Batcher := []
  /-- Timers this connection has scheduled. -/
  timers : List TimerHandle := []
  dispatcher : Dispatcher := .empty
  journal : Journal := []

namespace Session

variable {T S : Type}

/-- Adds entries to the journal. -/
def note (s : Session T S) (entries : Journal) : Session T S :=
  { s with journal := s.journal ++ entries }

/-- Counts something. -/
def count (s : Session T S) (count : Count) : Session T S := s.note [.counted count]

/-- A session that has not begun, with room for so many deferred payloads of each key. -/
def start (transport : T) (scheduler : S) (maxDeferred : Nat) : Session T S :=
  count { transport, scheduler, deferred := .empty maxDeferred } .connectionEstablished

/-- Hands an error to the error callback. -/
def report (s : Session T S) (error : ProtocolError) : Session T S :=
  s.note (s.dispatcher.report error)

/-- Adds a close callback. -/
def onClose (s : Session T S) (callback : String) : Session T S :=
  { s with dispatcher := s.dispatcher.onClose callback }

/-- Sets the error callback. -/
def onError (s : Session T S) (callback : String) : Session T S :=
  { s with dispatcher := s.dispatcher.onError callback }

/-- Sets the enabled bit of a packet this side sends. -/
def setOutboundEnabled (s : Session T S) (tag : String) (enabled : Bool) : Session T S :=
  { s with outbound := s.outbound.setEnabled tag enabled }

/-- Sets the enabled bit of a packet this side receives. -/
def setInboundEnabled (s : Session T S) (tag : String) (enabled : Bool) : Session T S :=
  { s with inbound := s.inbound.setEnabled tag enabled }

def isReady (s : Session T S) : Bool := s.state == .ready

/-- Fails unless packets may go both ways. -/
def ensureReady (s : Session T S) : Result Unit :=
  match s.state with
  | .ready => .ok ()
  | .closed => .error .connectionClosed
  | _ => .error .notReady

/-! ## Timers -/

section Timers

variable [Scheduler S]

def scheduleRepeating (s : Session T S) (kind : TimerKind) (interval : Nat) : Session T S :=
  let (handle, scheduler) := Scheduler.scheduleRepeating s.scheduler kind interval
  { s with scheduler, timers := s.timers ++ [handle] }

def scheduleOnce (s : Session T S) (kind : TimerKind) (delay : Nat) : TimerHandle × Session T S :=
  let (handle, scheduler) := Scheduler.scheduleOnce s.scheduler kind delay
  (handle, { s with scheduler, timers := s.timers ++ [handle] })

def cancelTimer (s : Session T S) (handle : TimerHandle) : Session T S :=
  { s with
    scheduler := Scheduler.cancel s.scheduler handle
    timers := s.timers.filter (· != handle) }

/-- Prepares batching for a packet that has it. -/
def activateBatch (s : Session T S) (entry : UInt8 × Packet) : Session T S :=
  let (key, packet) := entry
  if packet.schema.isBatched then
    scheduleRepeating { s with batchers := s.batchers ++ [⟨key, packet.schema.maxBatch, []⟩] }
      (.batchFlush key) packet.schema.batchInterval.toNat
  else s

/-- Puts the negotiated registries in place and schedules the recurring timers. -/
def activate (s : Session T S) (outbound inbound : Registry) (rateWindow : Option Nat) :
    Session T S :=
  let s := match rateWindow with
    | some window =>
      scheduleRepeating
        { s with sendLimiter := .ofRegistry outbound, receiveLimiter := .ofRegistry inbound }
        .rateReset window
    | none => s
  { outbound.entries.foldl activateBatch s with outbound, inbound }

end Timers

/-! ## Sending -/

section Sending

variable [Transport T]

/-- Writes one message to the transport. -/
def write (s : Session T S) (message : Bytes) : Result Unit × Session T S :=
  let (result, transport) := Transport.send s.transport message
  match result with
  | .ok () => (.ok (), count { s with transport } (.messageSent message.length))
  | .error e => (.error e, { s with transport })

def batcher? (s : Session T S) (key : UInt8) : Option Batcher :=
  s.batchers.find? fun batcher => batcher.key == key

/-- Puts a batcher in the place of the one with its key. -/
def setBatcher (s : Session T S) (batcher : Batcher) : Session T S :=
  { s with batchers := s.batchers.map fun other => if other.key == batcher.key then batcher else other }

/-- Sends a payload that passed the rate limit: into its batch, or as a message. -/
def emit (s : Session T S) (key : UInt8) (payload : Bytes) : Result Unit × Session T S :=
  let s := s.count .packetSent
  match s.batcher? key with
  | none => s.write (key :: payload)
  | some batcher =>
    match batcher.add payload with
    | .error fault => (.error (.encode fault), s)
    | .ok (none, batcher) => (.ok (), s.setBatcher batcher)
    | .ok (some message, _) => (s.count .batchFlushed).write message

/-- Holds a payload back, if its queue has room. -/
def deferPayload (s : Session T S) (key : UInt8) (payload : Bytes) : Result Unit × Session T S :=
  match s.deferred.push? key payload with
  | some deferred => (.ok (), count { s with deferred } .packetDeferred)
  | none =>
    match s.outbound.tagOf key with
    | .ok tag => (.error (.queueFull tag), s)
    | .error e => (.error e, s)

/-- Sends an encoded payload, or holds it back: behind those that wait already, or when it is over
the rate limit. -/
def sendEncoded (s : Session T S) (key : UInt8) (payload : Bytes) : Result Unit × Session T S :=
  match s.ensureReady with
  | .error e => (.error e, s)
  | .ok () =>
    if s.deferred.isWaiting key then s.deferPayload key payload
    else
      match s.sendLimiter.hit key with
      | (true, sendLimiter) => emit { s with sendLimiter } key payload
      | (false, sendLimiter) => deferPayload { s with sendLimiter } key payload

/-- The key and payload of a packet with these values, if it may be sent. -/
def prepare (s : Session T S) (tag : String) (values : List Value) : Result (UInt8 × Bytes) := do
  s.ensureReady
  let key ← s.outbound.keyOf tag
  let packet ← s.outbound.byKey key
  if !packet.enabled then
    throw (.packetDisabled tag)
  return (key, ← packet.encode values)

/-- Sends one packet. -/
def send (s : Session T S) (tag : String) (values : List Value) : Result Unit × Session T S :=
  match s.prepare tag values with
  | .error e => (.error e, s)
  | .ok (key, payload) => s.sendEncoded key payload

end Sending

/-- Payloads held back under a key. -/
def deferredCount (s : Session T S) (key : UInt8) : Nat := s.deferred.length key

/-- Payloads of a key that wait for the next flush. -/
def batchedCount (s : Session T S) (key : UInt8) : Nat := ((s.batcher? key).map Batcher.size).getD 0

/-! ## Receiving -/

/-- The packet of a message's key. -/
def inboundPacket (s : Session T S) : Bytes → Result (UInt8 × Packet × Bytes)
  | [] => .error (.decode .unexpectedEnd)
  | key :: body => do return (key, ← s.inbound.byKey key, body)

/-- The tag of a message's key. -/
def inboundTag (s : Session T S) (bytes : Bytes) : Result String := do
  return (← s.inboundPacket bytes).2.1.tag

/-- The packet of a message and its payloads: one, or those of a batch. -/
def openMessage (s : Session T S) (bytes : Bytes) : Result (UInt8 × Packet × List Bytes) := do
  let (key, packet, body) ← s.inboundPacket bytes
  if !packet.enabled then
    throw (.packetDisabled packet.tag)
  let payloads ←
    if packet.schema.isBatched then Batcher.unravel packet.tag body packet.schema.maxBatch
    else pure [body]
  return (key, packet, payloads)

/-- Delivers one decoded packet to its listeners, which may remember all they heard. -/
def deliver (packet : Packet) (s : Session T S) (values : List Value) : Session T S :=
  let (_, entries) :=
    s.dispatcher.dispatchAfter (Journal.heard s.journal) packet.tag (packet.schema.arguments values)
  (s.count .packetReceived).note entries

/-- Takes in one message. All its payloads are counted, then all decoded, then all delivered. -/
def receive (s : Session T S) (bytes : Bytes) : Result Unit × Session T S :=
  let s := s.count (.messageReceived bytes.length)
  match s.openMessage bytes with
  | .error e => (.error e, s)
  | .ok (key, packet, payloads) =>
    match s.receiveLimiter.hitTimes key payloads.length with
    | (false, receiveLimiter) =>
      (.error (.rateLimited packet.tag), count { s with receiveLimiter } .rateLimitHit)
    | (true, receiveLimiter) =>
      let s := { s with receiveLimiter }
      match payloads.mapM packet.decode with
      | .error e => (.error e, s)
      | .ok decoded => (.ok (), decoded.foldl (deliver packet) s)

/-! ## Recurring timers -/

section Recurring

variable [Transport T]

/-- Sends released payloads up to the first that fails. -/
def emitAll (s : Session T S) : List (UInt8 × Bytes) → Result Unit × Session T S
  | [] => (.ok (), s)
  | (key, payload) :: rest =>
    match s.emit key payload with
    | (.ok (), s) => emitAll s rest
    | (.error e, s) => (.error e, s)

/-- The boundary of a rate window: counters start again, and deferred payloads go out. -/
def resetWindow (s : Session T S) : Result Unit × Session T S :=
  let (released, deferred, sendLimiter) := s.deferred.drainAdmitted s.sendLimiter.reset
  emitAll { s with sendLimiter, receiveLimiter := s.receiveLimiter.reset, deferred } released

/-- Writes the batch of a key, if anything waits in it. -/
def flushBatch (s : Session T S) (key : UInt8) : Result Unit × Session T S :=
  match s.batcher? key with
  | none => (.ok (), s)
  | some batcher =>
    match batcher.flush with
    | (none, _) => (.ok (), s)
    | (some message, batcher) => ((s.setBatcher batcher).count .batchFlushed).write message

/-- A recurring timer fired. What fails is reported. -/
def onTimer (s : Session T S) (kind : TimerKind) : Session T S :=
  if !s.isReady then s
  else
    let (result, s) := match kind with
      | .rateReset => s.resetWindow
      | .batchFlush key => s.flushBatch key
      | .handshakeExpiry => (.ok (), s)
    match result with
    | .ok () => s
    | .error e => s.report e

end Recurring

/-! ## Closing -/

section Closing

variable [Scheduler S]

/-- The session closed: its timers are cancelled and whatever waits is dropped. -/
def teardown (s : Session T S) : Session T S :=
  count
    { s with
      state := .closed
      scheduler := s.timers.foldl Scheduler.cancel s.scheduler
      timers := []
      batchers := s.batchers.map Batcher.clear
      deferred := s.deferred.clear
      dispatcher := s.dispatcher.clear }
    .connectionClosed

/-- The other side, or the transport, closed the connection. -/
def closedByPeer (s : Session T S) (code : CloseCode) (reason : String) : Session T S :=
  if s.state = .closed then s
  else
    let s := s.teardown
    s.note (s.dispatcher.fireClose code reason)

variable [Transport T]

/-- Closes from this side. -/
def close (s : Session T S) (code : CloseCode) (reason : String) : Session T S :=
  if s.state = .closed then s
  else
    let s := s.teardown
    let s := { s with transport := Transport.close s.transport code reason }
    s.note (s.dispatcher.fireClose code reason)

/-- Closes because of an error, with its code. -/
def fail (s : Session T S) (error : ProtocolError) : Session T S :=
  let s := if error.closeCode.isAbuse then s.count .abuseClose else s
  s.close error.closeCode error.message

/-- Takes in one message, and closes if it is bad. -/
def receiveOrFail (s : Session T S) (bytes : Bytes) : Session T S :=
  match s.receive bytes with
  | (.ok (), s) => s
  | (.error e, s) => s.fail e

/-- Gives up on a handshake. -/
def handshakeTimedOut (s : Session T S) : Session T S :=
  (s.count .handshakeFailed).close .handshakeTimeout "Handshake did not complete in time"

end Closing

end Session

end PacketProtocol
