import PacketProtocol.CloseNotice
import PacketProtocol.Endpoint
import PacketProtocol.Frame
import PacketProtocol.Outbox
/-!
# Driving a connection over a stream

One endpoint over a byte stream. Things arrive one at a time: messages and the end of the stream,
timers, and the application's requests. After each of them whatever the endpoint has to write is written. The drive
ends with a close code or an error; what arrives later changes nothing.
-/

namespace PacketProtocol

/-- Something that happens to a driven connection. -/
inductive Arrival where
  | message (bytes : Bytes)
  /-- The stream cannot be read any further. -/
  | broken (text : String)
  /-- The stream ended between two messages. -/
  | ended
  | timer (kind : TimerKind)
  /-- The application sends a packet and waits for the result. -/
  | send (tag : String) (values : List Value)
  /-- The application sends a packet; a failure is reported. -/
  | post (tag : String) (values : List Value)
  /-- The application closes the connection. -/
  | close (code : CloseCode) (reason : String)
deriving Repr

structure Drive where
  endpoint : Endpoint Outbox Clock
  reader : FrameReader := {}
  writer : FrameWriter := {}
  /-- Whether the peer will write no more. -/
  peerEnded : Bool := false
  /-- How the drive ended, once it has. -/
  outcome : Option (Result CloseCode) := none

namespace Drive

def isFinished (d : Drive) : Bool := d.outcome.isSome

/-- All callbacks and counts so far. -/
def journal (d : Drive) : Journal := d.endpoint.session.journal

/-! ## Writing -/

/-- Writes what an outbox holds, up to a close: its code, if there was one. -/
def writeAll (w : FrameWriter) : List Outgoing → Result (Option CloseCode) × FrameWriter
  | [] =>
    let (result, w) := w.flush
    (result.map fun _ => none, w)
  | .message bytes :: rest =>
    match w.push bytes with
    | (.ok (), w) => writeAll w rest
    | (.error e, w) => (.error e, w)
  | .close code reason :: _ =>
    match w.push (CloseNotice.encode ⟨code, reason⟩) with
    | (.ok (), w) =>
      let (result, w) := w.flush
      (result.map fun _ => some code, w)
    | (.error e, w) => (.error e, w)

/-- Takes what the endpoint has to write. -/
def takeOutgoing (d : Drive) : List Outgoing × Drive :=
  let session := d.endpoint.session
  (session.transport.waiting, { d with endpoint := d.endpoint.withSession { session with transport := {} } })

/-- Writes what the endpoint has to write. A close that was written, or a failure, is the end. -/
def settle (d : Drive) : Drive :=
  let (outgoing, d) := d.takeOutgoing
  let (result, writer) := writeAll d.writer outgoing
  let d := { d with writer }
  match result with
  | .error e => { d with outcome := some (.error e) }
  | .ok (some code) => { d with outcome := some (.ok code) }
  | .ok none => if d.endpoint.isClosed then { d with outcome := some (.ok .normal) } else d

/-! ## Arrivals -/

/-- The stream is gone, and with it the connection. -/
def lose (d : Drive) (code : CloseCode) (reason : String) (outcome : Result CloseCode) : Drive :=
  { d with endpoint := d.endpoint.onTransportClose code reason, outcome := some outcome }

/-- Sends a packet for the application. -/
def sendNow (d : Drive) (tag : String) (values : List Value) : Result Unit × Drive :=
  let (result, endpoint) := d.endpoint.send tag values
  (result, settle { d with endpoint })

/-- Sends a packet for the application, and reports a failure. -/
def postNow (d : Drive) (tag : String) (values : List Value) : Drive :=
  match d.endpoint.send tag values with
  | (.ok (), endpoint) => settle { d with endpoint }
  | (.error e, endpoint) => settle { d with endpoint := endpoint.report e }

/-- Takes in one message, which may be a close notice. -/
def takeMessage (d : Drive) (bytes : Bytes) : Drive :=
  match CloseNotice.decode? bytes with
  | some notice => d.lose notice.code notice.reason (.ok notice.code)
  | none => settle { d with endpoint := d.endpoint.onMessage bytes }

/-- One arrival. -/
def handle (d : Drive) (arrival : Arrival) : Drive :=
  if d.isFinished then d
  else
    match arrival with
    | .message bytes => d.takeMessage bytes
    | .broken text => d.lose .normal text (.error (.stream text))
    | .ended => d.lose .normal "Connection closed" (.ok .normal)
    | .timer kind => settle { d with endpoint := d.endpoint.onTimer kind }
    | .send tag values => (d.sendNow tag values).2
    | .post tag values => d.postNow tag values
    | .close code reason => settle { d with endpoint := d.endpoint.close code reason }

/-- One arrival, and then what listeners asked to be sent because of it. -/
def handleWithPosts (d : Drive) (arrival : Arrival) : Drive :=
  let after := d.handle arrival
  let posts := Journal.posts (after.journal.drop d.journal.length)
  posts.foldl (fun d post => d.handle (.post post.1 post.2)) after

/-! ## The peer -/

/-- The peer writes: whether it could. -/
def peerWrites (d : Drive) (bytes : Bytes) : Bool × Drive :=
  if bytes.isEmpty then (true, d)
  else if d.isFinished || d.peerEnded then (false, d)
  else
    let (messages, rest) := (d.reader.push bytes).messages
    let d := messages.foldl (fun d message => d.handleWithPosts (.message message)) d
    match rest with
    | .ok reader => (true, { d with reader })
    | .error text => (true, d.handle (.broken text))

/-- The peer will write no more. -/
def peerEnds (d : Drive) : Drive :=
  if d.peerEnded then d
  else
    match d.reader.endFault with
    | none => { d with peerEnded := true }.handle .ended
    | some text => { d with peerEnded := true }.handle (.broken text)

/-- The peer is gone. -/
def peerLeaves (d : Drive) : Drive :=
  { d with writer := { d.writer with peerGone := true } }.peerEnds

/-! ## The application -/

/-- Sends a packet: whether the connection took it. -/
def send (d : Drive) (tag : String) (values : List Value) : Result Unit × Drive :=
  if d.isFinished then (.error .connectionClosed, d) else d.sendNow tag values

/-- Has a packet sent: whether there still is a connection to do so. -/
def post (d : Drive) (tag : String) (values : List Value) : Result Unit × Drive :=
  if d.isFinished then (.error .connectionClosed, d) else (.ok (), d.handle (.post tag values))

/-- Closes the connection. -/
def close (d : Drive) (code : CloseCode) (reason : String) : Drive := d.handle (.close code reason)

/-! ## Time -/

/-- Lets time pass; the timers that fall due fire in order. -/
def advance (d : Drive) (ms : Nat) : Drive :=
  let session := d.endpoint.session
  let (kinds, clock) := session.scheduler.advance ms
  kinds.foldl (fun d kind => d.handle (.timer kind))
    { d with endpoint := d.endpoint.withSession { session with scheduler := clock } }

/-! ## Beginnings -/

/-- A clock whose timers fire in the order they were armed. -/
def clock : Clock := { turn := .byArming }

/-- Drives an endpoint. What it has to write already is written, and a timer without delay fires. -/
def start (endpoint : Endpoint Outbox Clock) : Drive := (settle { endpoint }).advance 0

/-- Drives a new client, after `prepare` has set its callbacks. -/
def connect (config : ClientConfig)
    (prepare : ClientConnection Outbox Clock → Result (ClientConnection Outbox Clock)) :
    Result Drive := do
  let connection ← prepare (.start {} clock config)
  return start (.client connection.opened)

/-- Drives a new server connection, after `prepare` has set its callbacks. If that fails, nothing is
written. -/
def serve (definition : Definition)
    (prepare : ServerConnection Outbox Clock → Result (ServerConnection Outbox Clock)) : Drive :=
  match ServerConnection.accept definition {} clock with
  | .refused e session =>
    { endpoint := .server { session, definition }, outcome := some (.error e) }
  | .serving connection =>
    match prepare connection with
    | .ok connection => start (.server connection)
    | .error e => { endpoint := .server connection, outcome := some (.error e) }

end Drive

end PacketProtocol
