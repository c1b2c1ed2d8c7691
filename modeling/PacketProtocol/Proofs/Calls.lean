import Mathlib.Logic.Relation
import PacketProtocol.Endpoint
import PacketProtocol.Outbox
import PacketProtocol.Proofs.Keys
/-!
# Calls on a connection

Everything that can be called on either end of a connection, in any order and at any time. What a call
does to the session is a chain of acts of a few kinds, so that a property that every act keeps holds
after every run. A recorded transport remembers what was asked of it.
-/

namespace PacketProtocol

/-! ## Transports that remember -/

/-- A transport with all that it was asked to write, and its closes. -/
structure Recorded (T : Type) where
  inner : T
  /-- Oldest first. -/
  log : List Outgoing := []

instance {T : Type} [Transport T] : Transport (Recorded T) where
  send recorded message :=
    let (result, inner) := Transport.send recorded.inner message
    (result, ⟨inner, recorded.log ++ [.message message]⟩)
  close recorded code reason := ⟨Transport.close recorded.inner code reason, recorded.log ++ [.close code reason]⟩

/-- Writes messages whatever becomes of each. -/
def Transport.sendAll {T : Type} [Transport T] (transport : T) (messages : List Bytes) : T :=
  messages.foldl (fun transport message => (Transport.send transport message).2) transport

theorem Transport.sendAll_append {T : Type} [Transport T] (transport : T) (front back : List Bytes) :
    sendAll transport (front ++ back) = sendAll (sendAll transport front) back :=
  List.foldl_append

theorem Recorded.log_sendAll {T : Type} [Transport T] (recorded : Recorded T) (messages : List Bytes) :
    (Transport.sendAll recorded messages).log = recorded.log ++ messages.map .message := by
  induction messages generalizing recorded with
  | nil => exact (List.append_nil _).symm
  | cons message messages ih =>
    rw [Transport.sendAll, List.foldl_cons]
    exact (ih _).trans (by simp [Transport.send])

/-! ## Entries of a journal -/

/-- Counts of how a connection comes about, of its handshake, and of its close; all others are of its traffic. -/
def Count.isMilestone : Count → Bool
  | .connectionEstablished | .connectionClosed => true
  | .handshakeAttempt | .handshakeSuccess | .handshakeFailed => true
  | _ => false

namespace Journal

/-- Close callbacks that ran, with what they were given. -/
def closings (journal : Journal) : List (String × CloseCode × String) :=
  journal.filterMap fun
    | .closed callback code reason => some (callback, code, reason)
    | _ => none

/-- What listeners and ready callbacks did. -/
def runs (journal : Journal) : Journal :=
  journal.filter fun
    | .heard .. | .posted .. | .ready _ => true
    | _ => false

@[simp]
theorem closings_append (front back : Journal) : closings (front ++ back) = closings front ++ closings back := by
  simp [closings]

@[simp]
theorem runs_append (front back : Journal) : runs (front ++ back) = runs front ++ runs back := by
  simp [runs]

@[simp]
theorem closings_flatMap {α : Type} (items : List α) (entries : α → Journal) :
    closings (items.flatMap entries) = items.flatMap fun item => closings (entries item) := by
  simp [closings, List.filterMap_flatMap]

/-- How many closes blamed the peer. -/
def abuses (journal : Journal) : Nat := (counts journal).count .abuseClose

@[simp]
theorem abuses_append (front back : Journal) : abuses (front ++ back) = abuses front + abuses back := by
  simp [abuses, counts]

/-- What was counted of the connection's course. -/
def milestones (journal : Journal) : List Count := (counts journal).filter Count.isMilestone

@[simp]
theorem milestones_append (front back : Journal) :
    milestones (front ++ back) = milestones front ++ milestones back := by
  simp [milestones, counts]

/-- Entries of counts alone, none of them of a close. -/
structure Tally (entries : Journal) : Prop where
  closings : closings entries = []
  runs : runs entries = []
  abuses : abuses entries = 0

theorem Tally.nil : Tally [] := ⟨rfl, rfl, rfl⟩

theorem Tally.cons {count : Count} {entries : Journal} (hcount : count ≠ .abuseClose) (h : Tally entries) :
    Tally (.counted count :: entries) := by
  refine ⟨h.closings, h.runs, ?_⟩
  rw [← List.singleton_append, abuses_append, h.abuses]
  simp [Journal.abuses, counts, hcount]

theorem Tally.append {front back : Journal} (h : Tally front) (h' : Tally back) : Tally (front ++ back) := by
  refine ⟨?_, ?_, ?_⟩
  · rw [closings_append, h.closings, h'.closings]
    rfl
  · rw [runs_append, h.runs, h'.runs]
    rfl
  · rw [abuses_append, h.abuses, h'.abuses]

end Journal

theorem Dispatcher.closings_dispatchAfter (d : Dispatcher) (earlier : List (String × List Value)) (tag : String)
    (args : List Value) : Journal.closings (d.dispatchAfter earlier tag args).2 = [] := by
  have hcall : ∀ listener : Listener, Journal.closings (listener.call ⟨args, earlier⟩).2 = [] := by
    intro listener
    unfold Listener.call
    cases listener.forward <;> rfl
  have hfailure : ∀ error, Journal.closings (d.reportFailure tag error) = [] := fun _ => rfl
  rw [Dispatcher.dispatchAfter, Journal.closings_append, Journal.closings_flatMap, Journal.closings_flatMap]
  simp [hcall, hfailure]

theorem Dispatcher.closings_drainPending (d : Dispatcher) (registry : Registry) :
    Journal.closings (d.drainPending registry).2 = [] := by
  have hreport : ∀ error, Journal.closings (d.report error) = [] := fun _ => rfl
  rw [Dispatcher.drainPending, Journal.closings_flatMap]
  simp [hreport]

theorem Dispatcher.closings_fireReady (d : Dispatcher) : Journal.closings d.fireReady.2 = [] := by
  simp [Dispatcher.fireReady, Journal.closings]

theorem Dispatcher.closings_fireClose (d : Dispatcher) (code : CloseCode) (reason : String) :
    Journal.closings (d.fireClose code reason) = d.closeCallbacks.map (·, code, reason) := by
  simp [Dispatcher.fireClose, Journal.closings]

/-! ## Acts of a session -/

namespace Session

variable {T S : Type}

/-- Nothing was sent, negotiated or closed. Callbacks run only in a ready session. -/
structure Aside (s s' : Session T S) : Prop where
  state : s'.state = s.state
  transport : s'.transport = s.transport
  sendLimiter : s'.sendLimiter = s.sendLimiter
  deferred : s'.deferred = s.deferred
  batchers : s'.batchers = s.batchers
  outbound : s'.outbound.Alike s.outbound
  inbound : s'.inbound.Alike s.inbound
  callbacks : s'.dispatcher.closeCallbacks = s.dispatcher.closeCallbacks
  journal : ∃ entries, s'.journal = s.journal ++ entries ∧ Journal.closings entries = [] ∧
    (s.state ≠ .ready → Journal.runs entries = [])

theorem Aside.refl (s : Session T S) : s.Aside s :=
  ⟨rfl, rfl, rfl, rfl, rfl, rfl, rfl, rfl, [], (List.append_nil _).symm, rfl, fun _ => rfl⟩

theorem Aside.trans {s s' s'' : Session T S} (h : s.Aside s') (h' : s'.Aside s'') : s.Aside s'' := by
  obtain ⟨entries, hjournal, hclosings, hruns⟩ := h.journal
  obtain ⟨entries', hjournal', hclosings', hruns'⟩ := h'.journal
  refine ⟨h'.state.trans h.state, h'.transport.trans h.transport, h'.sendLimiter.trans h.sendLimiter,
    h'.deferred.trans h.deferred, h'.batchers.trans h.batchers, Eq.trans h'.outbound h.outbound,
    Eq.trans h'.inbound h.inbound, h'.callbacks.trans h.callbacks, entries ++ entries', ?_, ?_, fun hstate => ?_⟩
  · rw [hjournal', hjournal, List.append_assoc]
  · rw [Journal.closings_append, hclosings, hclosings', List.append_nil]
  · rw [Journal.runs_append, hruns hstate, hruns' (h.state ▸ hstate), List.append_nil]

section Asides

variable (s : Session T S)

theorem aside_note {entries : Journal} (hclosings : Journal.closings entries = [])
    (hruns : s.state ≠ .ready → Journal.runs entries = []) : s.Aside (s.note entries) :=
  ⟨rfl, rfl, rfl, rfl, rfl, rfl, rfl, rfl, entries, rfl, hclosings, hruns⟩

theorem aside_count (count : Count) : s.Aside (s.count count) := s.aside_note rfl fun _ => rfl

theorem aside_report (error : ProtocolError) : s.Aside (s.report error) := s.aside_note rfl fun _ => rfl

theorem aside_dispatcher {dispatcher : Dispatcher} (h : dispatcher.closeCallbacks = s.dispatcher.closeCallbacks) :
    s.Aside { s with dispatcher } :=
  ⟨rfl, rfl, rfl, rfl, rfl, rfl, rfl, h, [], (List.append_nil _).symm, rfl, fun _ => rfl⟩

theorem aside_timers (scheduler : S) (timers : List TimerHandle) : s.Aside { s with scheduler, timers } :=
  ⟨rfl, rfl, rfl, rfl, rfl, rfl, rfl, rfl, [], (List.append_nil _).symm, rfl, fun _ => rfl⟩

theorem aside_receiveLimiter (receiveLimiter : RateLimiter) : s.Aside { s with receiveLimiter } :=
  ⟨rfl, rfl, rfl, rfl, rfl, rfl, rfl, rfl, [], (List.append_nil _).symm, rfl, fun _ => rfl⟩

theorem aside_setOutboundEnabled (tag : String) (enabled : Bool) : s.Aside (s.setOutboundEnabled tag enabled) :=
  ⟨rfl, rfl, rfl, rfl, rfl, s.outbound.setEnabled_alike tag enabled, rfl, rfl, [], (List.append_nil _).symm, rfl,
    fun _ => rfl⟩

theorem aside_setInboundEnabled (tag : String) (enabled : Bool) : s.Aside (s.setInboundEnabled tag enabled) :=
  ⟨rfl, rfl, rfl, rfl, rfl, rfl, s.inbound.setEnabled_alike tag enabled, rfl, [], (List.append_nil _).symm, rfl,
    fun _ => rfl⟩

theorem aside_deliver (packet : Packet) (values : List Value) (hstate : s.state = .ready) :
    s.Aside (deliver packet s values) :=
  (s.aside_count _).trans (aside_note _ (s.dispatcher.closings_dispatchAfter _ _ _) fun hne => (hne hstate).elim)

theorem aside_foldl_deliver (packet : Packet) (decoded : List (List Value)) (hstate : s.state = .ready) :
    s.Aside (decoded.foldl (deliver packet) s) := by
  induction decoded generalizing s with
  | nil => exact .refl s
  | cons values decoded ih => exact (s.aside_deliver packet values hstate).trans (ih _ hstate)

/-- Whatever a message is like, taking it in sends nothing. -/
theorem aside_receive (bytes : Bytes) (hstate : s.state = .ready) : s.Aside (s.receive bytes).2 := by
  refine (s.aside_count (.messageReceived bytes.length)).trans ?_
  simp only [receive]
  split
  · exact .refl _
  · split
    · exact (aside_receiveLimiter _ _).trans (aside_count _ _)
    · split
      · exact aside_receiveLimiter _ _
      · exact (aside_receiveLimiter _ _).trans (aside_foldl_deliver _ _ _ hstate)

end Asides

section Acts

variable [Transport T] [Scheduler S]

/-- What calls are made of. -/
inductive Act : Session T S → Session T S → Prop
  | aside {s s' : Session T S} : s.Aside s' → Act s s'
  /-- The transport opened. -/
  | await {s : Session T S} : s.state = .connecting → Act s { s with state := .awaitingSchema }
  /-- A handshake was read. -/
  | adopt {s : Session T S} {bytes : Bytes} {handshake : Handshake} : s.state = .awaitingSchema →
      Handshake.parse bytes = .ok handshake →
      Act s { s.activate handshake.client handshake.server (rateWindowMs handshake.rateWindow) with state := .ready }
  | tick {s : Session T S} (kind : TimerKind) : Act s (s.onTimer kind)
  | close {s : Session T S} (code : CloseCode) (reason : String) : Act s (s.close code reason)

/-- Any number of acts. -/
abbrev Acts : Session T S → Session T S → Prop := Relation.ReflTransGen Act

theorem Aside.acts {s s' : Session T S} (h : s.Aside s') : Acts s s' := .single (.aside h)

theorem acts_fail (s : Session T S) (error : ProtocolError) : Acts s (s.fail error) := by
  unfold fail
  split
  · exact (s.aside_count _).acts.tail (.close _ _)
  · exact .single (.close _ _)

theorem acts_receiveOrFail (s : Session T S) (bytes : Bytes) (hstate : s.state = .ready) :
    Acts s (s.receiveOrFail bytes) := by
  have haside := s.aside_receive bytes hstate
  unfold receiveOrFail
  split
  · rename_i hreceive
    rw [hreceive] at haside
    exact haside.acts
  · rename_i hreceive
    rw [hreceive] at haside
    exact haside.acts.trans (acts_fail _ _)

theorem acts_handshakeTimedOut (s : Session T S) : Acts s s.handshakeTimedOut :=
  (s.aside_count _).acts.tail (.close _ _)

end Acts

end Session

/-! ## Acts of a client -/

namespace ClientConnection

variable {T S : Type} [Transport T] [Scheduler S]

open Session (Aside Acts)

theorem acts_awaitHandshake (c : ClientConnection T S) (hstate : c.state = .connecting) :
    Acts c.session c.awaitHandshake.session :=
  ((c.session.aside_count .handshakeAttempt).acts.tail (.await hstate)).trans (Session.aside_timers _ _ _).acts

omit [Transport T] in
theorem stopExpiry_eq (c : ClientConnection T S) :
    ∃ scheduler timers, c.stopExpiry.session = { c.session with scheduler, timers } := by
  unfold stopExpiry
  split
  · exact ⟨_, _, rfl⟩
  · exact ⟨_, _, rfl⟩

omit [Transport T] in
theorem aside_stopExpiry (c : ClientConnection T S) : c.session.Aside c.stopExpiry.session := by
  obtain ⟨scheduler, timers, hsession⟩ := c.stopExpiry_eq
  rw [hsession]
  exact c.session.aside_timers scheduler timers

theorem acts_adopt (c : ClientConnection T S) {bytes : Bytes} {handshake : Handshake}
    (hstate : c.state = .awaitingSchema) (h : Handshake.parse bytes = .ok handshake) :
    Acts c.session (c.adopt handshake).session := by
  refine .trans (.single (.adopt hstate h)) (Aside.acts ?_)
  obtain ⟨_, _, hactivate⟩ :=
    c.session.activate_eq handshake.client handshake.server (rateWindowMs handshake.rateWindow)
  simp only [adopt, hactivate]
  -- the session is ready by now, so ready callbacks may run
  refine (Session.aside_dispatcher _ ?_).trans ((Session.aside_note _ (Dispatcher.closings_drainPending _ _)
    fun hne => (hne rfl).elim).trans ((Session.aside_dispatcher _ ?_).trans ((Session.aside_count _ _).trans
      (Session.aside_note _ (Dispatcher.closings_fireReady _) fun hne => (hne rfl).elim))))
  · rfl
  · rfl

theorem acts_completeHandshake (c : ClientConnection T S) (bytes : Bytes) (hstate : c.state = .awaitingSchema) :
    Acts c.session (c.completeHandshake bytes).session := by
  have hstop := c.aside_stopExpiry
  unfold completeHandshake
  split
  · rename_i handshake hparse
    exact hstop.acts.trans (acts_adopt _ (hstop.state.trans hstate) hparse)
  · exact (hstop.trans (Session.aside_count _ _)).acts.tail (.close _ _)

theorem acts_onMessage (c : ClientConnection T S) (bytes : Bytes) : Acts c.session (c.onMessage bytes).session := by
  unfold onMessage
  split
  · rename_i hstate
    exact (c.acts_awaitHandshake hstate).trans (acts_completeHandshake _ bytes rfl)
  · rename_i hstate
    exact c.acts_completeHandshake bytes hstate
  · rename_i hstate
    exact c.session.acts_receiveOrFail bytes hstate
  · exact .refl

theorem acts_onTimer (c : ClientConnection T S) (kind : TimerKind) : Acts c.session (c.onTimer kind).session := by
  unfold onTimer
  split
  · simp only [expire]
    split
    · exact c.session.acts_handshakeTimedOut
    · exact c.session.acts_handshakeTimedOut
    · exact .refl
  · exact .single (.tick _)

omit [Transport T] [Scheduler S] in
theorem aside_on {c c' : ClientConnection T S} {tag : String} {listener : Listener} (h : c.on tag listener = .ok c') :
    c.session.Aside c'.session := by
  unfold ClientConnection.on at h
  split at h
  · obtain ⟨dispatcher, hregister, rfl⟩ := Outcome.map_eq_ok.1 h
    refine c.session.aside_dispatcher ?_
    unfold Dispatcher.register at hregister
    split at hregister
    · cases hregister
      rfl
    · cases hregister
  · cases h
  · cases h
    exact c.session.aside_dispatcher rfl

omit [Transport T] [Scheduler S] in
theorem aside_onReady (c : ClientConnection T S) (callback : String) :
    c.session.Aside (c.onReady callback).session := by
  unfold onReady
  split
  · rename_i hready
    exact c.session.aside_note rfl fun hne => (hne (by simpa [Session.isReady] using hready)).elim
  · exact c.session.aside_dispatcher rfl

end ClientConnection

/-! ## Acts of a server -/

namespace ServerConnection

variable {T S : Type} [Transport T] [Scheduler S]

open Session (Aside Acts)

omit [Transport T] in
/-- To check for the first packet changes timers and counts. -/
theorem checkFirst_eq (c : ServerConnection T S) (bytes : Bytes) :
    ∃ scheduler timers entries, Journal.Tally entries ∧ (c.checkFirst bytes).2.session =
      { c.session with scheduler, timers, journal := c.session.journal ++ entries } := by
  have hsame : c.session = { c.session with journal := c.session.journal ++ [] } := by rw [List.append_nil]
  unfold checkFirst
  split
  · exact ⟨_, _, [], .nil, hsame⟩
  · split
    · exact ⟨_, _, [], .nil, hsame⟩
    · split
      · unfold takeFirst
        split
        · exact ⟨_, _, [.counted .handshakeSuccess], .cons nofun .nil, rfl⟩
        · exact ⟨_, _, [.counted .handshakeSuccess], .cons nofun .nil, rfl⟩
      · exact ⟨_, _, [.counted .handshakeFailed], .cons nofun .nil, rfl⟩
      · exact ⟨_, _, [], .nil, hsame⟩
      · exact ⟨_, _, [], .nil, hsame⟩

omit [Transport T] in
theorem aside_checkFirst (c : ServerConnection T S) (bytes : Bytes) :
    c.session.Aside (c.checkFirst bytes).2.session := by
  obtain ⟨scheduler, timers, entries, hentries, hsession⟩ := c.checkFirst_eq bytes
  rw [hsession]
  exact (c.session.aside_timers scheduler timers).trans (Session.aside_note _ hentries.closings fun _ => hentries.runs)

theorem acts_onMessage (c : ServerConnection T S) (bytes : Bytes) : Acts c.session (c.onMessage bytes).session := by
  have haside := c.aside_checkFirst bytes
  unfold onMessage
  split
  · rename_i hready
    have hstate : c.session.state = .ready := by simpa [Session.isReady] using hready
    split
    · rename_i hcheck
      rw [hcheck] at haside
      exact haside.acts.trans (Session.acts_receiveOrFail _ bytes (haside.state.trans hstate))
    · rename_i hcheck
      rw [hcheck] at haside
      exact haside.acts.trans (Session.acts_fail _ _)
  · exact .refl

theorem acts_onTimer (c : ServerConnection T S) (kind : TimerKind) : Acts c.session (c.onTimer kind).session := by
  unfold onTimer
  split
  · simp only [expire]
    split
    · exact c.session.acts_handshakeTimedOut
    · exact .refl
  · exact .single (.tick _)

omit [Transport T] [Scheduler S] in
theorem aside_on {c c' : ServerConnection T S} {tag : String} {listener : Listener} (h : c.on tag listener = .ok c') :
    c.session.Aside c'.session := by
  unfold ServerConnection.on at h
  split at h
  · cases h
  · obtain ⟨dispatcher, hregister, h⟩ := Outcome.bind_eq_ok.1 h
    cases h
    refine c.session.aside_dispatcher ?_
    unfold Dispatcher.register at hregister
    split at hregister
    · cases hregister
      rfl
    · cases hregister

/-- What a connection begins with whose handshake was written. -/
theorem serving_eq {definition : Definition} {transport : T} {scheduler : S} {c : ServerConnection T S}
    (h : accept definition transport scheduler = .serving c) :
    ∃ scheduler' timers expiry, ∃ counts : List Count, c =
      { session :=
          { state := .ready
            transport := Transport.sendAll transport [definition.handshake]
            scheduler := scheduler'
            outbound := definition.server
            inbound := definition.client
            sendLimiter := if definition.rateWindow.isSome then .ofRegistry definition.server else .unlimited
            receiveLimiter := if definition.rateWindow.isSome then .ofRegistry definition.client else .unlimited
            deferred := .empty 0
            batchers := definition.server.entries.filterMap fun entry => entry.2.batcher? entry.1
            timers
            journal := counts.map .counted }
        definition, expiry } := by
  simp only [accept, Session.write] at h
  split at h
  · rename_i s hwrite
    obtain ⟨scheduler', timers, expiry, counts, hserve⟩ := serve_eq definition s
    cases h
    split at hwrite
    · cases hwrite
      exact ⟨scheduler', timers, expiry,
        [.connectionEstablished, .handshakeAttempt, .messageSent definition.handshake.length] ++ counts,
        by rw [List.map_append]; exact hserve⟩
    · cases hwrite
  · cases h

end ServerConnection

/-! ## Calls -/

/-- A call on a connection. -/
inductive Call where
  /-- The transport opened; servers begin with one that is open. -/
  | opened
  | message (bytes : Bytes)
  | timer (kind : TimerKind)
  | send (tag : String) (values : List Value)
  | sendEncoded (key : UInt8) (payload : Bytes)
  | on (tag : String) (listener : Listener)
  /-- Servers are ready from the start and have no such callbacks. -/
  | onReady (callback : String)
  | onClose (callback : String)
  | onError (callback : String)
  | report (error : ProtocolError)
  | setOutboundEnabled (tag : String) (enabled : Bool)
  | setInboundEnabled (tag : String) (enabled : Bool)
  | close (code : CloseCode) (reason : String)
  | transportClosed (code : CloseCode) (reason : String)

namespace Call

/-- Whether the call says that the connection was closed elsewhere. -/
def byPeer : Call → Bool
  | .transportClosed .. => true
  | _ => false

/-- Code and reason that the call itself closes with. -/
def closing? : Call → Option (CloseCode × String)
  | .close code reason | .transportClosed code reason => some (code, reason)
  | _ => none

/-- The close callback that the call adds. -/
def closeCallback? : Call → Option String
  | .onClose callback => some callback
  | _ => none

/-- Calls that send nothing, add no close callback, and do not by themselves close. -/
def Plain : Call → Prop
  | .send .. | .sendEncoded .. | .onClose _ | .close .. | .transportClosed .. => False
  | _ => True

variable {call : Call}

theorem Plain.byPeer (h : call.Plain) : call.byPeer = false := by
  cases call <;> first | rfl | cases h

theorem Plain.closing? (h : call.Plain) : call.closing? = none := by
  cases call <;> first | rfl | cases h

theorem Plain.closeCallback? (h : call.Plain) : call.closeCallback? = none := by
  cases call <;> first | rfl | cases h

end Call

/-- What a call does to a session. -/
inductive Session.Did {T S : Type} [Transport T] [Scheduler S] (s : Session T S) : Call → Session T S → Prop
  | send (tag : String) (values : List Value) : Did s (.send tag values) (s.send tag values).2
  | sendEncoded (key : UInt8) (payload : Bytes) : Did s (.sendEncoded key payload) (s.sendEncoded key payload).2
  | onClose (callback : String) : Did s (.onClose callback) (s.onClose callback)
  | close (code : CloseCode) (reason : String) : Did s (.close code reason) (s.close code reason)
  | transportClosed (code : CloseCode) (reason : String) :
      Did s (.transportClosed code reason) (s.closedByPeer code reason)
  | acts {call : Call} {s' : Session T S} : call.Plain → Acts s s' → Did s call s'

namespace Endpoint

variable {T S : Type}

/-- Runs a callback once the connection is ready. -/
def onReady (e : Endpoint T S) (callback : String) : Endpoint T S :=
  match e with
  | client connection => client (connection.onReady callback)
  | server connection => server connection

section

variable [Transport T] [Scheduler S]

/-- The transport is open. -/
def opened (e : Endpoint T S) : Endpoint T S :=
  match e with
  | client connection => client connection.opened
  | server connection => server connection

/-- Sends an encoded payload. -/
def sendEncoded (e : Endpoint T S) (key : UInt8) (payload : Bytes) : Result Unit × Endpoint T S :=
  let (result, session) := e.session.sendEncoded key payload
  (result, e.withSession session)

/-- The endpoint after a call. A listener that is refused changes nothing. -/
def call (e : Endpoint T S) : Call → Endpoint T S
  | .opened => e.opened
  | .message bytes => e.onMessage bytes
  | .timer kind => e.onTimer kind
  | .send tag values => (e.send tag values).2
  | .sendEncoded key payload => (e.sendEncoded key payload).2
  | .on tag listener =>
    match e.on tag listener with
    | .ok e => e
    | .error _ => e
  | .onReady callback => e.onReady callback
  | .onClose callback => e.onClose callback
  | .onError callback => e.onError callback
  | .report error => e.report error
  | .setOutboundEnabled tag enabled => e.setOutboundEnabled tag enabled
  | .setInboundEnabled tag enabled => e.setInboundEnabled tag enabled
  | .close code reason => e.close code reason
  | .transportClosed code reason => e.onTransportClose code reason

def run (e : Endpoint T S) (calls : List Call) : Endpoint T S := calls.foldl call e

/-- New ends over a transport: clients, and servers whose handshake was written. -/
inductive New (transport : T) : Endpoint T S → Prop
  | client (scheduler : S) (config : ClientConfig) : New transport (client (.start transport scheduler config))
  | server {definition : Definition} {connection : ServerConnection T S} (scheduler : S) : definition.Built →
      ServerConnection.accept definition transport scheduler = .serving connection → New transport (server connection)

/-- The server's end of a connection over which these packets go. -/
def serve (client server : List Packet) (config : ServerConfig) (transport : T) (scheduler : S) :
    Result (Endpoint T S) := do
  let definition ← Definition.make client server .empty config
  match ServerConnection.accept definition transport scheduler with
  | .serving connection => return .server connection
  | .refused error _ => .error error

theorem New.serve {client server : List Packet} {config : ServerConfig} {transport : T} {scheduler : S}
    {e : Endpoint T S} (hclient : ∀ packet ∈ client, packet.Declared) (hserver : ∀ packet ∈ server, packet.Declared)
    (h : serve client server config transport scheduler = .ok e) : e.New transport := by
  obtain ⟨definition, hmake, h⟩ := Outcome.bind_eq_ok.1 h
  split at h
  · rename_i connection haccept
    cases h
    exact .server _ (.make hclient hserver hmake) haccept
  · cases h

omit [Transport T] [Scheduler S] in
@[simp]
theorem session_withSession (e : Endpoint T S) (session : Session T S) : (e.withSession session).session = session := by
  cases e <;> rfl

@[simp]
theorem run_append (e : Endpoint T S) (front back : List Call) : e.run (front ++ back) = (e.run front).run back :=
  List.foldl_append

/-- Every call does what it says, or is a chain of acts. -/
theorem call_did (e : Endpoint T S) (call : Call) : e.session.Did call (e.call call).session := by
  cases call with
  | opened =>
    refine .acts trivial ?_
    cases e with
    | client c =>
      show Session.Acts c.session c.opened.session
      unfold ClientConnection.opened
      split
      · exact c.acts_awaitHandshake ‹_›
      · exact .refl
    | server c => exact .refl
  | message bytes =>
    cases e with
    | client c => exact .acts trivial (c.acts_onMessage bytes)
    | server c => exact .acts trivial (c.acts_onMessage bytes)
  | timer kind =>
    cases e with
    | client c => exact .acts trivial (c.acts_onTimer kind)
    | server c => exact .acts trivial (c.acts_onTimer kind)
  | send tag values =>
    have hsession : (e.call (.send tag values)).session = (e.session.send tag values).2 := session_withSession _ _
    exact hsession ▸ .send tag values
  | sendEncoded key payload =>
    have hsession : (e.call (.sendEncoded key payload)).session = (e.session.sendEncoded key payload).2 :=
      session_withSession _ _
    exact hsession ▸ .sendEncoded key payload
  | on tag listener =>
    refine .acts trivial ?_
    simp only [Endpoint.call]
    split
    · rename_i e' hon
      cases e with
      | client c =>
        obtain ⟨c', hon', rfl⟩ := Outcome.map_eq_ok.1 hon
        exact (ClientConnection.aside_on hon').acts
      | server c =>
        obtain ⟨c', hon', rfl⟩ := Outcome.map_eq_ok.1 hon
        exact (ServerConnection.aside_on hon').acts
    · exact .refl
  | onReady callback =>
    cases e with
    | client c => exact .acts trivial (c.aside_onReady callback).acts
    | server c => exact .acts trivial .refl
  | onClose callback =>
    have hsession : (e.call (.onClose callback)).session = e.session.onClose callback := session_withSession _ _
    exact hsession ▸ .onClose callback
  | onError callback =>
    have haside : e.session.Aside (e.session.onError callback) := e.session.aside_dispatcher rfl
    exact .acts trivial (by simpa [Endpoint.call, Endpoint.onError] using haside.acts)
  | report error =>
    exact .acts trivial (by simpa [Endpoint.call, Endpoint.report] using (e.session.aside_report error).acts)
  | setOutboundEnabled tag enabled =>
    cases e with
    | client c => exact .acts trivial (c.session.aside_setOutboundEnabled tag enabled).acts
    | server c => exact .acts trivial (c.session.aside_setOutboundEnabled tag enabled).acts
  | setInboundEnabled tag enabled =>
    cases e with
    | client c => exact .acts trivial (c.session.aside_setInboundEnabled tag enabled).acts
    | server c => exact .acts trivial (c.session.aside_setInboundEnabled tag enabled).acts
  | close code reason =>
    have hsession : (e.call (.close code reason)).session = e.session.close code reason := session_withSession _ _
    exact hsession ▸ .close code reason
  | transportClosed code reason =>
    have hsession : (e.call (.transportClosed code reason)).session = e.session.closedByPeer code reason :=
      session_withSession _ _
    exact hsession ▸ .transportClosed code reason

end

end Endpoint

end PacketProtocol
