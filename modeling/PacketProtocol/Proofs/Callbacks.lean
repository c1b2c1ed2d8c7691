import PacketProtocol.Proofs.Dispatching
/-!
# What callbacks do

A packet that comes in is heard by the listeners of its tag, in their order, and those that fail are reported
when all of them have heard it. A handshake puts the listeners in place that waited for it. Other calls leave
the callbacks alone, but for those of the close.
-/

namespace PacketProtocol

/-! ## What callbacks do -/

namespace Journal

/-- What callbacks did, but for those of the close. -/
def callbacks (journal : Journal) : Journal :=
  journal.filter fun
    | .heard .. | .posted .. | .ready _ | .reported .. => true
    | _ => false

/-- Ready callbacks that ran, in order. -/
def readied (journal : Journal) : List String :=
  journal.filterMap fun
    | .ready callback => some callback
    | _ => none

@[simp]
theorem callbacks_append (front back : Journal) : callbacks (front ++ back) = callbacks front ++ callbacks back := by
  simp [callbacks]

@[simp]
theorem readied_append (front back : Journal) : readied (front ++ back) = readied front ++ readied back := by
  simp [readied]

theorem readied_flatMap {α : Type} (items : List α) (entries : α → Journal) :
    readied (items.flatMap entries) = items.flatMap fun item => readied (entries item) :=
  List.filterMap_flatMap

@[simp]
theorem callbacks_counted (count : Count) (journal : Journal) :
    callbacks (.counted count :: journal) = callbacks journal :=
  rfl

@[simp]
theorem callbacks_nil : callbacks [] = [] := rfl

theorem runs_callbacks (journal : Journal) : runs (callbacks journal) = runs journal := by
  induction journal with
  | nil => rfl
  | cons entry journal ih =>
    rw [← List.singleton_append, callbacks_append, runs_append, runs_append, ih]
    cases entry <;> rfl

theorem readied_runs (journal : Journal) : readied (runs journal) = readied journal := by
  induction journal with
  | nil => rfl
  | cons entry journal ih =>
    rw [← List.singleton_append, runs_append, readied_append, readied_append, ih]
    cases entry <;> rfl

theorem readied_callbacks (journal : Journal) : readied (callbacks journal) = readied journal := by
  rw [← readied_runs, runs_callbacks, readied_runs]

theorem heard_callbacks (journal : Journal) : heard (callbacks journal) = heard journal := by
  rw [← heard_runs, runs_callbacks, heard_runs]

end Journal

/-- A packet comes in: every listener registered under its tag is called once, in the order of registration, whatever
the others answer. Then each failure is reported. -/
def Listener.round (registered : List (String × Listener)) (handler : Option String)
    (earlier : List (String × List Value)) (packet : String × List Value) : Journal :=
  let calls := (registered.filter fun entry => entry.1 == packet.1).map fun entry => entry.2.call ⟨packet.2, earlier⟩
  let failures := calls.filterMap fun call =>
    match call.1 with
    | .ok () => none
    | .error e => some e
  calls.flatMap Prod.snd ++ failures.map fun error => .reported handler (.listener (packet.1 ++ ": " ++ error.message))

/-- Packets come in one after the other. What a listener answers to each may depend on all that was heard before. -/
def Listener.rounds (registered : List (String × Listener)) (handler : Option String) :
    List (String × List Value) → List (String × List Value) → Journal
  | _, [] => []
  | earlier, packet :: packets =>
    let journal := round registered handler earlier packet
    journal ++ rounds registered handler (earlier ++ Journal.heard journal) packets

namespace Listener

variable {registered registered' : List (String × Listener)} {handler : Option String}

@[simp]
theorem rounds_nil (earlier : List (String × List Value)) : rounds registered handler earlier [] = [] := rfl

theorem rounds_cons (earlier packets : List (String × List Value)) (packet : String × List Value) :
    rounds registered handler earlier (packet :: packets) = round registered handler earlier packet ++
      rounds registered handler (earlier ++ Journal.heard (round registered handler earlier packet)) packets :=
  rfl

theorem round_congr {packet : String × List Value}
    (h : (registered.filter fun entry => entry.1 == packet.1) = registered'.filter fun entry => entry.1 == packet.1)
    (earlier : List (String × List Value)) :
    round registered handler earlier packet = round registered' handler earlier packet := by
  rw [round, h, round]

theorem rounds_congr {packets : List (String × List Value)}
    (h : ∀ packet ∈ packets, (registered.filter fun entry => entry.1 == packet.1) =
      registered'.filter fun entry => entry.1 == packet.1) (earlier : List (String × List Value)) :
    rounds registered handler earlier packets = rounds registered' handler earlier packets := by
  induction packets generalizing earlier with
  | nil => rfl
  | cons packet packets ih =>
    obtain ⟨hpacket, hpackets⟩ := List.forall_mem_cons.1 h
    rw [rounds_cons, rounds_cons, round_congr hpacket, ih hpackets]

/-- Listeners are no ready callbacks. -/
theorem readied_round (earlier : List (String × List Value)) (packet : String × List Value) :
    Journal.readied (round registered handler earlier packet) = [] := by
  have hcall : ∀ (listener : Listener) (hearing : Hearing), Journal.readied (listener.call hearing).2 = [] := by
    intro listener hearing
    unfold Listener.call
    cases listener.forward <;> rfl
  have hreports : ∀ failures : List ProtocolError, Journal.readied (failures.map fun error =>
      .reported handler (.listener (packet.1 ++ ": " ++ error.message))) = [] := by
    intro failures
    simp [Journal.readied]
  rw [round, Journal.readied_append, hreports, List.append_nil, Journal.readied_flatMap, List.flatMap_eq_nil_iff]
  intro call hmem
  obtain ⟨entry, -, rfl⟩ := List.mem_map.1 hmem
  exact hcall entry.2 _

theorem readied_rounds (earlier packets : List (String × List Value)) :
    Journal.readied (rounds registered handler earlier packets) = [] := by
  induction packets generalizing earlier with
  | nil => rfl
  | cons packet packets ih => rw [rounds_cons, Journal.readied_append, readied_round, ih, List.append_nil]

end Listener

namespace Dispatcher

theorem callbacks_call (listener : Listener) (hearing : Hearing) :
    Journal.callbacks (listener.call hearing).2 = (listener.call hearing).2 := by
  unfold Listener.call
  cases listener.forward <;> rfl

theorem callbacks_flatMap_call (listeners : List (String × Listener)) (hearing : Hearing) :
    Journal.callbacks ((listeners.map fun entry => entry.2.call hearing).flatMap Prod.snd) =
      (listeners.map fun entry => entry.2.call hearing).flatMap Prod.snd := by
  induction listeners with
  | nil => rfl
  | cons entry listeners ih =>
    rw [List.map_cons, List.flatMap_cons, Journal.callbacks_append, callbacks_call, ih]

theorem callbacks_failures (d : Dispatcher) (tag : String) (failures : List ProtocolError) :
    Journal.callbacks (failures.flatMap (d.reportFailure tag)) =
      failures.map fun error => .reported d.errorCallback (.listener (tag ++ ": " ++ error.message)) := by
  induction failures with
  | nil => rfl
  | cons error failures ih =>
    rw [List.flatMap_cons, Journal.callbacks_append, ih]
    rfl

theorem callbacks_dispatchAfter (d : Dispatcher) (earlier : List (String × List Value)) (tag : String)
    (args : List Value) : Journal.callbacks (d.dispatchAfter earlier tag args).2 =
      Listener.round d.listeners d.errorCallback earlier (tag, args) := by
  have hcalls : (d.listenersOf tag).map (fun listener => listener.call ⟨args, earlier⟩) =
      (d.listeners.filter fun entry => entry.1 == tag).map fun entry => entry.2.call ⟨args, earlier⟩ := by
    rw [listenersOf, List.map_map]
    rfl
  rw [dispatchAfter, hcalls, Journal.callbacks_append, callbacks_flatMap_call, callbacks_failures]
  rfl

end Dispatcher

/-! ## Sessions that receive -/

namespace Session

variable {T S : Type}

/-- These packets reached the listeners, and no other callback was called. The callbacks of a session that is still
ready stay in place. -/
structure Routed (s : Session T S) (packets : List (String × List Value)) (s' : Session T S) : Prop where
  callbacks : Journal.callbacks s'.journal = Journal.callbacks s.journal ++
    Listener.rounds s.dispatcher.listeners s.dispatcher.errorCallback (Journal.heard s.journal) packets
  dispatcher : s'.state = .ready → s'.dispatcher = s.dispatcher

theorem callbacks_foldl_deliver (packet : Packet) (decoded : List (List Value)) (s : Session T S) :
    Journal.callbacks (decoded.foldl (deliver packet) s).journal = Journal.callbacks s.journal ++
      Listener.rounds s.dispatcher.listeners s.dispatcher.errorCallback (Journal.heard s.journal)
        (decoded.map fun values => (packet.tag, packet.schema.arguments values)) := by
  induction decoded generalizing s with
  | nil => exact (List.append_nil _).symm
  | cons values decoded ih =>
    have hround := s.dispatcher.callbacks_dispatchAfter (Journal.heard s.journal) packet.tag
      (packet.schema.arguments values)
    have hheard := congrArg Journal.heard hround
    rw [Journal.heard_callbacks] at hheard
    rw [List.foldl_cons, ih, List.map_cons, Listener.rounds_cons]
    simp only [deliver, count, note, Journal.callbacks_append, Journal.heard_append, hround, hheard,
      Journal.callbacks_counted, Journal.callbacks_nil, Journal.heard_counted, List.nil_append,
      List.append_assoc]

theorem receive_routed (s : Session T S) (bytes : Bytes) : s.Routed (s.dispatched bytes) (s.receive bytes).2 := by
  have hopen : (s.count (.messageReceived bytes.length)).openMessage bytes = s.openMessage bytes := rfl
  rw [dispatched]
  unfold receive
  cases hmessage : s.openMessage bytes with
  | error error =>
    simp only [hopen, hmessage]
    exact ⟨by simp [count, note], fun _ => rfl⟩
  | ok opened =>
    obtain ⟨key, packet, payloads⟩ := opened
    simp only [hopen, hmessage]
    cases hhit : (s.count (.messageReceived bytes.length)).receiveLimiter.hitTimes key payloads.length with
    | mk within limiter =>
      cases within with
      | false => exact ⟨by simp [count, note], fun _ => rfl⟩
      | true =>
        cases hdecoded : payloads.mapM packet.decode with
        | error error => exact ⟨by simp [count, note], fun _ => rfl⟩
        | ok decoded =>
          obtain ⟨journal, hfold, -⟩ := foldl_deliver packet decoded
            { s.count (.messageReceived bytes.length) with receiveLimiter := limiter }
          refine ⟨?_, fun _ => by dsimp only; rw [hfold]; rfl⟩
          dsimp only
          rw [callbacks_foldl_deliver, contents_of_openMessage hmessage hdecoded]
          simp [count, note]

section Closing

variable [Scheduler S]

theorem callbacks_closedByPeer (s : Session T S) (code : CloseCode) (reason : String) :
    Journal.callbacks (s.closedByPeer code reason).journal = Journal.callbacks s.journal := by
  unfold closedByPeer
  split
  · rfl
  · simp [teardown, count, note, Dispatcher.fireClose, Journal.callbacks]

variable [Transport T]

theorem callbacks_close (s : Session T S) (code : CloseCode) (reason : String) :
    Journal.callbacks (s.close code reason).journal = Journal.callbacks s.journal := by
  by_cases hstate : s.state = .closed
  · rw [close, if_pos hstate]
  · rw [close_eq hstate]
    exact s.callbacks_closedByPeer code reason

theorem callbacks_fail (s : Session T S) (error : ProtocolError) :
    Journal.callbacks (s.fail error).journal = Journal.callbacks s.journal := by
  unfold fail
  rw [callbacks_close]
  split <;> simp [count, note]

theorem receiveOrFail_routed (s : Session T S) (bytes : Bytes) :
    s.Routed (s.dispatched bytes) (s.receiveOrFail bytes) := by
  have hreceived := s.receive_routed bytes
  unfold receiveOrFail
  split
  · rename_i hreceive
    rw [hreceive] at hreceived
    exact hreceived
  · rename_i error s' hreceive
    rw [hreceive] at hreceived
    refine ⟨(s'.callbacks_fail error).trans hreceived.callbacks, fun hready => ?_⟩
    -- a session that fails is closed
    rw [fail, close_state] at hready
    cases hready

end Closing

end Session

/-! ## Connections that receive -/

namespace ServerConnection

variable {T S : Type} [Scheduler S]

theorem callbacks_checkFirst (c : ServerConnection T S) (bytes : Bytes) :
    Journal.callbacks (c.checkFirst bytes).2.session.journal = Journal.callbacks c.session.journal := by
  unfold checkFirst
  split
  · rfl
  · split
    · rfl
    · split
      · unfold takeFirst
        split <;> simp [Session.count, Session.note, Session.cancelTimer]
      · simp [Session.count, Session.note]
      · rfl
      · rfl

theorem onMessage_routed [Transport T] {c : ServerConnection T S} (hstate : c.session.state = .ready) (bytes : Bytes) :
    c.session.Routed (c.dispatched bytes) (c.onMessage bytes).session := by
  have hready : c.session.isReady = true := by simp [Session.isReady, hstate]
  have hcallbacks := c.callbacks_checkFirst bytes
  obtain ⟨scheduler, timers, entries, -, hsession⟩ := c.checkFirst_eq bytes
  simp only [onMessage, dispatched, hready, if_true]
  generalize c.checkFirst bytes = checked at hcallbacks hsession
  obtain ⟨result, c'⟩ := checked
  have hsession : c'.session = _ := hsession
  have hdispatcher : c'.session.dispatcher = c.session.dispatcher := by rw [hsession]
  cases result with
  | ok =>
    have hrouted := c'.session.receiveOrFail_routed bytes
    have hsame : c'.session.dispatched bytes = c.session.dispatched bytes := by
      rw [hsession]
      exact Session.dispatched_congr rfl (by rw [Session.receive_fst, Session.receive_fst]; rfl)
    rw [hsame] at hrouted
    refine ⟨?_, fun hstate' => (hrouted.dispatcher hstate').trans hdispatcher⟩
    have hheard : Journal.heard c'.session.journal = Journal.heard c.session.journal := by
      rw [← Journal.heard_callbacks, hcallbacks, Journal.heard_callbacks]
    have hrun := hrouted.callbacks
    rwa [hcallbacks, hdispatcher, hheard] at hrun
  | error error =>
    refine ⟨?_, fun hstate' => ?_⟩
    · rw [Listener.rounds_nil, List.append_nil, ← hcallbacks]
      exact c'.session.callbacks_fail error
    · dsimp only at hstate'
      rw [Session.fail, Session.close_state] at hstate'
      cases hstate'

end ServerConnection

namespace ClientConnection

variable {T S : Type} [Scheduler S] {c : ClientConnection T S}

/-- A client that waited took on a handshake: listeners of tags that the server has are put in place, each of the others
is reported, and then the ready callbacks are called. -/
structure Welcomed (c : ClientConnection T S) (handshake : Handshake) (s : Session T S) : Prop where
  state : s.state = .ready
  inbound : s.inbound = handshake.server
  listeners : s.dispatcher.listeners = c.session.dispatcher.listeners ++
    c.session.dispatcher.pending.filter fun entry => handshake.server.contains entry.1
  handler : s.dispatcher.errorCallback = c.session.dispatcher.errorCallback
  callbacks : Journal.callbacks s.journal = Journal.callbacks c.session.journal ++
    ((c.session.dispatcher.pending.filter fun entry => !handshake.server.contains entry.1).map fun entry =>
      .reported c.session.dispatcher.errorCallback (.unknownTag entry.1)) ++
    c.session.dispatcher.readyCallbacks.map .ready

theorem adopt_welcomed (c : ClientConnection T S) (handshake : Handshake) :
    c.Welcomed handshake (c.adopt handshake).session := by
  obtain ⟨_, _, hactivate⟩ :=
    c.session.activate_eq handshake.client handshake.server (rateWindowMs handshake.rateWindow)
  have hready : ∀ callbacks : List String, Journal.callbacks (callbacks.map .ready) = callbacks.map .ready := by
    intro callbacks
    simp [Journal.callbacks]
  have hreports : ∀ (pending : List (String × Listener)) (handler : Option String),
      Journal.callbacks (pending.flatMap fun entry => [.reported handler (.unknownTag entry.1)]) =
        pending.map fun entry => .reported handler (.unknownTag entry.1) := by
    intro pending handler
    induction pending with
    | nil => rfl
    | cons entry pending ih =>
      rw [List.flatMap_cons, Journal.callbacks_append, ih]
      rfl
  simp only [adopt, hactivate]
  refine ⟨rfl, rfl, rfl, rfl, ?_⟩
  simp [Session.count, Session.note, Dispatcher.drainPending, Dispatcher.fireReady, Dispatcher.report, hready, hreports]

variable [Transport T]

/-- What a first message does to a client. -/
theorem welcomed_or_closed (hstate : c.state = .connecting ∨ c.state = .awaitingSchema) (bytes : Bytes) :
    (∃ handshake, Handshake.parse bytes = .ok handshake ∧ c.Welcomed handshake (c.onMessage bytes).session) ∨
      (∃ error, Handshake.parse bytes = .error error) ∧ (c.onMessage bytes).state = .closed ∧
        Journal.callbacks (c.onMessage bytes).session.journal = Journal.callbacks c.session.journal := by
  have hcomplete : ∀ c' : ClientConnection T S, c'.session.dispatcher = c.session.dispatcher →
      Journal.callbacks c'.session.journal = Journal.callbacks c.session.journal →
      (∃ handshake, Handshake.parse bytes = .ok handshake ∧ c.Welcomed handshake (c'.completeHandshake bytes).session) ∨
        (∃ error, Handshake.parse bytes = .error error) ∧ (c'.completeHandshake bytes).state = .closed ∧
          Journal.callbacks (c'.completeHandshake bytes).session.journal = Journal.callbacks c.session.journal := by
    intro c' hdispatcher hcallbacks
    obtain ⟨_, _, hstop⟩ := c'.stopExpiry_eq
    have hdispatcher' : c'.stopExpiry.session.dispatcher = c.session.dispatcher := by rw [hstop, hdispatcher]
    have hcallbacks' : Journal.callbacks c'.stopExpiry.session.journal = Journal.callbacks c.session.journal := by
      rw [hstop, hcallbacks]
    unfold completeHandshake
    cases hparse : Handshake.parse bytes with
    | ok handshake =>
      have hwelcomed := c'.stopExpiry.adopt_welcomed handshake
      refine .inl ⟨handshake, rfl, hwelcomed.state, hwelcomed.inbound, ?_, ?_, ?_⟩
      · rw [hwelcomed.listeners, hdispatcher']
      · rw [hwelcomed.handler, hdispatcher']
      · rw [hwelcomed.callbacks, hdispatcher', hcallbacks']
    | error error =>
      refine .inr ⟨⟨error, rfl⟩, Session.close_state _ _ _, ?_⟩
      refine (Session.callbacks_close _ _ _).trans (.trans ?_ hcallbacks')
      simp [Session.count, Session.note]
  unfold onMessage
  obtain hstate | hstate := hstate
  · rw [hstate]
    exact hcomplete c.awaitHandshake rfl (by simp [awaitHandshake, Session.scheduleOnce, Session.count, Session.note])
  · rw [hstate]
    exact hcomplete c rfl rfl

end ClientConnection

namespace Endpoint

variable {T S : Type} [Transport T] [Scheduler S] {e : Endpoint T S}

theorem onMessage_routed (hstate : e.state = .ready) (bytes : Bytes) :
    e.session.Routed (e.dispatched (.message bytes)) (e.onMessage bytes).session := by
  cases e with
  | client c =>
    have hready : c.session.isReady = true := by simp [Session.isReady, show c.session.state = .ready from hstate]
    have hsession : ((client c).onMessage bytes).session = c.session.receiveOrFail bytes := by
      simp only [onMessage, session, ClientConnection.onMessage, show c.state = .ready from hstate]
    have hall : (client c).dispatched (.message bytes) = c.session.dispatched bytes := if_pos hready
    rw [hsession, hall]
    exact c.session.receiveOrFail_routed bytes
  | server c => exact ServerConnection.onMessage_routed hstate bytes

/-! ## Calls that bring no message -/

end Endpoint

/-- Calls that bring no message and register nothing but close callbacks. -/
def Call.Neutral : Call → Prop
  | .message _ | .on .. | .onReady _ | .onError _ => False
  | _ => True

/-- No callback but those of the close was called, and in a session that did not close the others stay in place. -/
structure Session.Unrouted {T S : Type} (s s' : Session T S) : Prop where
  runs : Journal.runs s'.journal = Journal.runs s.journal
  dispatcher : s'.state = .closed ∨ ∃ closeCallbacks, s'.dispatcher = { s.dispatcher with closeCallbacks }

namespace Session

variable {T S : Type} [Transport T] {s s' : Session T S}

omit [Transport T] in
theorem unrouted_of_eq (hjournal : Journal.runs s'.journal = Journal.runs s.journal)
    (hdispatcher : s'.dispatcher = s.dispatcher) : s.Unrouted s' :=
  ⟨hjournal, .inr ⟨s.dispatcher.closeCallbacks, hdispatcher⟩⟩

theorem Works.unrouted (h : s.Works s') : s.Unrouted s' := by
  obtain ⟨entries, hjournal, -, hruns⟩ := h.journal
  refine unrouted_of_eq ?_ h.dispatcher
  rw [hjournal, Journal.runs_append, hruns, List.append_nil]

theorem unrouted_onTimer (s : Session T S) (kind : TimerKind) : s.Unrouted (s.onTimer kind) := by
  by_cases hstate : s.state = .ready
  · have hworks := (works_onTimer hstate kind).unrouted
    exact ⟨hworks.runs, hworks.dispatcher⟩
  · rw [onTimer_of_not_ready hstate]
    exact unrouted_of_eq rfl rfl

variable [Scheduler S]

omit [Transport T] in
theorem unrouted_closedByPeer (s : Session T S) (code : CloseCode) (reason : String) :
    s.Unrouted (s.closedByPeer code reason) := by
  refine ⟨?_, .inl (s.closedByPeer_state code reason)⟩
  rw [← Journal.runs_callbacks, s.callbacks_closedByPeer, Journal.runs_callbacks]

theorem unrouted_close (s : Session T S) (code : CloseCode) (reason : String) : s.Unrouted (s.close code reason) := by
  refine ⟨?_, .inl (s.close_state code reason)⟩
  rw [← Journal.runs_callbacks, s.callbacks_close, Journal.runs_callbacks]

theorem unrouted_handshakeTimedOut (s : Session T S) : s.Unrouted s.handshakeTimedOut := by
  have hclose := unrouted_close (s.count .handshakeFailed) .handshakeTimeout "Handshake did not complete in time"
  refine ⟨hclose.runs.trans ?_, .inl (close_state _ _ _)⟩
  rw [count, note, Journal.runs_append]
  exact List.append_nil _

end Session

section Ends

variable {T S : Type} [Transport T] [Scheduler S]

omit [Transport T] in
theorem ClientConnection.unrouted_opened (c : ClientConnection T S) : c.session.Unrouted c.opened.session := by
  unfold ClientConnection.opened
  split
  · refine Session.unrouted_of_eq ?_ rfl
    simp [awaitHandshake, Session.scheduleOnce, Session.count, Session.note, Journal.runs]
  · exact Session.unrouted_of_eq rfl rfl

theorem ClientConnection.unrouted_expire (c : ClientConnection T S) : c.session.Unrouted c.expire.session := by
  simp only [expire]
  split
  · exact c.session.unrouted_handshakeTimedOut
  · exact c.session.unrouted_handshakeTimedOut
  · exact Session.unrouted_of_eq rfl rfl

theorem ServerConnection.unrouted_expire (c : ServerConnection T S) : c.session.Unrouted c.expire.session := by
  simp only [expire]
  split
  · exact c.session.unrouted_handshakeTimedOut
  · exact Session.unrouted_of_eq rfl rfl

end Ends

namespace Endpoint

variable {T S : Type} [Transport T] [Scheduler S] {e : Endpoint T S}

theorem call_unrouted (e : Endpoint T S) {call : Call} (hcall : call.Neutral) :
    e.session.Unrouted (e.call call).session := by
  cases call with
  | opened =>
    cases e with
    | client c => exact c.unrouted_opened
    | server c => exact Session.unrouted_of_eq rfl rfl
  | timer kind =>
    cases kind with
    | handshakeExpiry =>
      cases e with
      | client c => exact c.unrouted_expire
      | server c => exact c.unrouted_expire
    | rateReset =>
      have hsession : (e.call (.timer .rateReset)).session = e.session.onTimer .rateReset := by cases e <;> rfl
      rw [hsession]
      exact e.session.unrouted_onTimer _
    | batchFlush key =>
      have hsession : (e.call (.timer (.batchFlush key))).session = e.session.onTimer (.batchFlush key) := by
        cases e <;> rfl
      rw [hsession]
      exact e.session.unrouted_onTimer _
  | send tag values =>
    have hsession : (e.call (.send tag values)).session = (e.session.send tag values).2 := session_withSession _ _
    rw [hsession]
    exact (e.session.works_send tag values).unrouted
  | sendEncoded key payload =>
    have hsession : (e.call (.sendEncoded key payload)).session = (e.session.sendEncoded key payload).2 :=
      session_withSession _ _
    rw [hsession]
    exact (e.session.works_sendEncoded key payload).unrouted
  | onClose callback => cases e <;> exact ⟨rfl, .inr ⟨_, rfl⟩⟩
  | report error =>
    have hsession : (e.call (.report error)).session = e.session.report error := session_withSession _ _
    rw [hsession]
    refine Session.unrouted_of_eq ?_ rfl
    simp [Session.report, Session.note, Dispatcher.report, Journal.runs]
  | setOutboundEnabled tag enabled => cases e <;> exact Session.unrouted_of_eq rfl rfl
  | setInboundEnabled tag enabled => cases e <;> exact Session.unrouted_of_eq rfl rfl
  | close code reason =>
    have hsession : (e.call (.close code reason)).session = e.session.close code reason := session_withSession _ _
    rw [hsession]
    exact e.session.unrouted_close code reason
  | transportClosed code reason =>
    have hsession : (e.call (.transportClosed code reason)).session = e.session.closedByPeer code reason :=
      session_withSession _ _
    rw [hsession]
    exact e.session.unrouted_closedByPeer code reason
  | _ => exact hcall.elim

end Endpoint

end PacketProtocol
