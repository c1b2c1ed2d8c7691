import PacketProtocol.Proofs.Arming
import PacketProtocol.Proofs.Expiry
/-!
# The timers a connection needs

A client that waits for the handshake keeps one timer, to give up on it. A ready connection keeps one for its
rate window, if it has one, and one for each packet that it sends in batches; a server keeps one more until the
packet it requires is there. Whatever happens to a connection, and whatever the other side sends, these are all
the timers its clock keeps for it: none is left behind, and none is kept twice.
-/

namespace PacketProtocol

/-! ## What an end needs timers for -/

namespace Endpoint

variable {T : Type} {e : Endpoint T Clock}

/-- What an end needs timers for, and how often they fire; one without a period fires once. -/
def needs {S : Type} : Endpoint T S → List (TimerKind × Option Period)
  | client c =>
    match c.state with
    | .awaitingSchema => [(.handshakeExpiry, none)]
    | .ready => recurring c.rateWindow c.session.outbound
    | .connecting | .closed => []
  | server c =>
    match c.state with
    | .ready =>
      recurring c.definition.rateWindow c.session.outbound ++
        if c.handshakeReceived then [] else [(.handshakeExpiry, none)]
    | .connecting | .awaitingSchema | .closed => []

/-- The timer that an end keeps to give up on a handshake. -/
def expiry {S : Type} : Endpoint T S → Option TimerHandle
  | client c => c.expiry
  | server c => c.expiry

/-- The clock of an end keeps the timers that are needed, and the end knows them all. -/
structure Timed (e : Endpoint T Clock) : Prop where
  tidy : e.session.Tidy
  expiring : e.session.scheduler.Expiring e.expiry
  purposes : e.session.scheduler.timers.map Timer.purpose = e.needs

theorem needs_of_closed (h : e.state = .closed) : e.needs = [] := by
  cases e with
  | client c =>
    have hstate : c.state = .closed := h
    simp only [needs, hstate]
  | server c =>
    have hstate : c.state = .closed := h
    simp only [needs, hstate]

theorem timed_of_closed (htidy : e.session.Tidy) (hclosed : e.state = .closed) : e.Timed := by
  have htimers := htidy.closed hclosed
  refine ⟨htidy, Clock.expiring_of_timers htimers, ?_⟩
  rw [htimers, needs_of_closed hclosed]
  rfl

/-- The timer that gives up on a handshake is needed for nothing else. -/
theorem pending_of_needs {period : Option Period} (h : (.handshakeExpiry, period) ∈ e.needs) : e.Pending := by
  cases e with
  | client c =>
    simp only [needs] at h
    split at h
    · exact .inr ‹_›
    · exact absurd rfl (of_mem_recurring h).1
    · cases h
    · cases h
  | server c =>
    simp only [needs] at h
    split at h
    · rename_i hready
      rcases List.mem_append.1 h with h | h
      · exact absurd rfl (of_mem_recurring h).1
      · split at h
        · cases h
        · rename_i hmissing
          have hmissing : c.firstCame = false ∧ ¬c.definition.config.handshakePacket = none := by
            simpa [ServerConnection.handshakeReceived] using hmissing
          exact ⟨hready, hmissing.1⟩
    · cases h
    · cases h
    · cases h

theorem Timed.pending (h : e.Timed) {timer : Timer} (htimer : timer ∈ e.session.scheduler.timers)
    (hkind : timer.kind = .handshakeExpiry) : e.Pending := by
  have hneeds : (timer.kind, timer.period) ∈ e.needs := h.purposes ▸ List.mem_map_of_mem htimer
  rw [hkind] at hneeds
  exact pending_of_needs hneeds

/-- An end that does not wait for a handshake may forget the timer that gives up on it. -/
theorem Timed.expiring_none (h : e.Timed) (hpending : ¬e.Pending) : e.session.scheduler.Expiring none :=
  h.expiring.forget fun _ htimer hkind => hpending (h.pending htimer hkind)

/-- No two timers are needed for the same. -/
theorem nodup_needs (hnum : e.session.outbound.Numbered) : (e.needs.map Prod.fst).Nodup := by
  cases e with
  | client c =>
    have hrecurring := nodup_recurring hnum c.rateWindow
    simp only [needs]
    split
    · simp
    · exact hrecurring
    · exact List.nodup_nil
    · exact List.nodup_nil
  | server c =>
    have hrecurring := nodup_recurring hnum c.definition.rateWindow
    simp only [needs]
    split
    · split
      · rw [List.append_nil]
        exact hrecurring
      · rw [List.map_append, List.nodup_append]
        refine ⟨hrecurring, by simp, fun kind hkind other hother => ?_⟩
        rcases List.mem_map.1 hkind with ⟨⟨_, period⟩, hmem, rfl⟩
        rw [List.mem_singleton.1 hother]
        exact (of_mem_recurring hmem).1
    · exact List.nodup_nil
    · exact List.nodup_nil
    · exact List.nodup_nil

/-! ## Ends with other sessions -/

theorem needs_withSession {s : Session T Clock} (hstate : s.state = e.session.state)
    (houtbound : s.outbound.Alike e.session.outbound) : (e.withSession s).needs = e.needs := by
  cases e with
  | client c =>
    have hrecurring := houtbound.recurring_eq c.rateWindow
    have hstate : s.state = c.session.state := hstate
    simp only [needs, withSession, ClientConnection.state, hstate, hrecurring]
    rfl
  | server c =>
    have hrecurring := houtbound.recurring_eq c.definition.rateWindow
    have hstate : s.state = c.session.state := hstate
    simp only [needs, withSession, ServerConnection.state, hstate, hrecurring]
    rfl

theorem expiry_withSession (e : Endpoint T Clock) (s : Session T Clock) : (e.withSession s).expiry = e.expiry := by
  cases e <;> rfl

theorem Pending.withSession (h : e.Pending) {s : Session T Clock} (hstate : s.state = e.session.state) :
    (e.withSession s).Pending := by
  cases e with
  | client c => exact h.imp hstate.trans hstate.trans
  | server c => exact ⟨hstate.trans h.1, h.2⟩

theorem Timed.withSession (h : e.Timed) {s : Session T Clock} (hsame : e.session.Timeless s) :
    (e.withSession s).Timed := by
  constructor
  · rw [session_withSession]
    exact h.tidy.timeless hsame
  · rw [session_withSession, hsame.scheduler, expiry_withSession]
    exact h.expiring
  · rw [session_withSession, hsame.scheduler, needs_withSession hsame.state hsame.outbound]
    exact h.purposes

theorem timed_of_closing {s : Session T Clock} (htidy : s.Tidy) (hclosed : s.state = .closed) :
    (e.withSession s).Timed :=
  timed_of_closed (by rwa [session_withSession]) (by rw [Endpoint.state, session_withSession, hclosed])

/-! ## A client and its handshake -/

section Client

variable {c : ClientConnection T Clock}

theorem timed_awaitHandshake (h : (client c).Timed) (hstate : c.state = .connecting) :
    (client c.awaitHandshake).Timed := by
  have hnone : c.session.scheduler.timers = [] := by
    refine List.map_eq_nil_iff.1 (h.purposes.trans ?_)
    simp only [needs, hstate]
  have harms : Session.Arms [(.handshakeExpiry, none)] c.session c.awaitHandshake.session :=
    Session.arms_of_arm .handshakeExpiry c.config.connectTimeout none rfl rfl
  refine ⟨⟨harms.owns h.tidy.owns, nofun, h.tidy.numbered⟩, ?_, ?_⟩
  · exact (Clock.expiring_of_timers hnone).arm (Session.past_of_timers hnone) c.config.connectTimeout
  · refine harms.purposes.trans ?_
    rw [hnone]
    rfl

theorem stops_stopExpiry (h : (client c).Timed) : c.session.Stops c.stopExpiry.session := by
  have hexpiring : c.session.scheduler.Expiring c.expiry := h.expiring
  unfold ClientConnection.stopExpiry
  split
  · rename_i handle hexpiry
    exact Session.stops_cancelTimer (hexpiry ▸ hexpiring)
  · rename_i hexpiry
    exact Session.stops_of_none (hexpiry ▸ hexpiring)

/-- Once it has the handshake, or something else in its place, a client keeps no timer. -/
theorem timers_stopExpiry (h : (client c).Timed) (hstate : c.state = .awaitingSchema) :
    c.stopExpiry.session.scheduler.timers = [] := by
  have hpurposes : c.session.scheduler.timers.map Timer.purpose = [(.handshakeExpiry, none)] := by
    refine h.purposes.trans ?_
    simp only [needs, hstate]
  have hstopped := (stops_stopExpiry h).purposes
  rw [hpurposes] at hstopped
  exact List.map_eq_nil_iff.1 hstopped

theorem timed_adopt (htimers : c.session.scheduler.timers = []) (hexpiry : c.expiry = none) {handshake : Handshake}
    (hnum : handshake.client.Numbered) : (client (c.adopt handshake)).Timed := by
  have harms : Session.Arms (recurring (rateWindowMs handshake.rateWindow) handshake.client) c.session
      (c.session.activate handshake.client handshake.server (rateWindowMs handshake.rateWindow)) :=
    Session.arms_activate _ _ _ _
  have hpurposes := harms.purposes
  rw [htimers, List.map_nil, List.nil_append] at hpurposes
  constructor
  · exact Session.tidy_of_ready (harms.owns (Session.owns_of_timers htimers)) rfl hnum
  · have hnone : (client (c.adopt handshake)).expiry = none := hexpiry
    rw [hnone]
    exact Clock.expiring_of_recurring hpurposes
  · exact hpurposes

end Client

/-! ## A server and the packet it requires -/

section Server

variable {c : ServerConnection T Clock}

theorem takeFirst_stops (h : (server c).Timed) :
    ∃ session, c.session.Stops session ∧ c.takeFirst = { c with session, firstCame := true, expiry := none } := by
  have hexpiring : c.session.scheduler.Expiring c.expiry := h.expiring
  refine ⟨_, ?_, rfl⟩
  split
  · rename_i handle hexpiry
    exact (Session.stops_cancelTimer (hexpiry ▸ hexpiring)).count .handshakeSuccess
  · rename_i hexpiry
    exact (Session.stops_of_none (hexpiry ▸ hexpiring)).count .handshakeSuccess

/-- The required packet is there, and the timer that waits for it is not. -/
theorem timed_takeFirst (h : (server c).Timed) (hready : c.state = .ready) (hmissing : c.handshakeReceived = false) :
    (server c.takeFirst).Timed := by
  have hpurposes : c.session.scheduler.timers.map Timer.purpose =
      recurring c.definition.rateWindow c.session.outbound ++ [(.handshakeExpiry, none)] := by
    refine h.purposes.trans ?_
    simp only [needs, hready, hmissing, Bool.false_eq_true, if_false]
  have hrecurring : (recurring c.definition.rateWindow c.session.outbound).filter
      (fun purpose => purpose.1 ≠ .handshakeExpiry) = recurring c.definition.rateWindow c.session.outbound :=
    List.filter_eq_self.2 fun _ hpurpose => decide_eq_true (of_mem_recurring hpurpose).1
  rcases takeFirst_stops h with ⟨session, hstops, htaken⟩
  have hstate : session.state = .ready := hstops.state.trans hready
  have hkept := hstops.purposes
  rw [hpurposes, List.filter_append, hrecurring, ← hstops.outbound] at hkept
  rw [htaken]
  have hnum : session.outbound.Numbered := hstops.outbound ▸ h.tidy.numbered
  refine ⟨Session.tidy_of_ready (hstops.owns h.tidy.owns) hstate hnum, hstops.expiring, hkept.trans ?_⟩
  simp only [needs, ServerConnection.state, hstate, ServerConnection.handshakeReceived, Bool.true_or, if_true]
  rfl

theorem timed_checkFirst (h : (server c).Timed) (hready : c.state = .ready) (bytes : Bytes) :
    (server (c.checkFirst bytes).2).Timed := by
  unfold ServerConnection.checkFirst
  split
  · exact h
  · rename_i required hrequired
    split
    · exact h
    · split
      · rename_i hcame _
        refine timed_takeFirst h hready ?_
        simp [ServerConnection.handshakeReceived, hcame, hrequired]
      · exact h.withSession (s := c.session.count .handshakeFailed) ⟨rfl, rfl, rfl, rfl⟩
      · exact h
      · exact h

/-- A server that is ready has armed its timers, the last of them to give up on the packet it requires. -/
theorem timed_serve {definition : Definition} {s : Session T Clock} (htimers : s.scheduler.timers = [])
    (hnum : definition.server.Numbered) : (server (ServerConnection.serve definition s)).Timed := by
  have harms : Session.Arms (recurring definition.rateWindow definition.server) s
      (s.activate definition.server definition.client definition.rateWindow) :=
    Session.arms_activate _ _ _ _
  have hpurposes := harms.purposes
  rw [htimers, List.map_nil, List.nil_append] at hpurposes
  have howns := harms.owns (Session.owns_of_timers htimers)
  have hpast := harms.past (Session.past_of_timers htimers)
  have hexpiring := Clock.expiring_of_recurring hpurposes
  unfold ServerConnection.serve
  cases hrequired : definition.config.handshakePacket with
  | none =>
    refine ⟨Session.tidy_of_ready howns rfl hnum, hexpiring, hpurposes.trans ?_⟩
    simp only [needs, ServerConnection.handshakeReceived, hrequired]
    exact (List.append_nil _).symm
  | some required =>
    let ready : Session T Clock :=
      { s.activate definition.server definition.client definition.rateWindow with state := .ready }
    have hwaits : Session.Arms [(.handshakeExpiry, none)] ready
        (ready.scheduleOnce .handshakeExpiry definition.config.handshakeTimeout).2 :=
      Session.arms_of_arm .handshakeExpiry definition.config.handshakeTimeout none rfl rfl
    refine ⟨Session.tidy_of_ready (hwaits.owns howns) rfl hnum, hexpiring.arm hpast _, ?_⟩
    refine hwaits.purposes.trans ?_
    simp only [needs, ServerConnection.handshakeReceived, hrequired]
    exact congrArg (· ++ _) hpurposes

end Server

/-! ## Calls -/

variable [Transport T]

/-- A message is taken in, or it closes. -/
theorem Timed.receiveOrFail (h : e.Timed) (bytes : Bytes) :
    (e.withSession (e.session.receiveOrFail bytes)).Timed := by
  have hreceive := e.session.timeless_receive bytes
  unfold Session.receiveOrFail
  split
  · rename_i hresult
    rw [hresult] at hreceive
    exact h.withSession hreceive
  · rename_i hresult
    rw [hresult] at hreceive
    refine timed_of_closing ((h.tidy.timeless hreceive).fail _) ?_
    exact Session.close_state _ _ _

section Client

variable {c : ClientConnection T Clock}

theorem timed_completeHandshake (h : (client c).Timed) (hstate : c.state = .awaitingSchema) (bytes : Bytes) :
    (client (c.completeHandshake bytes)).Timed := by
  have htimers := timers_stopExpiry h hstate
  have hexpiry : c.stopExpiry.expiry = none := by
    unfold ClientConnection.stopExpiry
    split
    · rfl
    · assumption
  unfold ClientConnection.completeHandshake
  split
  · rename_i handshake hparse
    exact timed_adopt htimers hexpiry (Handshake.parse_numbered hparse).1
  · have hnum : c.stopExpiry.session.outbound.Numbered := (stops_stopExpiry h).outbound ▸ h.tidy.numbered
    have htidy := ((Session.tidy_of_timers htimers hnum).count .handshakeFailed)
    exact timed_of_closed (htidy.close _ _) (Session.close_state _ _ _)

theorem timed_clientMessage (h : (client c).Timed) (bytes : Bytes) : (client (c.onMessage bytes)).Timed := by
  unfold ClientConnection.onMessage
  split
  · rename_i hstate
    exact timed_completeHandshake (timed_awaitHandshake h hstate) rfl bytes
  · rename_i hstate
    exact timed_completeHandshake h hstate bytes
  · exact h.receiveOrFail bytes
  · exact h

/-- The time to wait is over, or the handshake is there already. -/
theorem timed_clientExpire (h : (client c).Timed) : (client c.expire).Timed := by
  unfold ClientConnection.expire
  dsimp only
  split
  · exact timed_of_closed h.tidy.handshakeTimedOut (Session.close_state _ _ _)
  · exact timed_of_closed h.tidy.handshakeTimedOut (Session.close_state _ _ _)
  · rename_i hconnecting hawaiting
    exact ⟨h.tidy, h.expiring_none (not_or.2 ⟨hconnecting, hawaiting⟩), h.purposes⟩

end Client

section Server

variable {c : ServerConnection T Clock}

theorem timed_serverMessage (h : (server c).Timed) (bytes : Bytes) : (server (c.onMessage bytes)).Timed := by
  by_cases hready : c.session.state = .ready
  · have hchecked := timed_checkFirst h hready bytes
    have hisReady : c.session.isReady = true := by simp [Session.isReady, hready]
    simp only [ServerConnection.onMessage, hisReady, if_true]
    generalize c.checkFirst bytes = checked at hchecked
    rcases checked with ⟨result | result, c'⟩
    · exact timed_of_closed (hchecked.tidy.fail _) (Session.close_state _ _ _)
    · exact hchecked.receiveOrFail bytes
  · rw [ServerConnection.onMessage_of_not_ready hready]
    exact h

/-- The time to wait is over, or the packet is there already. -/
theorem timed_serverExpire (h : (server c).Timed) : (server c.expire).Timed := by
  unfold ServerConnection.expire
  dsimp only
  split
  · exact timed_of_closed h.tidy.handshakeTimedOut (Session.close_state _ _ _)
  · rename_i hwaits
    refine ⟨h.tidy, h.expiring_none ?_, h.purposes⟩
    rintro ⟨hstate, hcame⟩
    have hready : c.session.isReady = true := by simpa [Session.isReady, ServerConnection.state] using hstate
    exact hwaits (by simp [hready, hcame])

end Server

theorem onTimer_of_recurring {kind : TimerKind} (h : kind ≠ .handshakeExpiry) :
    e.onTimer kind = e.withSession (e.session.onTimer kind) := by
  cases kind with
  | rateReset => cases e <;> rfl
  | batchFlush key => cases e <;> rfl
  | handshakeExpiry => exact absurd rfl h

/-- Whatever is called on an end, its clock keeps the timers that are needed. -/
theorem Timed.call (h : e.Timed) (call : Call) : (e.call call).Timed := by
  cases call with
  | opened =>
    cases e with
    | client c =>
      show (client c.opened).Timed
      unfold ClientConnection.opened
      split
      · exact timed_awaitHandshake h ‹_›
      · exact h
    | server c => exact h
  | message bytes =>
    cases e with
    | client c => exact timed_clientMessage h bytes
    | server c => exact timed_serverMessage h bytes
  | timer kind =>
    by_cases hkind : kind = .handshakeExpiry
    · subst hkind
      cases e with
      | client c => exact timed_clientExpire h
      | server c => exact timed_serverExpire h
    · show (e.onTimer kind).Timed
      rw [onTimer_of_recurring hkind]
      exact h.withSession (e.session.timeless_onTimer kind)
  | send tag values => exact h.withSession (e.session.working_send tag values).timeless
  | sendEncoded key payload => exact h.withSession (e.session.working_sendEncoded key payload).timeless
  | on tag listener =>
    simp only [Endpoint.call]
    split
    · rename_i e' hon
      have hdispatcher : ∀ dispatcher, (e.withSession { e.session with dispatcher }).Timed :=
        fun _ => h.withSession ⟨rfl, rfl, rfl, rfl⟩
      cases e with
      | client c =>
        rcases Outcome.map_eq_ok.1 hon with ⟨c', hon', rfl⟩
        rcases ClientConnection.on_eq_ok hon' with ⟨dispatcher, rfl⟩
        exact hdispatcher dispatcher
      | server c =>
        rcases Outcome.map_eq_ok.1 hon with ⟨c', hon', rfl⟩
        rcases ServerConnection.on_eq_ok hon' with ⟨dispatcher, rfl⟩
        exact hdispatcher dispatcher
    · exact h
  | onReady callback =>
    cases e with
    | client c =>
      show (client (c.onReady callback)).Timed
      unfold ClientConnection.onReady
      split
      · exact h.withSession (s := c.session.note _) ⟨rfl, rfl, rfl, rfl⟩
      · exact h.withSession (s := { c.session with dispatcher := _ }) ⟨rfl, rfl, rfl, rfl⟩
    | server c => exact h
  | onClose callback => exact h.withSession ⟨rfl, rfl, rfl, rfl⟩
  | onError callback => exact h.withSession ⟨rfl, rfl, rfl, rfl⟩
  | report error => exact h.withSession ⟨rfl, rfl, rfl, rfl⟩
  | setOutboundEnabled tag enabled =>
    have hsame : e.session.Timeless (e.session.setOutboundEnabled tag enabled) :=
      ⟨rfl, rfl, rfl, Registry.setEnabled_alike _ _ _⟩
    have hset := h.withSession hsame
    cases e with
    | client c => exact hset
    | server c => exact ⟨hset.tidy, hset.expiring, hset.purposes⟩
  | setInboundEnabled tag enabled =>
    have hset := h.withSession (s := e.session.setInboundEnabled tag enabled) ⟨rfl, rfl, rfl, rfl⟩
    cases e with
    | client c => exact hset
    | server c => exact ⟨hset.tidy, hset.expiring, hset.purposes⟩
  | close code reason => exact timed_of_closing (h.tidy.close code reason) (Session.close_state _ _ _)
  | transportClosed code reason =>
    exact timed_of_closing (h.tidy.closedByPeer code reason) (Session.closedByPeer_state _ _ _)

/-! ## Passing time -/

theorem Timed.foldl_onTimer (h : e.Timed) (kinds : List TimerKind) : (kinds.foldl onTimer e).Timed := by
  induction kinds generalizing e with
  | nil => exact h
  | cons kind kinds ih => exact ih (h.call (.timer kind))

/-- An end gives up when its time to wait is over, whatever else fired by then. -/
theorem Pending.foldl_onTimer (hpending : e.Pending) (htidy : e.session.Tidy) {kinds : List TimerKind}
    (hexpiry : .handshakeExpiry ∈ kinds) : (kinds.foldl onTimer e).Timed := by
  induction kinds generalizing e with
  | nil => cases hexpiry
  | cons kind kinds ih =>
    by_cases hkind : kind = .handshakeExpiry
    · subst hkind
      rcases hpending.closes with ⟨hopen, hclosed⟩
      have hsession : (e.onTimer .handshakeExpiry).session = e.session.handshakeTimedOut :=
        @timer_closes_eq _ _ _ _ e .handshakeExpiry hopen hclosed
      have htidy' : (e.onTimer .handshakeExpiry).session.Tidy := by
        rw [hsession]
        exact htidy.handshakeTimedOut
      exact (timed_of_closed htidy' hclosed).foldl_onTimer kinds
    · have hrest : .handshakeExpiry ∈ kinds := (List.mem_cons.1 hexpiry).resolve_left (Ne.symm hkind)
      have hsame := e.session.timeless_onTimer kind
      rw [List.foldl_cons, onTimer_of_recurring hkind]
      refine ih (hpending.withSession hsame.state) ?_ hrest
      rw [session_withSession]
      exact htidy.timeless hsame

/-- When time has passed, and all that fired was brought to the end, the timers that are needed are there. -/
theorem Timed.advance (h : e.Timed) (ms : Nat) : (e.advance ms).2.Timed := by
  let moment := e.session.scheduler.now + ms
  let clock := (e.session.scheduler.advanceTo moment).2
  let passed : Session T Clock := { e.session with scheduler := clock }
  have hcore : ∀ after ∈ clock.timers, ∃ timer ∈ e.session.scheduler.timers, after.core = timer.core :=
    fun _ hafter => Clock.mem_advanceTo hafter
  have htidy : passed.Tidy := by
    refine ⟨fun after hafter => ?_, fun hclosed => ?_, h.tidy.numbered⟩
    · rcases hcore after hafter with ⟨timer, htimer, heq⟩
      rw [(Prod.mk.inj heq).1]
      exact h.tidy.owns timer htimer
    · refine List.eq_nil_iff_forall_not_mem.2 fun after hafter => ?_
      rcases hcore after hafter with ⟨timer, htimer, -⟩
      rw [h.tidy.closed hclosed] at htimer
      cases htimer
  have htidy' : (e.withSession passed).session.Tidy := by rwa [session_withSession]
  show ((e.session.scheduler.advanceTo moment).1.foldl onTimer (e.withSession passed)).Timed
  by_cases hexpiry : .handshakeExpiry ∈ (e.session.scheduler.advanceTo moment).1
  · -- the timer that fired was needed, so the connection ends here
    rcases Clock.kind_of_mem_advanceTo hexpiry with ⟨timer, htimer, hkind⟩
    have hpending : (e.withSession passed).Pending := (h.pending htimer hkind).withSession rfl
    exact hpending.foldl_onTimer htidy' hexpiry
  · have hpurposes := congrArg (List.map Prod.snd) (Clock.core_advanceTo h.expiring hexpiry)
    rw [List.map_map, List.map_map] at hpurposes
    refine Timed.foldl_onTimer ⟨htidy', ?_, ?_⟩ _
    · rw [session_withSession, expiry_withSession]
      exact h.expiring.of_core hcore
    · have hneeds : (e.withSession passed).needs = e.needs := needs_withSession rfl rfl
      rw [session_withSession, hneeds]
      exact hpurposes.trans h.purposes

/-! ## Runs -/

/-- What happens to an end: something is called on it, or time passes, and each timer that falls due is brought
to it. -/
inductive Happening where
  | called (call : Call)
  | passes (ms : Nat)

def happens (e : Endpoint T Clock) : Happening → Endpoint T Clock
  | .called call => e.call call
  | .passes ms => (e.advance ms).2

def through (e : Endpoint T Clock) (happenings : List Happening) : Endpoint T Clock := happenings.foldl happens e

/-- New ends over clocks that keep no timers. -/
inductive Begun : Endpoint T Clock → Prop
  | client (transport : T) (clock : Clock) (config : ClientConfig) : clock.timers = [] →
      Begun (client (.start transport clock config))
  | server {definition : Definition} {connection : ServerConnection T Clock} (transport : T) (clock : Clock) :
      clock.timers = [] → definition.Built →
      ServerConnection.accept definition transport clock = .serving connection → Begun (server connection)

theorem Begun.timed (h : e.Begun) : e.Timed := by
  cases h with
  | client transport clock config htimers =>
    refine ⟨Session.tidy_of_timers htimers Registry.empty_numbered, Clock.expiring_of_timers htimers, ?_⟩
    exact congrArg (List.map Timer.purpose) htimers
  | @server definition connection transport clock htimers hbuilt haccept =>
    simp only [ServerConnection.accept, Session.write] at haccept
    split at haccept
    · rename_i s hwrite
      cases haccept
      refine timed_serve ?_ hbuilt.numbered.2
      split at hwrite
      · cases hwrite
        exact htimers
      · cases hwrite
    · cases haccept

theorem Timed.through (h : e.Timed) (happenings : List Happening) : (e.through happenings).Timed := by
  induction happenings generalizing e with
  | nil => exact h
  | cons happening happenings ih =>
    cases happening with
    | called call => exact ih (h.call call)
    | passes ms => exact ih (h.advance ms)

/-- Whatever happens to a connection, its clock keeps exactly the timers that it needs, each of them once and
with its period: none while it is connecting or closed, one to give up on the handshake while a client waits for
it, and once it is ready one for a rate window, one for each packet that it sends in batches, and one to give up
on the packet that a server requires, as long as that did not come. -/
theorem timers_needed (hbegun : e.Begun) (happenings : List Happening) :
    let e' := e.through happenings
    e'.session.scheduler.timers.map Timer.purpose = e'.needs ∧
      (e'.session.scheduler.timers.map Timer.kind).Nodup := by
  intro e'
  have htimed : e'.Timed := hbegun.timed.through happenings
  refine ⟨htimed.purposes, ?_⟩
  have hkinds : e'.session.scheduler.timers.map Timer.kind = e'.needs.map Prod.fst := by
    rw [← htimed.purposes, List.map_map]
    rfl
  rw [hkinds]
  exact nodup_needs htimed.tidy.numbered

namespace Watched

def client : Endpoint Outbox Clock := .client (.start {} {} {})

/-- A handshake with one packet that clients send in batches. -/
def handshake : Bytes :=
  [0x54, 0x57, 0x49, 0x52, 1, 0x89, 1, 4, 4, 0xdc, 0x0b, 0, 1, 4, 0x62, 0x65, 0x61, 0x74, 0, 0, 1]

/-- The handshake comes just in time, and some windows pass. -/
def inTime : List Happening := [.called .opened, .passes 9999, .called (.message handshake), .passes 3000]

/-- It comes a moment too late. -/
def late : List Happening := [.called .opened, .passes 10000, .called (.message handshake)]

end Watched

/-- A client keeps a timer for the handshake, then one for the window and one for the batch, and none if it
gave up. -/
theorem timers_needed_client :
    (Watched.client.through [.called .opened]).session.scheduler.timers.map Timer.purpose =
        [(.handshakeExpiry, none)] ∧
      (Watched.client.through Watched.inTime).session.scheduler.timers.map Timer.purpose =
        [(.rateReset, some (.ofInterval 1000)), (.batchFlush 1, some (.ofInterval 1500))] ∧
      (Watched.client.through Watched.late).session.scheduler.timers.map Timer.purpose = [] := by
  have hbegun : Watched.client.Begun := .client _ _ _ rfl
  refine ⟨(timers_needed hbegun _).1.trans ?_, (timers_needed hbegun _).1.trans ?_, (timers_needed hbegun _).1.trans ?_⟩
  · cbv
  · cbv
  · cbv

end Endpoint

end PacketProtocol
