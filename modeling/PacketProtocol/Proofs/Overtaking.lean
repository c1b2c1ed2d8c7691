import PacketProtocol.Proofs.FirstPacket
import PacketProtocol.Proofs.Rates
/-!
# Packets that overtake the required one

A server refuses a client for want of the required packet only if the first message it gets is of another
packet. A client that sends the required packet first writes it first, unless the packet is batched: then
it waits for its flush, and what is sent later may be written before it.
-/

namespace PacketProtocol

/-! ## Wires -/

namespace Wire

/-- A closed wire takes nothing. -/
theorem sendAll_of_closed {wire : Wire} (h : wire.closed ≠ none) (messages : List Bytes) :
    Transport.sendAll wire messages = wire := by
  induction messages with
  | nil => rfl
  | cons message messages ih =>
    have hsend : (Transport.send wire message).2 = wire := by
      simp [Transport.send, Wire.send, Option.isSome_iff_ne_none.2 h]
    rw [Transport.sendAll, List.foldl_cons, hsend]
    exact ih

/-- What is written comes behind what was written, and closes nothing. -/
theorem sendAll_keeps (wire : Wire) (messages : List Bytes) :
    wire.sent <+: (Transport.sendAll wire messages).sent ∧ (Transport.sendAll wire messages).closed = wire.closed := by
  by_cases hopen : wire.closed = none
  · rw [sendAll_eq hopen]
    exact ⟨List.prefix_append _ _, rfl⟩
  · rw [sendAll_of_closed hopen]
    exact ⟨List.prefix_refl _, rfl⟩

end Wire

/-- Calls that send nothing. -/
def Call.Unsent : Call → Prop
  | .send .. | .sendEncoded .. => False
  | _ => True

/-! ## Closes of a server -/

namespace ServerConnection

variable {T S : Type} [Transport T] [Scheduler S]

/-- Whatever is called on a server but a message, it writes messages, or it closes when it is told to or
because the required packet is late. -/
theorem call_transport (c : ServerConnection T S) {call : Call} (hcall : ∀ bytes, call ≠ .message bytes) :
    (∃ messages, (c.call call).session.transport = Transport.sendAll c.session.transport messages) ∨
      ∃ code reason, (code = .handshakeTimeout ∨ call = .close code reason) ∧
        (c.call call).session.state = .closed ∧
        (c.call call).session.transport = Transport.close c.session.transport code reason := by
  cases call with
  | message bytes => exact absurd rfl (hcall bytes)
  | timer kind =>
    have htimer : ∀ kind, ∃ messages, (c.session.onTimer kind).transport =
        Transport.sendAll c.session.transport messages := by
      intro kind
      by_cases hready : c.session.state = .ready
      · exact (Session.works_onTimer hready kind).transport
      · rw [Session.onTimer_of_not_ready hready]
        exact ⟨[], rfl⟩
    cases kind with
    | handshakeExpiry =>
      have hexpire : (c.call (.timer .handshakeExpiry)).session = c.expire.session := rfl
      rw [hexpire, expire]
      dsimp only
      split
      · rename_i hlate
        have hready : c.session.state = .ready := by simpa [Session.isReady] using (Bool.and_eq_true_iff.1 hlate).2
        have hopen : (c.session.count .handshakeFailed).state ≠ .closed := by
          rw [show (c.session.count .handshakeFailed).state = .ready from hready]
          decide
        exact .inr ⟨.handshakeTimeout, "Handshake did not complete in time", .inl rfl, Session.close_state _ _ _,
          Session.close_transport hopen _ _⟩
      · exact .inl ⟨[], rfl⟩
    | rateReset => exact .inl (htimer .rateReset)
    | batchFlush key => exact .inl (htimer (.batchFlush key))
  | send tag values => exact .inl (c.session.works_send tag values).transport
  | sendEncoded key payload => exact .inl (c.session.works_sendEncoded key payload).transport
  | on tag listener =>
    simp only [ServerConnection.call, Endpoint.call, Endpoint.on]
    cases hlistener : c.on tag listener with
    | error error => exact .inl ⟨[], rfl⟩
    | ok c' =>
      rcases on_eq_ok hlistener with ⟨dispatcher, rfl⟩
      exact .inl ⟨[], rfl⟩
  | close code reason =>
    by_cases hclosed : c.session.state = .closed
    · refine .inl ⟨[], ?_⟩
      show (c.session.close code reason).transport = c.session.transport
      rw [Session.close, if_pos hclosed]
    · exact .inr ⟨code, reason, .inr rfl, Session.close_state _ _ _, Session.close_transport hclosed _ _⟩
  | transportClosed code reason =>
    refine .inl ⟨[], ?_⟩
    show (c.session.closedByPeer code reason).transport = c.session.transport
    unfold Session.closedByPeer
    split <;> rfl
  | _ => exact .inl ⟨[], rfl⟩

end ServerConnection

/-! ## Servers that get the required packet first -/

namespace Session

variable {S : Type} [Scheduler S] {s : Session Wire S}

/-- An open wire is closed with the code of the error. -/
theorem fail_wire (hstate : s.state ≠ .closed) (hopen : s.transport.closed = none) (error : ProtocolError) :
    (s.fail error).transport.closed = some (error.closeCode, error.message) := by
  rw [fail_transport hstate]
  show (Wire.close s.transport _ _).closed = _
  simp [Wire.close, hopen]

/-- A message is taken in, or the wire is closed over what is wrong with it. -/
theorem receiveOrFail_wire (hready : s.state = .ready) (hopen : s.transport.closed = none) (bytes : Bytes) :
    (s.receiveOrFail bytes).transport = s.transport ∨
      (s.receiveOrFail bytes).state = .closed ∧ ∃ error : ProtocolError,
        (s.receiveOrFail bytes).transport.closed = some (error.closeCode, error.message) ∧
        (error.closeCode = .malformedPayload ∨ error.closeCode = .rateLimitExceeded) := by
  have haside := s.aside_receive bytes hready
  have hreceived := s.receive_received bytes
  unfold receiveOrFail
  split
  · rename_i hreceive
    rw [hreceive] at haside
    exact .inl haside.transport
  · rename_i error s' hreceive
    rw [hreceive] at haside hreceived
    have hstate : s'.state ≠ .closed := by
      rw [show s'.state = s.state from haside.state, hready]
      decide
    have hopen' : s'.transport.closed = none := by rw [show s'.transport = s.transport from haside.transport, hopen]
    refine .inr ⟨?_, error, fail_wire hstate hopen' error, hreceived.closeCode⟩
    unfold fail
    split <;> exact close_state _ _ _

end Session

namespace ServerConnection

variable {S : Type} [Scheduler S] {c : ServerConnection Wire S} {definition : Definition} {required : String}
  {delivered : List Bytes} {bytes : Bytes}

/-- A server that got these messages, and the required packet with the first of them: it is not closed for want
of it. -/
structure Spared (definition : Definition) (required : String) (delivered : List Bytes) (c : ServerConnection Wire S) :
    Prop where
  required_eq : c.definition.config.handshakePacket = some required
  inbound : c.session.inbound.Alike definition.client
  wire : ∀ reason, c.session.transport.closed ≠ some (.handshakeRequired, reason)
  opened : c.session.state = .ready → c.session.transport.closed = none
  came : c.session.state = .ready → delivered ≠ [] → c.firstCame = true

/-- Whoever asks for the required packet has not got it, and gets another one with this message. -/
theorem checkFirst_spares {error : ProtocolError} (hrequired : c.definition.config.handshakePacket = some required)
    (hcame : c.firstCame = true ∨ ∀ tag, c.session.inboundTag bytes = .ok tag → tag = required)
    (h : (c.checkFirst bytes).1 = .error error) : error.closeCode ≠ .handshakeRequired := by
  cases htag : c.session.inboundTag bytes with
  | error e =>
    simp only [checkFirst, hrequired, htag] at h
    cases h
    rw [Session.inboundTag_eq_error htag]
    decide
  | ok tag =>
    simp only [checkFirst, hrequired, htag] at h
    cases hfirst : c.firstCame with
    | false =>
      rcases hcame with hcame | hcame
      · rw [hfirst] at hcame
        cases hcame
      · obtain rfl := hcame tag htag
        simp only [hfirst, beq_self_eq_true, reduceCtorEq] at h
    | true =>
      cases hsame : tag == required with
      | false => simp only [hfirst, hsame, reduceCtorEq] at h
      | true =>
        simp only [hfirst, hsame] at h
        cases h
        decide

/-- A message leaves the wire as it is, or closes it; not for want of the required packet unless another packet came. -/
theorem onMessage_wire (hready : c.session.state = .ready) (hopen : c.session.transport.closed = none)
    (hrequired : c.definition.config.handshakePacket = some required)
    (hcame : c.firstCame = true ∨ ∀ tag, c.session.inboundTag bytes = .ok tag → tag = required) :
    (c.onMessage bytes).session.transport = c.session.transport ∨
      (c.onMessage bytes).session.state = .closed ∧
        ∀ reason, (c.onMessage bytes).session.transport.closed ≠ some (.handshakeRequired, reason) := by
  have hisReady : c.session.isReady = true := by simp [Session.isReady, hready]
  have herror := @checkFirst_spares _ _ c required bytes
  rcases c.checkFirst_eq bytes with ⟨scheduler, timers, entries, -, hsession⟩
  simp only [onMessage, hisReady, if_true]
  generalize c.checkFirst bytes = checked at herror hsession
  rcases checked with ⟨result, c'⟩
  have hstate' : c'.session.state = .ready := by
    rw [show c'.session = _ from hsession]
    exact hready
  have htransport : c'.session.transport = c.session.transport := by rw [show c'.session = _ from hsession]
  cases result with
  | ok =>
    dsimp only
    rw [← htransport]
    rcases Session.receiveOrFail_wire hstate' (htransport ▸ hopen) bytes with hsame | ⟨hclosed, error, hwire, hcode⟩
    · exact .inl hsame
    · refine .inr ⟨hclosed, fun reason hother => ?_⟩
      rw [hwire, Option.some.injEq, Prod.mk.injEq] at hother
      rcases hcode with hcode | hcode <;> rw [hcode] at hother <;> cases hother.1
  | error error =>
    have hcode := herror hrequired hcame rfl
    have hnotClosed : c'.session.state ≠ .closed := by
      rw [hstate']
      decide
    refine .inr ⟨?_, fun reason hother => hcode ?_⟩
    · dsimp only [Session.fail]
      split <;> exact Session.close_state _ _ _
    · dsimp only at hother
      rw [Session.fail_wire hnotClosed (htransport ▸ hopen), Option.some.injEq, Prod.mk.injEq] at hother
      exact hother.1

omit [Scheduler S] in
theorem spared_of_closed (hrequired : c.definition.config.handshakePacket = some required)
    (hinbound : c.session.inbound.Alike definition.client) (hclosed : c.session.state = .closed)
    (hwire : ∀ reason, c.session.transport.closed ≠ some (.handshakeRequired, reason)) :
    c.Spared definition required delivered := by
  refine ⟨hrequired, hinbound, hwire, fun hready => ?_, fun hready => ?_⟩
  · rw [hclosed] at hready
    cases hready
  · rw [hclosed] at hready
    cases hready

/-- A message spares the server if it is not the first, or has the key of no packet but the required one. -/
theorem Spared.message (h : c.Spared definition required delivered)
    (hfirst : delivered = [] → ∀ key body packet, bytes = key :: body → definition.client.byKey key = .ok packet →
      packet.tag = required) :
    (c.onMessage bytes).Spared definition required (delivered ++ [bytes]) := by
  by_cases hready : c.session.state = .ready
  · have hcame : c.firstCame = true ∨ ∀ tag, c.session.inboundTag bytes = .ok tag → tag = required := by
      by_cases hnone : delivered = []
      · refine .inr fun tag htag => ?_
        rcases Session.byKey_of_inboundTag h.inbound htag with ⟨key, body, packet, hbytes, hkey, rfl⟩
        exact hfirst hnone key body packet hbytes hkey
      · exact .inl (h.came hready hnone)
    have hmessage := onMessage_eq hready bytes
    have hdefinition : (c.onMessage bytes).definition = c.definition := by
      rw [hmessage, ← (c.checkFirst_keeps bytes).1]
    have hrequired : (c.onMessage bytes).definition.config.handshakePacket = some required :=
      hdefinition ▸ h.required_eq
    have hopen := h.opened hready
    have hwire := onMessage_wire hready hopen h.required_eq hcame
    rcases onMessage_taken hready bytes with ⟨_, _, _, hcheck, htaken, -⟩ | ⟨-, hturned⟩
    · rcases checkFirst_eq_ok h.required_eq hcheck with ⟨_, -, -, hfirstCame⟩
      have hsame : (c.onMessage bytes).session.transport = c.session.transport := by
        rcases hwire with hsame | ⟨hclosed, -⟩
        · exact hsame
        · rw [htaken.state] at hclosed
          cases hclosed
      refine ⟨hrequired, htaken.inbound ▸ h.inbound, ?_, fun _ => ?_, fun _ _ => ?_⟩
      · rw [hsame]
        exact h.wire
      · rw [hsame]
        exact hopen
      · rw [hmessage]
        exact hfirstCame
    · refine spared_of_closed hrequired (hturned.inbound ▸ h.inbound) hturned.state ?_
      rcases hwire with hsame | ⟨-, hwire⟩
      · rw [hsame]
        exact h.wire
      · exact hwire
  · rw [onMessage_of_not_ready hready]
    exact ⟨h.required_eq, h.inbound, h.wire, h.opened, fun hstate => (hready hstate).elim⟩

/-- Other calls spare the server, as long as it is not told to close in this way. -/
theorem Spared.call (h : c.Spared definition required delivered) {call : Call}
    (hcall : ∀ bytes, call ≠ .message bytes) (hclose : ∀ reason, call ≠ .close .handshakeRequired reason) :
    (c.call call).Spared definition required delivered := by
  rcases c.call_keeps hcall with ⟨hconfig, hcame⟩
  rcases (Endpoint.server c).call_of_not_message hcall with ⟨hready, hinbound⟩
  rw [server_call] at hready hinbound
  have hrequired := (congrArg (·.handshakePacket) hconfig).trans h.required_eq
  rcases c.call_transport hcall with ⟨messages, htransport⟩ | ⟨code, reason, hcode, hclosed, htransport⟩
  · have hsame : (c.call call).session.transport.closed = c.session.transport.closed := by
      rw [htransport]
      exact (Wire.sendAll_keeps _ _).2
    exact ⟨hrequired, Eq.trans hinbound h.inbound, fun reason => hsame ▸ h.wire reason,
      fun hstate => hsame.trans (h.opened (hready hstate)), fun hstate hne => hcame ▸ h.came (hready hstate) hne⟩
  · have hnot : code ≠ .handshakeRequired := by
      rintro rfl
      rcases hcode with hcode | hcode
      · cases hcode
      · exact hclose reason hcode
    refine spared_of_closed hrequired (Eq.trans hinbound h.inbound) hclosed fun other hwire => ?_
    rw [htransport] at hwire
    simp only [Transport.close, Wire.close] at hwire
    split at hwire
    · exact h.wire other hwire
    · cases hwire
      exact hnot rfl

end ServerConnection

/-! ## Clients that have yet to send -/

namespace Session

variable {S : Type} {registry : Registry} {s s' : Session Wire S} {key : UInt8} {packet : Packet}

/-- A session in use that sent nothing yet: nothing is written or held, no batch has anything in it, and
nothing is counted under this key. -/
structure Blank (registry : Registry) (key : UInt8) (s : Session Wire S) : Prop where
  flowing : s.Flowing registry
  sent : s.transport.sent = []
  deferred : s.deferred.queues = []
  waiting : ∀ key, s.waiting key = []
  count : s.sendLimiter.count key = 0

/-- A session that closed before it wrote anything. -/
structure Mute (s : Session Wire S) : Prop where
  state : s.state = .closed
  sent : s.transport.sent = []

theorem Mute.still (h : s.Mute) (hstill : s.Still s') : s'.Mute := ⟨hstill.state, by rw [hstill.transport, h.sent]⟩

/-- Timers find nothing to write. -/
theorem Blank.onTimer (h : s.Blank registry key) (kind : TimerKind) : (s.onTimer kind).Blank registry key := by
  have hflowing := h.flowing.onTimer kind
  cases kind with
  | rateReset =>
    have hadmitted : DeferredQueue.admitAll s.sendLimiter.reset s.deferred.queues = (s.sendLimiter.reset, [], []) := by
      rw [h.deferred]
      rfl
    have hreset : s.resetWindow.2 =
        { s with
          sendLimiter := s.sendLimiter.reset, receiveLimiter := s.receiveLimiter.reset
          deferred := { s.deferred with queues := [] } } := by
      simp only [resetWindow, DeferredQueue.drainAdmitted, hadmitted, emitAll]
    rcases onTimer_rateReset h.flowing.state with ⟨-, htick⟩ | ⟨error, -, htick⟩
    · rw [htick, hreset] at hflowing ⊢
      exact ⟨hflowing, h.sent, rfl, h.waiting, RateLimiter.count_reset _ _⟩
    · rw [htick, hreset] at hflowing ⊢
      exact ⟨hflowing, h.sent, rfl, h.waiting, RateLimiter.count_reset _ _⟩
  | batchFlush other =>
    have hflushed := onTimer_batchFlush h.flowing other
    generalize s.onTimer (.batchFlush other) = s' at hflushed
    cases hflushed with
    | nothing => exact h
    | batch batcher journal hbatcher hne =>
      have hempty := h.waiting other
      rw [waiting_of_batcher? hbatcher] at hempty
      exact absurd hempty hne
  | handshakeExpiry =>
    rw [onTimer_handshakeExpiry]
    exact h

/-- The first payload of an unbatched packet is written at once. -/
theorem Blank.sendEncoded (h : s.Blank registry key) (hkey : registry.byKey key = .ok packet)
    (hsingle : packet.schema.isBatched = false) (payload : Bytes) :
    (s.sendEncoded key payload).1 = .ok () ∧ (s.sendEncoded key payload).2.transport.sent = [key :: payload] := by
  have hready : s.ensureReady = .ok () := by rw [ensureReady, h.flowing.state]
  have hnone : ¬s.deferred.isWaiting key = true := by
    simp [DeferredQueue.isWaiting, DeferredQueue.waiting, h.deferred]
  have hhit : (s.sendLimiter.hit key).1 = true := by
    by_cases hcaps : s.sendLimiter.Caps key
    · rw [(RateLimiter.hit_caps hcaps).1, h.count]
      exact decide_eq_true hcaps.1
    · exact RateLimiter.hit_free hcaps
  have hunbatched : ∀ batcher, ¬(s.batcher? key = some batcher) := by
    intro batcher hbatcher
    rcases h.flowing.batching.serves key batcher hbatcher with ⟨packet', hkey', hbatched, -⟩
    rcases Outcome.ok_unique hkey hkey'
    rw [hsingle] at hbatched
    cases hbatched
  unfold Session.sendEncoded
  rw [hready]
  dsimp only
  rw [if_neg hnone]
  generalize s.sendLimiter.hit key = hits at hhit
  rcases hits with ⟨within, limiter⟩
  cases hhit
  have hflow := h.flowing.of_limiter limiter
  have hemitted := emit_emitted hflow.accepts hflow.batching key payload
  dsimp only
  generalize emit { s with sendLimiter := limiter } key payload = emitted at hemitted
  rcases emitted with ⟨result, s'⟩
  cases hemitted with
  | message journal _ _ =>
    refine ⟨rfl, ?_⟩
    dsimp only
    rw [Wire.sendAll_eq (Wire.accepts_iff.1 h.flowing.accepts), h.sent]
    rfl
  | pending batcher _ hbatcher _ _ | overflow batcher _ hbatcher _ _ => exact absurd hbatcher (hunbatched batcher)
  | long batcher _ _ hbatcher _ => exact absurd hbatcher (hunbatched batcher)

/-- A send that fails leaves the session as good as new, and the first one that does not is of another packet
or is written at once. -/
theorem Blank.send (h : s.Blank registry key) (hnum : registry.Numbered) (hkey : registry.byKey key = .ok packet)
    (hsingle : packet.schema.isBatched = false) (tag : String) (values : List Value) :
    (∃ error, (s.send tag values).1 = .error error) ∧ (s.send tag values).2.Blank registry key ∨
      (s.send tag values).1 = .ok () ∧
        (tag ≠ packet.tag ∨ ∃ payload, (s.send tag values).2.transport.sent = [key :: payload]) := by
  unfold Session.send
  cases hprepare : s.prepare tag values with
  | error error => exact .inl ⟨⟨error, rfl⟩, h⟩
  | ok prepared =>
    rcases prepared with ⟨other, payload⟩
    dsimp only
    by_cases hother : other = key
    · subst hother
      rcases h.sendEncoded hkey hsingle payload with ⟨hok, hsent⟩
      exact .inr ⟨hok, .inr ⟨payload, hsent⟩⟩
    · have hoffered := sendEncoded_offered h.flowing other payload
      generalize s.sendEncoded other payload = sent at hoffered
      rcases sent with ⟨result, s'⟩
      cases result with
      | ok =>
        -- a packet under another key has another tag
        refine .inr ⟨rfl, .inl fun htag => hother ?_⟩
        rcases h.flowing.alike.symm.byKey hkey with ⟨packet', hkey', hsame⟩
        have htag' : packet'.tag = packet.tag := congrArg (·.tag) hsame
        have hkeyOf := (h.flowing.alike.numbered hnum).keyOf_of_byKey hkey'
        rw [htag', ← htag] at hkeyOf
        exact Outcome.ok_unique (prepare_eq_ok hprepare).1 hkeyOf
      | error error =>
        refine .inl ⟨⟨error, rfl⟩, ?_⟩
        have hflow := hoffered.flowing h.flowing
        have hcount : ∀ limiter, limiter = s.sendLimiter ∨ limiter = (s.sendLimiter.hit other).2 →
            limiter.count key = 0 := by
          rintro limiter (rfl | rfl)
          · exact h.count
          · rw [RateLimiter.count_hit_of_ne (Ne.symm hother), h.count]
        cases hoffered with
        | refused _ limiter hlimiter => exact ⟨hflow, h.sent, h.deferred, h.waiting, hcount limiter hlimiter⟩
        | emitted limiter hhit _ hemitted =>
          cases hemitted with
          | long batcher _ journal _ _ =>
            exact ⟨hflow, h.sent, h.deferred, h.waiting, hcount limiter (.inr (by rw [hhit]))⟩

variable [Scheduler S]

theorem Blank.act (h : s.Blank registry key) (hact : Act s s') : s'.Blank registry key ∨ s'.Mute := by
  cases hact with
  | aside haside =>
    refine .inl ⟨h.flowing.steady haside.steady, ?_, ?_, fun other => ?_, ?_⟩
    · rw [haside.transport, h.sent]
    · rw [haside.deferred, h.deferred]
    · rw [Session.waiting, batcher?, haside.batchers]
      exact h.waiting other
    · rw [haside.sendLimiter, h.count]
  | await hstate =>
    rw [h.flowing.state] at hstate
    cases hstate
  | adopt hstate _ =>
    rw [h.flowing.state] at hstate
    cases hstate
  | tick kind => exact .inl (h.onTimer kind)
  | close code reason => exact .inr ⟨s.close_state code reason, (s.close_sent code reason).trans h.sent⟩

theorem Blank.acts (h : s.Blank registry key) (hacts : Acts s s') : s'.Blank registry key ∨ s'.Mute := by
  induction hacts with
  | refl => exact .inl h
  | tail _ hact ih =>
    rcases ih with hblank | hmute
    · exact hblank.act hact
    · exact .inr (hmute.still (still_of_act hmute.state hact))

/-- A call that sends nothing leaves a session blank, or closes it. -/
theorem Blank.did (h : s.Blank registry key) {call : Call} (hcall : call.Unsent) (hdid : s.Did call s') :
    s'.Blank registry key ∨ s'.Mute := by
  cases hdid with
  | send tag values => exact hcall.elim
  | sendEncoded key payload => exact hcall.elim
  | onClose callback =>
    exact .inl ⟨h.flowing.steady ⟨rfl, rfl, rfl, rfl, rfl⟩, h.sent, h.deferred, h.waiting, h.count⟩
  | close code reason => exact h.act (.close code reason)
  | transportClosed code reason =>
    refine .inr ⟨s.closedByPeer_state code reason, ?_⟩
    unfold closedByPeer
    split <;> exact h.sent
  | acts _ hacts => exact h.acts hacts

/-! ## Clients that have sent -/

/-- Whatever happens, what was written stays written. -/
theorem prefix_of_act (h : Act s s') : s.transport.sent <+: s'.transport.sent := by
  have hsame : s'.transport.sent = s.transport.sent → s.transport.sent <+: s'.transport.sent :=
    fun heq => heq ▸ List.prefix_refl _
  cases h with
  | aside haside => exact hsame (congrArg Wire.sent haside.transport)
  | await _ => exact hsame rfl
  | @adopt bytes handshake _ _ =>
    rcases s.activate_eq handshake.client handshake.server (rateWindowMs handshake.rateWindow) with ⟨_, _, hactivate⟩
    refine hsame ?_
    show (s.activate _ _ _).transport.sent = s.transport.sent
    rw [hactivate]
  | tick kind =>
    by_cases hready : s.state = .ready
    · rcases (works_onTimer hready kind).transport with ⟨messages, htransport⟩
      rw [htransport]
      exact (Wire.sendAll_keeps _ messages).1
    · exact hsame (by rw [onTimer_of_not_ready hready])
  | close code reason => exact hsame (s.close_sent code reason)

theorem prefix_of_did {call : Call} (h : s.Did call s') : s.transport.sent <+: s'.transport.sent := by
  cases h with
  | send tag values =>
    rcases (s.works_send tag values).transport with ⟨messages, htransport⟩
    rw [htransport]
    exact (Wire.sendAll_keeps _ messages).1
  | sendEncoded key payload =>
    rcases (s.works_sendEncoded key payload).transport with ⟨messages, htransport⟩
    rw [htransport]
    exact (Wire.sendAll_keeps _ messages).1
  | onClose callback => exact List.prefix_refl _
  | close code reason => exact (s.close_sent code reason).symm ▸ List.prefix_refl _
  | transportClosed code reason =>
    unfold closedByPeer
    split <;> exact List.prefix_refl _
  | acts _ hacts =>
    induction hacts with
    | refl => exact List.prefix_refl _
    | tail _ hact ih => exact ih.trans (prefix_of_act hact)

end Session

/-! ## Calls on a client -/

namespace ClientConnection

variable {T S : Type} [Transport T] [Scheduler S]

/-- The client after a call. -/
def call (c : ClientConnection T S) (call : Call) : ClientConnection T S :=
  match (Endpoint.client c).call call with
  | .client c' => c'
  | .server _ => c

theorem client_call (c : ClientConnection T S) (call : Call) :
    (Endpoint.client c).call call = .client (c.call call) := by
  rcases Endpoint.call_client c call with ⟨c', hcall⟩
  simp only [ClientConnection.call, hcall]

theorem call_did (c : ClientConnection T S) (call : Call) : c.session.Did call (c.call call).session := by
  have hdid := (Endpoint.client c).call_did call
  rwa [client_call] at hdid

end ClientConnection

/-! ## Runs -/

namespace Trace

/-- What may happen on a link: sends and deliveries are recorded, and anything else is called on either end. -/
inductive Move where
  | send (tag : String) (values : List Value)
  /-- The oldest message of the client reaches the server. -/
  | deliver
  | atClient (call : Call)
  | atServer (call : Call)

/-- Other calls on the client do not send. The server gets its messages from the client, and is not told to
close for want of the required packet. -/
def Move.Fair : Move → Prop
  | atClient call => call.Unsent
  | atServer call => (∀ bytes, call ≠ .message bytes) ∧ ∀ reason, call ≠ .close .handshakeRequired reason
  | _ => True

def move (trace : Trace) : Move → Trace
  | .send tag values => trace.next (.send tag values)
  | .deliver => trace.next .deliver
  | .atClient call => { trace with link := { trace.link with client := trace.link.client.call call } }
  | .atServer call => { trace with link := { trace.link with server := trace.link.server.call call } }

def play (link : Link) (moves : List Move) : Trace := moves.foldl move { link }

theorem play_concat (link : Link) (moves : List Move) (last : Move) :
    play link (moves ++ [last]) = (play link moves).move last := by
  rw [play, List.foldl_append]
  rfl

/-- What the client wrote, oldest first. -/
def written (trace : Trace) : List Bytes := trace.delivered ++ trace.link.client.session.transport.sent

/-- The first message that reached the server has the key of another packet. -/
def Overtaken (registry : Registry) (required : String) (trace : Trace) : Prop :=
  ∃ key packet body rest, trace.delivered = (key :: body) :: rest ∧ registry.byKey key = .ok packet ∧
    packet.tag ≠ required

variable {trace : Trace} {definition : Definition} {registry : Registry} {required : String} {key : UInt8}
  {packet : Packet}

theorem move_deliver (trace : Trace) :
    trace.link.client.session.transport.sent = [] ∧ trace.move .deliver = trace ∨
      ∃ message rest, trace.link.client.session.transport.sent = message :: rest ∧
        (trace.move .deliver).delivered = trace.delivered ++ [message] ∧
        (trace.move .deliver).link.client.session.transport.sent = rest ∧
        (trace.move .deliver).link.server = trace.link.server.onMessage message ∧
        (trace.move .deliver).accepted = trace.accepted := by
  cases hsent : trace.link.client.session.transport.sent with
  | nil => exact .inl ⟨rfl, by simp only [move, next, hsent]⟩
  | cons message rest =>
    have hmove : trace.move .deliver = trace.next .deliver := rfl
    rw [hmove, next_deliver hsent]
    exact .inr ⟨message, rest, rfl, rfl, rfl, rfl, rfl⟩

/-- Sends go to the client, and those that succeed are recorded. -/
theorem move_send (trace : Trace) (tag : String) (values : List Value) :
    (trace.move (.send tag values)).link.server = trace.link.server ∧
      (trace.move (.send tag values)).link.client.session = (trace.link.client.session.send tag values).2 ∧
      (trace.move (.send tag values)).delivered = trace.delivered ∧
      (trace.move (.send tag values)).accepted =
        trace.accepted ++ if (trace.link.client.session.send tag values).1.isOk then [(tag, values)] else [] := by
  have hclient : trace.link.client.send tag values = ((trace.link.client.session.send tag values).1,
    { trace.link.client with session := (trace.link.client.session.send tag values).2 }) := rfl
  simp only [move, next, hclient]
  cases (trace.link.client.session.send tag values).1 with
  | ok => exact ⟨rfl, rfl, rfl, rfl⟩
  | error error => exact ⟨rfl, rfl, rfl, (List.append_nil _).symm⟩

/-- The client is called on, and its messages are brought to the server in order. -/
theorem written_move (trace : Trace) (last : Move) :
    trace.written <+: (trace.move last).written ∧ trace.accepted <+: (trace.move last).accepted := by
  unfold written
  cases last with
  | send tag values =>
    rcases trace.move_send tag values with ⟨-, hclient, hdelivered, haccepted⟩
    rw [hclient, hdelivered, haccepted]
    exact ⟨(List.prefix_append_right_inj _).2 (Session.prefix_of_did (.send tag values)), List.prefix_append _ _⟩
  | deliver =>
    rcases trace.move_deliver with ⟨-, hmove⟩ | ⟨message, rest, hsent, hdelivered, hrest, -, haccepted⟩
    · rw [hmove]
      exact ⟨List.prefix_refl _, List.prefix_refl _⟩
    · rw [hsent, hdelivered, hrest, haccepted, List.append_assoc]
      exact ⟨List.prefix_refl _, List.prefix_refl _⟩
  | atClient call =>
    exact ⟨(List.prefix_append_right_inj _).2 (Session.prefix_of_did (trace.link.client.call_did call)),
      List.prefix_refl _⟩
  | atServer call => exact ⟨List.prefix_refl _, List.prefix_refl _⟩

/-! ## What the server gets first -/

theorem Overtaken.move (h : trace.Overtaken registry required) (last : Move) :
    (trace.move last).Overtaken registry required := by
  rcases h with ⟨key, packet, body, rest, hdelivered, hother⟩
  have hsame : (trace.move last).delivered = trace.delivered → (trace.move last).Overtaken registry required :=
    fun heq => ⟨key, packet, body, rest, heq.trans hdelivered, hother⟩
  cases last with
  | send tag values => exact hsame (trace.move_send tag values).2.2.1
  | deliver =>
    rcases trace.move_deliver with ⟨-, hmove⟩ | ⟨next, _, -, hnext, -⟩
    · exact hsame (congrArg Trace.delivered hmove)
    · exact ⟨key, packet, body, rest ++ [next], by rw [hnext, hdelivered, List.cons_append], hother⟩
  | atClient call => exact hsame rfl
  | atServer call => exact hsame rfl

/-- The server is spared as long as the required packet is not overtaken. -/
theorem spared_move
    (h : trace.link.server.Spared definition required trace.delivered ∨ trace.Overtaken definition.client required)
    {last : Move} (hfair : last.Fair) :
    (trace.move last).link.server.Spared definition required (trace.move last).delivered ∨
      (trace.move last).Overtaken definition.client required := by
  rcases h with hspared | hovertaken
  · cases last with
    | send tag values =>
      rcases trace.move_send tag values with ⟨hserver, -, hdelivered, -⟩
      rw [hserver, hdelivered]
      exact .inl hspared
    | deliver =>
      rcases trace.move_deliver with ⟨-, hmove⟩ | ⟨message, rest, -, hdelivered, -, hserver, -⟩
      · rw [hmove]
        exact .inl hspared
      · by_cases hfirst : trace.delivered = [] → ∀ key body packet, message = key :: body →
            definition.client.byKey key = .ok packet → packet.tag = required
        · rw [hserver, hdelivered]
          exact .inl (hspared.message hfirst)
        · rcases Classical.not_imp.1 hfirst with ⟨hnone, hfirst⟩
          simp only [not_forall] at hfirst
          rcases hfirst with ⟨key, body, packet, rfl, hkey, hother⟩
          exact .inr ⟨key, packet, body, [], by rw [hdelivered, hnone, List.nil_append], hkey, hother⟩
    | atClient call => exact .inl hspared
    | atServer call => exact .inl (hspared.call hfair.1 hfair.2)
  · exact .inr (hovertaken.move last)

/-! ## What the client writes first -/

/-- Where a link stands whose client is to send a packet of this tag first: it has sent nothing yet and is ready
to, or closed; or it sent another packet first; or the first message it wrote has this key. -/
inductive Led (registry : Registry) (key : UInt8) (required : String) (trace : Trace) : Prop
  | blank : trace.accepted = [] → trace.delivered = [] → trace.link.client.session.Blank registry key →
      Led registry key required trace
  | mute : trace.accepted = [] → trace.delivered = [] → trace.link.client.session.Mute →
      Led registry key required trace
  | other (entry : String × List Value) (rest : List (String × List Value)) : trace.accepted = entry :: rest →
      entry.1 ≠ required → Led registry key required trace
  | first (body : Bytes) (rest : List Bytes) : trace.written = (key :: body) :: rest → Led registry key required trace

/-- If the packet is not batched, this is kept. -/
theorem Led.move (hnum : registry.Numbered) (hkey : registry.byKey key = .ok packet) (htag : packet.tag = required)
    (hsingle : packet.schema.isBatched = false) (h : trace.Led registry key required) {last : Move}
    (hfair : last.Fair) : (trace.move last).Led registry key required := by
  cases h with
  | blank haccepted hdelivered hblank =>
    cases last with
    | send tag values =>
      rcases trace.move_send tag values with ⟨-, hclient, hsame, hmore⟩
      rw [haccepted, List.nil_append] at hmore
      rcases hblank.send hnum hkey hsingle tag values with ⟨⟨error, hfailed⟩, hblank'⟩ | ⟨hok, hfirst⟩
      · rw [hfailed] at hmore
        exact .blank hmore (hsame.trans hdelivered) (hclient ▸ hblank')
      · rw [hok] at hmore
        rcases hfirst with hother | ⟨payload, hsent⟩
        · exact .other (tag, values) [] hmore (htag ▸ hother)
        · refine .first payload [] ?_
          rw [written, hsame, hdelivered, hclient, hsent]
          rfl
    | deliver =>
      rcases trace.move_deliver with ⟨-, hmove⟩ | ⟨_, _, hsent, -⟩
      · rw [hmove]
        exact .blank haccepted hdelivered hblank
      · rw [hblank.sent] at hsent
        cases hsent
    | atClient call =>
      rcases hblank.did hfair (trace.link.client.call_did call) with hblank' | hmute
      · exact .blank haccepted hdelivered hblank'
      · exact .mute haccepted hdelivered hmute
    | atServer call => exact .blank haccepted hdelivered hblank
  | mute haccepted hdelivered hmute =>
    cases last with
    | send tag values =>
      rcases trace.move_send tag values with ⟨-, hclient, hsame, hmore⟩
      rw [Session.send_of_closed hmute.state] at hclient hmore
      exact .mute (hmore.trans (by rw [haccepted]; rfl)) (hsame.trans hdelivered) (hclient ▸ hmute)
    | deliver =>
      rcases trace.move_deliver with ⟨-, hmove⟩ | ⟨_, _, hsent, -⟩
      · rw [hmove]
        exact .mute haccepted hdelivered hmute
      · rw [hmute.sent] at hsent
        cases hsent
    | atClient call =>
      exact .mute haccepted hdelivered
        (hmute.still (Session.still_of_did hmute.state (trace.link.client.call_did call)))
    | atServer call => exact .mute haccepted hdelivered hmute
  | other entry rest haccepted hother =>
    rcases (trace.written_move last).2 with ⟨more, hmore⟩
    exact .other entry (rest ++ more) (by rw [← hmore, haccepted, List.cons_append]) hother
  | first body rest hwritten =>
    rcases (trace.written_move last).1 with ⟨more, hmore⟩
    exact .first body (rest ++ more) (by rw [← hmore, hwritten, List.cons_append])

end Trace

/-! ## Links just established -/

/-- From the handshake of a definition the client knows what its packets are like. -/
theorem Definition.Built.parse_handshake {definition : Definition} (h : definition.Built) :
    ∃ handshake, Handshake.parse definition.handshake = .ok handshake ∧ handshake.client.Numbered ∧
      ∀ key packet, definition.client.byKey key = .ok packet →
        ∃ learned, handshake.client.byKey key = .ok learned ∧ learned.tag = packet.tag ∧
          learned.schema = packet.schema := by
  induction h with
  | make hclient hserver hmake =>
    refine ⟨_, Definition.parse_handshake hclient hserver hmake, (Definition.made hmake).clientNumbered.announced, ?_⟩
    intro key packet hkey
    refine ⟨packet.announced, ?_, rfl, rfl⟩
    rw [Registry.byKey_announced, hkey]
    rfl
  | @setClientEnabled definition tag enabled _ ih =>
    rcases ih with ⟨handshake, hparse, hnum, hlearned⟩
    refine ⟨handshake, hparse, hnum, fun key packet hkey => ?_⟩
    rcases (definition.client.setEnabled_alike tag enabled).byKey hkey with ⟨packet', hkey', hsame⟩
    rcases hlearned key packet' hkey' with ⟨learned, hlearned, htag, hschema⟩
    have htag' : packet'.tag = packet.tag := congrArg (·.tag) hsame
    have hschema' : packet'.schema = packet.schema := congrArg (·.schema) hsame
    exact ⟨learned, hlearned, htag.trans htag', hschema.trans hschema'⟩
  | setServerEnabled tag enabled _ ih => exact ih

theorem ServerConnection.Fresh.spared {S : Type} [Scheduler S] {definition : Definition} {required : String}
    {c : ServerConnection Wire S} (hrequired : definition.config.handshakePacket = some required)
    (h : c.Fresh definition) : c.Spared definition required [] := by
  induction h with
  | @accept c scheduler haccept =>
    rcases accept_eq definition scheduler with ⟨_, _, _, _, heq⟩
    rw [heq] at haccept
    cases haccept
    exact ⟨hrequired, rfl, nofun, fun _ => rfl, fun _ hne => (hne rfl).elim⟩
  | on _ hon ih =>
    rcases on_eq_ok hon with ⟨dispatcher, rfl⟩
    exact ⟨ih.required_eq, ih.inbound, ih.wire, ih.opened, ih.came⟩
  | onClose _ _ ih => exact ⟨ih.required_eq, ih.inbound, ih.wire, ih.opened, ih.came⟩
  | onError _ _ ih => exact ⟨ih.required_eq, ih.inbound, ih.wire, ih.opened, ih.came⟩

namespace Link

variable {definition : Definition} {link : Link} {required : String}

theorem Established.spared (hrequired : definition.config.handshakePacket = some required)
    (h : link.Established definition) : link.server.Spared definition required [] := by
  induction h with
  | @handshake c s _ hserves =>
    have hspared := hserves.spared hrequired
    rw [toClient_fresh c hserves]
    exact ⟨hspared.required_eq, hspared.inbound, nofun, fun _ => rfl, hspared.came⟩
  | on _ hon ih =>
    rcases ServerConnection.on_eq_ok hon with ⟨dispatcher, rfl⟩
    exact ⟨ih.required_eq, ih.inbound, ih.wire, ih.opened, ih.came⟩

/-- The client of an established link can send the packets of the definition, and has sent nothing. -/
theorem Established.blank (hbuilt : definition.Built) (h : link.Established definition) :
    ∃ registry : Registry, registry.Numbered ∧ (∀ key, link.client.session.Blank registry key) ∧
      ∀ key packet, definition.client.byKey key = .ok packet →
        ∃ learned, registry.byKey key = .ok learned ∧ learned.tag = packet.tag ∧ learned.schema = packet.schema := by
  rcases hbuilt.parse_handshake with ⟨handshake, hparse, hnum, hlearned⟩
  refine ⟨handshake.client, hnum, ?_, hlearned⟩
  induction h with
  | @handshake c s hfresh hserves =>
    have hadopted := ClientConnection.onMessage_handshake hfresh.waits hparse
    rcases hadopted.flowing (Wire.accepts_iff.2 rfl) hfresh.unused hnum with ⟨hflow, hlimiter, hwire, hqueues, hwaiting⟩
    rw [toClient_fresh c hserves]
    intro key
    refine ⟨hflow, by rw [hwire], hqueues, hwaiting, ?_⟩
    rw [hlimiter]
    split
    · exact RateLimiter.count_ofRegistry _ _
    · simp [RateLimiter.count, RateLimiter.allowance?, RateLimiter.unlimited]
  | on _ hon ih => exact ih

end Link

/-! ## Closes for want of the required packet -/

namespace Trace

variable {definition : Definition} {link : Link} {moves : List Move} {required : String}

theorem play_spared (hrequired : definition.config.handshakePacket = some required)
    (h : link.Established definition) (hfair : ∀ last ∈ moves, last.Fair) :
    (play link moves).link.server.Spared definition required (play link moves).delivered ∨
      (play link moves).Overtaken definition.client required := by
  induction moves using List.reverseRecOn with
  | nil => exact .inl (h.spared hrequired)
  | append_singleton moves last ih =>
    rw [play_concat]
    exact spared_move (ih fun other hmem => hfair other (by simp [hmem])) (hfair last (by simp))

theorem play_led {registry : Registry} {key : UInt8} {packet : Packet} (hnum : registry.Numbered)
    (hkey : registry.byKey key = .ok packet) (htag : packet.tag = required)
    (hsingle : packet.schema.isBatched = false) (hblank : link.client.session.Blank registry key)
    (hfair : ∀ last ∈ moves, last.Fair) : (play link moves).Led registry key required := by
  induction moves using List.reverseRecOn with
  | nil => exact .blank rfl rfl hblank
  | append_singleton moves last ih =>
    rw [play_concat]
    exact (ih fun other hmem => hfair other (by simp [hmem])).move hnum hkey htag hsingle (hfair last (by simp))

/-- If the first send that succeeds is of the required packet, the server closes for want of it only if the packet
is batched, and only if a message with the key of another packet came first. -/
theorem closed_if_overtaken (hbuilt : definition.Built) (hrequired : definition.config.handshakePacket = some required)
    (h : link.Established definition) (hfair : ∀ last ∈ moves, last.Fair)
    (hfirst : ∀ entry ∈ (play link moves).accepted.head?, entry.1 = required) {reason : String}
    (hclosed : (play link moves).link.server.session.transport.closed = some (.handshakeRequired, reason)) :
    ∃ key packet other overtaking body rest, definition.client.byKey key = .ok packet ∧ packet.tag = required ∧
      packet.schema.isBatched = true ∧ (play link moves).delivered = (other :: body) :: rest ∧ other ≠ key ∧
      definition.client.byKey other = .ok overtaking ∧ overtaking.tag ≠ required := by
  rcases ServerConnection.exists_required hbuilt hrequired with ⟨key, packet, hkey, htag⟩
  rcases play_spared hrequired h hfair with
    hspared | ⟨other, overtaking, body, rest, hdelivered, hovertaking, hother⟩
  · exact absurd hclosed (hspared.wire reason)
  · have hne : other ≠ key := by
      rintro rfl
      exact hother (Outcome.ok_unique hkey hovertaking ▸ htag)
    refine ⟨key, packet, other, overtaking, body, rest, hkey, htag, ?_, hdelivered, hne, hovertaking, hother⟩
    by_contra hbatched
    rcases h.blank hbuilt with ⟨registry, hnum, hblank, hlearned⟩
    rcases hlearned key packet hkey with ⟨learned, hkey', htag', hschema⟩
    have hsingle : learned.schema.isBatched = false := by
      rw [hschema]
      exact Bool.eq_false_iff.2 hbatched
    cases play_led hnum hkey' (htag'.trans htag) hsingle (hblank key) hfair with
    | blank _ hnone _ | mute _ hnone _ =>
      rw [hnone] at hdelivered
      cases hdelivered
    | other entry rest haccepted hunlike => exact hunlike (hfirst entry (by rw [haccepted]; rfl))
    | first body rest hwritten =>
      -- the first message the server got is the first the client wrote
      rw [written, hdelivered, List.cons_append] at hwritten
      exact hne (List.cons.inj (List.cons.inj hwritten).1).1

end Trace

namespace Gate

def link : Result Link := do
  let definition ← Definition.make [login, say] [] .empty config
  match ServerConnection.accept definition ({} : Wire) ({} : Clock) with
  | .serving server => return (Link.toClient ⟨.start {} {} {}, server⟩).2
  | .refused error _ => .error error

theorem link_established {l : Link} (h : link = .ok l) :
    ∃ definition, Definition.make [login, say] [] .empty config = .ok definition ∧ definition.Built ∧
      definition.config.handshakePacket = some "login" ∧ l.Established definition := by
  obtain ⟨definition, hmake, hestablished⟩ := Link.Established.establish h
  exact ⟨definition, hmake, (built hmake).1, (built hmake).2, hestablished⟩

/-- The client logs in and has its say, and what it wrote is delivered. -/
def haste : List Trace.Move := [.send "login" [.string "me"], .send "say" [.string "hi"], .deliver]

theorem haste_fair : ∀ last ∈ haste, last.Fair := by simp [haste, Trace.Move.Fair]

theorem haste_run :
    ∃ l, link = .ok l ∧ (Trace.play l haste).accepted.map Prod.fst = ["login", "say"] ∧
      (Trace.play l haste).link.server.session.transport.closed =
        some (.handshakeRequired, "Handshake packet required first") := by
  have hrun : ((fun l => ((Trace.play l haste).accepted.map Prod.fst,
      (Trace.play l haste).link.server.session.transport.closed)) <$> link).toOption =
        some (["login", "say"], some (.handshakeRequired, "Handshake packet required first")) := by
    decide +kernel
  rcases (⟨_, rfl⟩ : ∃ l, link = .ok l) with ⟨l, hlink⟩
  rw [hlink] at hrun
  exact ⟨l, hlink, Prod.mk.inj (Option.some.inj hrun)⟩

end Gate

namespace Trace

/-- The login is sent first and waits in its batch, the word is written at once, and the server closes over it. -/
theorem login_overtaken :
    ∃ (definition : Definition) (link : Link), definition.Built ∧
      definition.config.handshakePacket = some "login" ∧ link.Established definition ∧
      (∀ last ∈ Gate.haste, last.Fair) ∧ (play link Gate.haste).accepted.map Prod.fst = ["login", "say"] ∧
      (play link Gate.haste).link.server.session.transport.closed =
        some (.handshakeRequired, "Handshake packet required first") := by
  rcases Gate.haste_run with ⟨link, hlink, hsends, hclosed⟩
  rcases Gate.link_established hlink with ⟨definition, -, hbuilt, hrequired, h⟩
  exact ⟨definition, link, hbuilt, hrequired, h, Gate.haste_fair, hsends, hclosed⟩

theorem closed_if_overtaken_gate :
    ∃ (definition : Definition) (link : Link) (key : UInt8) (packet : Packet) (other : UInt8) (overtaking : Packet)
      (body : Bytes) (rest : List Bytes),
      Definition.make [Gate.login, Gate.say] [] .empty Gate.config = .ok definition ∧ link.Established definition ∧
      (play link Gate.haste).link.server.session.transport.closed =
        some (.handshakeRequired, "Handshake packet required first") ∧
      definition.client.byKey key = .ok packet ∧ packet.tag = "login" ∧ packet.schema.isBatched = true ∧
      (play link Gate.haste).delivered = (other :: body) :: rest ∧ other ≠ key ∧
      definition.client.byKey other = .ok overtaking ∧ overtaking.tag ≠ "login" := by
  rcases Gate.haste_run with ⟨link, hlink, hsends, hclosed⟩
  rcases Gate.link_established hlink with ⟨definition, hmake, hbuilt, hrequired, h⟩
  have hlogin : ∀ entry ∈ (play link Gate.haste).accepted.head?, entry.1 = "login" := by
    intro entry hentry
    have hhead := congrArg List.head? hsends
    rw [List.head?_map, Option.mem_def.1 hentry] at hhead
    exact Option.some.inj hhead
  rcases closed_if_overtaken hbuilt hrequired h Gate.haste_fair hlogin hclosed with
    ⟨key, packet, other, overtaking, body, rest, hovertaken⟩
  exact ⟨definition, link, key, packet, other, overtaking, body, rest, hmake, h, hclosed, hovertaken⟩

end Trace

end PacketProtocol
