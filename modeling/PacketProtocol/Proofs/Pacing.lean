import PacketProtocol.Proofs.Metering
import PacketProtocol.Proofs.Windows
/-!
# Caps on what is sent

A payload that is sent passes the rate limit at once if nothing of its key waits and something is left
of the cap; else it waits. A window boundary lets pass as many of those that wait as the cap allows. So
no more of a packet passes in one rate window than its cap, whichever of the two ways it takes.
-/

namespace PacketProtocol

namespace Session

variable {T S : Type} {registry : Registry} {s s' : Session T S} {key : UInt8} {payload : Bytes}
  {passed : List (UInt8 × Bytes)}

/-! ## What passes the limit -/

/-- What passes the rate limit at once of a payload that is sent. -/
def admitted (s : Session T S) (key : UInt8) (payload : Bytes) : List (UInt8 × Bytes) :=
  if s.deferred.waiting key = [] ∧ (s.sendLimiter.hit key).1 = true then [(key, payload)] else []

/-- What passes the rate limit at a window boundary. -/
def released (s : Session T S) : List (UInt8 × Bytes) := (s.deferred.drainAdmitted s.sendLimiter.reset).1

/-- The session's limiter has the caps of its packets, and counted what passed of each. -/
structure Spent (passed : List (UInt8 × Bytes)) (s : Session T S) : Prop where
  cap : ∀ key, s.sendLimiter.cap key = (RateLimiter.ofRegistry s.outbound).cap key
  spent : ∀ key, s.sendLimiter.Caps key → s.sendLimiter.spent key = (ofKey key passed).length

theorem spent_ofRegistry (h : s.sendLimiter = .ofRegistry s.outbound) : s.Spent [] := by
  constructor
  · intro key
    rw [h]
  · intro key _
    rw [h, RateLimiter.spent, RateLimiter.count_ofRegistry, Nat.zero_min]
    rfl

/-- Only the limiter matters, and what the packets are. -/
theorem Spent.of_limiter (h : s.Spent passed) (hlimiter : s'.sendLimiter = s.sendLimiter)
    (halike : s'.outbound.Alike s.outbound) : s'.Spent passed := by
  constructor
  · intro key
    rw [hlimiter, halike.cap_ofRegistry, h.cap]
  · intro key hcaps
    rw [hlimiter] at hcaps ⊢
    exact h.spent key hcaps

/-- A payload that is sent is counted if it passes, and if it waits nothing is spent on it. -/
theorem spent_counting (s : Session T S) (key : UInt8) (payload : Bytes) {other : UInt8}
    (hcaps : s.sendLimiter.Caps other) :
    (s.counting key).spent other = s.sendLimiter.spent other + (ofKey other (s.admitted key payload)).length := by
  unfold counting admitted
  by_cases hempty : s.deferred.waiting key = []
  · by_cases hne : other = key
    · subst hne
      cases hhit : (s.sendLimiter.hit other).1
      · simp [hempty, RateLimiter.spent_hit_over hcaps hhit]
      · simp [hempty, (RateLimiter.spent_hit hcaps).2 hhit, ofKey_cons_self]
    · rw [if_pos hempty, RateLimiter.spent_hit_of_ne hne]
      split <;> simp [ofKey_cons_of_ne (Ne.symm hne)]
  · simp [hempty]

theorem cap_counting (s : Session T S) (key other : UInt8) :
    (s.counting key).cap other = s.sendLimiter.cap other := by
  unfold counting
  split
  · exact RateLimiter.cap_hit _ _ _
  · rfl

/-- What passes does so because something is left of the cap. -/
theorem admitted_eq (hcaps : s.sendLimiter.Caps key) (payload : Bytes) :
    s.admitted key payload =
      if s.deferred.waiting key = [] ∧ s.sendLimiter.spent key < s.sendLimiter.cap key then [(key, payload)]
      else [] := by
  simp only [admitted, RateLimiter.hit_iff hcaps]

/-! ## Steps of a session in use -/

section Steps

variable [Transport T] {result : Result Unit}

theorem Sent.sendLimiter (h : s.Sent registry key payload result s') :
    s'.sendLimiter = s.counting key ∧ s'.outbound = s.outbound := by
  cases h with
  | emitted hempty hhit hemitted =>
    obtain ⟨-, houtbound, -, hlimiter⟩ := hemitted.same
    rw [hlimiter, counting, if_pos hempty]
    exact ⟨rfl, houtbound⟩
  | held => exact ⟨rfl, rfl⟩
  | full => exact ⟨rfl, rfl⟩

/-- What passes is written or put in its batch. -/
theorem Sent.left (hflow : s.Flowing registry) (h : s.Sent registry key payload result s') :
    Left registry (s.admitted key payload) s s' := by
  cases h with
  | emitted hempty hhit hemitted =>
    rw [admitted, if_pos ⟨hempty, hhit⟩]
    have hleft := hemitted.left (hflow.of_limiter _).batching
    exact hleft
  | held _ _ hover _ =>
    rw [admitted, if_neg hover]
    exact .of_batchers rfl rfl
  | full _ hover _ =>
    rw [admitted, if_neg hover]
    exact .of_batchers rfl rfl

theorem Sent.flowing (hflow : s.Flowing registry) (h : s.Sent registry key payload result s') :
    s'.Flowing registry := by
  cases h with
  | emitted hempty hhit hemitted => exact hemitted.flowing (hflow.of_limiter _)
  | held deferred journal _ hpush =>
    have hwithin := hflow.within.push hflow.ordered hpush
    obtain ⟨-, rfl⟩ := DeferredQueue.push?_eq_some hpush
    exact ⟨hflow.state, hflow.accepts, hflow.alike, hflow.batching.of_batchers rfl,
      hflow.ordered.appendTo key payload, hwithin⟩
  | full => exact hflow.of_limiter _

theorem Sent.spent (h : s.Sent registry key payload result s') (hspent : s.Spent passed) :
    s'.Spent (passed ++ s.admitted key payload) := by
  obtain ⟨hlimiter, houtbound⟩ := h.sendLimiter
  constructor
  · intro other
    rw [hlimiter, houtbound, cap_counting, hspent.cap]
  · intro other hcaps
    rw [hlimiter, RateLimiter.Caps, cap_counting] at hcaps
    rw [hlimiter, s.spent_counting key payload hcaps, hspent.spent other hcaps, ofKey_append, List.length_append]

/-- Where a payload stands that was sent: it passed, it waits behind all others of its key, or the queue was
full. -/
theorem Sent.waiting (hflow : s.Flowing registry) (h : s.Sent registry key payload result s') :
    s.admitted key payload = [(key, payload)] ∧ s'.deferred = s.deferred ∨
      s.admitted key payload = [] ∧ s'.deferred.waiting key = s.deferred.waiting key ++ [payload] ∨
      s.admitted key payload = [] ∧ s'.deferred = s.deferred ∧ 0 < s.deferred.maxPerKey ∧
        s.deferred.maxPerKey ≤ (s.deferred.waiting key).length := by
  cases h with
  | emitted hempty hhit hemitted => exact .inl ⟨if_pos ⟨hempty, hhit⟩, hemitted.same.2.2.1⟩
  | held deferred journal hover hpush =>
    have hwaiting := DeferredQueue.waiting_push hflow.ordered hpush key
    rw [ofKey_cons_self] at hwaiting
    exact .inr (.inl ⟨if_neg hover, hwaiting⟩)
  | full error hover hpush =>
    unfold DeferredQueue.push? at hpush
    split at hpush
    · rename_i hfull
      exact .inr (.inr ⟨if_neg hover, rfl, hfull⟩)
    · cases hpush

/-- A window begins with what is released spent, and as many are released as the cap allows. -/
theorem Spent.reset (h : s.Spent passed) (hflow : s.Flowing registry) :
    (s.onTimer .rateReset).Spent s.released := by
  obtain ⟨-, hlimiter, -⟩ := left_rateReset hflow
  have hcap : ∀ key, (s.onTimer .rateReset).sendLimiter.cap key = s.sendLimiter.cap key := by
    intro key
    rw [hlimiter]
    exact (DeferredQueue.cap_admitAll _ _ key).trans (RateLimiter.cap_reset _ _)
  have halike : (s.onTimer .rateReset).outbound.Alike s.outbound :=
    Eq.trans (hflow.onTimer .rateReset).alike hflow.alike.symm
  constructor
  · intro key
    rw [hcap, halike.cap_ofRegistry, h.cap]
  · intro key hcaps
    rw [RateLimiter.Caps, hcap] at hcaps
    rw [hlimiter]
    exact DeferredQueue.spent_drain hcaps hflow.ordered

/-- What a call does to a session in use, other than to end the rate window. -/
inductive Turn (registry : Registry) (s : Session T S) : Option (UInt8 × Bytes) → Session T S → Prop
  | sent {key : UInt8} {payload : Bytes} {result : Result Unit} {s' : Session T S} :
      Sent registry s key payload result s' → Turn registry s (some (key, payload)) s'
  | flushed {key : UInt8} {s' : Session T S} : Flushed s key s' → Turn registry s none s'
  | steady {s' : Session T S} : Steady s s' → s'.sendLimiter = s.sendLimiter → Turn registry s none s'
  | closed {s' : Session T S} : s'.state = .closed → Turn registry s none s'

theorem Aside.turn (h : s.Aside s') : s.Turn registry none s' := .steady h.steady h.sendLimiter

variable {offer : Option (UInt8 × Bytes)}

/-- What passes the rate limit on a call. -/
def passing (s : Session T S) (offer : Option (UInt8 × Bytes)) : List (UInt8 × Bytes) :=
  offer.toList.flatMap fun (key, payload) => s.admitted key payload

/-- A session stays in use unless it closes; then what passed has left, and is spent. -/
theorem Turn.flowing (hflow : s.Flowing registry) (h : s.Turn registry offer s') :
    s'.state = .closed ∨ s'.Flowing registry ∧ Left registry (s.passing offer) s s' ∧
      (s.Spent passed → s'.Spent (passed ++ s.passing offer)) := by
  have hnone : s.passing none = [] := rfl
  cases h with
  | @sent key payload result s' hsent =>
    have hsome : s.passing (some (key, payload)) = s.admitted key payload := List.flatMap_singleton _ _
    rw [hsome]
    exact .inr ⟨hsent.flowing hflow, hsent.left hflow, hsent.spent⟩
  | flushed hflushed =>
    rw [hnone, List.append_nil]
    have hflow' := hflushed.flowing hflow
    refine .inr ⟨hflow', hflushed.left hflow.batching, fun hspent => ?_⟩
    exact hspent.of_limiter hflushed.same.2 (Eq.trans hflow'.alike hflow.alike.symm)
  | steady hsteady hlimiter =>
    rw [hnone, List.append_nil]
    refine .inr ⟨hflow.steady hsteady, .of_batchers hsteady.transport hsteady.batchers, fun hspent => ?_⟩
    exact hspent.of_limiter hlimiter hsteady.outbound
  | closed hclosed => exact .inl hclosed

variable [Scheduler S]

theorem aside_receiveOrFail (hstate : s.state = .ready) (bytes : Bytes) :
    s.Aside (s.receiveOrFail bytes) ∨ (s.receiveOrFail bytes).state = .closed := by
  have haside := s.aside_receive bytes hstate
  unfold receiveOrFail
  split
  · rename_i hreceive
    rw [hreceive] at haside
    exact .inl haside
  · exact .inr (close_state _ _ _)

end Steps

end Session

/-! ## Calls on a connection in use -/

namespace Endpoint

variable {T S : Type} [Transport T] [Scheduler S] {registry : Registry} {e : Endpoint T S}

/-- The payload that a call gives a connection to send, with its key, if it may be sent at all. -/
def offered (e : Endpoint T S) : Call → Option (UInt8 × Bytes)
  | .send tag values => (e.session.prepare tag values).toOption
  | .sendEncoded key payload => if e.session.isReady then some (key, payload) else none
  | _ => none

/-- The payloads that pass the rate limit of a connection on a call. -/
def passedBy (e : Endpoint T S) : Call → List (UInt8 × Bytes)
  | .timer .rateReset => if e.session.isReady then e.session.released else []
  | call => e.session.passing (e.offered call)

/-- The payloads that pass the rate limit of a connection, in order. -/
def passed (e : Endpoint T S) : List Call → List (UInt8 × Bytes)
  | [] => []
  | call :: calls => e.passedBy call ++ passed (e.call call) calls

omit [Transport T] [Scheduler S] in
theorem passedBy_eq {call : Call} (hcall : call ≠ .timer .rateReset) :
    e.passedBy call = e.session.passing (e.offered call) := by
  unfold passedBy
  split
  · exact absurd rfl hcall
  · rfl

/-- A message is taken in, which sends nothing, or the connection closes. -/
theorem aside_onMessage (hstate : e.state = .ready) (bytes : Bytes) :
    e.session.Aside (e.onMessage bytes).session ∨ (e.onMessage bytes).state = .closed := by
  cases e with
  | client c =>
    have hready : c.state = .ready := hstate
    simp only [onMessage, ClientConnection.onMessage, hready]
    exact Session.aside_receiveOrFail hstate bytes
  | server c =>
    have hready : c.session.isReady = true := by
      have hstate : c.session.state = .ready := hstate
      simp [Session.isReady, hstate]
    have haside := c.aside_checkFirst bytes
    simp only [onMessage, ServerConnection.onMessage, if_pos hready]
    split
    · rename_i c' hcheck
      rw [hcheck] at haside
      apply Or.imp haside.trans id
      exact Session.aside_receiveOrFail (haside.state.trans hstate) bytes
    · exact .inr (Session.close_state _ _ _)

/-- Nothing is left to expire for a connection in use, or it closes. -/
theorem aside_expire (hstate : e.state = .ready) :
    e.session.Aside (e.onTimer .handshakeExpiry).session ∨ (e.onTimer .handshakeExpiry).state = .closed := by
  cases e with
  | client c =>
    have hready : c.state = .ready := hstate
    refine .inl ?_
    simp only [onTimer, session, ClientConnection.onTimer, ClientConnection.expire]
    split
    · rename_i hconnecting
      rw [show c.state = .connecting from hconnecting] at hready
      cases hready
    · rename_i hwaiting
      rw [show c.state = .awaitingSchema from hwaiting] at hready
      cases hready
    · exact .refl _
  | server c =>
    show c.session.Aside c.expire.session ∨ c.expire.state = .closed
    simp only [ServerConnection.expire]
    split
    · exact .inr (Session.close_state _ _ _)
    · exact .inl (.refl _)

/-- Every call on a connection in use sends, flushes, closes or leaves what is sent alone. -/
theorem call_turn {call : Call} (hflow : e.session.Flowing registry) (hcall : call ≠ .timer .rateReset) :
    e.session.Turn registry (e.offered call) (e.call call).session := by
  have hstate : e.state = .ready := hflow.state
  have hready : e.session.isReady = true := by simp [Session.isReady, hflow.state]
  cases call with
  | send tag values =>
    have hsession : (e.call (.send tag values)).session = (e.session.send tag values).2 := session_withSession _ _
    rw [hsession]
    simp only [offered, Session.send]
    cases e.session.prepare tag values with
    | error error => exact .steady ⟨rfl, rfl, rfl, rfl, rfl⟩ rfl
    | ok entry => exact .sent (Session.sendEncoded_sent hflow entry.1 entry.2)
  | sendEncoded key payload =>
    have hsession : (e.call (.sendEncoded key payload)).session = (e.session.sendEncoded key payload).2 :=
      session_withSession _ _
    rw [hsession]
    simp only [offered, hready, if_true]
    exact .sent (Session.sendEncoded_sent hflow key payload)
  | timer kind =>
    cases kind with
    | rateReset => exact absurd rfl hcall
    | batchFlush key =>
      have hsession : (e.call (.timer (.batchFlush key))).session = e.session.onTimer (.batchFlush key) := by
        cases e <;> rfl
      rw [hsession]
      exact .flushed (Session.onTimer_batchFlush hflow key)
    | handshakeExpiry => exact (aside_expire hstate).elim (·.turn) .closed
  | message bytes => exact (aside_onMessage hstate bytes).elim (·.turn) .closed
  | close code reason =>
    apply Session.Turn.closed
    show (e.withSession (e.session.close code reason)).session.state = .closed
    rw [session_withSession, Session.close_state]
  | transportClosed code reason =>
    apply Session.Turn.closed
    show (e.withSession (e.session.closedByPeer code reason)).session.state = .closed
    rw [session_withSession, Session.closedByPeer_state]
  | opened =>
    cases e with
    | client c =>
      have hready : c.state = .ready := hstate
      have hsame : c.opened = c := by simp [ClientConnection.opened, hready]
      show c.session.Turn registry none c.opened.session
      rw [hsame]
      exact (Session.Aside.refl _).turn
    | server c => exact (Session.Aside.refl _).turn
  | on tag listener =>
    simp only [Endpoint.call]
    split
    · rename_i e' hon
      cases e with
      | client c =>
        obtain ⟨c', hon', rfl⟩ := Outcome.map_eq_ok.1 hon
        exact (ClientConnection.aside_on hon').turn
      | server c =>
        obtain ⟨c', hon', rfl⟩ := Outcome.map_eq_ok.1 hon
        exact (ServerConnection.aside_on hon').turn
    · exact (Session.Aside.refl _).turn
  | onReady callback =>
    cases e with
    | client c => exact (c.aside_onReady callback).turn
    | server c => exact (Session.Aside.refl _).turn
  | onClose callback => cases e <;> exact .steady ⟨rfl, rfl, rfl, rfl, rfl⟩ rfl
  | onError callback => cases e <;> exact .steady ⟨rfl, rfl, rfl, rfl, rfl⟩ rfl
  | report error => cases e <;> exact (Session.aside_report _ error).turn
  | setOutboundEnabled tag enabled => cases e <;> exact (Session.aside_setOutboundEnabled _ tag enabled).turn
  | setInboundEnabled tag enabled => cases e <;> exact (Session.aside_setInboundEnabled _ tag enabled).turn

/-! ## Connections that wait for a handshake -/

omit [Transport T] [Scheduler S] in
/-- Only a connection in use is given anything to send. -/
theorem offered_of_not_ready (hstate : e.state ≠ .ready) (call : Call) : e.offered call = none := by
  have hsession : e.session.state ≠ .ready := hstate
  cases call with
  | send tag values =>
    have hprepare : ∃ error, e.session.prepare tag values = .error error := by
      unfold Session.prepare Session.ensureReady
      split
      · contradiction
      · exact ⟨_, rfl⟩
      · exact ⟨_, rfl⟩
    obtain ⟨error, herror⟩ := hprepare
    simp [offered, herror, Except.toOption]
  | sendEncoded key payload => simp [offered, Session.isReady, hsession]
  | _ => rfl

omit [Transport T] [Scheduler S] in
theorem passedBy_of_not_ready (hstate : e.state ≠ .ready) (call : Call) : e.passedBy call = [] := by
  have hready : e.session.isReady = false := by
    have hsession : e.session.state ≠ .ready := hstate
    simp [Session.isReady, hsession]
  unfold passedBy
  split
  · simp [hready]
  · rw [offered_of_not_ready hstate]
    rfl

/-- A client that waits for the handshake: it has neither sent nor held back anything. -/
structure Early (transport : T) (c : ClientConnection T S) : Prop where
  waits : c.state = .connecting ∨ c.state = .awaitingSchema
  unused : c.Unused transport

omit [Transport T] [Scheduler S] in
theorem Early.not_ready {transport : T} {c : ClientConnection T S} (h : Early transport c) : c.state ≠ .ready := by
  obtain hstate | hstate := h.waits <;> rw [hstate] <;> decide

/-- Without a message a client goes on waiting, or it closes. -/
theorem Early.call {transport : T} {c : ClientConnection T S} {call : Call} (h : Early transport c)
    (hcall : ∀ bytes, call ≠ .message bytes) :
    (∃ c', (client c).call call = client c' ∧ Early transport c') ∨ ((client c).call call).state = .closed := by
  obtain ⟨hwaits, hunused⟩ := h
  obtain ⟨htransport, hlimiter, hdeferred, hbatchers⟩ := hunused
  have hready : c.session.state ≠ .ready := Early.not_ready ⟨hwaits, ⟨htransport, hlimiter, hdeferred, hbatchers⟩⟩
  cases call with
  | message bytes => exact absurd rfl (hcall bytes)
  | opened =>
    refine .inl ⟨c.opened, rfl, ?_⟩
    unfold ClientConnection.opened
    split
    · exact ⟨.inr rfl, htransport, hlimiter, hdeferred, hbatchers⟩
    · exact ⟨hwaits, htransport, hlimiter, hdeferred, hbatchers⟩
  | timer kind =>
    cases kind with
    | handshakeExpiry =>
      refine .inr ?_
      show c.expire.state = .closed
      obtain hstate | hstate := hwaits <;> simp only [ClientConnection.expire, ClientConnection.state] at hstate ⊢ <;>
        rw [hstate] <;> exact Session.close_state _ _ _
    | rateReset | batchFlush =>
      refine .inl ⟨{ c with session := c.session.onTimer _ }, rfl, ?_⟩
      rw [Session.onTimer_of_not_ready hready]
      exact ⟨hwaits, htransport, hlimiter, hdeferred, hbatchers⟩
  | send tag values =>
    refine .inl ⟨{ c with session := (c.session.send tag values).2 }, rfl, ?_⟩
    rw [Session.send_of_not_ready hready]
    exact ⟨hwaits, htransport, hlimiter, hdeferred, hbatchers⟩
  | sendEncoded key payload =>
    refine .inl ⟨{ c with session := (c.session.sendEncoded key payload).2 }, rfl, ?_⟩
    rw [Session.sendEncoded_of_not_ready hready]
    exact ⟨hwaits, htransport, hlimiter, hdeferred, hbatchers⟩
  | on tag listener =>
    simp only [Endpoint.call, Endpoint.on]
    cases hon : c.on tag listener with
    | error error => exact .inl ⟨c, rfl, hwaits, htransport, hlimiter, hdeferred, hbatchers⟩
    | ok c' =>
      obtain ⟨dispatcher, rfl⟩ := ClientConnection.on_eq_ok hon
      exact .inl ⟨_, rfl, hwaits, htransport, hlimiter, hdeferred, hbatchers⟩
  | onReady callback =>
    refine .inl ⟨c.onReady callback, rfl, ?_⟩
    unfold ClientConnection.onReady
    split
    · exact ⟨hwaits, htransport, hlimiter, hdeferred, hbatchers⟩
    · exact ⟨hwaits, htransport, hlimiter, hdeferred, hbatchers⟩
  | close code reason => exact .inr (Session.close_state _ _ _)
  | transportClosed code reason => exact .inr (Session.closedByPeer_state _ _ _)
  | _ => exact .inl ⟨_, rfl, hwaits, htransport, hlimiter, hdeferred, hbatchers⟩

/-- The first message is a handshake that is taken on, or the client closes. -/
theorem Early.onMessage {transport : T} {c : ClientConnection T S} (h : Early transport c) (bytes : Bytes) :
    (∃ handshake, Handshake.parse bytes = .ok handshake ∧ ClientConnection.Adopted handshake c (c.onMessage bytes)) ∨
      (c.onMessage bytes).state = .closed := by
  cases hparse : Handshake.parse bytes with
  | ok handshake => exact .inl ⟨handshake, rfl, ClientConnection.onMessage_handshake h.waits hparse⟩
  | error error =>
    refine .inr ?_
    obtain hintroduced | hrefused := ClientConnection.onMessage_cases h.waits bytes
    · obtain ⟨handshake, hok, -⟩ := hintroduced.registries
      rw [hparse] at hok
      cases hok
    · exact hrefused.state

/-! ## The invariant of a rate window -/

variable {start : Session T S} {passed : List (UInt8 × Bytes)}

/-- Where a connection stands through whose rate limit these payloads passed since it was as in `start`. -/
inductive Throttled (start : Session T S) (passed : List (UInt8 × Bytes)) : Endpoint T S → Prop
  | early {c : ClientConnection T S} : Early start.transport c → Transport.Accepts start.transport →
      start.batchers = [] → passed = [] → Throttled start passed (client c)
  | flowing {e : Endpoint T S} (registry : Registry) : e.session.Flowing registry →
      Session.Left registry passed start e.session → (e.rateWindow.isSome → e.session.Spent passed) →
      Throttled start passed e
  | closed {e : Endpoint T S} : e.state = .closed → Throttled start passed e

theorem New.throttled {transport : T} (haccepts : Transport.Accepts transport) (h : e.New transport) :
    Throttled e.session [] e := by
  cases h with
  | client scheduler config => exact .early ⟨.inl rfl, rfl, rfl, rfl, rfl⟩ haccepts rfl rfl
  | @server definition connection scheduler hbuilt haccept =>
    obtain ⟨_, _, _, _, rfl⟩ := ServerConnection.serving_eq haccept
    refine .flowing definition.server ⟨rfl, haccepts.sendAll _, rfl, ?_, List.Pairwise.nil, fun _ _ => Nat.zero_le _⟩
      (.of_batchers rfl rfl) fun hsome => Session.spent_ofRegistry (if_pos hsome)
    exact Session.batching_fresh hbuilt.numbered.2 rfl

theorem Throttled.call {call : Call} (h : Throttled start passed e) (hcall : call ≠ .timer .rateReset) :
    Throttled start (passed ++ e.passedBy call) (e.call call) := by
  cases h with
  | @early c hearly haccepts hbatchers hnone =>
    have hready : (client c).state ≠ .ready := hearly.not_ready
    rw [passedBy_of_not_ready hready, hnone]
    by_cases hmessage : ∀ bytes, call ≠ .message bytes
    · obtain ⟨c', hsame, hearly'⟩ | hclosed := hearly.call hmessage
      · rw [hsame]
        exact .early hearly' haccepts hbatchers rfl
      · exact .closed hclosed
    · simp only [ne_eq, not_forall, not_not] at hmessage
      obtain ⟨bytes, rfl⟩ := hmessage
      obtain ⟨handshake, hparse, hadopted⟩ | hclosed := hearly.onMessage bytes
      · have hnum := (Handshake.parse_numbered hparse).1
        obtain ⟨hflow, hlimiter, htransport, -, hwaiting⟩ := hadopted.flowing haccepts hearly.unused hnum
        refine .flowing handshake.client hflow ?_ fun hsome => ?_
        · -- no batch holds anything, before the handshake or right after it
          refine ⟨[], [], htransport, fun _ => rfl, fun key packet _ => ?_⟩
          rw [show ((client c).call (.message bytes)).session.waiting key = [] from hwaiting key, Session.waiting,
            Session.batcher?, hbatchers]
          exact .refl _
        · refine Session.spent_ofRegistry (hlimiter.trans ?_)
          have hsome : (c.onMessage bytes).rateWindow.isSome := hsome
          rw [hadopted.rateWindow] at hsome
          rw [if_pos hsome]
          exact congrArg RateLimiter.ofRegistry hadopted.outbound.symm
      · exact .closed hclosed
  | flowing registry hflow hleft hspent =>
    rw [passedBy_eq hcall]
    obtain hclosed | ⟨hflow', hleft', hspent'⟩ := (call_turn hflow hcall).flowing hflow
    · exact .closed hclosed
    · refine .flowing registry hflow' (hleft.trans hleft') fun hsome => hspent' (hspent ?_)
      by_cases hmessage : ∀ bytes, call ≠ .message bytes
      · rwa [rateWindow_call e hmessage] at hsome
      · simp only [ne_eq, not_forall, not_not] at hmessage
        obtain ⟨bytes, rfl⟩ := hmessage
        have hwindow : (e.call (.message bytes)).rateWindow = e.rateWindow := rateWindow_onMessage hflow.state bytes
        rwa [hwindow] at hsome
  | closed hclosed => exact .closed (Session.still_of_did hclosed (e.call_did call)).state

/-- A rate window begins with what is released. -/
theorem Throttled.reset (h : Throttled start passed e) :
    Throttled e.session (e.passedBy (.timer .rateReset)) (e.call (.timer .rateReset)) := by
  cases h with
  | @early c hearly haccepts hbatchers hnone =>
    have hready : (client c).state ≠ .ready := hearly.not_ready
    have hunused := hearly.unused
    rw [passedBy_of_not_ready hready]
    have hcall : ∀ bytes, Call.timer .rateReset ≠ .message bytes := nofun
    obtain ⟨c', hsame, hearly'⟩ | hclosed := hearly.call hcall
    · rw [hsame]
      rw [← hunused.transport_eq] at hearly' haccepts
      exact .early hearly' haccepts hunused.batchers rfl
    · exact .closed hclosed
  | flowing registry hflow hleft hspent =>
    have hsession : (e.call (.timer .rateReset)).session = e.session.onTimer .rateReset := by cases e <;> rfl
    have hreleased : e.passedBy (.timer .rateReset) = e.session.released := by
      simp [passedBy, Session.isReady, hflow.state]
    have hwindow : (e.call (.timer .rateReset)).rateWindow = e.rateWindow := rateWindow_call e nofun
    rw [hreleased]
    refine .flowing registry (hsession ▸ hflow.onTimer _) ?_ fun hsome => ?_
    · rw [hsession]
      exact (Session.left_rateReset hflow).1
    · rw [hwindow] at hsome
      rw [hsession]
      exact (hspent hsome).reset hflow
  | closed hclosed => exact .closed (Session.still_of_did hclosed (e.call_did _)).state

theorem Throttled.run (h : Throttled start passed e) {window : List Call} (hwindow : .timer .rateReset ∉ window) :
    Throttled start (passed ++ e.passed window) (e.run window) := by
  induction window generalizing e passed with
  | nil => exact (List.append_nil passed).symm ▸ h
  | cons call window ih =>
    rw [List.mem_cons, not_or] at hwindow
    have hrest := ih (h.call (Ne.symm hwindow.1)) hwindow.2
    rwa [List.append_assoc] at hrest

/-- Wherever a run has come, a rate window is under way. -/
theorem New.throttled_run {transport : T} (haccepts : Transport.Accepts transport) (h : e.New transport)
    (calls : List Call) : ∃ start passed, Throttled start passed (e.run calls) := by
  induction calls using List.reverseRecOn with
  | nil => exact ⟨_, _, h.throttled haccepts⟩
  | append_singleton calls call ih =>
    obtain ⟨start, passed, hthrottled⟩ := ih
    rw [run_append]
    by_cases hcall : call = .timer .rateReset
    · subst hcall
      exact ⟨_, _, hthrottled.reset⟩
    · exact ⟨_, _, hthrottled.call hcall⟩

omit [Scheduler S] in
theorem Throttled.of_ready (h : Throttled start passed e) (hready : e.state = .ready) :
    ∃ registry, e.session.Flowing registry ∧ Session.Left registry passed start e.session ∧
      (e.rateWindow.isSome → e.session.Spent passed) := by
  cases h with
  | early hearly _ _ _ => exact absurd hready hearly.not_ready
  | flowing registry hflow hleft hspent => exact ⟨registry, hflow, hleft, hspent⟩
  | closed hclosed =>
    rw [hclosed] at hready
    cases hready

/-- What becomes of the next payload that is sent under a key with a cap. -/
theorem call_offered (hflow : e.session.Flowing registry) (hspent : e.session.Spent passed) {key : UInt8}
    (hcaps : e.session.sendLimiter.Caps key) {call : Call} {payload : Bytes}
    (hoffered : e.offered call = some (key, payload)) :
    let held := e.session.deferred.waiting key
    let cap := e.session.sendLimiter.cap key
    held = [] ∧ (ofKey key passed).length < cap ∧ e.passedBy call = [(key, payload)] ∧
        (e.call call).session.deferred.waiting key = [] ∨
      (held ≠ [] ∨ (ofKey key passed).length = cap) ∧ e.passedBy call = [] ∧
        ((e.call call).session.deferred.waiting key = held ++ [payload] ∨
          0 < e.session.deferred.maxPerKey ∧ e.session.deferred.maxPerKey ≤ held.length ∧
            (e.call call).session.deferred.waiting key = held) := by
  intro held cap
  have hcall : call ≠ .timer .rateReset := by
    rintro rfl
    cases hoffered
  have hturn := call_turn hflow hcall
  rw [hoffered] at hturn
  have hpassed : e.passedBy call = e.session.admitted key payload := by
    rw [passedBy_eq hcall, hoffered]
    exact List.flatMap_singleton _ _
  -- what the limiter still has to spend is what has yet to pass
  have hadmitted := Session.admitted_eq hcaps payload
  have hle : e.session.sendLimiter.spent key ≤ cap := Nat.min_le_right _ _
  rw [hspent.spent key hcaps] at hadmitted hle
  generalize (e.call call).session = s' at hturn ⊢
  cases hturn with
  | sent hsent =>
    rw [hpassed]
    by_cases hpass : held = [] ∧ (ofKey key passed).length < cap
    · rw [if_pos hpass] at hadmitted
      refine .inl ⟨hpass.1, hpass.2, hadmitted, ?_⟩
      obtain ⟨-, hsame⟩ | ⟨hnone, -⟩ | ⟨hnone, -⟩ := hsent.waiting hflow
      · rw [hsame]
        exact hpass.1
      · rw [hadmitted] at hnone
        cases hnone
      · rw [hadmitted] at hnone
        cases hnone
    · rw [if_neg hpass] at hadmitted
      refine .inr ⟨?_, hadmitted, ?_⟩
      · by_cases hempty : held = []
        · exact .inr (Nat.le_antisymm hle (Nat.le_of_not_lt fun hlt => hpass ⟨hempty, hlt⟩))
        · exact .inl hempty
      · obtain ⟨hsome, -⟩ | ⟨-, hwaiting⟩ | ⟨-, hsame, hmax, hfull⟩ := hsent.waiting hflow
        · rw [hadmitted] at hsome
          cases hsome
        · exact .inl hwaiting
        · refine .inr ⟨hmax, hfull, ?_⟩
          rw [hsame]

/-- In one rate window, from when a connection is new or from a window boundary on, no more payloads of a packet
pass than its cap. Those that pass are written or put in a batch, unless no batch can hold them. A payload that
is given to send passes exactly if nothing of its key waits and less than the cap has passed; otherwise it waits
behind the others, if its queue has room. The next boundary lets pass as many of those that wait as the cap allows,
the oldest first, and the others still wait. -/
theorem send_throttled {transport : T} (haccepts : Transport.Accepts transport) (hnew : e.New transport)
    {before opening window : List Call}
    (hopening : before = [] ∧ opening = [] ∨ opening = [.timer .rateReset]) (hwindow : .timer .rateReset ∉ window)
    (hready : (e.run (before ++ opening ++ window)).state = .ready)
    (hsome : (e.run (before ++ opening ++ window)).rateWindow.isSome) {key : UInt8} {packet : Packet}
    (hkey : (e.run (before ++ opening ++ window)).session.outbound.byKey key = .ok packet)
    (hpos : 0 < packet.schema.rateLimit) (hbound : packet.schema.rateLimit.toNat < 2 ^ 32 - 1) :
    let start := (e.run before).session
    let after := e.run (before ++ opening ++ window)
    let cap := packet.schema.rateLimit.toNat
    let passed := (e.run before).passed (opening ++ window)
    let held := after.session.deferred.waiting key
    (ofKey key passed).length ≤ cap ∧
      (∃ sent lost, after.session.transport = Transport.sendAll start.transport sent ∧
        (sent.flatMap (after.session.outbound.carried key) ++ after.session.waiting key ++ ofKey key lost).Perm
          (start.waiting key ++ ofKey key passed) ∧
        ((∀ entry ∈ passed, after.session.outbound.Short entry) → lost = [])) ∧
      (∀ call payload, after.offered call = some (key, payload) →
        held = [] ∧ (ofKey key passed).length < cap ∧ after.passedBy call = [(key, payload)] ∧
            (after.call call).session.deferred.waiting key = [] ∨
          (held ≠ [] ∨ (ofKey key passed).length = cap) ∧ after.passedBy call = [] ∧
            ((after.call call).session.deferred.waiting key = held ++ [payload] ∨
              0 < after.session.deferred.maxPerKey ∧ after.session.deferred.maxPerKey ≤ held.length ∧
                (after.call call).session.deferred.waiting key = held)) ∧
      ofKey key (after.passedBy (.timer .rateReset)) = held.take cap ∧
      (after.call (.timer .rateReset)).session.deferred.waiting key = held.drop cap := by
  intro start after cap passed held
  have hthrottled : Throttled start passed after := by
    rw [show after = (e.run before).run (opening ++ window) by simp [after, run_append]]
    obtain ⟨rfl, rfl⟩ | rfl := hopening
    · exact (hnew.throttled haccepts).run hwindow
    · obtain ⟨earlier, passedEarlier, hbefore⟩ := hnew.throttled_run haccepts before
      exact hbefore.reset.run hwindow
  obtain ⟨registry, hflow, ⟨sent, lost, htransport, hnone, hperm⟩, hspent⟩ := hthrottled.of_ready hready
  have hspent := hspent hsome
  have hcap : after.session.sendLimiter.cap key = cap := (hspent.cap key).trans (Registry.cap_ofRegistry hkey)
  have hcaps : after.session.sendLimiter.Caps key := by
    rw [RateLimiter.Caps, hcap]
    exact ⟨UInt32.lt_iff_toNat_lt.1 hpos, hbound⟩
  refine ⟨?_, ⟨sent, lost, htransport, ?_, fun hshort => hnone fun entry hentry packet hentryKey hbatched => ?_⟩,
    fun call payload hoffered => ?_, ?_, ?_⟩
  · rw [← hspent.spent key hcaps, ← hcap]
    exact Nat.min_le_right _ _
  · obtain ⟨packet', hkey', -⟩ := hflow.alike.schema hkey
    rw [funext (hflow.alike.carried hkey)]
    exact hperm key packet' hkey'
  · obtain ⟨packet', hkey', hschema⟩ := hflow.alike.symm.schema hentryKey
    exact hshort entry hentry packet' hkey' (hschema ▸ hbatched)
  · have hnext := call_offered hflow hspent hcaps hoffered
    rwa [hcap] at hnext
  · have hreleased : after.passedBy (.timer .rateReset) = after.session.released := by
      simp [passedBy, Session.isReady, hflow.state]
    rw [hreleased, ← hcap]
    exact DeferredQueue.ofKey_drain hcaps hflow.ordered
  · have hsession : (after.call (.timer .rateReset)).session = after.session.onTimer .rateReset := by
      cases after <;> rfl
    rw [hsession, (Session.left_rateReset hflow).2.2, ← hcap]
    exact DeferredQueue.waiting_drain_drop hcaps hflow.ordered

namespace Drip

/-- Two a window, in batches. -/
def drop : Packet :=
  { tag := "drop", schema := { shape := .single ⟨.intsDynamic, 1, 4⟩, rateLimit := 2, batchInterval := 50 } }

theorem declared : ∀ packet ∈ [drop], packet.Declared := by
  have hints : Schema.Declared { shape := .single ⟨.intsDynamic, 1, 4⟩ } :=
    @Schema.Declared.single .intsDynamic 1 4 _ trivial rfl
  rw [List.forall_mem_singleton]
  exact .make ((hints.rateLimit 2).batching 50 0) (by rfl : Packet.make "drop" _ = .ok _)

def server : Result (Endpoint Outbox Clock) := serve [] [drop] {} {} {}

theorem server_new {e : Endpoint Outbox Clock} (h : server = .ok e) : e.New {} := .serve (by simp) declared h

/-- Five in the first window, so that three wait. -/
def before : List Call := [1, 2, 3, 4, 5].map fun number => .send "drop" [.int number]

def window : List Call := [.timer (.batchFlush 1), .send "drop" [.int 6]]

end Drip

/-- The second window lets two of the three pass that wait, so the sixth waits, and so would a seventh. -/
theorem send_throttled_drip :
    ∃ e, Drip.server = .ok e ∧ e.New {} ∧
      let after := e.run (Drip.before ++ [.timer .rateReset] ++ Drip.window)
      ofKey 1 ((e.run Drip.before).passed ([.timer .rateReset] ++ Drip.window)) = [[1, 3], [1, 4]] ∧
        after.session.deferred.waiting 1 = [[1, 5], [1, 6]] ∧ after.passedBy (.sendEncoded 1 [1, 7]) = [] ∧
        (after.call (.sendEncoded 1 [1, 7])).session.deferred.waiting 1 = [[1, 5], [1, 6], [1, 7]] ∧
        ofKey 1 (after.passedBy (.timer .rateReset)) = [[1, 5], [1, 6]] := by
  have hrun : (fun e =>
      let after := e.run (Drip.before ++ [.timer .rateReset] ++ Drip.window)
      (after.state, after.rateWindow, after.session.outbound.byKey 1, after.session.deferred,
        ofKey 1 ((e.run Drip.before).passed ([.timer .rateReset] ++ Drip.window)))) <$> Drip.server =
        .ok (.ready, some 1000, .ok Drip.drop, ⟨[(1, [[1, 5], [1, 6]])], 0⟩, [[1, 3], [1, 4]]) := by
    cbv
  obtain ⟨e, hserver, hrun⟩ := Outcome.map_eq_ok.1 hrun
  obtain ⟨hready, hrun⟩ := Prod.mk.inj hrun
  obtain ⟨hwindow, hrun⟩ := Prod.mk.inj hrun
  obtain ⟨hkey, hrun⟩ := Prod.mk.inj hrun
  obtain ⟨hdeferred, hpassed⟩ := Prod.mk.inj hrun
  have hnew := Drip.server_new hserver
  have hend : Call.timer .rateReset ∉ Drip.window := by simp [Drip.window]
  obtain ⟨-, -, hnext, hreleased, -⟩ :=
    send_throttled (fun _ _ => rfl) hnew (.inr rfl) hend hready (by rw [hwindow]; rfl) hkey (by decide) (by decide)
  have hheld : (e.run (Drip.before ++ [.timer .rateReset] ++ Drip.window)).session.deferred.waiting 1 =
      [[1, 5], [1, 6]] := by
    rw [hdeferred]
    rfl
  have hmax : (e.run (Drip.before ++ [.timer .rateReset] ++ Drip.window)).session.deferred.maxPerKey = 0 := by
    rw [hdeferred]
  have hisReady : (e.run (Drip.before ++ [.timer .rateReset] ++ Drip.window)).session.isReady = true := by
    rw [Session.isReady, show Session.state _ = .ready from hready]
    rfl
  rw [hheld] at hreleased
  obtain ⟨hempty, -⟩ | ⟨-, hnone, hwaits⟩ := hnext (.sendEncoded 1 [1, 7]) [1, 7] (if_pos hisReady)
  · rw [hheld] at hempty
    cases hempty
  · rw [hheld, hmax] at hwaits
    obtain hwaits | ⟨hpos, -⟩ := hwaits
    · exact ⟨e, hserver, hnew, hpassed, hheld, hnone, hwaits, hreleased⟩
    · cases hpos

end Endpoint

end PacketProtocol
