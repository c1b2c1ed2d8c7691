import PacketProtocol.Proofs.Established
import PacketProtocol.Proofs.Lifecycle
import PacketProtocol.Proofs.Limits
import PacketProtocol.Proofs.Messages
import PacketProtocol.Proofs.Emission
/-!
# What a server counts

Of a message a server counts the payloads it carries, whatever they are like. As long as they are
within the cap, the server does not close for the rate.
-/

namespace PacketProtocol

namespace Wire

variable {wire : Wire}

theorem sendAll_eq (h : wire.closed = none) (messages : List Bytes) :
    Transport.sendAll wire messages = { wire with sent := wire.sent ++ messages } := by
  induction messages generalizing wire with
  | nil => rw [List.append_nil]; rfl
  | cons message messages ih =>
    have hsend : (Transport.send wire message).2 = { wire with sent := wire.sent ++ [message] } := by
      simp [Transport.send, Wire.send, h]
    rw [Transport.sendAll, List.foldl_cons, hsend]
    have hrest := @ih { wire with sent := wire.sent ++ [message] } h
    rw [List.append_assoc] at hrest
    exact hrest

theorem accepts_iff : Transport.Accepts wire ↔ wire.closed = none := by
  constructor
  · intro h
    have hsend := h [] []
    cases hclosed : wire.closed with
    | none => rfl
    | some reason =>
      simp only [Transport.sendAll, List.foldl_nil, Transport.send, Wire.send, hclosed, Option.isSome_some,
        if_true] at hsend
      cases hsend
  · intro h messages message
    simp [sendAll_eq h, Transport.send, Wire.send, h]

end Wire

/-! ## Counting payloads -/

namespace Session

variable {T S : Type} {registry : Registry} {s s' : Session T S} {bytes : Bytes}

/-- What opens is what the message carries. -/
theorem carried_of_openMessage {key : UInt8} {packet : Packet} {payloads : List Bytes}
    (halike : s.inbound.Alike registry) (h : s.openMessage bytes = .ok (key, packet, payloads)) :
    registry.carried key bytes = payloads := by
  obtain ⟨body, rfl, hkey, hpayloads⟩ := openMessage_eq_ok h
  rw [← halike.carried hkey]
  simp only [Registry.carried, if_true, hkey]
  split at hpayloads
  · rename_i hbatched
    rw [if_pos hbatched, hpayloads]
  · rename_i hbatched
    cases hpayloads
    rw [if_neg hbatched]

/-- Payloads within the cap are counted, and are not too many. -/
theorem Received.counted {result : Result Unit} (halike : s.inbound.Alike registry)
    (h : s.Received bytes result s')
    (hroom : ∀ key, s.receiveLimiter.Caps key →
      s.receiveLimiter.count key + (registry.carried key bytes).length ≤ s.receiveLimiter.cap key) :
    (∀ error, result = .error error → error.closeCode ≠ .rateLimitExceeded) ∧
      (∀ key, s'.receiveLimiter.cap key = s.receiveLimiter.cap key) ∧
      ∀ key, s.receiveLimiter.Caps key →
        s'.receiveLimiter.count key ≤ s.receiveLimiter.count key + (registry.carried key bytes).length := by
  have hhits : ∀ {key packet payloads within limiter}, s.openMessage bytes = .ok (key, packet, payloads) →
      s.receiveLimiter.hitTimes key payloads.length = (within, limiter) → within = true ∧
        (∀ other, limiter.cap other = s.receiveLimiter.cap other) ∧ ∀ other, s.receiveLimiter.Caps other →
          limiter.count other ≤ s.receiveLimiter.count other + (registry.carried other bytes).length := by
    intro key packet payloads within limiter hopen hhit
    have hcarried := carried_of_openMessage halike hopen
    have hcap := fun other => RateLimiter.cap_hitTimes payloads.length s.receiveLimiter key other
    have hothers := fun other hne => @RateLimiter.count_hitTimes_of_ne key other hne payloads.length s.receiveLimiter
    rw [hhit] at hcap hothers
    by_cases hcaps : s.receiveLimiter.Caps key
    · have hwithin := RateLimiter.hitTimes_within hcaps (hcarried ▸ hroom key hcaps)
      rw [hhit] at hwithin
      refine ⟨hwithin.1, hcap, fun other _ => ?_⟩
      by_cases hne : other = key
      · subst hne
        rw [hcarried]
        exact Nat.le_of_eq hwithin.2
      · rw [hothers other hne]
        exact Nat.le_add_right _ _
    · have hfree := RateLimiter.hitTimes_free hcaps payloads.length
      rw [hhit] at hfree
      refine ⟨hfree, hcap, fun other hother => ?_⟩
      have hne : other ≠ key := fun h => hcaps (h ▸ hother)
      rw [hothers other hne]
      exact Nat.le_add_right _ _
  cases h with
  | unopened error entries hopen _ =>
    refine ⟨fun e he => ?_, fun _ => rfl, fun _ _ => Nat.le_add_right _ _⟩
    cases he
    rw [openMessage_eq_error hopen]
    decide
  | limited key packet payloads limiter entries hopen hhit _ => exact nomatch (hhits hopen hhit).1
  | undecoded error key packet payloads limiter entries hopen hhit hdecoded _ =>
    obtain ⟨-, hcap, hcount⟩ := hhits hopen hhit
    refine ⟨fun e he => ?_, hcap, hcount⟩
    cases he
    obtain ⟨payload, -, hpayload⟩ := Outcome.mapM_eq_error hdecoded
    obtain ⟨fault, rfl⟩ := Packet.decode_eq_error hpayload
    exact nofun
  | delivered key packet payloads limiter decoded entries hopen hhit _ _ _ =>
    obtain ⟨-, hcap, hcount⟩ := hhits hopen hhit
    exact ⟨nofun, hcap, hcount⟩

end Session

/-! ## Servers over a wire -/

namespace Session

variable {S : Type} {registry : Registry} {s s' : Session Wire S}

/-- A session in use that takes in the packets of a registry, over an open wire. -/
structure Taking (registry : Registry) (s : Session Wire S) : Prop where
  state : s.state = .ready
  inbound : s.inbound.Alike registry
  wire : s.transport.closed = none

/-- A session that closed, and not for the rate. -/
structure ClosedOtherwise (s : Session Wire S) : Prop where
  state : s.state = .closed
  wire : ∀ reason, s.transport.closed ≠ some (.rateLimitExceeded, reason)

theorem ClosedOtherwise.still (h : s.ClosedOtherwise) (hstill : s.Still s') : s'.ClosedOtherwise :=
  ⟨hstill.state, by rw [hstill.transport]; exact h.wire⟩

theorem Taking.wire_ne (h : s.Taking registry) (reason : String) :
    s.transport.closed ≠ some (.rateLimitExceeded, reason) := by
  rw [h.wire]
  exact nofun

variable [Scheduler S]

/-- To close writes nothing. -/
theorem close_sent (s : Session Wire S) (code : CloseCode) (reason : String) :
    (s.close code reason).transport.sent = s.transport.sent := by
  by_cases hstate : s.state = .closed
  · rw [Session.close, if_pos hstate]
  · rw [close_eq hstate]
    show (Wire.close s.transport code reason).sent = s.transport.sent
    unfold Wire.close
    split <;> rfl

theorem Taking.close (h : s.Taking registry) {code : CloseCode} (hcode : code ≠ .rateLimitExceeded) (reason : String) :
    (s.close code reason).ClosedOtherwise := by
  refine ⟨s.close_state code reason, fun other hclosed => hcode ?_⟩
  rw [close_eq (by rw [h.state]; decide)] at hclosed
  simp only [Transport.close, Wire.close, h.wire] at hclosed
  cases hclosed
  rfl

theorem Taking.fail (h : s.Taking registry) {error : ProtocolError} (hcode : error.closeCode ≠ .rateLimitExceeded) :
    (s.fail error).ClosedOtherwise := by
  have hcounted : (s.count .abuseClose).Taking registry := ⟨h.state, h.inbound, h.wire⟩
  unfold Session.fail
  split
  · exact hcounted.close hcode _
  · exact h.close hcode _

theorem Taking.closedByPeer (h : s.Taking registry) (code : CloseCode) (reason : String) :
    (s.closedByPeer code reason).ClosedOtherwise := by
  refine ⟨s.closedByPeer_state code reason, fun other => ?_⟩
  rw [Session.closedByPeer, if_neg (by rw [h.state]; decide)]
  exact h.wire_ne other

omit [Scheduler S] in
theorem Taking.works {receiveLimiter : RateLimiter} (h : s.Taking registry)
    (hworks : Works { s with receiveLimiter } s') : s'.Taking registry ∧ s'.receiveLimiter = receiveLimiter := by
  obtain ⟨messages, htransport⟩ := hworks.transport
  refine ⟨⟨hworks.state.trans h.state, hworks.inbound ▸ h.inbound, ?_⟩, hworks.receiveLimiter⟩
  rw [htransport, Wire.sendAll_eq h.wire]
  exact h.wire

end Session

namespace ServerConnection

variable {S : Type} [Scheduler S] {registry : Registry}

/-- The limiter has the caps of an earlier one, and counted at most so many payloads since. -/
structure CountedSince (limiter : RateLimiter) (given : UInt8 → Nat) (limiter' : RateLimiter) : Prop where
  cap : ∀ key, limiter'.cap key = limiter.cap key
  count : ∀ key, limiter.Caps key → limiter'.count key ≤ limiter.count key + given key

theorem onMessage_taking {c : ServerConnection Wire S} (h : c.session.Taking registry) (bytes : Bytes)
    (hroom : ∀ key, c.session.receiveLimiter.Caps key →
      c.session.receiveLimiter.count key + (registry.carried key bytes).length ≤ c.session.receiveLimiter.cap key) :
    (c.onMessage bytes).session.Taking registry ∧
        CountedSince c.session.receiveLimiter (fun key => (registry.carried key bytes).length)
          (c.onMessage bytes).session.receiveLimiter ∨
      (c.onMessage bytes).session.ClosedOtherwise := by
  have hready : c.session.isReady = true := by simp [Session.isReady, h.state]
  obtain ⟨scheduler, timers, entries, -, hsession⟩ := c.checkFirst_eq bytes
  have herror := @checkFirst_eq_error _ _ _ c bytes
  simp only [onMessage, hready, if_true]
  generalize c.checkFirst bytes = checked at hsession herror
  obtain ⟨result, c'⟩ := checked
  have htaking : c'.session.Taking registry := hsession ▸ ⟨h.state, h.inbound, h.wire⟩
  have hlimiter : c'.session.receiveLimiter = c.session.receiveLimiter := by rw [hsession]
  cases result with
  | error error =>
    refine .inr (htaking.fail ?_)
    obtain hcode | hcode | hcode := herror rfl <;> rw [hcode] <;> decide
  | ok _ =>
    have hreceived := c'.session.receive_received bytes
    have haside := c'.session.aside_receive bytes htaking.state
    obtain ⟨hcode, hcap, hcount⟩ := hreceived.counted htaking.inbound (by rwa [hlimiter])
    rw [hlimiter] at hcap hcount
    have hafter : (c'.session.receive bytes).2.Taking registry :=
      ⟨haside.state.trans htaking.state, Eq.trans haside.inbound htaking.inbound, haside.transport ▸ htaking.wire⟩
    dsimp only [Session.receiveOrFail]
    split
    · rename_i hreceive
      rw [hreceive] at hafter hcap hcount
      exact .inl ⟨hafter, hcap, hcount⟩
    · rename_i error _ hreceive
      rw [hreceive] at hafter hcode
      exact .inr (hafter.fail (hcode error rfl))

theorem onMessage_closedOtherwise {c : ServerConnection Wire S} (h : c.session.ClosedOtherwise) (bytes : Bytes) :
    (c.onMessage bytes).session.ClosedOtherwise :=
  h.still (Session.still_of_acts h.state (c.acts_onMessage bytes))

theorem foldl_onMessage_closedOtherwise {c : ServerConnection Wire S} (h : c.session.ClosedOtherwise)
    (messages : List Bytes) : (messages.foldl onMessage c).session.ClosedOtherwise := by
  induction messages generalizing c with
  | nil => exact h
  | cons message messages ih => exact ih (onMessage_closedOtherwise h message)

/-- Messages that carry together no more than there is room for are counted, or one of them closes. -/
theorem foldl_onMessage_taking {c : ServerConnection Wire S} (h : c.session.Taking registry) (messages : List Bytes)
    (hroom : ∀ key, c.session.receiveLimiter.Caps key → c.session.receiveLimiter.count key +
      (messages.flatMap (registry.carried key)).length ≤ c.session.receiveLimiter.cap key) :
    (messages.foldl onMessage c).session.Taking registry ∧
        CountedSince c.session.receiveLimiter (fun key => (messages.flatMap (registry.carried key)).length)
          (messages.foldl onMessage c).session.receiveLimiter ∨
      (messages.foldl onMessage c).session.ClosedOtherwise := by
  induction messages generalizing c with
  | nil => exact .inl ⟨h, fun _ => rfl, fun _ _ => Nat.le_refl _⟩
  | cons message messages ih =>
    simp only [List.flatMap_cons, List.length_append] at hroom
    obtain ⟨htaking, hcap, hcount⟩ | hclosed := onMessage_taking h message
      fun key hcaps => Nat.le_trans (Nat.add_le_add_left (Nat.le_add_right _ _) _) (hroom key hcaps)
    · have hcaps : ∀ key, (c.onMessage message).session.receiveLimiter.Caps key ↔
          c.session.receiveLimiter.Caps key := fun key => by rw [RateLimiter.Caps, RateLimiter.Caps, hcap]
      obtain ⟨htaking', hcap', hcount'⟩ | hclosed := ih htaking fun key hkey => by
        have hfirst := hcount key ((hcaps key).1 hkey)
        have hall := hroom key ((hcaps key).1 hkey)
        rw [hcap]
        omega
      · refine .inl ⟨htaking', fun key => (hcap' key).trans (hcap key), fun key hkey => ?_⟩
        have hfirst := hcount key hkey
        have hrest := hcount' key ((hcaps key).2 hkey)
        simp only [List.flatMap_cons, List.length_append]
        rw [List.foldl_cons]
        omega
      · exact .inr hclosed
    · exact .inr (foldl_onMessage_closedOtherwise hclosed messages)

end ServerConnection

/-! ## Other calls on a server -/

/-- Calls on a server that bring it no message and no window boundary, and do not close for the rate. -/
def Call.Apart : Call → Prop
  | .message _ | .timer .rateReset => False
  | .close code _ => code ≠ .rateLimitExceeded
  | _ => True

namespace ServerConnection

variable {T S : Type} [Transport T] [Scheduler S]

/-- The server after a call. -/
def call (c : ServerConnection T S) (call : Call) : ServerConnection T S :=
  match (Endpoint.server c).call call with
  | .server c' => c'
  | .client _ => c

theorem server_call (c : ServerConnection T S) (call : Call) :
    (Endpoint.server c).call call = .server (c.call call) := by
  unfold ServerConnection.call
  cases call with
  | on tag listener =>
    simp only [Endpoint.call, Endpoint.on]
    cases c.on tag listener <;> rfl
  | _ => rfl

theorem call_did (c : ServerConnection T S) (call : Call) : c.session.Did call (c.call call).session := by
  have hdid := (Endpoint.server c).call_did call
  rwa [server_call] at hdid

end ServerConnection

namespace ServerConnection

variable {S : Type} [Scheduler S] {registry : Registry} {c : ServerConnection Wire S}

theorem call_closedOtherwise (h : c.session.ClosedOtherwise) (call : Call) : (c.call call).session.ClosedOtherwise :=
  h.still (Session.still_of_did h.state (c.call_did call))

/-- What else is called on a server does not count. -/
theorem call_taking (h : c.session.Taking registry) {call : Call} (hcall : call.Apart) :
    (c.call call).session.Taking registry ∧ (c.call call).session.receiveLimiter = c.session.receiveLimiter ∨
      (c.call call).session.ClosedOtherwise := by
  have hsame : ∀ c' : ServerConnection Wire S, c'.session.state = c.session.state →
      c'.session.inbound.Alike c.session.inbound → c'.session.transport = c.session.transport →
      c'.session.receiveLimiter = c.session.receiveLimiter →
      c'.session.Taking registry ∧ c'.session.receiveLimiter = c.session.receiveLimiter :=
    fun c' hstate hinbound htransport hlimiter =>
      ⟨⟨hstate.trans h.state, Eq.trans hinbound h.inbound, htransport ▸ h.wire⟩, hlimiter⟩
  cases call with
  | opened => exact .inl ⟨h, rfl⟩
  | message bytes => exact hcall.elim
  | timer kind =>
    cases kind with
    | rateReset => exact hcall.elim
    | batchFlush key =>
      have hworks := Session.works_onTimer h.state (.batchFlush key)
      rw [if_neg nofun] at hworks
      exact .inl (h.works hworks)
    | handshakeExpiry =>
      have hfailed : (c.session.count .handshakeFailed).Taking registry := ⟨h.state, h.inbound, h.wire⟩
      have hcall : (c.call (.timer .handshakeExpiry)).session = c.expire.session := rfl
      rw [hcall, expire]
      dsimp only
      split
      · exact .inr (hfailed.close (by decide) _)
      · exact .inl ⟨h, rfl⟩
  | send tag values => exact .inl (h.works (c.session.works_send tag values))
  | sendEncoded key payload => exact .inl (h.works (c.session.works_sendEncoded key payload))
  | on tag listener =>
    cases hlistener : c.on tag listener with
    | error error =>
      have hcall : c.call (.on tag listener) = c := by
        simp only [ServerConnection.call, Endpoint.call, Endpoint.on, hlistener]
        rfl
      rw [hcall]
      exact .inl ⟨h, rfl⟩
    | ok c' =>
      have hcall : c.call (.on tag listener) = c' := by
        simp only [ServerConnection.call, Endpoint.call, Endpoint.on, hlistener]
        rfl
      obtain ⟨dispatcher, rfl⟩ := on_eq_ok hlistener
      rw [hcall]
      exact .inl (hsame _ rfl rfl rfl rfl)
  | onReady callback => exact .inl ⟨h, rfl⟩
  | onClose callback => exact .inl (hsame _ rfl rfl rfl rfl)
  | onError callback => exact .inl (hsame _ rfl rfl rfl rfl)
  | report error => exact .inl (hsame _ rfl rfl rfl rfl)
  | setOutboundEnabled tag enabled => exact .inl (hsame _ rfl rfl rfl rfl)
  | setInboundEnabled tag enabled => exact .inl (hsame _ rfl (Registry.setEnabled_alike _ _ _) rfl rfl)
  | close code reason => exact .inr (h.close hcall reason)
  | transportClosed code reason => exact .inr (h.closedByPeer code reason)

theorem onTimer_rateReset_taking (h : c.session.Taking registry) :
    (c.onTimer .rateReset).session.Taking registry ∧
      (c.onTimer .rateReset).session.receiveLimiter = c.session.receiveLimiter.reset := by
  have hworks := Session.works_onTimer h.state .rateReset
  rw [if_pos rfl] at hworks
  exact h.works hworks

end ServerConnection

end PacketProtocol
