import PacketProtocol.Proofs.Counting
import PacketProtocol.Proofs.Hostile
/-!
# What reaches the listeners

A message that is taken in hands each of its packets to the listeners of the packet's tag, and no other
call hands them anything. The history of a run lists what its calls handed over, in order.
-/

namespace PacketProtocol

/-! ## Limits that are met or not -/

/-- Several packets pass if there are none, or no cap that can be passed, or room for all of them. -/
theorem RateLimiter.hitTimes_iff {limiter : RateLimiter} {key : UInt8} {times : Nat} :
    (limiter.hitTimes key times).1 = true ↔
      times = 0 ∨ ¬limiter.Caps key ∨ limiter.count key + times ≤ limiter.cap key := by
  by_cases hcaps : limiter.Caps key
  · constructor
    · intro hpass
      -- on the packets: each one that passes is counted
      induction times generalizing limiter with
      | zero => exact .inl rfl
      | succ times ih =>
        rcases hit_caps hcaps with ⟨hfirst, hcount⟩
        have hbound := hcaps.2
        have hcap := cap_hit limiter key key
        rw [hitTimes] at hpass
        split at hpass
        · rename_i limiter' hhit
          rw [hhit] at hfirst hcount hcap
          dsimp only at hfirst hcount hcap
          have hle : limiter.count key + 1 ≤ limiter.cap key := of_decide_eq_true hfirst.symm
          have hcaps' : limiter'.Caps key := by
            rw [Caps, hcap]
            exact hcaps
          rw [Nat.min_eq_left (by omega)] at hcount
          rcases ih hcaps' hpass with rfl | hfree | hroom
          · exact .inr (.inr hle)
          · exact absurd hcaps' hfree
          · rw [hcount, hcap] at hroom
            exact .inr (.inr (by omega))
        · cases hpass
    · rintro (rfl | hfree | hroom)
      · rfl
      · exact absurd hcaps hfree
      · exact (hitTimes_within hcaps hroom).1
  · simp [hcaps, hitTimes_free hcaps]

/-! ## Batches that were taken apart -/

namespace Batcher

variable {maxBatch : UInt32} {total found : Nat} {body : Bytes} {payloads : List Bytes}

/-- What is taken apart has a first payload, which a bound leaves room for. -/
theorem fragments_eq_ok (hbody : ¬body.isEmpty = true) (h : fragments maxBatch total found body = .ok payloads) :
    ¬(0 < maxBatch ∧ maxBatch.toNat ≤ found) ∧
      ∃ payload others rest, payloads = payload :: others ∧ fragments maxBatch total (found + 1) rest = .ok others := by
  rw [fragments_eq, if_neg hbody] at h
  split at h
  · cases h
  · rename_i hroom
    rcases Outcome.bind_eq_ok.1 h with ⟨⟨length, rest⟩, -, h⟩
    dsimp only at h
    split at h
    · cases h
    · rcases Outcome.map_eq_ok.1 h with ⟨others, hothers, rfl⟩
      exact ⟨hroom, _, others, _, rfl, hothers⟩

theorem length_fragments_le (hpos : 0 < maxBatch) (hfound : found ≤ maxBatch.toNat)
    (h : fragments maxBatch total found body = .ok payloads) : found + payloads.length ≤ maxBatch.toNat := by
  -- on the payloads, `found` others being taken already
  induction payloads generalizing found body with
  | nil => exact hfound
  | cons payload payloads ih =>
    by_cases hbody : body.isEmpty = true
    · rw [fragments_eq, if_pos hbody] at h
      cases h
    · rcases fragments_eq_ok hbody h with ⟨hroom, _, others, rest, hsame, hothers⟩
      cases hsame
      have hless : found < maxBatch.toNat := Nat.lt_of_not_le fun hle => hroom ⟨hpos, hle⟩
      have hrest := ih hless hothers
      simp only [List.length_cons]
      omega

variable {tag : String}

theorem unravel_eq_ok (h : unravel tag body maxBatch = .ok payloads) :
    ¬body.isEmpty = true ∧ fragments maxBatch body.length 0 body = .ok payloads := by
  unfold unravel at h
  split at h
  · cases h
  · rename_i hbody
    exact ⟨hbody, Outcome.mapError_eq_ok.1 h⟩

theorem unravel_ne_nil (h : unravel tag body maxBatch = .ok payloads) : payloads ≠ [] := by
  rcases unravel_eq_ok h with ⟨hbody, hfragments⟩
  rcases fragments_eq_ok hbody hfragments with ⟨-, payload, others, -, rfl, -⟩
  exact List.cons_ne_nil _ _

theorem length_unravel_le (h : unravel tag body maxBatch = .ok payloads) (hpos : 0 < maxBatch) :
    payloads.length ≤ maxBatch.toNat := by
  have hle := length_fragments_le hpos (Nat.zero_le _) (unravel_eq_ok h).2
  omega

end Batcher

namespace Session

variable {T S : Type} {s s' s'' : Session T S} {bytes : Bytes} {key : UInt8} {packet : Packet}
  {payloads : List Bytes} {decoded : List (List Value)}

/-! ## Packets of a message -/

/-- Tags and arguments of the packets that a message brings to the listeners: all it contains, if it is
taken in. -/
def dispatched (s : Session T S) (bytes : Bytes) : List (String × List Value) :=
  match s.receive bytes with
  | (.ok (), _) => s.inbound.contents bytes
  | (.error _, _) => []

/-- Whether a message is taken in depends on the registry and on what is counted, and on nothing else. -/
theorem receive_fst (s : Session T S) (bytes : Bytes) :
    (s.receive bytes).1 = s.openMessage bytes >>= fun opened =>
      if (s.receiveLimiter.hitTimes opened.1 opened.2.2.length).1 then
        opened.2.2.mapM opened.2.1.decode >>= fun _ => .ok ()
      else .error (.rateLimited opened.2.1.tag) := by
  have hopen : (s.count (.messageReceived bytes.length)).openMessage bytes = s.openMessage bytes := rfl
  have hlimiter : (s.count (.messageReceived bytes.length)).receiveLimiter = s.receiveLimiter := rfl
  unfold receive
  cases hmessage : s.openMessage bytes with
  | error error => simp only [hopen, hmessage, bind, Except.bind]
  | ok opened =>
    obtain ⟨key, packet, payloads⟩ := opened
    simp only [hopen, hmessage, hlimiter, bind, Except.bind]
    cases hhit : s.receiveLimiter.hitTimes key payloads.length with
    | mk within limiter =>
      cases within with
      | false => rfl
      | true => cases payloads.mapM packet.decode <;> rfl

theorem dispatched_congr (hinbound : s'.inbound = s.inbound) (hfst : (s'.receive bytes).1 = (s.receive bytes).1) :
    s'.dispatched bytes = s.dispatched bytes := by
  unfold dispatched
  rw [hinbound]
  generalize s'.receive bytes = outcome' at hfst
  generalize s.receive bytes = outcome at hfst
  obtain ⟨result', _⟩ := outcome'
  obtain ⟨result, _⟩ := outcome
  cases hfst
  cases result' <;> rfl

theorem dispatched_of_error {error : ProtocolError} (h : (s.receive bytes).1 = .error error) :
    s.dispatched bytes = [] := by
  unfold dispatched
  generalize s.receive bytes = outcome at h
  obtain ⟨result, _⟩ := outcome
  cases h
  rfl

theorem inboundTag_of_openMessage (h : s.openMessage bytes = .ok (key, packet, payloads)) :
    s.inboundTag bytes = .ok packet.tag := by
  rcases openMessage_eq_ok h with ⟨body, rfl, hkey, -⟩
  simp [inboundTag, inboundPacket, hkey, bind, Except.bind, pure, Except.pure]

theorem ne_nil_of_openMessage (h : s.openMessage bytes = .ok (key, packet, payloads)) : payloads ≠ [] := by
  rcases openMessage_eq_ok h with ⟨body, -, -, hpayloads⟩
  split at hpayloads
  · exact Batcher.unravel_ne_nil hpayloads
  · cases hpayloads
    simp

/-- A message has one payload, or as many as may be in a batch. -/
theorem length_of_openMessage (h : s.openMessage bytes = .ok (key, packet, payloads)) :
    (packet.schema.isBatched = false → payloads.length = 1) ∧
      (0 < packet.schema.maxBatch → payloads.length ≤ packet.schema.maxBatch.toNat) := by
  rcases openMessage_eq_ok h with ⟨body, -, -, hpayloads⟩
  split at hpayloads
  · rename_i hbatched
    refine ⟨fun hsingle => ?_, Batcher.length_unravel_le hpayloads⟩
    rw [hsingle] at hbatched
    cases hbatched
  · cases hpayloads
    exact ⟨fun _ => rfl, fun hpos => UInt32.lt_iff_toNat_lt.1 hpos⟩

/-- What opens and decodes is what the message contains. -/
theorem contents_of_openMessage (h : s.openMessage bytes = .ok (key, packet, payloads))
    (hdecoded : payloads.mapM packet.decode = .ok decoded) :
    s.inbound.contents bytes = decoded.map fun values => (packet.tag, packet.schema.arguments values) := by
  rcases openMessage_eq_ok h with ⟨body, rfl, hkey, hpayloads⟩
  simp only [Registry.contents, hkey, hpayloads, Packet.opened_of_mapM hdecoded, List.map_map]
  rfl

/-! ## What becomes of a message -/

/-- A message was taken in, and each of its payloads reached the listeners as a packet of its key. -/
structure TakenIn (s : Session T S) (bytes : Bytes) (key : UInt8) (packet : Packet) (payloads : List Bytes)
    (s' : Session T S) : Prop where
  opened : s.openMessage bytes = .ok (key, packet, payloads)
  within : (s.receiveLimiter.hitTimes key payloads.length).1 = true
  dispatched : (s.dispatched bytes).map Prod.fst = List.replicate payloads.length packet.tag
  state : s'.state = .ready
  inbound : s'.inbound = s.inbound
  receiveLimiter : s'.receiveLimiter = (s.receiveLimiter.hitTimes key payloads.length).2
  heard : Journal.heard s'.journal = Journal.heard s.journal ++ s.dispatcher.calls (s.dispatched bytes)

/-- The session closed, and nothing was heard. -/
structure TurnedAway (s s' : Session T S) : Prop where
  state : s'.state = .closed
  inbound : s'.inbound = s.inbound
  heard : Journal.heard s'.journal = Journal.heard s.journal

theorem TakenIn.length_dispatched (h : s.TakenIn bytes key packet payloads s') :
    (s.dispatched bytes).length = payloads.length := by
  have hlength := congrArg List.length h.dispatched
  rwa [List.length_map, List.length_replicate] at hlength

theorem Refused.turnedAway [Transport T] {codes : List Nat} {blame : Nat} (h : s.Refused codes blame s') :
    s.TurnedAway s' := by
  rcases h.told with ⟨_, _, entries, -, -, hjournal, -, hruns, -⟩
  refine ⟨h.state, h.inbound, ?_⟩
  rw [hjournal, Journal.heard_append, ← Journal.heard_runs entries, hruns]
  exact List.append_nil _

theorem receiveOrFail_taken [Transport T] [Scheduler S] (hstate : s.state = .ready) (bytes : Bytes) :
    (∃ key packet payloads, s.TakenIn bytes key packet payloads (s.receiveOrFail bytes)) ∨
      s.dispatched bytes = [] ∧ s.TurnedAway (s.receiveOrFail bytes) := by
  rcases hreceive : s.receive bytes with ⟨result, s'⟩
  have hreceived := s.receive_received bytes
  rw [hreceive] at hreceived
  cases result with
  | ok =>
    have hall : s.dispatched bytes = s.inbound.contents bytes := by rw [dispatched, hreceive]
    have hsession : s.receiveOrFail bytes = s' := by rw [receiveOrFail, hreceive]
    rw [hsession]
    cases hreceived with
    | delivered key packet payloads limiter decoded entries hopen hhit hdecoded hheard _ =>
      have hcontents := contents_of_openMessage hopen hdecoded
      have hlength := (Outcome.mapM_eq_ok.1 hdecoded).length_eq
      refine .inl ⟨key, packet, payloads, hopen, ?_, ?_, hstate, rfl, ?_, ?_⟩
      · rw [hhit]
      · rw [hall, hcontents, List.map_map, hlength]
        exact List.map_const
      · rw [hhit]
      · rw [hall, hcontents, Journal.heard_append, hheard]
  | error error =>
    refine .inr ⟨dispatched_of_error (by rw [hreceive]), ?_⟩
    rcases receiveOrFail_cases hstate bytes with hdelivered | hrefused
    · -- a session that fails does not deliver
      have hclosed : (s.receiveOrFail bytes).state = .closed := by
        simp only [receiveOrFail, hreceive, fail]
        exact close_state _ _ _
      rw [hdelivered.state] at hclosed
      cases hclosed
    · exact hrefused.turnedAway

/-- Timers and counters may move before a message is taken in. -/
theorem TakenIn.preceded {scheduler : S} {timers : List TimerHandle} {entries : Journal}
    (hentries : Journal.Tally entries)
    (h : TakenIn { s with scheduler, timers, journal := s.journal ++ entries } bytes key packet payloads s') :
    s.TakenIn bytes key packet payloads s' := by
  rcases h with ⟨hopen, hwithin, hdispatched, hstate, hinbound, hlimiter, hheard⟩
  have hsame : Session.dispatched { s with scheduler, timers, journal := s.journal ++ entries } bytes =
      s.dispatched bytes := dispatched_congr rfl (by rw [receive_fst, receive_fst]; rfl)
  rw [hsame] at hdispatched hheard
  refine ⟨hopen, hwithin, hdispatched, hstate, hinbound, hlimiter, hheard.trans ?_⟩
  rw [Journal.heard_append, hentries.heard, List.append_nil]

theorem TurnedAway.preceded {scheduler : S} {timers : List TimerHandle} {entries : Journal}
    (hentries : Journal.Tally entries)
    (h : TurnedAway { s with scheduler, timers, journal := s.journal ++ entries } s') : s.TurnedAway s' := by
  refine ⟨h.state, h.inbound, h.heard.trans ?_⟩
  rw [Journal.heard_append, hentries.heard, List.append_nil]

/-! ## What brings nothing -/

/-- No packet was heard or counted, and the session did not become ready. -/
structure Unreceived (s s' : Session T S) : Prop where
  ready : s'.state = .ready → s.state = .ready
  inbound : s'.inbound.Alike s.inbound
  receiveLimiter : s'.receiveLimiter = s.receiveLimiter
  heard : Journal.heard s'.journal = Journal.heard s.journal

theorem Unreceived.refl (s : Session T S) : s.Unreceived s := ⟨id, rfl, rfl, rfl⟩

theorem Unreceived.trans (h : s.Unreceived s') (h' : s'.Unreceived s'') : s.Unreceived s'' :=
  ⟨h.ready ∘ h'.ready, Eq.trans h'.inbound h.inbound, h'.receiveLimiter.trans h.receiveLimiter, h'.heard.trans h.heard⟩

theorem unreceived_note (s : Session T S) {entries : Journal} (h : Journal.heard entries = []) :
    s.Unreceived (s.note entries) :=
  ⟨id, rfl, rfl, by rw [note, Journal.heard_append, h, List.append_nil]⟩

theorem unreceived_count (s : Session T S) (count : Count) : s.Unreceived (s.count count) := s.unreceived_note rfl

theorem Works.unreceived [Transport T] (h : s.Works s') : s.Unreceived s' := by
  rcases h.journal with ⟨entries, hjournal, -, hruns⟩
  refine ⟨fun hready => h.state.symm.trans hready, h.inbound ▸ rfl, h.receiveLimiter, ?_⟩
  rw [hjournal, Journal.heard_append, ← Journal.heard_runs entries, hruns]
  exact List.append_nil _

section Closing

variable [Scheduler S]

theorem unreceived_closedByPeer (s : Session T S) (code : CloseCode) (reason : String) :
    s.Unreceived (s.closedByPeer code reason) := by
  unfold closedByPeer
  split
  · exact .refl s
  · have hteardown : s.Unreceived s.teardown := ⟨nofun, rfl, rfl, (s.unreceived_count .connectionClosed).heard⟩
    refine hteardown.trans (unreceived_note _ ?_)
    simp [Dispatcher.fireClose, Journal.heard]

theorem unreceived_close [Transport T] (s : Session T S) (code : CloseCode) (reason : String) :
    s.Unreceived (s.close code reason) := by
  by_cases hstate : s.state = .closed
  · rw [close, if_pos hstate]
    exact .refl s
  · rw [close_eq hstate]
    have hpeer := s.unreceived_closedByPeer code reason
    exact ⟨hpeer.ready, hpeer.inbound, hpeer.receiveLimiter, hpeer.heard⟩

theorem unreceived_handshakeTimedOut [Transport T] (s : Session T S) : s.Unreceived s.handshakeTimedOut :=
  (s.unreceived_count .handshakeFailed).trans (unreceived_close _ _ _)

end Closing

end Session

namespace ClientConnection

variable {T S : Type} [Transport T] [Scheduler S]

theorem unreceived_expire (c : ClientConnection T S) : c.session.Unreceived c.expire.session := by
  simp only [expire]
  split
  · exact c.session.unreceived_handshakeTimedOut
  · exact c.session.unreceived_handshakeTimedOut
  · exact .refl _

omit [Transport T] in
theorem unreceived_awaitHandshake (c : ClientConnection T S) : c.session.Unreceived c.awaitHandshake.session :=
  ⟨nofun, rfl, rfl, (c.session.unreceived_count .handshakeAttempt).heard⟩

omit [Transport T] [Scheduler S] in
/-- Registering a listener changes the dispatcher and nothing else. -/
theorem on_eq_ok {c c' : ClientConnection T S} {tag : String} {listener : Listener} (h : c.on tag listener = .ok c') :
    ∃ dispatcher, c' = { c with session := { c.session with dispatcher } } := by
  unfold ClientConnection.on at h
  split at h
  · rcases Outcome.map_eq_ok.1 h with ⟨dispatcher, -, rfl⟩
    exact ⟨dispatcher, rfl⟩
  · cases h
  · cases h
    exact ⟨_, rfl⟩

end ClientConnection

/-- Calls that neither bring a message nor end a rate window. -/
def Call.Quiet : Call → Prop
  | .message _ | .timer .rateReset => False
  | _ => True

namespace Endpoint

variable {T S : Type} [Transport T] [Scheduler S]

/-- A call that brings no message lets nothing be heard. -/
theorem call_unreceived (e : Endpoint T S) {call : Call} (hcall : call.Quiet) :
    e.session.Unreceived (e.call call).session := by
  cases call with
  | opened =>
    cases e with
    | client c =>
      show c.session.Unreceived c.opened.session
      unfold ClientConnection.opened
      split
      · exact c.unreceived_awaitHandshake
      · exact .refl _
    | server c => exact .refl _
  | message bytes => exact hcall.elim
  | timer kind =>
    cases kind with
    | rateReset => exact hcall.elim
    | batchFlush key =>
      have hflush : (e.call (.timer (.batchFlush key))).session = e.session.onTimer (.batchFlush key) := by
        cases e <;> rfl
      rw [hflush]
      by_cases hstate : e.session.state = .ready
      · have hworks := Session.works_onTimer hstate (.batchFlush key)
        rw [if_neg nofun] at hworks
        exact hworks.unreceived
      · rw [Session.onTimer_of_not_ready hstate]
        exact .refl _
    | handshakeExpiry =>
      cases e with
      | client c => exact c.unreceived_expire
      | server c =>
        show c.session.Unreceived c.expire.session
        simp only [ServerConnection.expire]
        split
        · exact c.session.unreceived_handshakeTimedOut
        · exact .refl _
  | send tag values =>
    have hsession : (e.call (.send tag values)).session = (e.session.send tag values).2 := session_withSession _ _
    rw [hsession]
    exact (e.session.works_send tag values).unreceived
  | sendEncoded key payload =>
    have hsession : (e.call (.sendEncoded key payload)).session = (e.session.sendEncoded key payload).2 :=
      session_withSession _ _
    rw [hsession]
    exact (e.session.works_sendEncoded key payload).unreceived
  | on tag listener =>
    simp only [Endpoint.call]
    split
    · rename_i e' hon
      cases e with
      | client c =>
        rcases Outcome.map_eq_ok.1 hon with ⟨c', hon', rfl⟩
        rcases ClientConnection.on_eq_ok hon' with ⟨dispatcher, rfl⟩
        exact ⟨id, rfl, rfl, rfl⟩
      | server c =>
        rcases Outcome.map_eq_ok.1 hon with ⟨c', hon', rfl⟩
        rcases ServerConnection.on_eq_ok hon' with ⟨dispatcher, rfl⟩
        exact ⟨id, rfl, rfl, rfl⟩
    · exact .refl _
  | onReady callback =>
    cases e with
    | client c =>
      show c.session.Unreceived (c.onReady callback).session
      unfold ClientConnection.onReady
      split
      · exact c.session.unreceived_note rfl
      · exact ⟨id, rfl, rfl, rfl⟩
    | server c => exact .refl _
  | onClose callback => cases e <;> exact ⟨id, rfl, rfl, rfl⟩
  | onError callback => cases e <;> exact ⟨id, rfl, rfl, rfl⟩
  | report error => cases e <;> exact Session.unreceived_note _ rfl
  | setOutboundEnabled tag enabled => cases e <;> exact ⟨id, rfl, rfl, rfl⟩
  | setInboundEnabled tag enabled => cases e <;> exact ⟨id, Registry.setEnabled_alike _ _ _, rfl, rfl⟩
  | close code reason =>
    have hsession : (e.call (.close code reason)).session = e.session.close code reason := session_withSession _ _
    rw [hsession]
    exact e.session.unreceived_close code reason
  | transportClosed code reason =>
    have hsession : (e.call (.transportClosed code reason)).session = e.session.closedByPeer code reason :=
      session_withSession _ _
    rw [hsession]
    exact e.session.unreceived_closedByPeer code reason

/-- At the end of a rate window what was counted is forgotten. -/
theorem call_rateReset (e : Endpoint T S) :
    (if e.state = .ready then { e.session with receiveLimiter := e.session.receiveLimiter.reset }
      else e.session).Unreceived (e.call (.timer .rateReset)).session := by
  have hreset : (e.call (.timer .rateReset)).session = e.session.onTimer .rateReset := by cases e <;> rfl
  rw [hreset]
  split
  · rename_i hstate
    have hworks := Session.works_onTimer (s := e.session) hstate .rateReset
    rw [if_pos rfl] at hworks
    exact hworks.unreceived
  · rename_i hstate
    rw [Session.onTimer_of_not_ready hstate]
    exact .refl _

/-- Only messages make a connection ready, or change more of what it takes in than enabled bits. -/
theorem call_of_not_message (e : Endpoint T S) {call : Call} (hcall : ∀ bytes, call ≠ .message bytes) :
    ((e.call call).state = .ready → e.state = .ready) ∧ (e.call call).session.inbound.Alike e.session.inbound := by
  by_cases hquiet : call.Quiet
  · exact ⟨(e.call_unreceived hquiet).ready, (e.call_unreceived hquiet).inbound⟩
  · cases call with
    | message bytes => exact absurd rfl (hcall bytes)
    | timer kind =>
      cases kind with
      | rateReset =>
        have hreset := e.call_rateReset
        split at hreset
        · exact ⟨hreset.ready, hreset.inbound⟩
        · exact ⟨hreset.ready, hreset.inbound⟩
      | _ => exact absurd trivial hquiet
    | _ => exact absurd trivial hquiet

end Endpoint

/-! ## What a server remembers -/

namespace ServerConnection

variable {T S : Type} [Scheduler S] {c : ServerConnection T S}

/-- The look at a message keeps the definition, and what came stays. -/
theorem checkFirst_keeps (c : ServerConnection T S) (bytes : Bytes) :
    (c.checkFirst bytes).2.definition = c.definition ∧
      (c.firstCame = true → (c.checkFirst bytes).2.firstCame = true) := by
  unfold checkFirst
  split
  · exact ⟨rfl, id⟩
  · split
    · exact ⟨rfl, id⟩
    · split
      · exact ⟨rfl, fun _ => rfl⟩
      · exact ⟨rfl, id⟩
      · exact ⟨rfl, id⟩
      · exact ⟨rfl, id⟩

variable [Transport T]

theorem onMessage_of_not_ready (h : c.session.state ≠ .ready) (bytes : Bytes) : c.onMessage bytes = c := by
  have hready : c.session.isReady = false := by simpa [Session.isReady] using h
  simp only [onMessage, hready]
  rfl

/-- Of the look at a message a server remembers whether the required packet came. -/
theorem onMessage_eq (h : c.session.state = .ready) (bytes : Bytes) :
    c.onMessage bytes = { (c.checkFirst bytes).2 with session := (c.onMessage bytes).session } := by
  have hready : c.session.isReady = true := by simp [Session.isReady, h]
  simp only [onMessage, hready, if_true]
  split
  · rename_i hcheck
    simp only [hcheck]
  · rename_i hcheck
    simp only [hcheck]

/-- Only messages matter for the required packet. -/
theorem call_keeps (c : ServerConnection T S) {call : Call} (hcall : ∀ bytes, call ≠ .message bytes) :
    (c.call call).definition.config = c.definition.config ∧ (c.call call).firstCame = c.firstCame := by
  cases call with
  | message bytes => exact absurd rfl (hcall bytes)
  | timer kind =>
    cases kind with
    | handshakeExpiry =>
      show c.expire.definition.config = c.definition.config ∧ c.expire.firstCame = c.firstCame
      unfold expire
      dsimp only
      split
      · exact ⟨rfl, rfl⟩
      · exact ⟨rfl, rfl⟩
    | _ => exact ⟨rfl, rfl⟩
  | on tag listener =>
    simp only [ServerConnection.call, Endpoint.call, Endpoint.on]
    cases hlistener : c.on tag listener with
    | error error => exact ⟨rfl, rfl⟩
    | ok c' =>
      rcases on_eq_ok hlistener with ⟨dispatcher, rfl⟩
      exact ⟨rfl, rfl⟩
  | _ => exact ⟨rfl, rfl⟩

end ServerConnection

/-! ## Histories -/

/-- The packets that a message brings to the listeners of a server, which holds it against the rule of the
first packet before it takes it in. -/
def ServerConnection.dispatched {T S : Type} [Scheduler S] (c : ServerConnection T S) (bytes : Bytes) :
    List (String × List Value) :=
  if c.session.isReady then
    match (c.checkFirst bytes).1 with
    | .ok () => c.session.dispatched bytes
    | .error _ => []
  else []

/-- The packets that a message brings to the listeners of a client. What is no packet yet, but a handshake,
brings none. -/
def ClientConnection.dispatched {T S : Type} (c : ClientConnection T S) (bytes : Bytes) : List (String × List Value) :=
  if c.session.isReady then c.session.dispatched bytes else []

namespace ServerConnection

variable {T S : Type} [Transport T] [Scheduler S] {c : ServerConnection T S}

/-- A server takes a message in that it does not refuse as a first one, or it closes and nothing is heard. -/
theorem onMessage_taken (hstate : c.session.state = .ready) (bytes : Bytes) :
    (∃ key packet payloads, (c.checkFirst bytes).1 = .ok () ∧
        c.session.TakenIn bytes key packet payloads (c.onMessage bytes).session ∧
        c.dispatched bytes = c.session.dispatched bytes) ∨
      c.dispatched bytes = [] ∧ c.session.TurnedAway (c.onMessage bytes).session := by
  have hready : c.session.isReady = true := by simp [Session.isReady, hstate]
  rcases c.checkFirst_eq bytes with ⟨scheduler, timers, entries, hentries, hsession⟩
  have hcode := @checkFirst_eq_error _ _ _ c bytes
  simp only [onMessage, dispatched, hready, if_true]
  generalize c.checkFirst bytes = checked at hsession hcode
  rcases checked with ⟨result, c'⟩
  have hsession : c'.session = _ := hsession
  have hstate' : c'.session.state = .ready := hsession ▸ hstate
  cases result with
  | ok =>
    -- the look at a first message changes nothing that matters for taking it in
    have hsame :
        Session.dispatched { c.session with scheduler, timers, journal := c.session.journal ++ entries } bytes =
          c.session.dispatched bytes :=
      Session.dispatched_congr rfl (by rw [Session.receive_fst, Session.receive_fst]; rfl)
    have htaken := Session.receiveOrFail_taken hstate' bytes
    dsimp only
    rw [hsession] at htaken ⊢
    rw [hsame] at htaken
    rcases htaken with ⟨key, packet, payloads, htaken⟩ | ⟨hnone, hturned⟩
    · exact .inl ⟨key, packet, payloads, rfl, htaken.preceded hentries, rfl⟩
    · exact .inr ⟨hnone, hturned.preceded hentries⟩
  | error error =>
    have habuse : error.closeCode.isAbuse = true := by
      rcases hcode rfl with hcode | hcode | hcode <;> rw [hcode] <;> rfl
    have hrefused := Session.refused_fail (s := c'.session) (by rw [hstate']; decide) habuse
      (CloseCode.number_of_isAbuse habuse)
    have hturned := hrefused.turnedAway
    dsimp only
    rw [hsession] at hturned ⊢
    exact .inr ⟨rfl, hturned.preceded hentries⟩

end ServerConnection

namespace Endpoint

variable {T S : Type} [Transport T] [Scheduler S]

omit [Transport T] in
/-- Tags and arguments of the packets that a call brings to the listeners. -/
def dispatched (e : Endpoint T S) : Call → List (String × List Value)
  | .message bytes =>
    match e with
    | client c => c.dispatched bytes
    | server c => c.dispatched bytes
  | _ => []

/-- Tags and arguments of all packets that reached the listeners in a run, oldest first. -/
def history (e : Endpoint T S) : List Call → List (String × List Value)
  | [] => []
  | call :: calls => e.dispatched call ++ (e.call call).history calls

theorem history_append (e : Endpoint T S) (front back : List Call) :
    e.history (front ++ back) = e.history front ++ (e.run front).history back := by
  induction front generalizing e with
  | nil => rfl
  | cons call front ih => simp only [List.cons_append, history, ih, List.append_assoc, run, List.foldl_cons]

theorem history_concat (e : Endpoint T S) (calls : List Call) (call : Call) :
    e.history (calls ++ [call]) = e.history calls ++ (e.run calls).dispatched call := by
  simp [history_append, history]

/-- A ready connection takes a message in, or it closes and nothing is heard. -/
theorem onMessage_taken {e : Endpoint T S} (hstate : e.state = .ready) (bytes : Bytes) :
    (∃ key packet payloads, e.session.TakenIn bytes key packet payloads (e.onMessage bytes).session ∧
        e.dispatched (.message bytes) = e.session.dispatched bytes) ∨
      e.dispatched (.message bytes) = [] ∧ e.session.TurnedAway (e.onMessage bytes).session := by
  have hready : e.session.isReady = true := by simp [Session.isReady, show e.session.state = .ready from hstate]
  cases e with
  | client c =>
    have hsession : ((client c).onMessage bytes).session = c.session.receiveOrFail bytes := by
      simp only [onMessage, session, ClientConnection.onMessage, show c.state = .ready from hstate]
    have hall : (client c).dispatched (.message bytes) = c.session.dispatched bytes := if_pos hready
    rw [hsession, hall]
    rcases Session.receiveOrFail_taken hstate bytes with ⟨key, packet, payloads, htaken⟩ | hturned
    · exact .inl ⟨key, packet, payloads, htaken, rfl⟩
    · exact .inr hturned
  | server c =>
    rcases ServerConnection.onMessage_taken hstate bytes with ⟨key, packet, payloads, _, htaken, hall⟩ | hturned
    · exact .inl ⟨key, packet, payloads, htaken, hall⟩
    · exact .inr hturned

omit [Transport T] in
theorem dispatched_of_not_ready {e : Endpoint T S} (h : e.state ≠ .ready) (call : Call) : e.dispatched call = [] := by
  have hready : e.session.isReady = false := by simpa [Session.isReady] using show e.session.state ≠ .ready from h
  cases call with
  | message bytes =>
    cases e with
    | client c => exact if_neg (by rw [show c.session.isReady = false from hready]; decide)
    | server c => exact if_neg (by rw [show c.session.isReady = false from hready]; decide)
  | _ => rfl

end Endpoint

namespace ClientConnection

variable {T S : Type} [Transport T] [Scheduler S] {c : ClientConnection T S}

omit [Transport T] in
theorem heard_adopt (c : ClientConnection T S) (handshake : Handshake) :
    Journal.heard (c.adopt handshake).session.journal = Journal.heard c.session.journal := by
  rcases c.session.activate_eq handshake.client handshake.server (rateWindowMs handshake.rateWindow) with
    ⟨_, _, hactivate⟩
  have hreports : ∀ dispatcher : Dispatcher, Journal.heard (dispatcher.drainPending handshake.server).2 = [] := by
    intro dispatcher
    simp [Dispatcher.drainPending, Dispatcher.report, Journal.heard, List.filterMap_flatMap]
  have hcalls : ∀ dispatcher : Dispatcher, Journal.heard dispatcher.fireReady.2 = [] := by
    intro dispatcher
    simp [Dispatcher.fireReady, Journal.heard]
  simp only [adopt, hactivate, Session.count, Session.note, Journal.heard_append, hreports, hcalls, List.append_nil,
    Journal.heard_counted]

/-- Nothing is heard of a first message. -/
theorem heard_onMessage_of_not_ready (h : c.state ≠ .ready) (bytes : Bytes) :
    Journal.heard (c.onMessage bytes).session.journal = Journal.heard c.session.journal := by
  have hcomplete : ∀ c : ClientConnection T S,
      Journal.heard (c.completeHandshake bytes).session.journal = Journal.heard c.session.journal := by
    intro c
    rcases c.stopExpiry_eq with ⟨scheduler, timers, hstop⟩
    unfold completeHandshake
    split
    · rw [heard_adopt, hstop]
    · refine (Session.unreceived_close _ _ _).heard.trans ?_
      rw [(c.stopExpiry.session.unreceived_count .handshakeFailed).heard, hstop]
  unfold onMessage
  split
  · rw [hcomplete, c.unreceived_awaitHandshake.heard]
  · exact hcomplete c
  · contradiction
  · rfl

end ClientConnection

namespace Endpoint

variable {T S : Type} [Transport T] [Scheduler S]

/-- The history is what the listeners heard: those of a packet's tag hear of it when it is dispatched, and
nothing else is heard. -/
theorem heard_call (e : Endpoint T S) (call : Call) :
    Journal.heard (e.call call).session.journal =
      Journal.heard e.session.journal ++ e.session.dispatcher.calls (e.dispatched call) := by
  have hnone : e.dispatched call = [] → Journal.heard (e.call call).session.journal = Journal.heard e.session.journal →
      Journal.heard (e.call call).session.journal =
        Journal.heard e.session.journal ++ e.session.dispatcher.calls (e.dispatched call) := by
    intro hdispatched hheard
    rw [hdispatched, hheard]
    exact (List.append_nil _).symm
  by_cases hquiet : call.Quiet
  · refine hnone ?_ (e.call_unreceived hquiet).heard
    cases call <;> first | rfl | exact hquiet.elim
  · cases call with
    | message bytes =>
      by_cases hstate : e.state = .ready
      · rcases onMessage_taken hstate bytes with ⟨key, packet, payloads, htaken, hall⟩ | ⟨hdispatched, hturned⟩
        · rw [hall]
          exact htaken.heard
        · exact hnone hdispatched hturned.heard
      · refine hnone (dispatched_of_not_ready hstate _) ?_
        cases e with
        | client c => exact ClientConnection.heard_onMessage_of_not_ready hstate bytes
        | server c =>
          have hready : c.session.isReady = false := by
            simpa [Session.isReady] using show c.session.state ≠ .ready from hstate
          simp only [Endpoint.call, onMessage, session, ServerConnection.onMessage, hready]
          rfl
    | timer kind =>
      cases kind with
      | rateReset =>
        refine hnone rfl (e.call_rateReset.heard.trans ?_)
        split <;> rfl
      | _ => exact absurd trivial hquiet
    | _ => exact absurd trivial hquiet

end Endpoint

end PacketProtocol
