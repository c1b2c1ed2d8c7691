import PacketProtocol.Proofs.Draining
import PacketProtocol.Proofs.Hostile
import PacketProtocol.Proofs.Messages
import PacketProtocol.Proofs.Metering
/-!
# Sends that fail

A send that fails has changed nothing, unless the transport refused the message. What is checked first leaves
no trace, and a queue can be full only for a payload that finds others waiting before it, which the limiter
does not count.
-/

namespace PacketProtocol

theorem Registry.Numbered.tagOf_of_keyOf {registry : Registry} (h : registry.Numbered) {tag : String} {key : UInt8}
    (hkey : registry.keyOf tag = .ok key) : registry.tagOf key = .ok tag := by
  obtain ⟨packet, hpacket, rfl⟩ := h.byKey_of_keyOf hkey
  rw [tagOf, hpacket]
  rfl

theorem Registry.keyOf_eq_error {registry : Registry} {tag : String} {error : ProtocolError}
    (h : registry.keyOf tag = .error error) : tag ∉ registry.tags ∧ error = .unknownTag tag := by
  unfold keyOf at h
  split at h
  · cases h
  · rename_i hnone
    cases h
    refine ⟨fun hmem => ?_, rfl⟩
    have hsome := contains_iff.2 hmem
    rw [contains, hnone] at hsome
    cases hsome

/-- The key has a cap that can be passed, and nothing is left of it in this window. -/
def RateLimiter.IsSpent (limiter : RateLimiter) (key : UInt8) : Prop :=
  limiter.Caps key ∧ limiter.spent key = limiter.cap key

theorem RateLimiter.isSpent_of_over {limiter : RateLimiter} {key : UInt8} (h : (limiter.hit key).1 = false) :
    (limiter.hit key).2.IsSpent key := by
  have hcaps : limiter.Caps key := by
    by_contra hfree
    rw [hit_free hfree] at h
    cases h
  have hover : limiter.cap key ≤ limiter.spent key := by
    refine Nat.le_of_not_lt fun hless => ?_
    rw [(hit_iff hcaps).2 hless] at h
    cases h
  refine ⟨caps_hit.2 hcaps, ?_⟩
  rw [spent_hit_over hcaps h, cap_hit]
  exact Nat.le_antisymm (Nat.min_le_right _ _) hover

namespace Session

variable {T S : Type} {s s' s'' : Session T S} {key : UInt8} {payload : Bytes}

/-! ## Sessions that hold as much -/

/-- The same waits for its window, behind the same counters. -/
structure Holding (s s' : Session T S) : Prop where
  state : s'.state = s.state
  outbound : s'.outbound.Alike s.outbound
  sendLimiter : s'.sendLimiter = s.sendLimiter
  deferred : s'.deferred = s.deferred

theorem Holding.refl (s : Session T S) : s.Holding s := ⟨rfl, rfl, rfl, rfl⟩

theorem Holding.trans (h : s.Holding s') (h' : s'.Holding s'') : s.Holding s'' :=
  ⟨h'.state.trans h.state, Eq.trans h'.outbound h.outbound, h'.sendLimiter.trans h.sendLimiter,
    h'.deferred.trans h.deferred⟩

theorem Aside.holding (h : s.Aside s') : s.Holding s' := ⟨h.state, h.outbound, h.sendLimiter, h.deferred⟩

section Emitting

variable [Transport T]

theorem holding_write (s : Session T S) (message : Bytes) : s.Holding (s.write message).2 := by
  simp only [write]
  split <;> exact ⟨rfl, rfl, rfl, rfl⟩

theorem holding_emit (s : Session T S) (key : UInt8) (payload : Bytes) : s.Holding (s.emit key payload).2 := by
  refine (s.aside_count .packetSent).holding.trans ?_
  simp only [emit]
  split
  · exact holding_write _ _
  · split
    · exact .refl _
    · exact ⟨rfl, rfl, rfl, rfl⟩
    · exact (aside_count _ .batchFlushed).holding.trans (holding_write _ _)

theorem holding_emitAll (released : List (UInt8 × Bytes)) (s : Session T S) : s.Holding (s.emitAll released).2 := by
  induction released generalizing s with
  | nil => exact .refl s
  | cons entry released ih =>
    obtain ⟨key, payload⟩ := entry
    have hemit := s.holding_emit key payload
    rw [emitAll]
    split
    · rename_i hresult
      rw [hresult] at hemit
      exact hemit.trans (ih _)
    · rename_i hresult
      rw [hresult] at hemit
      exact hemit

theorem holding_flushBatch (s : Session T S) (key : UInt8) : s.Holding (s.flushBatch key).2 := by
  unfold flushBatch
  split
  · exact .refl s
  · split
    · exact .refl s
    · rename_i batcher _
      have hbatcher : s.Holding ((s.setBatcher batcher).count .batchFlushed) := ⟨rfl, rfl, rfl, rfl⟩
      exact hbatcher.trans (holding_write _ _)

end Emitting

/-! ## Queues behind spent caps -/

/-- Counters are words, and nothing waits but in a ready session, behind a cap that is spent, and no more than there may
be. -/
structure Backed (s : Session T S) : Prop where
  numbered : s.outbound.Numbered
  words : s.sendLimiter.Words
  ordered : DeferredQueue.Ordered s.deferred.queues
  within : s.deferred.Within
  idle : s.state ≠ .ready → s.deferred.queues = []
  spent : ∀ key, s.deferred.waiting key ≠ [] → s.sendLimiter.IsSpent key

theorem backed_of_idle (hnum : s.outbound.Numbered) (hwords : s.sendLimiter.Words) (hidle : s.deferred.queues = []) :
    s.Backed := by
  have hnone : ∀ key, s.deferred.waiting key = [] := by
    intro key
    rw [DeferredQueue.waiting, hidle]
    rfl
  refine ⟨hnum, hwords, hidle ▸ List.Pairwise.nil, fun key _ => ?_, fun _ => hidle,
    fun key hwaits => absurd (hnone key) hwaits⟩
  rw [DeferredQueue.length, hnone]
  exact Nat.zero_le _

theorem Backed.holding (h : s.Backed) (hsame : s.Holding s') : s'.Backed := by
  obtain ⟨hstate, houtbound, hlimiter, hdeferred⟩ := hsame
  refine ⟨houtbound.numbered h.numbered, hlimiter ▸ h.words, hdeferred ▸ h.ordered, hdeferred ▸ h.within, fun hne => ?_,
    fun key hwaits => ?_⟩
  · rw [hdeferred]
    exact h.idle (hstate ▸ hne)
  · rw [hlimiter]
    exact h.spent key (hdeferred ▸ hwaits)

/-- A counter behind which nothing waits counts on, and the others stay as they are. -/
theorem Backed.counting (h : s.Backed) (key : UInt8) : Backed { s with sendLimiter := s.counting key } := by
  unfold Session.counting
  split
  · rename_i hnone
    refine ⟨h.numbered, h.words.hit key, h.ordered, h.within, h.idle, fun other hwaits => ?_⟩
    have hne : other ≠ key := by
      rintro rfl
      exact hwaits hnone
    obtain ⟨hcaps, hspent⟩ := h.spent other hwaits
    refine ⟨RateLimiter.caps_hit.2 hcaps, ?_⟩
    show (s.sendLimiter.hit key).2.spent other = (s.sendLimiter.hit key).2.cap other
    rw [RateLimiter.spent_hit_of_ne hne, RateLimiter.cap_hit, hspent]
  · exact h

/-- What does not pass finds its cap spent. -/
theorem Backed.spent_of_over (h : s.Backed)
    (hover : ¬(s.deferred.waiting key = [] ∧ (s.sendLimiter.hit key).1 = true)) : (s.counting key).IsSpent key := by
  unfold Session.counting
  split
  · rename_i hnone
    exact RateLimiter.isSpent_of_over (by simpa [hnone] using hover)
  · rename_i hwaits
    exact h.spent key hwaits

/-- A payload may wait behind a cap that is spent. -/
theorem Backed.deferPayload (h : s.Backed) (hready : s.state = .ready) (hspent : s.sendLimiter.IsSpent key)
    (payload : Bytes) : (s.deferPayload key payload).2.Backed := by
  unfold Session.deferPayload
  split
  · rename_i deferred hpush
    have hwaiting := DeferredQueue.waiting_push h.ordered hpush
    have hpushed := (DeferredQueue.push?_eq_some hpush).2
    refine ⟨h.numbered, h.words, ?_, h.within.push h.ordered hpush, fun hne => absurd hready hne,
      fun other hwaits => ?_⟩
    · show DeferredQueue.Ordered deferred.queues
      rw [hpushed]
      exact h.ordered.appendTo key payload
    · by_cases hne : other = key
      · subst hne
        exact hspent
      · refine h.spent other fun hnone => hwaits ?_
        show deferred.waiting other = []
        rw [hwaiting, hnone, ofKey_cons_of_ne (Ne.symm hne)]
        rfl
  · split <;> exact h

section Steps

variable [Transport T]

theorem Backed.sendEncoded (h : s.Backed) (key : UInt8) (payload : Bytes) : (s.sendEncoded key payload).2.Backed := by
  by_cases hready : s.state = .ready
  · rw [sendEncoded_eq hready]
    split
    · exact (h.counting key).holding (holding_emit _ key payload)
    · rename_i hover
      exact (h.counting key).deferPayload hready (h.spent_of_over hover) payload
  · rw [sendEncoded_of_not_ready hready]
    exact h

theorem Backed.send (h : s.Backed) (tag : String) (values : List Value) : (s.send tag values).2.Backed := by
  unfold Session.send
  split
  · exact h
  · exact h.sendEncoded _ _

omit [Transport T] in
/-- What a window leaves waiting waits because the cap is spent again. -/
theorem Backed.windowStart (h : s.Backed) : s.windowStart.Backed := by
  have hordered := h.ordered.drain s.sendLimiter.reset
  have hwords : s.windowStart.sendLimiter.Words := DeferredQueue.words_admitAll h.words.reset _
  refine ⟨h.numbered, hwords, hordered, h.within.drain h.ordered _, fun hne => ?_, fun key hwaits => ?_⟩
  · show (DeferredQueue.admitAll s.sendLimiter.reset s.deferred.queues).2.2 = []
    rw [h.idle hne]
    rfl
  · have hleft : (s.deferred.drainAdmitted s.sendLimiter.reset).2.1.waiting key ≠ [] := hwaits
    have hall := DeferredQueue.waiting_drain h.ordered s.sendLimiter.reset key
    obtain ⟨hcaps, -⟩ := h.spent key fun hnone => hleft (List.append_eq_nil_iff.1 (hall.symm.trans hnone)).2
    have hcap : (s.deferred.drainAdmitted s.sendLimiter.reset).2.2.cap key = s.sendLimiter.cap key :=
      (DeferredQueue.cap_admitAll s.deferred.queues s.sendLimiter.reset key).trans (RateLimiter.cap_reset _ _)
    rw [DeferredQueue.waiting_drain_drop hcaps h.ordered] at hleft
    have hmore : s.sendLimiter.cap key < (s.deferred.waiting key).length :=
      Nat.lt_of_not_le fun hle => hleft (List.drop_eq_nil_of_le hle)
    have hspent : (s.deferred.drainAdmitted s.sendLimiter.reset).2.2.spent key = s.sendLimiter.cap key := by
      rw [DeferredQueue.spent_drain hcaps h.ordered, DeferredQueue.ofKey_drain hcaps h.ordered, List.length_take,
        Nat.min_eq_left (Nat.le_of_lt hmore)]
    have hcaps' : (s.deferred.drainAdmitted s.sendLimiter.reset).2.2.Caps key := by rwa [RateLimiter.Caps, hcap]
    exact ⟨hcaps', hspent.trans hcap.symm⟩

theorem Backed.onTimer (h : s.Backed) (kind : TimerKind) : (s.onTimer kind).Backed := by
  by_cases hstate : s.state = .ready
  · cases kind with
    | rateReset =>
      have hreset : s.resetWindow.2.Backed := h.windowStart.holding (holding_emitAll _ _)
      obtain ⟨-, htick⟩ | ⟨error, -, htick⟩ := onTimer_rateReset hstate
      · rw [htick]
        exact hreset
      · rw [htick]
        exact hreset.holding (aside_report _ error).holding
    | batchFlush key =>
      have hready : s.isReady = true := by simp [isReady, hstate]
      have hflush := h.holding (s.holding_flushBatch key)
      simp only [Session.onTimer, hready, Bool.not_true, Bool.false_eq_true, if_false]
      split
      · exact hflush
      · exact hflush.holding (aside_report _ _).holding
    | handshakeExpiry => exact (onTimer_handshakeExpiry s).symm ▸ h
  · rw [onTimer_of_not_ready hstate]
    exact h

end Steps

section Acts

variable [Scheduler S]

theorem Backed.closedByPeer (h : s.Backed) (code : CloseCode) (reason : String) :
    (s.closedByPeer code reason).Backed := by
  unfold Session.closedByPeer
  split
  · exact h
  · exact backed_of_idle h.numbered h.words rfl

variable [Transport T]

theorem Backed.close (h : s.Backed) (code : CloseCode) (reason : String) : (s.close code reason).Backed := by
  unfold Session.close
  split
  · exact h
  · exact backed_of_idle h.numbered h.words rfl

theorem Backed.act (h : s.Backed) (hact : Act s s') : s'.Backed := by
  cases hact with
  | aside haside => exact h.holding haside.holding
  | await hstate => exact backed_of_idle h.numbered h.words (h.idle (by rw [hstate]; decide))
  | @adopt bytes handshake hstate hparse =>
    obtain ⟨_, _, hactivate⟩ := s.activate_eq handshake.client handshake.server (rateWindowMs handshake.rateWindow)
    rw [hactivate]
    exact backed_of_idle (Handshake.parse_numbered hparse).1 (h.words.negotiated _ _) (h.idle (by rw [hstate]; decide))
  | tick kind => exact h.onTimer kind
  | close code reason => exact h.close code reason

theorem Backed.did {call : Call} (h : s.Backed) (hdid : s.Did call s') : s'.Backed := by
  cases hdid with
  | send tag values => exact h.send tag values
  | sendEncoded key payload => exact h.sendEncoded key payload
  | onClose callback => exact h.holding ⟨rfl, rfl, rfl, rfl⟩
  | close code reason => exact h.close code reason
  | transportClosed code reason => exact h.closedByPeer code reason
  | acts _ hacts =>
    induction hacts with
    | refl => exact h
    | tail _ hact ih => exact ih.act hact

end Acts

/-! ## Sends that fail -/

/-- Why a send is declined before anything is counted: the connection is not open or no longer, there is no
such packet or it is disabled, it does not take these values, or as many of it wait as there may be. -/
inductive Declines (s : Session T S) (tag : String) (values : List Value) : ProtocolError → Prop
  | closed : s.state = .closed → Declines s tag values .connectionClosed
  | early : s.state = .connecting ∨ s.state = .awaitingSchema → Declines s tag values .notReady
  | unknown : s.state = .ready → tag ∉ s.outbound.tags → Declines s tag values (.unknownTag tag)
  | disabled {packet : Packet} : s.state = .ready → s.outbound.byTag tag = .ok packet → packet.enabled = false →
      Declines s tag values (.packetDisabled tag)
  | encoding {packet : Packet} {error : ProtocolError} : s.state = .ready → s.outbound.byTag tag = .ok packet →
      packet.enabled = true → packet.encode values = .error error → Declines s tag values error
  | full {key : UInt8} {payload : Bytes} : s.prepare tag values = .ok (key, payload) → 0 < s.deferred.maxPerKey →
      (s.deferred.waiting key).length = s.deferred.maxPerKey →
      s.sendLimiter.IsSpent key → Declines s tag values (.queueFull tag)

variable {tag : String} {values : List Value} {error : ProtocolError}

theorem ensureReady_eq_ok : s.ensureReady = .ok () ↔ s.state = .ready := by
  unfold ensureReady
  cases s.state <;> simp

theorem state_of_prepare {entry : UInt8 × Bytes} (h : s.prepare tag values = .ok entry) : s.state = .ready := by
  obtain ⟨⟨⟩, hready, -⟩ := Outcome.bind_eq_ok.1 h
  exact ensureReady_eq_ok.1 hready

theorem declines_of_ensureReady (h : s.ensureReady = .error error) : s.Declines tag values error := by
  unfold ensureReady at h
  cases hstate : s.state with
  | ready =>
    rw [hstate] at h
    cases h
  | closed =>
    rw [hstate] at h
    cases h
    exact .closed hstate
  | connecting =>
    rw [hstate] at h
    cases h
    exact .early (.inl hstate)
  | awaitingSchema =>
    rw [hstate] at h
    cases h
    exact .early (.inr hstate)

theorem prepare_eq_error (hnum : s.outbound.Numbered) (h : s.prepare tag values = .error error) :
    s.Declines tag values error := by
  unfold prepare at h
  obtain hensure | ⟨⟨⟩, hensure, h⟩ := Outcome.bind_eq_error.1 h
  · exact declines_of_ensureReady hensure
  have hready := ensureReady_eq_ok.1 hensure
  obtain hunknown | ⟨key, hkey, h⟩ := Outcome.bind_eq_error.1 h
  · obtain ⟨hmem, rfl⟩ := Registry.keyOf_eq_error hunknown
    exact .unknown hready hmem
  obtain ⟨packet, hpacket, -⟩ := hnum.byKey_of_keyOf hkey
  have htag : s.outbound.byTag tag = .ok packet := Outcome.bind_eq_ok.2 ⟨key, hkey, hpacket⟩
  rw [hpacket] at h
  obtain h | ⟨_, ⟨⟩, h⟩ := Outcome.bind_eq_error.1 h
  · cases h
  split at h
  · rename_i hdisabled
    cases h
    exact .disabled hready htag (by simpa using hdisabled)
  · rename_i henabled
    obtain hencode | ⟨_, _, h⟩ := Outcome.bind_eq_error.1 h
    · exact .encoding hready htag (by simpa using henabled) hencode
    · cases h

section Failing

variable [Transport T]

/-- The transport refuses a message, or a batched payload is so long that its length has no varint. -/
theorem emit_eq_error (h : s.emit key payload = (.error error, s')) :
    (∃ message, s.message? key payload = some message ∧
      Transport.send s.transport message = (.error error, s'.transport)) ∨
    ((s.batcher? key).isSome ∧ Varint.bound ≤ payload.length ∧
      error = .encode (.varintRange payload.length Varint.bound) ∧ s' = s.count .packetSent) := by
  have hemits := s.emit_emits key payload
  rw [h] at hemits
  cases hemits with
  | refused counts hmessage hsend => exact .inl ⟨_, hmessage, hsend⟩
  | long hbatcher hlong => exact .inr ⟨by simp [hbatcher], hlong, rfl, rfl⟩

omit [Transport T] in
/-- A queue that takes no more is as long as it may be. -/
theorem Backed.deferPayload_eq_error (h : s.Backed) (hkey : s.outbound.keyOf tag = .ok key)
    (hfail : s.deferPayload key payload = (.error error, s')) :
    s' = s ∧ error = .queueFull tag ∧ 0 < s.deferred.maxPerKey ∧
      (s.deferred.waiting key).length = s.deferred.maxPerKey := by
  unfold Session.deferPayload at hfail
  split at hfail
  · cases hfail
  · rename_i hpush
    rw [h.numbered.tagOf_of_keyOf hkey] at hfail
    cases hfail
    unfold DeferredQueue.push? at hpush
    split at hpush
    · rename_i hfull
      exact ⟨rfl, rfl, hfull.1, Nat.le_antisymm (h.within key hfull.1) hfull.2⟩
    · cases hpush

/-- Only those behind which others wait find a queue full, and they count nothing. -/
theorem Backed.send_eq_error (h : s.Backed) (hsend : s.send tag values = (.error error, s')) :
    (s' = s ∧ s.Declines tag values error) ∨
    ∃ key payload, s.prepare tag values = .ok (key, payload) ∧ s.deferred.waiting key = [] ∧
      (s.sendLimiter.hit key).1 = true ∧
      ((∃ message, s.message? key payload = some message ∧
        Transport.send s.transport message = (.error error, s'.transport)) ∨
      ((s.batcher? key).isSome ∧ Varint.bound ≤ payload.length ∧
        error = .encode (.varintRange payload.length Varint.bound) ∧
        s' = { s with
          sendLimiter := (s.sendLimiter.hit key).2, journal := s.journal ++ [.counted .packetSent] })) := by
  unfold Session.send at hsend
  split at hsend
  · rename_i hprepare
    cases hsend
    exact .inl ⟨rfl, prepare_eq_error h.numbered hprepare⟩
  rename_i key payload hprepare
  obtain ⟨hkey, -⟩ := prepare_eq_ok hprepare
  rw [sendEncoded_eq (state_of_prepare hprepare)] at hsend
  split at hsend
  · rename_i hpass
    rw [show s.counting key = (s.sendLimiter.hit key).2 from if_pos hpass.1] at hsend
    exact .inr ⟨key, payload, hprepare, hpass.1, hpass.2, emit_eq_error hsend⟩
  · obtain ⟨hsame, herror, hpos, hlength⟩ := (h.counting key).deferPayload_eq_error hkey hsend
    have hfull : (s.deferred.waiting key).length = s.deferred.maxPerKey := hlength
    -- where nothing waits there is room, so the counter has not moved
    have hwaits : s.deferred.waiting key ≠ [] := fun hnone => by
      rw [hnone] at hfull
      exact Nat.ne_of_lt hpos hfull
    rw [show s.counting key = s.sendLimiter from if_neg hwaits] at hsame
    exact .inl ⟨hsame, herror ▸ .full hprepare hpos hfull (h.spent key hwaits)⟩

end Failing

end Session

/-! ## Runs of calls -/

namespace Endpoint

variable {T S : Type} [Transport T] [Scheduler S] {e : Endpoint T S}

theorem New.backed {transport : T} (h : e.New transport) : e.session.Backed := by
  cases h with
  | client scheduler config => exact Session.backed_of_idle Registry.empty_numbered RateLimiter.words_unlimited rfl
  | server scheduler hbuilt haccept =>
    obtain ⟨_, _, _, _, rfl⟩ := ServerConnection.serving_eq haccept
    exact Session.backed_of_idle hbuilt.numbered.2 (RateLimiter.words_unlimited.negotiated _ _) rfl

theorem backed_run (h : e.session.Backed) (calls : List Call) : (e.run calls).session.Backed := by
  induction calls generalizing e with
  | nil => exact h
  | cons call calls ih => exact ih (h.did (e.call_did call))

/-- What waits on a connection waits under keys that increase, and what it counts are words, as a drain needs them. -/
theorem run_drainable {transport : T} (hnew : e.New transport) (calls : List Call) :
    DeferredQueue.Ordered (e.run calls).session.deferred.queues ∧ (e.run calls).session.sendLimiter.reset.Words := by
  have hbacked := backed_run hnew.backed calls
  exact ⟨hbacked.ordered, hbacked.words.reset⟩

/-- Whatever was called on a connection before, a send that fails leaves it as it was, with its counters,
queues, batches, transport and metrics, unless its payload passed the limit and the transport refused the
message. A batched payload of 2^49 octets, more than there is memory for, would be counted before its length
is looked at. -/
theorem run_send_fails {transport : T} (hnew : e.New transport) (calls : List Call) {tag : String}
    {values : List Value} {error : ProtocolError} {failed : Endpoint T S}
    (hsend : (e.run calls).send tag values = (.error error, failed)) :
    let s := (e.run calls).session
    (failed = e.run calls ∧ s.Declines tag values error) ∨
    ∃ key payload, s.prepare tag values = .ok (key, payload) ∧ s.deferred.waiting key = [] ∧
      (s.sendLimiter.hit key).1 = true ∧
      ((∃ message, s.message? key payload = some message ∧
        Transport.send s.transport message = (.error error, failed.session.transport)) ∨
      ((s.batcher? key).isSome ∧ Varint.bound ≤ payload.length ∧
        error = .encode (.varintRange payload.length Varint.bound) ∧
        failed = (e.run calls).withSession
          { s with
            sendLimiter := (s.sendLimiter.hit key).2, journal := s.journal ++ [.counted .packetSent] })) := by
  have hbacked := backed_run hnew.backed calls
  generalize e.run calls = after at hsend hbacked ⊢
  have hfailed : after.withSession (after.session.send tag values).2 = failed := congrArg Prod.snd hsend
  have hfail : after.session.send tag values = (.error error, (after.session.send tag values).2) :=
    Prod.ext (congrArg Prod.fst hsend :) rfl
  subst hfailed
  rw [session_withSession]
  obtain ⟨hsame, hdeclines⟩ | ⟨key, payload, hprepare, hnone, hpass, hrest⟩ := hbacked.send_eq_error hfail
  · refine .inl ⟨?_, hdeclines⟩
    rw [hsame]
    cases after <;> rfl
  · refine .inr ⟨key, payload, hprepare, hnone, hpass, hrest.imp_right ?_⟩
    rintro ⟨hsome, hlong, herror, hsame⟩
    exact ⟨hsome, hlong, herror, congrArg after.withSession hsame⟩

namespace Mover

/-- Holds back one payload of each key. -/
def client : Endpoint Outbox Clock := .client (.start {} {} { maxDeferred := 1 })

/-- Clients may move once a second. -/
def greeting : Bytes := [84, 87, 73, 82, 1, 137, 1, 4, 4, 0, 0, 1, 4, 109, 111, 118, 101, 0, 0, 1]

/-- One move that goes out and one that waits. -/
def moves : List Call := [.message greeting, .send "move" [.int 1], .send "move" [.int 2]]

end Mover

/-- The third move finds the queue full. -/
theorem run_send_fails_mover :
    Mover.client.New {} ∧ (Mover.client.run Mover.moves).session.deferred.waiting 1 = [[1, 2]] ∧
      (Mover.client.run Mover.moves).send "move" [.int 3] =
        (.error (.queueFull "move"), Mover.client.run Mover.moves) := by
  have hnew : Mover.client.New {} := .client _ _
  have hwaiting : (Mover.client.run Mover.moves).session.deferred.waiting 1 = [[1, 2]] := by cbv
  have hresult : ((Mover.client.run Mover.moves).send "move" [.int 3]).1 = .error (.queueFull "move") := by cbv
  have hsend : (Mover.client.run Mover.moves).send "move" [.int 3] =
      (.error (.queueFull "move"), ((Mover.client.run Mover.moves).send "move" [.int 3]).2) := Prod.ext hresult rfl
  obtain ⟨hsame, -⟩ | ⟨_, _, -, -, -, ⟨_, -, hrefused⟩ | ⟨-, -, hlong, -⟩⟩ :=
    run_send_fails hnew Mover.moves hsend
  · rw [hsame] at hsend
    exact ⟨hnew, hwaiting, hsend⟩
  · -- an outbox refuses nothing
    cases hrefused
  · cases hlong

end Endpoint

end PacketProtocol
