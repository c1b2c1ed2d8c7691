import PacketProtocol.Proofs.Emission
import PacketProtocol.Proofs.Lifecycle
/-!
# Whatever is accepted leaves or waits

At every moment of a ready connection the payloads that were written, those in a batch and those held
back by the rate limit are together the ones that sends accepted, in the order of their acceptance
unless a full batch was passed.
-/

namespace PacketProtocol

theorem Recorded.inner_sendAll {T : Type} [Transport T] (recorded : Recorded T) (messages : List Bytes) :
    (Transport.sendAll recorded messages).inner = Transport.sendAll recorded.inner messages := by
  induction messages generalizing recorded with
  | nil => rfl
  | cons message messages ih => exact ih _

theorem Recorded.accepts {T : Type} [Transport T] {recorded : Recorded T} (h : Transport.Accepts recorded.inner) :
    Transport.Accepts recorded := by
  intro messages message
  show (Transport.send (Transport.sendAll recorded messages).inner message).1 = _
  rw [inner_sendAll]
  exact h messages message

/-! ## What is accepted is kept -/

namespace Session

variable {T S : Type} {registry : Registry} {s s' : Session (Recorded T) S} {key : UInt8} {payload : Bytes}

/-- Since `start` messages were written. Of each packet, what they carry, what waits in a batch and
what is held are the payloads that were accepted. -/
def Kept (registry : Registry) (start : List Outgoing) (accepted : List (UInt8 × Bytes)) (held : UInt8 → List Bytes)
    (s : Session (Recorded T) S) : Prop :=
  ∃ messages : List Bytes, s.transport.log = start ++ messages.map .message ∧
    ∀ key packet, registry.byKey key = .ok packet →
      packet.Balanced (messages.flatMap (registry.carried key)) (s.waiting key ++ held key) (ofKey key accepted)

variable {start : List Outgoing} {accepted released : List (UInt8 × Bytes)} {held held' : UInt8 → List Bytes}

/-- Only the transport and the batchers matter for it. -/
theorem Kept.of_batchers (h : s.Kept registry start accepted held) (htransport : s'.transport = s.transport)
    (hbatchers : s'.batchers = s.batchers) : s'.Kept registry start accepted held := by
  obtain ⟨messages, hlog, hbalanced⟩ := h
  refine ⟨messages, htransport ▸ hlog, fun key packet hkey => ?_⟩
  have hwaiting : s'.waiting key = s.waiting key := by rw [waiting, waiting, batcher?, batcher?, hbatchers]
  exact hwaiting ▸ hbalanced key packet hkey

/-- A payload that is accepted is held behind all others of its key. -/
theorem Kept.accept (h : s.Kept registry start accepted held) (key : UInt8) (payload : Bytes) :
    s.Kept registry start (accepted ++ [(key, payload)]) fun other => held other ++ ofKey other [(key, payload)] := by
  obtain ⟨messages, hlog, hbalanced⟩ := h
  refine ⟨messages, hlog, fun other packet hother => ?_⟩
  have hbefore := hbalanced other packet hother
  rw [ofKey_append, ← List.append_assoc]
  by_cases hne : key = other
  · subst hne
    rw [ofKey_cons_self]
    exact hbefore.wait payload
  · rw [ofKey_cons_of_ne hne, ofKey_nil, List.append_nil, List.append_nil]
    exact hbefore

/-- What is held was accepted. -/
theorem Kept.held_accepted (h : s.Kept registry start accepted held) {packet : Packet}
    (hkey : registry.byKey key = .ok packet) (hmem : payload ∈ held key) : (key, payload) ∈ accepted := by
  obtain ⟨messages, -, hbalanced⟩ := h
  refine mem_of_mem_ofKey ((hbalanced key packet hkey).1.subset ?_)
  exact List.mem_append_right _ (List.mem_append_right _ hmem)

variable [Transport T]

/-- The payload held longest under a key is emitted. -/
theorem Emitted.kept (hbatching : s.Batching registry) (h : s.Emitted registry key payload (.ok ()) s')
    (hkept : s.Kept registry start accepted fun other => ofKey other [(key, payload)] ++ held other) :
    s'.Kept registry start accepted held := by
  obtain ⟨messages, hlog, hbalanced⟩ := hkept
  obtain ⟨sent, htransport, hothers, hplace⟩ := h.effect hbatching
  refine ⟨messages ++ sent, ?_, fun other packet hother => ?_⟩
  · rw [htransport, Recorded.log_sendAll, hlog, List.map_append, List.append_assoc]
  have hbefore := hbalanced other packet hother
  dsimp only at hbefore
  rw [List.flatMap_append]
  by_cases hne : other = key
  · subst hne
    rw [ofKey_cons_self, ofKey_nil, List.singleton_append] at hbefore
    obtain ⟨hcarried, hwaiting, hnone⟩ | ⟨rfl, hwaiting⟩ := hplace packet hother
    · rw [hcarried, hwaiting]
      exact hbefore.overtake hnone
    · rw [hwaiting, List.flatMap_nil, List.append_nil, List.append_assoc]
      exact hbefore
  · obtain ⟨hwaiting, hcarried⟩ := hothers other hne
    rw [ofKey_cons_of_ne (Ne.symm hne), ofKey_nil, List.nil_append] at hbefore
    rw [hcarried, hwaiting, List.append_nil]
    exact hbefore

/-! ## Timers -/

/-- No short payload is lost when held ones are released. -/
theorem Kept.emitAll (hflow : s.Flowing registry) (hshort : ∀ entry ∈ released, registry.Short entry)
    (h : s.Kept registry start accepted fun key => ofKey key released ++ held key) :
    (s.emitAll released).2.Kept registry start accepted held := by
  induction released generalizing s with
  | nil => exact h
  | cons entry released ih =>
    obtain ⟨key, payload⟩ := entry
    obtain ⟨hfirst, hrest⟩ := List.forall_mem_cons.1 hshort
    have hemitted := emit_emitted hflow.accepts hflow.batching key payload
    have hsplit : ∀ other, ofKey other ((key, payload) :: released) ++ held other =
        ofKey other [(key, payload)] ++ (ofKey other released ++ held other) := by
      intro other
      rw [← List.append_assoc, ← ofKey_append]
      rfl
    simp only [hsplit] at h
    rw [Session.emitAll]
    split
    · rename_i s₁ hemit
      rw [hemit] at hemitted
      exact ih (hemitted.flowing hflow) hrest (hemitted.kept hflow.batching h)
    · rename_i e s₁ hemit
      rw [hemit] at hemitted
      -- only a payload that is too long for its batch fails
      cases hemitted with
      | long batcher error journal hbatcher hlong =>
        obtain ⟨packet, hkey, hbatched, -⟩ := hflow.batching.serves key batcher hbatcher
        exact absurd (hfirst packet hkey hbatched) (Nat.not_lt.2 hlong)

theorem Kept.resetWindow (hflow : s.Flowing registry) (hshort : ∀ entry ∈ accepted, registry.Short entry)
    (h : s.Kept registry start accepted s.deferred.waiting) :
    s.resetWindow.2.Kept registry start accepted s.resetWindow.2.deferred.waiting := by
  have hdrain := fun key => DeferredQueue.waiting_drain hflow.ordered s.sendLimiter.reset key
  rw [resetWindow_eq, emitAll_deferred hflow.windowStart]
  refine Kept.emitAll hflow.windowStart (fun entry hentry packet hkey hbatched => ?_) ?_
  · -- what is released was held, so it was accepted
    obtain ⟨key, payload⟩ := entry
    have hheld : payload ∈ s.deferred.waiting key := by
      rw [hdrain key]
      refine List.mem_append_left _ (List.mem_filterMap.2 ⟨_, hentry, if_pos rfl⟩)
    exact hshort _ (h.held_accepted hkey hheld) packet hkey hbatched
  · have hsame : s.deferred.waiting = fun key =>
        ofKey key (s.deferred.drainAdmitted s.sendLimiter.reset).1 ++ s.windowStart.deferred.waiting key :=
      funext hdrain
    rw [hsame] at h
    exact h.of_batchers rfl rfl

theorem Flushed.kept (hflow : s.Flowing registry) (h : s.Flushed key s')
    (hkept : s.Kept registry start accepted held) : s'.Kept registry start accepted held := by
  obtain ⟨messages, hlog, hbalanced⟩ := hkept
  obtain ⟨sent, htransport, hplace⟩ := h.effect hflow.batching
  refine ⟨messages ++ sent, ?_, fun other packet hother => ?_⟩
  · rw [htransport, Recorded.log_sendAll, hlog, List.map_append, List.append_assoc]
  have hbefore := hbalanced other packet hother
  rw [List.flatMap_append]
  obtain ⟨hcarried, hwaiting⟩ | ⟨hcarried, hwaiting⟩ := hplace other packet hother
  · rw [hcarried, hwaiting, List.append_nil]
    exact hbefore
  · rw [hcarried, hwaiting]
    exact hbefore.leave

theorem Kept.onTimer (hflow : s.Flowing registry) (hshort : ∀ entry ∈ accepted, registry.Short entry)
    (h : s.Kept registry start accepted s.deferred.waiting) (kind : TimerKind) :
    (s.onTimer kind).Kept registry start accepted (s.onTimer kind).deferred.waiting := by
  cases kind with
  | rateReset =>
    have hreset := h.resetWindow hflow hshort
    obtain ⟨-, htick⟩ | ⟨error, -, htick⟩ := onTimer_rateReset hflow.state
    · rw [htick]
      exact hreset
    · rw [htick]
      exact hreset.of_batchers rfl rfl
  | batchFlush key =>
    have hflushed := onTimer_batchFlush hflow key
    rw [hflushed.same.1]
    exact hflushed.kept hflow h
  | handshakeExpiry =>
    rw [onTimer_handshakeExpiry]
    exact h

/-! ## Sends -/

/-- What a send accepts is kept, and what it refuses changes nothing that is. -/
theorem Offered.kept {result : Result Unit} (hflow : s.Flowing registry)
    (h : s.Offered registry key payload result s') (hkept : s.Kept registry start accepted s.deferred.waiting) :
    s'.Kept registry start (accepted ++ if result.isOk then [(key, payload)] else []) s'.deferred.waiting := by
  have haccepted := hkept.accept key payload
  cases h with
  | refused error limiter _ => exact (List.append_nil accepted).symm ▸ hkept.of_batchers rfl rfl
  | emitted limiter _ hempty hemitted =>
    have hbatching := (hflow.of_limiter limiter).batching
    rw [hemitted.same.2.2.1]
    cases result with
    | ok _ =>
      refine hemitted.kept hbatching ?_
      have hcommute : (fun other => s.deferred.waiting other ++ ofKey other [(key, payload)]) =
          fun other => ofKey other [(key, payload)] ++ s.deferred.waiting other := by
        funext other
        by_cases hne : key = other
        · subst hne
          rw [hempty, List.append_nil, List.nil_append]
        · rw [ofKey_cons_of_ne hne, ofKey_nil, List.append_nil, List.nil_append]
      exact hcommute ▸ haccepted.of_batchers rfl rfl
    | error e =>
      cases hemitted
      exact (List.append_nil accepted).symm ▸ hkept.of_batchers rfl rfl
  | held deferred limiter journal _ hpush =>
    have hpushed : (fun other => s.deferred.waiting other ++ ofKey other [(key, payload)]) = deferred.waiting :=
      funext fun other => (DeferredQueue.waiting_push hflow.ordered hpush other).symm
    exact hpushed ▸ haccepted.of_batchers rfl rfl

/-! ## The invariant of a run -/

variable [Scheduler S] {maxDeferred : Nat}

/-- Where a connection stands with its payloads: nothing was accepted yet, or all that was accepted is
kept as long as no payload was too long, or it closed. -/
inductive Stage (start : List Outgoing) (maxDeferred : Nat) (accepted : List (UInt8 × Bytes))
    (s : Session (Recorded T) S) : Prop
  | early : s.state = .connecting ∨ s.state = .awaitingSchema → Transport.Accepts s.transport → s.batchers = [] →
      s.deferred = .empty maxDeferred → s.transport.log = start → accepted = [] → Stage start maxDeferred accepted s
  | flowing (registry : Registry) : s.Flowing registry → s.deferred.maxPerKey = maxDeferred →
      ((∀ entry ∈ accepted, registry.Short entry) → s.Kept registry start accepted s.deferred.waiting) →
      Stage start maxDeferred accepted s
  | closed : s.state = .closed → Stage start maxDeferred accepted s

omit [Scheduler S] in
theorem stage_fresh (hstate : s.state = .ready) (haccepts : Transport.Accepts s.transport) (hnum : s.outbound.Numbered)
    (hbatchers : s.batchers = s.outbound.entries.filterMap fun entry => entry.2.batcher? entry.1)
    (hdeferred : s.deferred = .empty maxDeferred) (hlog : s.transport.log = start) : s.Stage start maxDeferred [] := by
  have hwaiting : s.deferred.waiting = fun _ => [] := by rw [hdeferred]; rfl
  refine .flowing s.outbound ⟨hstate, haccepts, rfl, batching_fresh hnum hbatchers, ?_, ?_⟩ (by rw [hdeferred]; rfl)
    fun _ => ⟨[], hlog.trans (List.append_nil _).symm, fun key packet _ => ?_⟩
  · rw [hdeferred]
    exact List.Pairwise.nil
  · rw [hdeferred]
    exact fun _ _ => Nat.zero_le _
  · rw [waiting_fresh hbatchers, hwaiting]
    exact ⟨.refl _, fun _ => rfl⟩

omit [Scheduler S] in
theorem Stage.steady (h : s.Stage start maxDeferred accepted) (hsteady : s.Steady s') :
    s'.Stage start maxDeferred accepted := by
  cases h with
  | early hstate haccepts hbatchers hdeferred hlog hnone =>
    exact .early (hsteady.state ▸ hstate) (hsteady.transport ▸ haccepts) (hsteady.batchers.trans hbatchers)
      (hsteady.deferred.trans hdeferred) (hsteady.transport ▸ hlog) hnone
  | flowing registry hflow hmax hkept =>
    refine .flowing registry (hflow.steady hsteady) (hsteady.deferred ▸ hmax) fun hshort => ?_
    exact hsteady.deferred ▸ (hkept hshort).of_batchers hsteady.transport hsteady.batchers
  | closed hstate => exact .closed (hsteady.state.trans hstate)

theorem Stage.act (h : s.Stage start maxDeferred accepted) (hact : Act s s') :
    s'.Stage start maxDeferred accepted := by
  cases hact with
  | aside haside => exact h.steady haside.steady
  | await hstate =>
    cases h with
    | early _ haccepts hbatchers hdeferred hlog hnone =>
      exact .early (.inr rfl) haccepts hbatchers hdeferred hlog hnone
    | flowing registry hflow _ _ => rw [hflow.state] at hstate; cases hstate
    | closed hclosed => rw [hclosed] at hstate; cases hstate
  | @adopt bytes handshake hstate hparse =>
    obtain ⟨_, _, hactivate⟩ := s.activate_eq handshake.client handshake.server (rateWindowMs handshake.rateWindow)
    rw [hactivate]
    cases h with
    | early _ haccepts hbatchers hdeferred hlog hnone =>
      subst hnone
      exact stage_fresh rfl haccepts (Handshake.parse_numbered hparse).1 (by rw [hbatchers]; rfl) hdeferred hlog
    | flowing registry hflow _ _ => rw [hflow.state] at hstate; cases hstate
    | closed hclosed => rw [hclosed] at hstate; cases hstate
  | tick kind =>
    cases h with
    | early hstate haccepts hbatchers hdeferred hlog hnone =>
      rw [onTimer_of_not_ready fun hready => by rw [hready] at hstate; simp at hstate]
      exact .early hstate haccepts hbatchers hdeferred hlog hnone
    | flowing registry hflow hmax hkept =>
      exact .flowing registry (hflow.onTimer kind) ((maxPerKey_onTimer hflow kind).trans hmax)
        fun hshort => (hkept hshort).onTimer hflow hshort kind
    | closed hclosed =>
      rw [onTimer_of_not_ready (by rw [hclosed]; decide)]
      exact .closed hclosed
  | close code reason => exact .closed (s.close_state code reason)

theorem Stage.acts (h : s.Stage start maxDeferred accepted) (hacts : Acts s s') :
    s'.Stage start maxDeferred accepted := by
  induction hacts with
  | refl => exact h
  | tail _ hact ih => exact ih.act hact

omit [Scheduler S] in
theorem Stage.sendEncoded (h : s.Stage start maxDeferred accepted) (key : UInt8) (payload : Bytes) :
    (s.sendEncoded key payload).2.Stage start maxDeferred
      (accepted ++ if (s.sendEncoded key payload).1.isOk then [(key, payload)] else []) := by
  have hrefused : ∀ error, s.ensureReady = .error error → s.sendEncoded key payload = (.error error, s) := by
    intro error hready
    simp only [Session.sendEncoded, hready]
  cases h with
  | early hstate haccepts hbatchers hdeferred hlog hnone =>
    rw [hrefused .notReady (by rcases hstate with hs | hs <;> rw [ensureReady, hs])]
    exact .early hstate haccepts hbatchers hdeferred hlog (by rw [hnone]; rfl)
  | flowing registry hflow hmax hkept =>
    have hoffered := sendEncoded_offered hflow key payload
    refine .flowing registry (hoffered.flowing hflow) (hoffered.maxPerKey.trans hmax) fun hshort => ?_
    exact hoffered.kept hflow (hkept fun entry hentry => hshort entry (List.mem_append_left _ hentry))
  | closed hclosed =>
    rw [hrefused .connectionClosed (by rw [ensureReady, hclosed])]
    exact .closed hclosed

end Session

/-! ## Runs of calls -/

namespace Endpoint

variable {T S : Type} [Transport T] [Scheduler S]

/-- The payload that a call gets accepted, with its key. -/
def acceptedBy (e : Endpoint T S) : Call → List (UInt8 × Bytes)
  | .send tag values =>
    match e.session.prepare tag values with
    | .error _ => []
    | .ok entry => if (e.send tag values).1.isOk then [entry] else []
  | .sendEncoded key payload => if (e.sendEncoded key payload).1.isOk then [(key, payload)] else []
  | _ => []

/-- The payloads that calls get accepted, in order. -/
def accepted (e : Endpoint T S) : List Call → List (UInt8 × Bytes)
  | [] => []
  | call :: calls => e.acceptedBy call ++ accepted (e.call call) calls

variable {e : Endpoint (Recorded T) S} {start : List Outgoing} {maxDeferred : Nat} {payloads : List (UInt8 × Bytes)}

theorem stage_call (h : e.session.Stage start maxDeferred payloads) (call : Call) :
    (e.call call).session.Stage start maxDeferred (payloads ++ e.acceptedBy call) := by
  have hdid := e.call_did call
  generalize (e.call call).session = s at hdid
  cases hdid with
  | send tag values =>
    cases hprepare : e.session.prepare tag values with
    | error error =>
      have hsend : e.session.send tag values = (.error error, e.session) := by simp only [Session.send, hprepare]
      simp only [acceptedBy, hprepare, hsend]
      exact (List.append_nil payloads).symm ▸ h
    | ok entry =>
      obtain ⟨key, payload⟩ := entry
      have hsend : e.session.send tag values = e.session.sendEncoded key payload := by
        simp only [Session.send, hprepare]
      simp only [acceptedBy, hprepare, Endpoint.send, hsend]
      exact h.sendEncoded key payload
  | sendEncoded key payload => exact h.sendEncoded key payload
  | onClose callback => exact (List.append_nil payloads).symm ▸ h.steady ⟨rfl, rfl, rfl, rfl, rfl⟩
  | close code reason => exact .closed (Session.close_state _ _ _)
  | transportClosed code reason => exact .closed (Session.closedByPeer_state _ _ _)
  | acts hplain hacts =>
    have hnone : e.acceptedBy call = [] := by cases call <;> first | rfl | cases hplain
    rw [hnone, List.append_nil]
    exact h.acts hacts

theorem stage_run (h : e.session.Stage start maxDeferred payloads) (calls : List Call) :
    (e.run calls).session.Stage start maxDeferred (payloads ++ e.accepted calls) := by
  induction calls generalizing e payloads with
  | nil => exact (List.append_nil payloads).symm ▸ h
  | cons call calls ih =>
    rw [accepted, ← List.append_assoc]
    exact ih (stage_call h call)

theorem New.stage {transport : T} (haccepts : Transport.Accepts transport) (h : e.New ⟨transport, []⟩) :
    e.session.Stage e.session.transport.log e.session.deferred.maxPerKey [] := by
  have hrecorded : Transport.Accepts (⟨transport, []⟩ : Recorded T) := Recorded.accepts haccepts
  cases h with
  | client scheduler config => exact .early (.inl rfl) hrecorded rfl rfl rfl rfl
  | @server definition connection scheduler hbuilt haccept =>
    obtain ⟨_, _, _, counts, rfl⟩ := ServerConnection.serving_eq haccept
    exact Session.stage_fresh rfl (hrecorded.sendAll _) hbuilt.numbered.2 rfl rfl rfl

/-- What a ready connection was given to send is what it wrote since it was new, what waits in its
batches and what the rate limit holds back: as a whole, and in order where no full batch is passed.
No more is held back than may be. No batch can hold a payload whose length has no varint. -/
theorem run_conserves {transport : T} (haccepts : Transport.Accepts transport) (hnew : e.New ⟨transport, []⟩)
    (calls : List Call) (hready : (e.run calls).state = .ready)
    (hshort : ∀ entry ∈ e.accepted calls, (e.run calls).session.outbound.Short entry) :
    let s := (e.run calls).session
    ∃ messages : List Bytes, s.transport.log = e.session.transport.log ++ messages.map .message ∧
      (∀ key packet, s.outbound.byKey key = .ok packet →
        let kept := messages.flatMap (s.outbound.carried key) ++ s.waiting key ++ s.deferred.waiting key
        let given := ofKey key (e.accepted calls)
        kept.Perm given ∧ (packet.schema.isBatched = false ∨ packet.schema.maxBatch = 0 → kept = given)) ∧
      s.deferred.maxPerKey = e.session.deferred.maxPerKey ∧
      ∀ key, 0 < s.deferred.maxPerKey → s.deferredCount key ≤ s.deferred.maxPerKey := by
  intro s
  have hstate : s.state = .ready := hready
  cases stage_run (hnew.stage haccepts) calls with
  | early hearly _ _ _ _ _ =>
    have hearly' : s.state = .connecting ∨ s.state = .awaitingSchema := hearly
    simp [hstate] at hearly'
  | closed hclosed =>
    have hclosed' : s.state = .closed := hclosed
    rw [hstate] at hclosed'
    cases hclosed'
  | flowing registry hflow hmax hkept =>
    rw [List.nil_append] at hkept
    obtain ⟨messages, hlog, hbalanced⟩ := hkept fun entry hentry packet hkey hbatched => by
      obtain ⟨packet', hkey', hschema⟩ := hflow.alike.symm.schema hkey
      exact hshort entry hentry packet' hkey' (hschema ▸ hbatched)
    refine ⟨messages, hlog, fun key packet hkey => ?_, hmax, hflow.within⟩
    obtain ⟨packet', hkey', hschema⟩ := hflow.alike.schema hkey
    have hcarried : s.outbound.carried key = registry.carried key := funext (hflow.alike.carried hkey)
    obtain ⟨hperm, horder⟩ := hbalanced key packet' hkey'
    rw [← List.append_assoc] at hperm horder
    rw [hcarried]
    exact ⟨hperm, fun hkeeps => horder (by rw [Packet.KeepsOrder, hschema]; exact hkeeps)⟩

namespace Paced

/-- Two a window, and batched without a bound. -/
def beat : Packet :=
  { tag := "beat", schema := { shape := .single ⟨.intsDynamic, 1, 4⟩, rateLimit := 2, batchInterval := 50 } }

theorem declared : ∀ packet ∈ [beat], packet.Declared := by
  have hints : Schema.Declared { shape := .single ⟨.intsDynamic, 1, 4⟩ } :=
    @Schema.Declared.single .intsDynamic 1 4 _ trivial rfl
  rw [List.forall_mem_singleton]
  exact .make ((hints.rateLimit 2).batching 50 0) (by rfl : Packet.make "beat" _ = .ok _)

def server : Result (Endpoint (Recorded Outbox) Clock) := do
  let definition ← Definition.make [] [beat] .empty {}
  match ServerConnection.accept definition (⟨{}, []⟩ : Recorded Outbox) ({} : Clock) with
  | .serving connection => return .server connection
  | .refused error _ => .error error

theorem server_new {e : Endpoint (Recorded Outbox) Clock} (h : server = .ok e) : e.New ⟨{}, []⟩ :=
  .serve (by simp) declared h

/-- The third beat is held back until the next window, and then joins a new batch. -/
def calls : List Call :=
  [.send "beat" [.int 1], .send "beat" [.int 2], .send "beat" [.int 3], .timer (.batchFlush 1), .timer .rateReset,
    .send "beat" [.int 4]]

end Paced

theorem run_conserves_paced :
    ∃ (e : Endpoint (Recorded Outbox) Clock) (messages : List Bytes), Paced.server = .ok e ∧ e.New ⟨{}, []⟩ ∧
      (e.run Paced.calls).state = .ready ∧
      e.accepted Paced.calls = [(1, [1, 1]), (1, [1, 2]), (1, [1, 3]), (1, [1, 4])] ∧
      (e.run Paced.calls).session.transport.log = e.session.transport.log ++ messages.map .message ∧
      messages.flatMap ((e.run Paced.calls).session.outbound.carried 1) ++ (e.run Paced.calls).session.waiting 1 ++
        (e.run Paced.calls).session.deferred.waiting 1 = [[1, 1], [1, 2], [1, 3], [1, 4]] := by
  have hrun : (fun e => ((e.run Paced.calls).state, e.accepted Paced.calls,
      (e.run Paced.calls).session.outbound.byKey 1)) <$> Paced.server =
      .ok (.ready, [(1, [1, 1]), (1, [1, 2]), (1, [1, 3]), (1, [1, 4])], .ok Paced.beat) := by
    cbv
  obtain ⟨e, hserver, hrun⟩ := Outcome.map_eq_ok.1 hrun
  obtain ⟨hready, hrun⟩ := Prod.mk.inj hrun
  obtain ⟨haccepted, hkey⟩ := Prod.mk.inj hrun
  have hnew := Paced.server_new hserver
  have hlengths : ∀ entry ∈ e.accepted Paced.calls, entry.2.length = 2 := by
    intro entry hentry
    simp only [haccepted, List.mem_cons, List.not_mem_nil, or_false] at hentry
    rcases hentry with rfl | rfl | rfl | rfl <;> rfl
  obtain ⟨messages, hlog, hkept, -⟩ := run_conserves (fun _ _ => rfl) hnew Paced.calls hready (by
    intro entry hentry _ _ _
    rw [hlengths entry hentry]
    decide)
  obtain ⟨-, horder⟩ := hkept 1 Paced.beat hkey
  have hgiven : ofKey 1 (e.accepted Paced.calls) = [[1, 1], [1, 2], [1, 3], [1, 4]] := by
    rw [haccepted]
    rfl
  exact ⟨e, messages, hserver, hnew, hready, haccepted, hlog, (horder (.inr rfl)).trans hgiven⟩

end Endpoint

end PacketProtocol
