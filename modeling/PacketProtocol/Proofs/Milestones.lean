import PacketProtocol.Proofs.Expiry
/-!
# Milestones of a session

Of what a session counts, a few things are milestones: that its connection came about, that a handshake was attempted,
succeeded or failed, and that the connection closed. Messages and timers add none, a close adds its own; nothing arms
the timer that gives up on a handshake but the handshake.
-/

namespace PacketProtocol

/-! ## Schedulers that remember -/

/-- A scheduler with the kinds of all timers that it was asked for. -/
structure Remembering (S : Type) where
  inner : S
  /-- Oldest first. -/
  asked : List TimerKind := []

instance {S : Type} [Scheduler S] : Scheduler (Remembering S) where
  scheduleRepeating remembering kind interval :=
    let (handle, inner) := Scheduler.scheduleRepeating remembering.inner kind interval
    (handle, ⟨inner, remembering.asked ++ [kind]⟩)
  scheduleOnce remembering kind delay :=
    let (handle, inner) := Scheduler.scheduleOnce remembering.inner kind delay
    (handle, ⟨inner, remembering.asked ++ [kind]⟩)
  cancel remembering handle := { remembering with inner := Scheduler.cancel remembering.inner handle }

/-! ## The courses of a connection -/

/-- No state comes before the first. -/
theorem ConnectionState.ne_connecting {a b : ConnectionState} (h : a.rank ≤ b.rank) (hne : a ≠ .connecting) :
    b ≠ .connecting := by
  rintro rfl
  exact hne (by cases a <;> first | rfl | exact absurd h (by decide))

/-- What a connection counts between its beginning and its end. -/
inductive Course : List Count → Prop
  | nothing : Course []
  | attempt : Course [.handshakeAttempt]
  | success : Course [.handshakeAttempt, .handshakeSuccess]
  | failure : Course [.handshakeAttempt, .handshakeFailed]

namespace Session

variable {T S : Type} {s s' s'' : Session T (Remembering S)}

/-- A timer that gives up on a handshake was asked for. -/
def Armed (s : Session T (Remembering S)) : Prop := .handshakeExpiry ∈ s.scheduler.asked

/-- These milestones were counted, and the timer that gives up on a handshake was not armed. -/
structure Reaches (added : List Count) (s s' : Session T (Remembering S)) : Prop where
  armed : s'.Armed → s.Armed
  milestones : Journal.milestones s'.journal = Journal.milestones s.journal ++ added

variable {added added' : List Count}

theorem Reaches.trans (h : Reaches added s s') (h' : Reaches added' s' s'') : Reaches (added ++ added') s s'' :=
  ⟨h.armed ∘ h'.armed, by rw [h'.milestones, h.milestones, List.append_assoc]⟩

/-- The state is the same, and there was no milestone. -/
structure Quiet (s s' : Session T (Remembering S)) : Prop extends Reaches [] s s' where
  state : s'.state = s.state

theorem quiet_of_eq (hstate : s'.state = s.state) (hscheduler : s'.scheduler = s.scheduler)
    (hjournal : s'.journal = s.journal) : s.Quiet s' :=
  ⟨⟨by rw [Armed, Armed, hscheduler]; exact id, by rw [hjournal, List.append_nil]⟩, hstate⟩

theorem Quiet.refl (s : Session T (Remembering S)) : s.Quiet s := quiet_of_eq rfl rfl rfl

theorem Quiet.trans (h : s.Quiet s') (h' : s'.Quiet s'') : s.Quiet s'' :=
  ⟨h.toReaches.trans h'.toReaches, h'.state.trans h.state⟩

theorem reaches_count (s : Session T (Remembering S)) (count : Count) (h : count.isMilestone = true) :
    Reaches [count] s (s.count count) := by
  refine ⟨id, (Journal.milestones_append _ _).trans (congrArg _ ?_)⟩
  simp [Journal.milestones, Journal.counts, h]

theorem quiet_note (s : Session T (Remembering S)) {entries : Journal} (h : Journal.milestones entries = []) :
    s.Quiet (s.note entries) :=
  ⟨⟨id, (Journal.milestones_append _ _).trans (congrArg _ h)⟩, rfl⟩

theorem quiet_count (s : Session T (Remembering S)) (count : Count) (h : count.isMilestone = false) :
    s.Quiet (s.count count) :=
  s.quiet_note (by simp [Journal.milestones, Journal.counts, h])

theorem quiet_report (s : Session T (Remembering S)) (error : ProtocolError) : s.Quiet (s.report error) :=
  s.quiet_note rfl

/-! ## Messages and timers -/

theorem quiet_deliver (packet : Packet) (s : Session T (Remembering S)) (values : List Value) :
    s.Quiet (deliver packet s values) := by
  refine (s.quiet_count .packetReceived rfl).trans (quiet_note _ ?_)
  refine List.filter_eq_nil_iff.2 fun count hcount => ?_
  rw [Dispatcher.eq_of_mem_counts hcount]
  decide

theorem quiet_receive (s : Session T (Remembering S)) (bytes : Bytes) : s.Quiet (s.receive bytes).2 := by
  have hcount := s.quiet_count (.messageReceived bytes.length) rfl
  have hlimited : ∀ receiveLimiter, s.Quiet { s.count (.messageReceived bytes.length) with receiveLimiter } :=
    fun _ => hcount.trans (quiet_of_eq rfl rfl rfl)
  simp only [receive]
  split
  · exact hcount
  · split
    · exact (hlimited _).trans (quiet_count _ _ rfl)
    · split
      · exact hlimited _
      · exact (hlimited _).trans (List.foldlRecOn _ _ (.refl _) fun _ h values _ => h.trans (quiet_deliver _ _ values))

section Works

variable [Transport T]

theorem Work.quiet (h : Work s s') : s.Quiet s' := by
  cases h with
  | queues sendLimiter deferred batchers => exact quiet_of_eq rfl rfl rfl
  | count count h => exact s.quiet_count count h
  | report error => exact s.quiet_report error
  | write message =>
    simp only [Session.write]
    have hsent : ∀ transport, s.Quiet { s with transport } := fun _ => quiet_of_eq rfl rfl rfl
    split
    · exact (hsent _).trans (quiet_count _ _ rfl)
    · exact hsent _

theorem Working.quiet (h : Working s s') : s.Quiet s' := by
  induction h with
  | refl => exact .refl s
  | tail _ hwork ih => exact ih.trans hwork.quiet

theorem quiet_onTimer (s : Session T (Remembering S)) (kind : TimerKind) : s.Quiet (s.onTimer kind) := by
  by_cases hstate : s.state = .ready
  · have hreset : ∀ receiveLimiter, s.Quiet { s with receiveLimiter } := fun _ => quiet_of_eq rfl rfl rfl
    exact (hreset _).trans (working_onTimer hstate kind).quiet
  · rw [onTimer_of_not_ready hstate]
    exact .refl s

end Works

/-! ## Arming and closing -/

section Closing

variable [Scheduler S]

theorem armed_scheduleRepeating (s : Session T (Remembering S)) {kind : TimerKind} {interval : Nat}
    (h : (s.scheduleRepeating kind interval).Armed) (hkind : kind ≠ .handshakeExpiry) : s.Armed := by
  have hasked : .handshakeExpiry ∈ s.scheduler.asked ++ [kind] := h
  exact (List.mem_append.1 hasked).resolve_right fun hnew => hkind (List.mem_singleton.1 hnew).symm

theorem armed_activateBatch {entry : UInt8 × Packet} (h : (s.activateBatch entry).Armed) : s.Armed := by
  obtain ⟨key, packet⟩ := entry
  simp only [activateBatch] at h
  split at h
  · exact armed_scheduleRepeating _ h (by simp)
  · exact h

/-- The timers that activation arms are the recurring ones. -/
theorem armed_activate {outbound inbound : Registry} {window : Option Nat}
    (h : (s.activate outbound inbound window).Armed) : s.Armed := by
  have hfold : ∀ (entries : List (UInt8 × Packet)) (s : Session T (Remembering S)),
      (entries.foldl activateBatch s).Armed → s.Armed := by
    intro entries
    induction entries with
    | nil => exact fun _ => id
    | cons entry entries ih => exact fun s h => armed_activateBatch (ih _ h)
  cases window with
  | none => exact hfold _ _ h
  | some window =>
    let limited : Session T (Remembering S) :=
      { s with sendLimiter := .ofRegistry outbound, receiveLimiter := .ofRegistry inbound }
    have hreset : (limited.scheduleRepeating .rateReset window).Armed := hfold _ _ h
    exact limited.armed_scheduleRepeating hreset nofun

theorem asked_foldl_cancel (handles : List TimerHandle) (scheduler : Remembering S) :
    (handles.foldl Scheduler.cancel scheduler).asked = scheduler.asked := by
  induction handles generalizing scheduler with
  | nil => rfl
  | cons handle handles ih => exact ih (Scheduler.cancel scheduler handle)

theorem reaches_closedByPeer (s : Session T (Remembering S)) (h : s.state ≠ .closed) (code : CloseCode)
    (reason : String) : Reaches [.connectionClosed] s (s.closedByPeer code reason) := by
  rw [closedByPeer, if_neg h]
  have hcalled : Journal.milestones (s.dispatcher.fireClose code reason) = [] := by
    simp [Journal.milestones, Journal.counts, Dispatcher.fireClose, List.filterMap_map]
  refine ⟨fun harmed => ?_, ?_⟩
  · have hasked : .handshakeExpiry ∈ (s.timers.foldl Scheduler.cancel s.scheduler).asked := harmed
    rwa [asked_foldl_cancel] at hasked
  · show Journal.milestones (s.journal ++ [.counted .connectionClosed] ++ s.dispatcher.fireClose code reason) = _
    rw [Journal.milestones_append, Journal.milestones_append, hcalled, List.append_nil]
    rfl

variable [Transport T]

theorem reaches_close (s : Session T (Remembering S)) (h : s.state ≠ .closed) (code : CloseCode) (reason : String) :
    Reaches [.connectionClosed] s (s.close code reason) := by
  have hpeer := s.reaches_closedByPeer h code reason
  rw [close_eq h]
  exact ⟨hpeer.armed, hpeer.milestones⟩

theorem reaches_handshakeTimedOut (s : Session T (Remembering S)) (h : s.state ≠ .closed) :
    Reaches [.handshakeFailed, .connectionClosed] s s.handshakeTimedOut :=
  (s.reaches_count .handshakeFailed rfl).trans ((s.count .handshakeFailed).reaches_close h _ _)

theorem reaches_fail (s : Session T (Remembering S)) (h : s.state ≠ .closed) (error : ProtocolError) :
    Reaches [.connectionClosed] s (s.fail error) := by
  unfold fail
  split
  · exact (s.quiet_count .abuseClose rfl).toReaches.trans ((s.count .abuseClose).reaches_close h _ _)
  · exact reaches_close _ h _ _

theorem fail_state (s : Session T S) (error : ProtocolError) : (s.fail error).state = .closed := by
  unfold fail
  exact close_state _ _ _

/-- A message is taken in, or it closes the session. -/
theorem receiveOrFail_reaches (s : Session T (Remembering S)) (h : s.state ≠ .closed) (bytes : Bytes) :
    s.Quiet (s.receiveOrFail bytes) ∨
      (s.receiveOrFail bytes).state = .closed ∧ Reaches [.connectionClosed] s (s.receiveOrFail bytes) := by
  have hreceive := s.quiet_receive bytes
  unfold receiveOrFail
  split
  · rename_i hresult
    rw [hresult] at hreceive
    exact .inl hreceive
  · rename_i hresult
    rw [hresult] at hreceive
    exact .inr ⟨fail_state _ _, hreceive.toReaches.trans (reaches_fail _ (hreceive.state ▸ h) _)⟩

end Closing

end Session

/-! ## Calls without milestones -/

/-- Calls that neither open nor close, and bring no message to take in. -/
def Call.Routine : Call → Prop
  | .opened | .message _ | .timer .handshakeExpiry | .close .. | .transportClosed .. => False
  | _ => True

namespace Endpoint

variable {T S : Type} [Transport T] [Scheduler S] {e e' : Endpoint T (Remembering S)}

theorem quiet_call (e : Endpoint T (Remembering S)) {call : Call} (h : call.Routine) :
    e.session.Quiet (e.call call).session := by
  cases call with
  | opened | message | close | transportClosed => exact h.elim
  | timer kind =>
    have hrecurring : kind ≠ .handshakeExpiry → (e.call (.timer kind)).session = e.session.onTimer kind := by
      cases e <;> cases kind <;> first | exact fun _ => rfl | exact fun hne => (hne rfl).elim
    rw [hrecurring (by rintro rfl; exact h)]
    exact e.session.quiet_onTimer kind
  | send tag values =>
    have hsession : (e.call (.send tag values)).session = (e.session.send tag values).2 := session_withSession _ _
    exact hsession ▸ (e.session.working_send tag values).quiet
  | sendEncoded key payload =>
    have hsession : (e.call (.sendEncoded key payload)).session = (e.session.sendEncoded key payload).2 :=
      session_withSession _ _
    exact hsession ▸ (e.session.working_sendEncoded key payload).quiet
  | on tag listener =>
    simp only [Endpoint.call]
    split
    · rename_i hon
      cases e with
      | client c =>
        obtain ⟨c', hon', rfl⟩ := Outcome.map_eq_ok.1 hon
        obtain ⟨dispatcher, rfl⟩ := ClientConnection.on_eq_ok hon'
        exact Session.quiet_of_eq rfl rfl rfl
      | server c =>
        obtain ⟨c', hon', rfl⟩ := Outcome.map_eq_ok.1 hon
        obtain ⟨dispatcher, rfl⟩ := ServerConnection.on_eq_ok hon'
        exact Session.quiet_of_eq rfl rfl rfl
    · exact .refl _
  | onReady callback =>
    cases e with
    | client c =>
      show c.session.Quiet (c.onReady callback).session
      unfold ClientConnection.onReady
      split
      · exact c.session.quiet_note rfl
      · exact Session.quiet_of_eq rfl rfl rfl
    | server c => exact .refl _
  | onClose | onError => cases e <;> exact Session.quiet_of_eq rfl rfl rfl
  | report error => cases e <;> exact Session.quiet_report _ error
  | setOutboundEnabled | setInboundEnabled => cases e <;> exact Session.quiet_of_eq rfl rfl rfl

end Endpoint

end PacketProtocol
