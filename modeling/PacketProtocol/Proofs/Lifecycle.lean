import Mathlib.Data.List.Induction
import PacketProtocol.Proofs.Calls
/-!
# The life of a connection

Whatever is called on a connection, its state only moves forward, and it closes once: each close
callback runs, whatever waits is dropped, and the transport is closed unless the other side did that.
From then on it writes nothing and runs nothing.
-/

namespace PacketProtocol

/-- How far a connection has come. -/
def ConnectionState.rank : ConnectionState → Nat
  | connecting => 0
  | awaitingSchema => 1
  | ready => 2
  | closed => 3

theorem ConnectionState.rank_le_closed (state : ConnectionState) : state.rank ≤ closed.rank := by
  cases state <;> decide

/-- Close callbacks that calls add. -/
def closeCallbacks (calls : List Call) : List String := calls.filterMap Call.closeCallback?

namespace Session

/-! ## What sends and timers leave alone -/

section Works

variable {T S : Type} [Transport T]

/-- What sends and timers are made of. -/
inductive Work (s : Session T S) : Session T S → Prop
  | queues (sendLimiter : RateLimiter) (deferred : DeferredQueue) (batchers : List Batcher) :
      Work s { s with sendLimiter, deferred, batchers }
  | count (count : Count) : count.isMilestone = false → Work s (s.count count)
  | report (error : ProtocolError) : Work s (s.report error)
  | write (message : Bytes) : Work s (s.write message).2

/-- Any amount of work. -/
abbrev Working : Session T S → Session T S → Prop := Relation.ReflTransGen Work

/-- Messages were written and things counted or reported, and nothing was run or closed. -/
structure Works (s s' : Session T S) : Prop where
  state : s'.state = s.state
  inbound : s'.inbound = s.inbound
  receiveLimiter : s'.receiveLimiter = s.receiveLimiter
  dispatcher : s'.dispatcher = s.dispatcher
  transport : ∃ messages, s'.transport = Transport.sendAll s.transport messages
  journal : ∃ entries, s'.journal = s.journal ++ entries ∧ Journal.closings entries = [] ∧ Journal.runs entries = []

variable {s s' s'' : Session T S}

theorem Works.refl (s : Session T S) : s.Works s :=
  ⟨rfl, rfl, rfl, rfl, ⟨[], rfl⟩, [], (List.append_nil _).symm, rfl, rfl⟩

theorem Works.trans (h : s.Works s') (h' : s'.Works s'') : s.Works s'' := by
  obtain ⟨messages, hmessages⟩ := h.transport
  obtain ⟨messages', hmessages'⟩ := h'.transport
  obtain ⟨entries, hentries, hclosings, hruns⟩ := h.journal
  obtain ⟨entries', hentries', hclosings', hruns'⟩ := h'.journal
  refine ⟨h'.state.trans h.state, h'.inbound.trans h.inbound, h'.receiveLimiter.trans h.receiveLimiter,
    h'.dispatcher.trans h.dispatcher, ⟨messages ++ messages', ?_⟩, entries ++ entries', ?_, ?_, ?_⟩
  · rw [hmessages', hmessages, Transport.sendAll_append]
  · rw [hentries', hentries, List.append_assoc]
  · rw [Journal.closings_append, hclosings, hclosings', List.append_nil]
  · rw [Journal.runs_append, hruns, hruns', List.append_nil]

theorem Work.works (h : s.Work s') : s.Works s' := by
  cases h with
  | queues sendLimiter deferred batchers =>
    exact ⟨rfl, rfl, rfl, rfl, ⟨[], rfl⟩, [], (List.append_nil _).symm, rfl, rfl⟩
  | count count _ => exact ⟨rfl, rfl, rfl, rfl, ⟨[], rfl⟩, _, rfl, rfl, rfl⟩
  | report error => exact ⟨rfl, rfl, rfl, rfl, ⟨[], rfl⟩, _, rfl, rfl, rfl⟩
  | write message =>
    simp only [Session.write]
    split
    · exact ⟨rfl, rfl, rfl, rfl, ⟨[message], rfl⟩, _, rfl, rfl, rfl⟩
    · exact ⟨rfl, rfl, rfl, rfl, ⟨[message], rfl⟩, [], (List.append_nil _).symm, rfl, rfl⟩

theorem Working.works (h : Working s s') : s.Works s' := by
  induction h with
  | refl => exact .refl s
  | tail _ hwork ih => exact ih.trans hwork.works

theorem Work.working (h : s.Work s') : Working s s' := .single h

theorem working_emit (s : Session T S) (key : UInt8) (payload : Bytes) : Working s (s.emit key payload).2 := by
  refine (Work.count .packetSent rfl).working.trans ?_
  simp only [emit]
  split
  · exact .single (.write _)
  · split
    · exact .refl
    · exact .single (.queues _ _ _)
    · exact (Work.count _ rfl).working.tail (.write _)

theorem working_deferPayload (s : Session T S) (key : UInt8) (payload : Bytes) :
    Working s (s.deferPayload key payload).2 := by
  unfold deferPayload
  split
  · exact (Work.queues _ _ _).working.tail (.count _ rfl)
  · split <;> exact .refl

theorem working_sendEncoded (s : Session T S) (key : UInt8) (payload : Bytes) :
    Working s (s.sendEncoded key payload).2 := by
  unfold sendEncoded
  split
  · exact .refl
  · split
    · exact s.working_deferPayload _ _
    · split
      · exact (Work.queues _ _ _).working.trans (working_emit _ _ _)
      · exact (Work.queues _ _ _).working.trans (working_deferPayload _ _ _)

theorem working_send (s : Session T S) (tag : String) (values : List Value) : Working s (s.send tag values).2 := by
  unfold send
  split
  · exact .refl
  · exact s.working_sendEncoded _ _

theorem working_emitAll (released : List (UInt8 × Bytes)) (s : Session T S) : Working s (s.emitAll released).2 := by
  induction released generalizing s with
  | nil => exact .refl
  | cons entry released ih =>
    obtain ⟨key, payload⟩ := entry
    have hemit := s.working_emit key payload
    rw [emitAll]
    split
    · rename_i hresult
      rw [hresult] at hemit
      exact hemit.trans (ih _)
    · rename_i hresult
      rw [hresult] at hemit
      exact hemit

theorem working_resetWindow (s : Session T S) :
    Working { s with receiveLimiter := s.receiveLimiter.reset } s.resetWindow.2 :=
  (Work.queues _ _ _).working.trans (working_emitAll _ _)

theorem working_flushBatch (s : Session T S) (key : UInt8) : Working s (s.flushBatch key).2 := by
  unfold flushBatch
  split
  · exact .refl
  · split
    · exact .refl
    · exact ((Work.queues _ _ _).working.tail (.count _ rfl)).tail (.write _)

theorem onTimer_of_not_ready {s : Session T S} (h : s.state ≠ .ready) (kind : TimerKind) : s.onTimer kind = s := by
  simp [onTimer, isReady, h]

/-- What a timer does in a ready session: what is counted of received messages is forgotten at the
window boundary, and nowhere else. -/
theorem working_onTimer {s : Session T S} (hstate : s.state = .ready) (kind : TimerKind) :
    Working { s with receiveLimiter := if kind = .rateReset then s.receiveLimiter.reset else s.receiveLimiter }
      (s.onTimer kind) := by
  have hready : s.isReady = true := by simp [isReady, hstate]
  simp only [onTimer, hready, Bool.not_true, Bool.false_eq_true, if_false]
  cases kind with
  | rateReset =>
    rw [if_pos rfl]
    dsimp only
    split
    · exact s.working_resetWindow
    · exact s.working_resetWindow.tail (.report _)
  | batchFlush key =>
    rw [if_neg (by simp)]
    dsimp only
    split
    · exact s.working_flushBatch key
    · exact (s.working_flushBatch key).tail (.report _)
  | handshakeExpiry => rw [if_neg (by simp)]

theorem works_send (s : Session T S) (tag : String) (values : List Value) : s.Works (s.send tag values).2 :=
  (s.working_send tag values).works

theorem works_sendEncoded (s : Session T S) (key : UInt8) (payload : Bytes) :
    s.Works (s.sendEncoded key payload).2 :=
  (s.working_sendEncoded key payload).works

theorem works_onTimer {s : Session T S} (hstate : s.state = .ready) (kind : TimerKind) :
    Works { s with receiveLimiter := if kind = .rateReset then s.receiveLimiter.reset else s.receiveLimiter }
      (s.onTimer kind) :=
  (working_onTimer hstate kind).works

theorem onTimer_state (s : Session T S) (kind : TimerKind) : (s.onTimer kind).state = s.state := by
  by_cases hstate : s.state = .ready
  · exact (works_onTimer hstate kind).state
  · rw [onTimer_of_not_ready hstate]

end Works

/-! ## Moving forward -/

section Forward

variable {T S : Type} [Transport T] [Scheduler S] {s s' : Session T S}

theorem close_state (s : Session T S) (code : CloseCode) (reason : String) : (s.close code reason).state = .closed := by
  unfold close
  split
  · assumption
  · rfl

omit [Transport T] in
theorem closedByPeer_state (s : Session T S) (code : CloseCode) (reason : String) :
    (s.closedByPeer code reason).state = .closed := by
  unfold closedByPeer
  split
  · assumption
  · rfl

/-- To close from this side is to close the transport as well. -/
theorem close_eq (hstate : s.state ≠ .closed) (code : CloseCode) (reason : String) :
    s.close code reason =
      { s.closedByPeer code reason with transport := Transport.close s.transport code reason } := by
  rw [close, if_neg hstate, Session.closedByPeer, if_neg hstate]
  rfl

theorem close_transport (hstate : s.state ≠ .closed) (code : CloseCode) (reason : String) :
    (s.close code reason).transport = Transport.close s.transport code reason := by
  rw [close_eq hstate]

theorem fail_transport (hstate : s.state ≠ .closed) (error : ProtocolError) :
    (s.fail error).transport = Transport.close s.transport error.closeCode error.message := by
  have hcounted : (s.count .abuseClose).state ≠ .closed := hstate
  unfold fail
  split
  · exact close_transport hcounted _ _
  · exact close_transport hstate _ _

theorem Act.rank_le (h : Act s s') : s.state.rank ≤ s'.state.rank := by
  cases h with
  | aside h => exact Nat.le_of_eq (by rw [h.state])
  | await h => exact h ▸ Nat.zero_le _
  | adopt h _ => exact h ▸ Nat.le_succ _
  | tick kind => exact Nat.le_of_eq (by rw [s.onTimer_state])
  | close code reason => rw [s.close_state]; exact s.state.rank_le_closed

theorem Acts.rank_le (h : Acts s s') : s.state.rank ≤ s'.state.rank := by
  induction h with
  | refl => exact Nat.le_refl _
  | tail _ hact ih => exact Nat.le_trans ih hact.rank_le

theorem Did.rank_le {call : Call} (h : s.Did call s') : s.state.rank ≤ s'.state.rank := by
  cases h with
  | send tag values => exact Nat.le_of_eq (by rw [(s.works_send tag values).state])
  | sendEncoded key payload => exact Nat.le_of_eq (by rw [(s.works_sendEncoded key payload).state])
  | onClose callback => exact Nat.le_refl _
  | close code reason => rw [s.close_state]; exact s.state.rank_le_closed
  | transportClosed code reason => rw [s.closedByPeer_state]; exact s.state.rank_le_closed
  | acts _ hacts => exact hacts.rank_le

end Forward

/-! ## Closed connections -/

section Closed

variable {T S : Type} {s s' s'' : Session T S}

/-- A closed connection to which nothing happened that shows outside, but for errors reported. -/
structure Still (s s' : Session T S) : Prop where
  state : s'.state = .closed
  transport : s'.transport = s.transport
  runs : Journal.runs s'.journal = Journal.runs s.journal
  closings : Journal.closings s'.journal = Journal.closings s.journal
  deferred : s'.deferred = s.deferred
  batchers : s'.batchers = s.batchers

theorem Still.refl (h : s.state = .closed) : s.Still s := ⟨h, rfl, rfl, rfl, rfl, rfl⟩

theorem Still.trans (h : s.Still s') (h' : s'.Still s'') : s.Still s'' :=
  ⟨h'.state, h'.transport.trans h.transport, h'.runs.trans h.runs, h'.closings.trans h.closings,
    h'.deferred.trans h.deferred, h'.batchers.trans h.batchers⟩

theorem still_of_aside (hstate : s.state = .closed) (h : s.Aside s') : s.Still s' := by
  obtain ⟨entries, hjournal, hclosings, hruns⟩ := h.journal
  refine ⟨h.state.trans hstate, h.transport, ?_, ?_, h.deferred, h.batchers⟩
  · rw [hjournal, Journal.runs_append, hruns (by rw [hstate]; decide), List.append_nil]
  · rw [hjournal, Journal.closings_append, hclosings, List.append_nil]

section Sends

variable [Transport T]

theorem send_of_closed (hstate : s.state = .closed) (tag : String) (values : List Value) :
    s.send tag values = (.error .connectionClosed, s) := by
  have hready : s.ensureReady = .error .connectionClosed := by rw [ensureReady, hstate]
  simp only [send, prepare, hready]
  rfl

theorem sendEncoded_of_closed (hstate : s.state = .closed) (key : UInt8) (payload : Bytes) :
    s.sendEncoded key payload = (.error .connectionClosed, s) := by
  have hready : s.ensureReady = .error .connectionClosed := by rw [ensureReady, hstate]
  simp only [sendEncoded, hready]

end Sends

variable [Scheduler S]

theorem still_closedByPeer (hstate : s.state = .closed) (code : CloseCode) (reason : String) :
    s.Still (s.closedByPeer code reason) := by
  rw [Session.closedByPeer, if_pos hstate]
  exact .refl hstate

variable [Transport T]

/-- No act shows on a closed connection. -/
theorem still_of_act (hstate : s.state = .closed) (hact : Act s s') : s.Still s' := by
  cases hact with
  | aside haside => exact still_of_aside hstate haside
  | await h => rw [hstate] at h; cases h
  | adopt h _ => rw [hstate] at h; cases h
  | tick kind =>
    rw [onTimer_of_not_ready (by rw [hstate]; decide)]
    exact .refl hstate
  | close code reason =>
    rw [close, if_pos hstate]
    exact .refl hstate

theorem still_of_acts (hstate : s.state = .closed) (hacts : Acts s s') : s.Still s' := by
  induction hacts with
  | refl => exact .refl hstate
  | tail _ hact ih => exact ih.trans (still_of_act ih.state hact)

/-- No call shows on a closed connection. -/
theorem still_of_did {call : Call} (hstate : s.state = .closed) (hdid : s.Did call s') : s.Still s' := by
  cases hdid with
  | send tag values => exact send_of_closed hstate tag values ▸ .refl hstate
  | sendEncoded key payload => exact sendEncoded_of_closed hstate key payload ▸ .refl hstate
  | onClose callback => exact ⟨hstate, rfl, rfl, rfl, rfl, rfl⟩
  | close code reason =>
    rw [Session.close, if_pos hstate]
    exact .refl hstate
  | transportClosed code reason => exact still_closedByPeer hstate code reason
  | acts _ hacts => exact still_of_acts hstate hacts

end Closed

/-! ## Callbacks that wait -/

section Callbacks

variable {T S : Type} {s s' : Session T S} {callbacks : List String} {code : CloseCode} {reason : String}

/-- A connection that never closed; these close callbacks wait. -/
structure Open (callbacks : List String) (s : Session T S) : Prop where
  state : s.state ≠ .closed
  callbacks : s.dispatcher.closeCallbacks = callbacks
  closings : Journal.closings s.journal = []

/-- A connection that closed once: these callbacks ran, with a code and a reason. -/
structure Shut (callbacks : List String) (code : CloseCode) (reason : String) (s : Session T S) : Prop where
  state : s.state = .closed
  closings : Journal.closings s.journal = callbacks.map (·, code, reason)

theorem Shut.still (h : s.Shut callbacks code reason) (hstill : s.Still s') : s'.Shut callbacks code reason :=
  ⟨hstill.state, hstill.closings.trans h.closings⟩

theorem Open.aside (h : s.Open callbacks) (haside : s.Aside s') : s'.Open callbacks := by
  obtain ⟨entries, hjournal, hclosings, -⟩ := haside.journal
  refine ⟨haside.state ▸ h.state, haside.callbacks.trans h.callbacks, ?_⟩
  rw [hjournal, Journal.closings_append, h.closings, hclosings, List.append_nil]

theorem Open.onClose (h : s.Open callbacks) (callback : String) : (s.onClose callback).Open (callbacks ++ [callback]) :=
  ⟨h.state, congrArg (· ++ [callback]) h.callbacks, h.closings⟩

theorem Open.works [Transport T] (h : s.Open callbacks) (hworks : s.Works s') : s'.Open callbacks := by
  obtain ⟨entries, hjournal, hclosings, -⟩ := hworks.journal
  refine ⟨hworks.state ▸ h.state, hworks.dispatcher ▸ h.callbacks, ?_⟩
  rw [hjournal, Journal.closings_append, h.closings, hclosings, List.append_nil]

variable [Scheduler S]

theorem Open.closedByPeer (h : s.Open callbacks) (code : CloseCode) (reason : String) :
    (s.closedByPeer code reason).Shut callbacks code reason := by
  unfold Session.closedByPeer
  rw [if_neg h.state]
  refine ⟨rfl, ?_⟩
  show Journal.closings (s.teardown.journal ++ s.teardown.dispatcher.fireClose code reason) = _
  rw [Journal.closings_append, Dispatcher.closings_fireClose, teardown, ← h.callbacks]
  show Journal.closings (s.journal ++ [.counted .connectionClosed]) ++ _ = _
  rw [Journal.closings_append, h.closings]
  rfl

theorem Open.close [Transport T] (h : s.Open callbacks) (code : CloseCode) (reason : String) :
    (s.close code reason).Shut callbacks code reason := by
  rw [close_eq h.state]
  exact ⟨(h.closedByPeer code reason).state, (h.closedByPeer code reason).closings⟩

end Callbacks

/-! ## What lasts while a connection is open -/

section Lasting

variable {T S : Type} [Transport T] {outlook : T → Journal → Prop} {s s' : Session T S} {callbacks : List String}

/-- A property of transport and journal that outlasts what is noted and written. -/
structure Lasting (outlook : T → Journal → Prop) : Prop where
  note : ∀ transport journal entries, outlook transport journal → outlook transport (journal ++ entries)
  write : ∀ transport journal message, outlook transport journal →
    outlook (Transport.send transport message).2
      (match (Transport.send transport message).1 with
      | .ok () => journal ++ [.counted (.messageSent message.length)]
      | .error _ => journal)

/-- A connection that never closed, and has such a property. -/
structure Ongoing (outlook : T → Journal → Prop) (callbacks : List String) (s : Session T S) : Prop
    extends s.Open callbacks where
  holds : outlook s.transport s.journal

theorem Ongoing.aside (hlasting : Lasting outlook) (h : s.Ongoing outlook callbacks) (haside : s.Aside s') :
    s'.Ongoing outlook callbacks := by
  obtain ⟨entries, hjournal, -⟩ := haside.journal
  refine ⟨h.toOpen.aside haside, ?_⟩
  rw [haside.transport, hjournal]
  exact hlasting.note _ _ _ h.holds

theorem Ongoing.working (hlasting : Lasting outlook) (h : s.Ongoing outlook callbacks) (hworking : Working s s') :
    s'.Ongoing outlook callbacks := by
  refine ⟨h.toOpen.works hworking.works, ?_⟩
  induction hworking with
  | refl => exact h.holds
  | tail _ hwork ih =>
    cases hwork with
    | queues sendLimiter deferred batchers => exact ih
    | count count => exact hlasting.note _ _ _ ih
    | report error => exact hlasting.note _ _ _ ih
    | write message =>
      have hwritten := hlasting.write _ _ message ih
      simp only [Session.write]
      split
      · rename_i hsend
        rwa [hsend] at hwritten
      · rename_i hsend
        rwa [hsend] at hwritten

variable [Scheduler S]

/-- An act leaves a connection open, or it is the one that closes it. -/
theorem Ongoing.act (hlasting : Lasting outlook) (h : s.Ongoing outlook callbacks) (hact : Act s s') :
    s'.Ongoing outlook callbacks ∨ ∃ code reason, s' = s.close code reason := by
  cases hact with
  | aside haside => exact .inl (h.aside hlasting haside)
  | await _ => exact .inl ⟨⟨nofun, h.callbacks, h.closings⟩, h.holds⟩
  | @adopt bytes handshake _ _ =>
    obtain ⟨_, _, hactivate⟩ := s.activate_eq handshake.client handshake.server (rateWindowMs handshake.rateWindow)
    rw [hactivate]
    exact .inl ⟨⟨nofun, h.callbacks, h.closings⟩, h.holds⟩
  | tick kind =>
    by_cases hstate : s.state = .ready
    · have hreset : ∀ limiter, Ongoing outlook callbacks { s with receiveLimiter := limiter } := fun limiter =>
        ⟨⟨h.state, h.callbacks, h.closings⟩, h.holds⟩
      exact .inl ((hreset _).working hlasting (working_onTimer hstate kind))
    · rw [onTimer_of_not_ready hstate]
      exact .inl h
  | close code reason => exact .inr ⟨code, reason, rfl⟩

theorem Ongoing.acts (hlasting : Lasting outlook) (h : s.Ongoing outlook callbacks) (hacts : Acts s s') :
    s'.Ongoing outlook callbacks ∨
      ∃ (last : Session T S) (code : CloseCode) (reason : String),
        last.Ongoing outlook callbacks ∧ (last.close code reason).Still s' := by
  induction hacts with
  | refl => exact .inl h
  | @tail before after _ hact ih =>
    obtain hongoing | ⟨last, code, reason, hlast, hstill⟩ := ih
    · obtain hongoing' | ⟨code, reason, rfl⟩ := hongoing.act hlasting hact
      · exact .inl hongoing'
      · exact .inr ⟨before, code, reason, hongoing, .refl (close_state _ _ _)⟩
    · exact .inr ⟨last, code, reason, hlast, hstill.trans (still_of_act hstill.state hact)⟩

/-- A call leaves a connection open, perhaps with one more close callback, or it closes it and does nothing more. -/
theorem Ongoing.did {call : Call} (hlasting : Lasting outlook) (h : s.Ongoing outlook callbacks)
    (hdid : s.Did call s') :
    s'.Ongoing outlook (callbacks ++ closeCallbacks [call]) ∨
      ∃ (last : Session T S) (code : CloseCode) (reason : String),
        last.Ongoing outlook callbacks ∧ (∀ asked ∈ call.closing?, asked = (code, reason)) ∧
        (if call.byPeer then last.closedByPeer code reason else last.close code reason).Still s' := by
  have hsame : closeCallbacks [call] = [] → s'.Ongoing outlook callbacks →
      s'.Ongoing outlook (callbacks ++ closeCallbacks [call]) := fun hnone hongoing => by rwa [hnone, List.append_nil]
  cases hdid with
  | send tag values => exact .inl (hsame rfl (h.working hlasting (s.working_send tag values)))
  | sendEncoded key payload => exact .inl (hsame rfl (h.working hlasting (s.working_sendEncoded key payload)))
  | onClose callback => exact .inl ⟨h.toOpen.onClose callback, h.holds⟩
  | close code reason =>
    exact .inr ⟨s, code, reason, h, by simp [Call.closing?], .refl (s.close_state code reason)⟩
  | transportClosed code reason =>
    exact .inr ⟨s, code, reason, h, by simp [Call.closing?], .refl (s.closedByPeer_state code reason)⟩
  | acts hplain hacts =>
    obtain hongoing | ⟨last, code, reason, hlast, hstill⟩ := h.acts hlasting hacts
    · exact .inl (hsame (by simp [closeCallbacks, hplain.closeCallback?]) hongoing)
    · refine .inr ⟨last, code, reason, hlast, by simp [hplain.closing?], ?_⟩
      rwa [hplain.byPeer]

end Lasting

/-! ## The invariant of a life -/

variable {T S : Type}

/-- A connection that never closed; these close callbacks wait. -/
structure Alive (callbacks : List String) (s : Session (Recorded T) S) : Prop where
  state : s.state ≠ .closed
  callbacks : s.dispatcher.closeCallbacks = callbacks
  closings : Journal.closings s.journal = []
  log : ∃ messages : List Bytes, s.transport.log = messages.map .message

/-- A connection that closed once, with these callbacks, a code and a reason. -/
structure Ended (callbacks : List String) (byPeer : Bool) (code : CloseCode) (reason : String)
    (s : Session (Recorded T) S) : Prop where
  state : s.state = .closed
  closings : Journal.closings s.journal = callbacks.map (·, code, reason)
  log : ∃ messages : List Bytes,
    s.transport.log = messages.map .message ++ if byPeer then [] else [.close code reason]
  deferred : s.deferred.queues = []
  batchers : ∀ batcher ∈ s.batchers, batcher.pending = []

variable {s s' : Session (Recorded T) S} {callbacks : List String} {byPeer : Bool} {code : CloseCode}
  {reason : String}

theorem Ended.still (h : s.Ended callbacks byPeer code reason) (hstill : s.Still s') :
    s'.Ended callbacks byPeer code reason :=
  ⟨hstill.state, hstill.closings.trans h.closings, hstill.transport ▸ h.log, hstill.deferred ▸ h.deferred,
    hstill.batchers ▸ h.batchers⟩

/-- Nothing was asked of the transport but to write messages. -/
def Unclosed (transport : Recorded T) (_ : Journal) : Prop :=
  ∃ messages : List Bytes, transport.log = messages.map .message

theorem Alive.ongoing (h : s.Alive callbacks) : s.Ongoing Unclosed callbacks :=
  ⟨⟨h.state, h.callbacks, h.closings⟩, h.log⟩

theorem Ongoing.alive (h : s.Ongoing Unclosed callbacks) : s.Alive callbacks :=
  ⟨h.state, h.callbacks, h.closings, h.holds⟩

section Ends

variable [Scheduler S]

theorem Alive.closedByPeer (h : s.Alive callbacks) (code : CloseCode) (reason : String) :
    (s.closedByPeer code reason).Ended callbacks true code reason := by
  have hshut := h.ongoing.toOpen.closedByPeer code reason
  have hlog : (s.closedByPeer code reason).transport.log = s.transport.log := by
    rw [Session.closedByPeer, if_neg h.state]
    rfl
  obtain ⟨messages, hmessages⟩ := h.log
  refine ⟨hshut.state, hshut.closings, ⟨messages, by rw [hlog, hmessages]; simp⟩, ?_, ?_⟩
  · rw [Session.closedByPeer, if_neg h.state]
    rfl
  · rw [Session.closedByPeer, if_neg h.state]
    simp [note, teardown, count, Batcher.clear]

variable [Transport T]

theorem Alive.close (h : s.Alive callbacks) (code : CloseCode) (reason : String) :
    (s.close code reason).Ended callbacks false code reason := by
  have hpeer := h.closedByPeer code reason
  obtain ⟨messages, hlog⟩ := h.log
  rw [close_eq h.state]
  refine ⟨hpeer.state, hpeer.closings, ⟨messages, ?_⟩, hpeer.deferred, hpeer.batchers⟩
  show s.transport.log ++ [.close code reason] = _
  rw [hlog]
  rfl

omit [Scheduler S] in
theorem lasting_unclosed : Lasting (@Unclosed T) := by
  refine ⟨fun _ _ _ h => h, ?_⟩
  rintro transport journal message ⟨messages, hlog⟩
  exact ⟨messages ++ [message], by simp [Transport.send, hlog]⟩

/-- A call leaves a connection alive, perhaps with one more close callback, or it closes it. -/
theorem Alive.did {call : Call} (h : s.Alive callbacks) (hdid : s.Did call s') :
    s'.Alive (callbacks ++ closeCallbacks [call]) ∨
      ∃ code reason, s'.Ended callbacks call.byPeer code reason ∧ ∀ asked ∈ call.closing?, asked = (code, reason) := by
  obtain hongoing | ⟨last, code, reason, hlast, hasked, hstill⟩ := h.ongoing.did lasting_unclosed hdid
  · exact .inl hongoing.alive
  · refine .inr ⟨code, reason, ?_, hasked⟩
    cases hpeer : call.byPeer with
    | false => exact (hlast.alive.close code reason).still (by simpa [hpeer] using hstill)
    | true => exact (hlast.alive.closedByPeer code reason).still (by simpa [hpeer] using hstill)

end Ends

end Session

/-! ## Runs of calls -/

namespace Endpoint

variable {T S : Type} [Transport T] [Scheduler S]

theorem rank_le_run (e : Endpoint T S) (calls : List Call) : e.state.rank ≤ (e.run calls).state.rank := by
  induction calls generalizing e with
  | nil => exact Nat.le_refl _
  | cons call calls ih => exact Nat.le_trans (e.call_did call).rank_le (ih (e.call call))

theorem still_run {e : Endpoint T S} (h : e.state = .closed) (calls : List Call) :
    e.session.Still (e.run calls).session := by
  induction calls generalizing e with
  | nil => exact .refl h
  | cons call calls ih =>
    have hstill := Session.still_of_did h (e.call_did call)
    exact hstill.trans (ih hstill.state)

/-- Calls leave an open connection open, with the close callbacks they add, or one of them closes it. -/
theorem ongoing_run {e : Endpoint T S} {outlook : T → Journal → Prop} {callbacks : List String}
    (hlasting : Session.Lasting outlook) (h : e.session.Ongoing outlook callbacks) (calls : List Call) :
    (e.run calls).session.Ongoing outlook (callbacks ++ closeCallbacks calls) ∨
      ∃ before call after, calls = before ++ call :: after ∧
        (e.run before).session.Ongoing outlook (callbacks ++ closeCallbacks before) ∧
        ((e.run before).call call).state = .closed := by
  -- on the calls from the last one on: only the first that closes counts
  induction calls using List.reverseRecOn with
  | nil => exact .inl ((List.append_nil callbacks).symm ▸ h)
  | append_singleton calls call ih =>
    obtain hongoing | ⟨before, closer, after, rfl, hbefore, hclosed⟩ := ih
    · obtain hongoing' | ⟨_, _, _, _, _, hstill⟩ := hongoing.did hlasting ((e.run calls).call_did call)
      · refine .inl ?_
        rw [run_append, closeCallbacks, List.filterMap_append, ← List.append_assoc]
        exact hongoing'
      · exact .inr ⟨calls, call, [], rfl, hongoing, hstill.state⟩
    · exact .inr ⟨before, closer, after ++ [call], by simp, hbefore, hclosed⟩

omit [Transport T] [Scheduler S] in
theorem on_of_closed {e : Endpoint T S} (h : e.state = .closed) (tag : String) (listener : Listener) :
    e.on tag listener = .error .connectionClosed := by
  cases e with
  | client c =>
    have hstate : c.state = .closed := h
    simp [on, ClientConnection.on, hstate]
  | server c =>
    have hstate : c.state = .closed := h
    simp [on, ServerConnection.on, hstate]

variable {transport : T} {e : Endpoint (Recorded T) S} {callbacks : List String}

theorem New.alive (h : e.New ⟨transport, []⟩) : e.session.Alive [] := by
  cases h with
  | client scheduler config => exact ⟨nofun, rfl, rfl, [], rfl⟩
  | @server definition connection scheduler _ haccept =>
    obtain ⟨_, _, _, counts, rfl⟩ := ServerConnection.serving_eq haccept
    refine ⟨nofun, rfl, ?_, [definition.handshake], Recorded.log_sendAll _ _⟩
    simp [Endpoint.session, Journal.closings, List.filterMap_map]

/-- A connection that was called on is alive, or one of the calls closed it. -/
theorem New.run (h : e.New ⟨transport, []⟩) (calls : List Call) :
    (e.run calls).session.Alive (closeCallbacks calls) ∨
      ∃ before call after code reason, calls = before ++ call :: after ∧
        (e.run before).session.Alive (closeCallbacks before) ∧
        ((e.run before).call call).session.Ended (closeCallbacks before) call.byPeer code reason ∧
        ∀ asked ∈ call.closing?, asked = (code, reason) := by
  obtain hongoing | ⟨before, call, after, rfl, hbefore, hclosed⟩ :=
    ongoing_run Session.lasting_unclosed h.alive.ongoing calls
  · exact .inl hongoing.alive
  · obtain halive | ⟨code, reason, hended, hasked⟩ := hbefore.alive.did ((e.run before).call_did call)
    · exact (halive.state hclosed).elim
    · exact .inr ⟨before, call, after, code, reason, rfl, hbefore.alive, hended, hasked⟩

omit [Transport T] [Scheduler S] in
theorem counts_of_ended {s : Session (Recorded T) S} {byPeer : Bool} {code : CloseCode} {reason : String}
    (h : s.Ended callbacks byPeer code reason) (key : UInt8) : s.deferredCount key = 0 ∧ s.batchedCount key = 0 := by
  constructor
  · simp [Session.deferredCount, DeferredQueue.length, DeferredQueue.waiting, h.deferred]
  · unfold Session.batchedCount
    cases hbatcher : s.batcher? key with
    | none => rfl
    | some batcher => simp [Batcher.size, h.batchers batcher (List.mem_of_find?_eq_some hbatcher)]

/-- A connection moves forward only. If it is closed, one call closed it, with a code and a reason:
the close callbacks added before were given them, once each, and so was the transport, unless the
other side closed. Nothing is written or run after that call, and nothing waits. -/
theorem run_lifecycle (hnew : e.New ⟨transport, []⟩) (calls : List Call) :
    (∀ before, before <+: calls → (e.run before).state.rank ≤ (e.run calls).state.rank) ∧
      ((e.run calls).state = .closed → ∃ before call after code reason,
        let final := e.run calls
        let ended := e.run (before ++ [call])
        calls = before ++ call :: after ∧ (e.run before).state ≠ .closed ∧ ended.state = .closed ∧
          (∀ asked ∈ call.closing?, asked = (code, reason)) ∧
          Journal.closings final.session.journal = (closeCallbacks before).map (·, code, reason) ∧
          (∃ messages : List Bytes, final.session.transport.log =
            messages.map .message ++ if call.byPeer then [] else [.close code reason]) ∧
          final.session.transport.log = ended.session.transport.log ∧
          Journal.runs final.session.journal = Journal.runs ended.session.journal ∧
          (∀ key, final.session.deferredCount key = 0 ∧ final.session.batchedCount key = 0) ∧
          (∀ tag values, final.send tag values = (.error .connectionClosed, final)) ∧
          ∀ tag listener, final.on tag listener = .error .connectionClosed) := by
  constructor
  · rintro before ⟨after, rfl⟩
    rw [run_append]
    exact (e.run before).rank_le_run after
  · intro hclosed
    obtain halive | ⟨before, call, after, code, reason, rfl, halive, hended, hasked⟩ := hnew.run calls
    · exact (halive.state hclosed).elim
    · have hrun : e.run (before ++ call :: after) = ((e.run before).call call).run after := by simp [run]
      have hcall : e.run (before ++ [call]) = (e.run before).call call := by simp [run]
      have hstill := still_run hended.state after
      have hfinal := hended.still hstill
      rw [← hrun] at hstill hfinal
      rw [← hcall] at hstill
      refine ⟨before, call, after, code, reason, rfl, halive.state, hcall ▸ hended.state, hasked, hfinal.closings,
        hfinal.log, congrArg _ hstill.transport, hstill.runs, counts_of_ended hfinal, fun tag values => ?_,
        on_of_closed hclosed⟩
      rw [send, Session.send_of_closed hclosed]
      cases e.run (before ++ call :: after) <;> rfl

namespace Refused

def client : Endpoint (Recorded Outbox) Clock := .client (.start ⟨{}, []⟩ {} {})

/-- The first message is no handshake, and the client is called on afterwards as before. -/
def calls : List Call :=
  [.onClose "log", .opened, .onReady "greet", .message [0x48], .onClose "late", .send "ping" [], .close .normal ""]

end Refused

theorem run_lifecycle_refused :
    Refused.client.New ⟨{}, []⟩ ∧ (Refused.client.run Refused.calls).state = .closed ∧
      (∃ before call after, Refused.calls = before ++ call :: after ∧ (Refused.client.run before).state ≠ .closed ∧
        (Refused.client.run (before ++ [call])).state = .closed ∧
        (Refused.client.run Refused.calls).session.transport.log =
          (Refused.client.run (before ++ [call])).session.transport.log) ∧
      (∀ key, (Refused.client.run Refused.calls).session.batchedCount key = 0) ∧
      Journal.closings (Refused.client.run Refused.calls).session.journal =
        [("log", .notProtocol, "Peer does not speak this protocol")] := by
  have hnew : Refused.client.New ⟨{}, []⟩ := .client _ _
  have hclosed : (Refused.client.run Refused.calls).state = .closed := rfl
  obtain ⟨before, call, after, code, reason, hcalls, hopen, hended, -, -, -, hlog, -, hcounts, -⟩ :=
    (run_lifecycle hnew Refused.calls).2 hclosed
  exact ⟨hnew, hclosed, ⟨before, call, after, hcalls, hopen, hended, hlog⟩, fun key => (hcounts key).2, rfl⟩

end Endpoint

end PacketProtocol
