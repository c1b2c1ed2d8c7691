import Mathlib
import PacketProtocol.Drive
import PacketProtocol.Proofs.Lifecycle
/-!
# How a drive ends

A driven connection is closed once the drive has ended, and each close callback ran once, unless what an
open connection had to write could not be written: then the drive ends with that error and leaves the
connection open.
-/

namespace PacketProtocol

/-! ## What waits in an outbox -/

namespace Session

/-- Nothing but messages waits in an outbox, and each was counted. -/
def Tallied (outbox : Outbox) (journal : Journal) : Prop :=
  ∀ out ∈ outbox.waiting, ∃ message, out = .message message ∧ .counted (.messageSent message.length) ∈ journal

theorem lasting_tallied : Lasting Tallied := by
  constructor
  · intro outbox journal entries h out hout
    obtain ⟨message, rfl, hcounted⟩ := h out hout
    exact ⟨message, rfl, List.mem_append_left _ hcounted⟩
  · intro outbox journal message h out hout
    -- an outbox refuses nothing: the message is put in it, and counted
    have hout : out ∈ outbox.waiting ++ [.message message] := hout
    show ∃ message', out = .message message' ∧
      .counted (.messageSent message'.length) ∈ journal ++ [.counted (.messageSent message.length)]
    rcases List.mem_append.1 hout with hout | hout
    · obtain ⟨message', rfl, hcounted⟩ := h out hout
      exact ⟨message', rfl, List.mem_append_left _ hcounted⟩
    · obtain rfl := List.mem_singleton.1 hout
      exact ⟨message, rfl, List.mem_append_right _ (List.mem_singleton_self _)⟩

variable {S : Type} {s s' : Session Outbox S} {callbacks : List String}

theorem Open.tallied (h : s.Open callbacks) (hwaiting : s.transport.waiting = []) : s.Ongoing Tallied callbacks := by
  refine ⟨h, ?_⟩
  intro out hout
  rw [hwaiting] at hout
  cases hout

/-- A call that closes a connection runs its close callbacks. -/
theorem Ongoing.shut [Scheduler S] {call : Call} (h : s.Ongoing Tallied callbacks) (hdid : s.Did call s')
    (hclosed : s'.state = .closed) : ∃ code reason, s'.Shut callbacks code reason := by
  obtain hongoing | ⟨last, code, reason, hlast, -, hstill⟩ := h.did lasting_tallied hdid
  · exact absurd hclosed hongoing.state
  · refine ⟨code, reason, ?_⟩
    split at hstill
    · exact (hlast.toOpen.closedByPeer code reason).still hstill
    · exact (hlast.toOpen.close code reason).still hstill

end Session

/-- A server's handshake is the first message that is counted. -/
theorem ServerConnection.counted_of_serving {S : Type} [Scheduler S] {definition : Definition} {scheduler : S}
    {c : ServerConnection Outbox S} (h : accept definition {} scheduler = .serving c) :
    c.session.transport.waiting = [.message definition.handshake] ∧
      .counted (.messageSent definition.handshake.length) ∈ c.session.journal := by
  obtain ⟨scheduler', timers, expiry, counts, hserve⟩ := serve_eq definition
    (((Session.start ({} : Outbox) scheduler 0).count .handshakeAttempt).write definition.handshake).2
  have haccept : accept definition ({} : Outbox) scheduler = .serving _ := congrArg Acceptance.serving hserve
  rw [haccept] at h
  obtain rfl := Acceptance.serving.inj h
  refine ⟨rfl, List.mem_append_left _ ?_⟩
  exact List.mem_append_right _ (List.mem_singleton_self _)

namespace Endpoint

variable {S : Type} [Scheduler S] {e : Endpoint Outbox S} {callbacks : List String}

theorem New.tallied (h : e.New {}) : e.session.Ongoing Session.Tallied [] := by
  cases h with
  | client scheduler config => exact Session.Open.tallied ⟨nofun, rfl, rfl⟩ rfl
  | @server definition connection scheduler _ haccept =>
    obtain ⟨hwaiting, hcounted⟩ := ServerConnection.counted_of_serving haccept
    have hopen : connection.session.Open [] := by
      obtain ⟨_, _, _, counts, rfl⟩ := ServerConnection.serving_eq haccept
      refine ⟨nofun, rfl, ?_⟩
      simp [Journal.closings, List.filterMap_map]
    refine ⟨hopen, ?_⟩
    intro out hout
    have hout : out ∈ connection.session.transport.waiting := hout
    rw [hwaiting] at hout
    exact ⟨definition.handshake, List.mem_singleton.1 hout, hcounted⟩

/-- Calls that add no close callback leave an open connection open, or one of them closes it. -/
theorem shut_run (h : e.session.Ongoing Session.Tallied callbacks) {calls : List Call}
    (hcalls : closeCallbacks calls = []) :
    (e.run calls).session.Ongoing Session.Tallied callbacks ∨
      ∃ code reason, (e.run calls).session.Shut callbacks code reason := by
  obtain hongoing | ⟨before, call, after, rfl, hbefore, hclosed⟩ := ongoing_run Session.lasting_tallied h calls
  · rw [hcalls, List.append_nil] at hongoing
    exact .inl hongoing
  · have hnone : closeCallbacks before = [] := by
      rw [closeCallbacks, List.filterMap_append] at hcalls
      exact (List.append_eq_nil_iff.1 hcalls).1
    rw [hnone, List.append_nil] at hbefore
    obtain ⟨code, reason, hshut⟩ := hbefore.shut ((e.run before).call_did call) hclosed
    refine .inr ⟨code, reason, ?_⟩
    rw [run_append]
    exact hshut.still (still_run hclosed after)

end Endpoint

/-! ## What is written to the stream -/

namespace FrameWriter

variable {w w' : FrameWriter} {result : Result Unit}

/-- To write is to succeed, or to find that the peer is gone. -/
theorem flush_cases (h : w.flush = (result, w')) :
    w'.peerGone = w.peerGone ∧ (result = .ok () ∨ result = .error (.stream "broken pipe") ∧ w.peerGone = true) := by
  unfold flush at h
  split at h
  · cases h
    exact ⟨rfl, .inl rfl⟩
  · split at h
    · rename_i hgone
      cases h
      exact ⟨rfl, .inr ⟨rfl, hgone⟩⟩
    · cases h
      exact ⟨rfl, .inl rfl⟩

theorem append_cases {message : Bytes} (h : w.append message = (result, w')) :
    w'.peerGone = w.peerGone ∧
      (result = .ok () ∨ result = .error (.stream frameTooBig) ∧ maxFrameLength < message.length) := by
  unfold append at h
  split at h
  · rename_i hlong
    cases h
    exact ⟨rfl, .inr ⟨rfl, hlong⟩⟩
  · cases h
    exact ⟨rfl, .inl rfl⟩

theorem push_cases {message : Bytes} (h : w.push message = (result, w')) :
    w'.peerGone = w.peerGone ∧ (result = .ok () ∨ result = .error (.stream "broken pipe") ∧ w.peerGone = true ∨
      result = .error (.stream frameTooBig) ∧ maxFrameLength < message.length) := by
  unfold push at h
  split at h
  · obtain ⟨hpeer, hresult⟩ := append_cases h
    exact ⟨hpeer, hresult.imp_right .inr⟩
  · split at h
    · rename_i hflush
      obtain ⟨hpeer, -⟩ := flush_cases hflush
      obtain ⟨hpeer', hresult⟩ := append_cases h
      exact ⟨hpeer'.trans hpeer, hresult.imp_right .inr⟩
    · rename_i hflush
      cases h
      obtain ⟨hpeer, hresult⟩ := flush_cases hflush
      exact ⟨hpeer, hresult.imp_right .inl⟩

end FrameWriter

namespace Drive

/-- Messages are all written, or the peer is gone, or one is too long for a frame. -/
theorem writeAll_cases {w w' : FrameWriter} {outgoing : List Outgoing} {result : Result (Option CloseCode)}
    (hmessages : ∀ out ∈ outgoing, ∃ message, out = .message message) (h : writeAll w outgoing = (result, w')) :
    w'.peerGone = w.peerGone ∧ (result = .ok none ∨ result = .error (.stream "broken pipe") ∧ w.peerGone = true ∨
      result = .error (.stream frameTooBig) ∧
        ∃ message, .message message ∈ outgoing ∧ maxFrameLength < message.length) := by
  induction outgoing generalizing w with
  | nil =>
    cases hflush : w.flush with
    | mk flushed w₁ =>
      simp only [writeAll, hflush, Prod.mk.injEq] at h
      obtain ⟨rfl, rfl⟩ := h
      obtain ⟨hpeer, rfl | ⟨rfl, hgone⟩⟩ := FrameWriter.flush_cases hflush
      · exact ⟨hpeer, .inl rfl⟩
      · exact ⟨hpeer, .inr (.inl ⟨rfl, hgone⟩)⟩
  | cons out outgoing ih =>
    obtain ⟨message, rfl⟩ := hmessages out List.mem_cons_self
    cases hpush : w.push message with
    | mk pushed w₁ =>
      obtain ⟨hpeer, rfl | ⟨rfl, hgone⟩ | ⟨rfl, hlong⟩⟩ := FrameWriter.push_cases hpush
      · simp only [writeAll, hpush] at h
        obtain ⟨hpeer', hresult⟩ := ih (fun out hout => hmessages out (List.mem_cons_of_mem _ hout)) h
        refine ⟨hpeer'.trans hpeer, hresult.imp_right (Or.imp ?_ ?_)⟩
        · rintro ⟨hbroken, hgone⟩
          exact ⟨hbroken, hpeer ▸ hgone⟩
        · rintro ⟨htoo, message', hmem, hlong⟩
          exact ⟨htoo, message', List.mem_cons_of_mem _ hmem, hlong⟩
      · simp only [writeAll, hpush, Prod.mk.injEq] at h
        obtain ⟨rfl, rfl⟩ := h
        exact ⟨hpeer, .inr (.inl ⟨rfl, hgone⟩)⟩
      · simp only [writeAll, hpush, Prod.mk.injEq] at h
        obtain ⟨rfl, rfl⟩ := h
        exact ⟨hpeer, .inr (.inr ⟨rfl, message, List.mem_cons_self, hlong⟩)⟩

/-! ## How a driven connection stands -/

variable {d : Drive} {callbacks : List String}

/-- The drive ended because something could not be written: nobody was there to read it, or a message that the
connection counted as sent is too long for a frame. -/
inductive Unwritten (d : Drive) : Prop
  | gone : d.outcome = some (.error (.stream "broken pipe")) → d.writer.peerGone = true → Unwritten d
  | long (length : Nat) : d.outcome = some (.error (.stream frameTooBig)) →
      .counted (.messageSent length) ∈ d.journal → maxFrameLength < length → Unwritten d

/-- A drive of a connection with these close callbacks. -/
inductive Stands (callbacks : List String) (d : Drive) : Prop
  | running : d.outcome = none → d.endpoint.session.Open callbacks → d.endpoint.session.transport.waiting = [] →
      Stands callbacks d
  | closed (code : CloseCode) (reason : String) : d.isFinished = true → d.endpoint.session.Shut callbacks code reason →
      Stands callbacks d
  /-- The drive is over, and the connection does not know. -/
  | left : d.Unwritten → d.endpoint.session.Open callbacks → Stands callbacks d

theorem Unwritten.isFinished (h : d.Unwritten) : d.isFinished = true := by
  cases h with
  | gone houtcome _ => simp [Drive.isFinished, houtcome]
  | long length houtcome _ _ => simp [Drive.isFinished, houtcome]

theorem handle_of_finished (h : d.isFinished = true) (arrival : Arrival) : d.handle arrival = d := by
  unfold Drive.handle
  exact if_pos h

/-- How a drive stands after what waits was written. -/
def settled (d : Drive) : Option (Result CloseCode) :=
  match (writeAll d.writer d.endpoint.session.transport.waiting).1 with
  | .error e => some (.error e)
  | .ok (some code) => some (.ok code)
  | .ok none => if d.endpoint.isClosed then some (.ok .normal) else d.outcome

/-- What an endpoint has to write is taken from its outbox, and nothing else of it changes. -/
theorem settle_eq (d : Drive) :
    d.settle =
      { d with
        endpoint := d.endpoint.withSession { d.endpoint.session with transport := {} }
        writer := (writeAll d.writer d.endpoint.session.transport.waiting).2
        outcome := d.settled } := by
  have hclosed :
      (d.endpoint.withSession { d.endpoint.session with transport := {} }).isClosed = d.endpoint.isClosed := by
    rw [Endpoint.isClosed, Endpoint.state, Endpoint.session_withSession]
    rfl
  cases hwrite : writeAll d.writer d.endpoint.session.transport.waiting with
  | mk result writer =>
    simp only [settle, takeOutgoing, settled, hwrite]
    rcases result with e | _ | code
    · rfl
    · simp only [hclosed]
      cases d.endpoint.isClosed <;> rfl
    · rfl

theorem settle_session (d : Drive) : d.settle.endpoint.session = { d.endpoint.session with transport := {} } := by
  rw [settle_eq]
  exact Endpoint.session_withSession _ _

theorem settle_closed {code : CloseCode} {reason : String} (h : d.endpoint.session.Shut callbacks code reason) :
    d.settle.Stands callbacks := by
  have hclosed : d.endpoint.isClosed = true := by simp [Endpoint.isClosed, Endpoint.state, h.state]
  refine .closed code reason ?_ (d.settle_session ▸ ⟨h.state, h.closings⟩)
  rw [settle_eq]
  simp only [isFinished, settled, hclosed, if_true]
  split <;> rfl

/-- An open connection is driven on once everything is written. -/
theorem settle_open (hrunning : d.outcome = none) (h : d.endpoint.session.Ongoing Session.Tallied callbacks) :
    d.settle.Stands callbacks := by
  have hsession := d.settle_session
  have hopen : d.settle.endpoint.session.Open callbacks := hsession ▸ ⟨h.state, h.callbacks, h.closings⟩
  have hmessages : ∀ out ∈ d.endpoint.session.transport.waiting, ∃ message, out = .message message := by
    intro out hout
    obtain ⟨message, hmessage, -⟩ := h.holds out hout
    exact ⟨message, hmessage⟩
  have hclosed : d.endpoint.isClosed = false := by simp [Endpoint.isClosed, Endpoint.state, h.state]
  cases hwrite : writeAll d.writer d.endpoint.session.transport.waiting with
  | mk result writer =>
    obtain ⟨hpeer, rfl | ⟨rfl, hgone⟩ | ⟨rfl, message, hmem, hlong⟩⟩ := writeAll_cases hmessages hwrite
    · refine .running ?_ hopen (by rw [hsession])
      simp [settle_eq, settled, hwrite, hclosed, hrunning]
    · refine .left (.gone ?_ ?_) hopen
      · simp [settle_eq, settled, hwrite]
      · simp [settle_eq, hwrite, hpeer, hgone]
    · refine .left (.long message.length ?_ ?_ hlong) hopen
      · simp [settle_eq, settled, hwrite]
      · obtain ⟨message', hsame, hcounted⟩ := h.holds _ hmem
        obtain rfl := Outgoing.message.inj hsame
        rw [journal, hsession]
        exact hcounted

/-- After any calls that add no close callback, the connection stands as it should. -/
theorem settle_run (hrunning : d.outcome = none) (h : d.endpoint.session.Ongoing Session.Tallied callbacks)
    {calls : List Call} (hcalls : closeCallbacks calls = []) :
    (settle { d with endpoint := d.endpoint.run calls }).Stands callbacks := by
  obtain hongoing | ⟨code, reason, hshut⟩ := Endpoint.shut_run h hcalls
  · exact settle_open hrunning hongoing
  · exact settle_closed hshut

/-! ## Events of a drive -/

/-- Something that happens around a drive. -/
inductive Event where
  | arrival (arrival : Arrival)
  /-- What is written from now on is lost. -/
  | gone
  | writes (bytes : Bytes)
  | ends
  | leaves
  | passes (ms : Nat)

def event (d : Drive) : Event → Drive
  | .arrival arrival => d.handle arrival
  | .gone => { d with writer := { d.writer with peerGone := true } }
  | .writes bytes => (d.peerWrites bytes).2
  | .ends => d.peerEnds
  | .leaves => d.peerLeaves
  | .passes ms => d.advance ms

def run (d : Drive) (events : List Event) : Drive := events.foldl event d

theorem Stands.lose (h : d.endpoint.session.Open callbacks) (code : CloseCode) (reason : String)
    (outcome : Result CloseCode) : (d.lose code reason outcome).Stands callbacks := by
  refine .closed code reason rfl ?_
  have hsession : (d.lose code reason outcome).endpoint.session = d.endpoint.session.closedByPeer code reason :=
    Endpoint.session_withSession _ _
  rw [hsession]
  exact h.closedByPeer code reason

theorem Stands.handle (h : d.Stands callbacks) (arrival : Arrival) : (d.handle arrival).Stands callbacks := by
  cases h with
  | closed code reason hfinished hshut =>
    rw [handle_of_finished hfinished]
    exact .closed code reason hfinished hshut
  | left hunwritten hopen =>
    rw [handle_of_finished hunwritten.isFinished]
    exact .left hunwritten hopen
  | running hrunning hopen hwaiting =>
    have htallied := hopen.tallied hwaiting
    have hcall : ∀ call : Call, call.closeCallback? = none →
        (settle { d with endpoint := d.endpoint.call call }).Stands callbacks := by
      intro call hnone
      have hcalls : closeCallbacks [call] = [] := by simp [closeCallbacks, hnone]
      exact settle_run hrunning htallied hcalls
    have hfinished : d.isFinished = false := by simp [isFinished, hrunning]
    simp only [Drive.handle, hfinished, Bool.false_eq_true, if_false]
    cases arrival with
    | message bytes =>
      simp only [takeMessage]
      split
      · exact .lose hopen _ _ _
      · exact hcall (.message bytes) rfl
    | broken text => exact .lose hopen _ _ _
    | ended => exact .lose hopen _ _ _
    | timer kind => exact hcall (.timer kind) rfl
    | send tag values => exact hcall (.send tag values) rfl
    | post tag values =>
      simp only [postNow]
      split
      · rename_i hsend
        have hsent := hcall (.send tag values) rfl
        rwa [Endpoint.call, hsend] at hsent
      · rename_i error endpoint hsend
        have hcalls : closeCallbacks [.send tag values, .report error] = [] := rfl
        have hreported := settle_run hrunning htallied hcalls
        have hrun : d.endpoint.run [.send tag values, .report error] = endpoint.report error := by
          simp [Endpoint.run, Endpoint.call, hsend]
        rwa [hrun] at hreported
    | close code reason => exact hcall (.close code reason) rfl

theorem Stands.foldl {α : Type} {step : Drive → α → Drive}
    (hstep : ∀ d a, d.Stands callbacks → (step d a).Stands callbacks) (h : d.Stands callbacks) (items : List α) :
    (items.foldl step d).Stands callbacks := by
  induction items generalizing d with
  | nil => exact h
  | cons item items ih => exact ih (hstep d item h)

theorem Stands.handleWithPosts (h : d.Stands callbacks) (arrival : Arrival) :
    (d.handleWithPosts arrival).Stands callbacks :=
  (h.handle arrival).foldl (fun _ _ h => h.handle _) _

/-- Reader, peer and clock are no part of how a connection stands; a peer that is gone stays gone. -/
theorem Stands.around (h : d.Stands callbacks) {d' : Drive} (houtcome : d'.outcome = d.outcome)
    (hwriter : d.writer.peerGone = true → d'.writer.peerGone = true)
    (hsession : ∃ scheduler, d'.endpoint.session = { d.endpoint.session with scheduler }) : d'.Stands callbacks := by
  obtain ⟨scheduler, hsession⟩ := hsession
  cases h with
  | running hrunning hopen hwaiting =>
    exact .running (houtcome.trans hrunning) (hsession ▸ ⟨hopen.state, hopen.callbacks, hopen.closings⟩)
      (by rw [hsession]; exact hwaiting)
  | closed code reason hfinished hshut =>
    exact .closed code reason (by rwa [isFinished, houtcome]) (hsession ▸ ⟨hshut.state, hshut.closings⟩)
  | left hunwritten hopen =>
    refine .left ?_ (hsession ▸ ⟨hopen.state, hopen.callbacks, hopen.closings⟩)
    cases hunwritten with
    | gone hbroken hgone => exact .gone (houtcome.trans hbroken) (hwriter hgone)
    | long length htoo hcounted hlong =>
      exact .long length (houtcome.trans htoo) (by rw [journal, hsession]; exact hcounted) hlong

theorem Stands.peerEnds (h : d.Stands callbacks) : d.peerEnds.Stands callbacks := by
  unfold Drive.peerEnds
  split
  · exact h
  · have hended : Stands callbacks { d with peerEnded := true } := h.around rfl id ⟨_, rfl⟩
    split
    · exact hended.handle .ended
    · exact hended.handle (.broken _)

theorem Stands.advance (h : d.Stands callbacks) (ms : Nat) : (d.advance ms).Stands callbacks := by
  have hlater : ∀ scheduler, Stands callbacks
      { d with endpoint := d.endpoint.withSession { d.endpoint.session with scheduler } } := by
    intro scheduler
    exact h.around rfl id ⟨scheduler, Endpoint.session_withSession _ _⟩
  exact (hlater _).foldl (fun _ kind h => h.handle (.timer kind)) _

theorem Stands.event (h : d.Stands callbacks) (event : Event) : (d.event event).Stands callbacks := by
  cases event with
  | arrival arrival => exact h.handle arrival
  | gone => exact h.around rfl (fun _ => rfl) ⟨_, rfl⟩
  | writes bytes =>
    simp only [Drive.event, peerWrites]
    split
    · exact h
    · split
      · exact h
      · have hmessage : ∀ (d : Drive) (message : Bytes), d.Stands callbacks →
            (d.handleWithPosts (.message message)).Stands callbacks := fun _ message h => h.handleWithPosts _
        have hread := h.foldl hmessage (d.reader.push bytes).messages.1
        split
        · exact hread.around rfl id ⟨_, rfl⟩
        · exact hread.handle (.broken _)
  | ends => exact h.peerEnds
  | leaves => exact Stands.peerEnds (h.around rfl (fun _ => rfl) ⟨_, rfl⟩)
  | passes ms => exact h.advance ms

theorem Stands.run (h : d.Stands callbacks) (events : List Event) : (d.run events).Stands callbacks :=
  h.foldl (fun _ event h => h.event event) events

/-- As long as a connection is driven it is not closed. Once the drive has ended the connection is closed, and
each close callback has run once, with the same code and reason; unless what the open connection had to write
could not be written. Then the connection is as open as it was, and no close callback has run. -/
theorem run_ends {e : Endpoint Outbox Clock} (hnew : e.New {}) (calls : List Call)
    (hopen : (e.run calls).state ≠ .closed) (events : List Event) :
    let d := (Drive.start (e.run calls)).run events
    (d.outcome = none → d.endpoint.state ≠ .closed) ∧
      (d.isFinished = true →
        (d.endpoint.state = .closed ∧
            ∃ code reason, Journal.closings d.journal = (closeCallbacks calls).map (·, code, reason)) ∨
          d.Unwritten ∧ d.endpoint.state ≠ .closed ∧ Journal.closings d.journal = []) := by
  intro d
  have hongoing : (e.run calls).session.Ongoing Session.Tallied (closeCallbacks calls) := by
    obtain hongoing | ⟨before, call, after, rfl, -, hclosed⟩ :=
      Endpoint.ongoing_run Session.lasting_tallied hnew.tallied calls
    · exact hongoing
    · have hstill := Endpoint.still_run hclosed after
      rw [← List.singleton_append, ← List.append_assoc, Endpoint.run_append, Endpoint.run_append] at hopen
      exact absurd hstill.state hopen
  have hstart : (Drive.start (e.run calls)).Stands (closeCallbacks calls) := (settle_open rfl hongoing).advance 0
  cases hstart.run events with
  | running hrunning hopen _ =>
    refine ⟨fun _ => hopen.state, fun hfinished => ?_⟩
    have hrunning : d.outcome = none := hrunning
    simp [isFinished, hrunning] at hfinished
  | closed code reason hfinished hshut =>
    refine ⟨fun hrunning => ?_, fun _ => .inl ⟨hshut.state, code, reason, hshut.closings⟩⟩
    have hfinished : d.isFinished = true := hfinished
    simp [isFinished, hrunning] at hfinished
  | left hunwritten hopen => exact ⟨fun _ => hopen.state, fun _ => .inr ⟨hunwritten, hopen.state, hopen.closings⟩⟩

namespace Hangup

def client : Endpoint Outbox Clock := .client (.start {} clock {})

def calls : List Call := [.onClose "log", .opened]

/-- A handshake with one packet for clients to send. -/
def handshake : Bytes :=
  [0x54, 0x57, 0x49, 0x52, 1, 0x89, 1, 100, 1, 0, 0, 0, 3, 0x73, 0x61, 0x79, 0, 0, 1]

/-- The client is ready when its peer goes, and has a packet to send before it reads the end of the stream. -/
def events : List Event := [.arrival (.message handshake), .gone, .arrival (.send "say" [.string "hi"]), .leaves]

/-- The same, but for the packet. -/
def silent : List Event := [.arrival (.message handshake), .gone, .leaves]

def drive (events : List Event) : Drive := (Drive.start (client.run calls)).run events

end Hangup

/-- The packet is what hides the end of the stream from the client. -/
theorem run_ends_hangup :
    let d := Hangup.drive Hangup.events
    let d' := Hangup.drive Hangup.silent
    (d.outcome = some (.error (.stream "broken pipe")) ∧ d.endpoint.state ≠ .closed ∧ Journal.closings d.journal = []) ∧
      d'.outcome = some (.ok .normal) ∧ d'.endpoint.state = .closed ∧
      ∃ code reason, Journal.closings d'.journal = [("log", code, reason)] := by
  have hnew : Hangup.client.New {} := .client _ _
  have hopen : (Hangup.client.run Hangup.calls).state ≠ .closed := by decide
  have hbroken : (Hangup.drive Hangup.events).outcome = some (.error (.stream "broken pipe")) := by cbv
  have hready : (Hangup.drive Hangup.events).endpoint.state = .ready := by cbv
  have hended : (Hangup.drive Hangup.silent).outcome = some (.ok .normal) := by cbv
  constructor
  · obtain ⟨hclosed, -⟩ | ⟨-, hstate, hclosings⟩ :=
      (run_ends hnew Hangup.calls hopen Hangup.events).2 (congrArg Option.isSome hbroken)
    · exact absurd (hready.symm.trans hclosed) (by decide)
    · exact ⟨hbroken, hstate, hclosings⟩
  · obtain ⟨hclosed, code, reason, hclosings⟩ | ⟨hunwritten, -⟩ :=
      (run_ends hnew Hangup.calls hopen Hangup.silent).2 (congrArg Option.isSome hended)
    · exact ⟨hended, hclosed, code, reason, hclosings⟩
    · cases hunwritten with
      | gone hbroken _ => exact absurd (hended.symm.trans hbroken) (by simp)
      | long _ htoo _ _ => exact absurd (hended.symm.trans htoo) (by simp)

end Drive

end PacketProtocol
