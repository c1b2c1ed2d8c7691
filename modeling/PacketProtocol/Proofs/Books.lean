import PacketProtocol.Proofs.Milestones
/-!
# The books of a connection

A connection is counted when it comes about and when it closes, and in between a handshake is attempted once and
succeeds or fails once at most. A timer that gives up on a handshake is brought only to a connection that armed one.
-/

namespace PacketProtocol

/-! ## The books of an end -/

namespace Endpoint

variable {T S : Type} [Transport T] [Scheduler S] {e e' : Endpoint T (Remembering S)}

/-- What was counted of an end's course. -/
def milestones (e : Endpoint T S) : List Count := Journal.milestones e.session.journal

/-- What an end that is not closed has counted since its beginning. -/
def course : Endpoint T S → List Count
  | client c =>
    match c.state with
    | .connecting | .closed => []
    | .awaitingSchema => [.handshakeAttempt]
    | .ready => [.handshakeAttempt, .handshakeSuccess]
  | server c => if c.handshakeReceived then [.handshakeAttempt, .handshakeSuccess] else [.handshakeAttempt]

/-- An end that waits for no handshake yet, or for none at all. -/
def Unhurried : Endpoint T S → Prop
  | client c => c.state = .connecting
  | server c => c.definition.config.handshakePacket = none

/-- An end that counted its course, and when it closed that. -/
structure Books (e : Endpoint T (Remembering S)) : Prop where
  ongoing : e.state ≠ .closed → e.milestones = .connectionEstablished :: e.course
  ended : e.state = .closed →
    ∃ course, Course course ∧ e.milestones = .connectionEstablished :: (course ++ [.connectionClosed])
  unarmed : e.Unhurried → ¬e.session.Armed

/-- A step of an end: nothing of note, a part of its course, or its close. -/
inductive Moves (e e' : Endpoint T S) : Prop
  | still : e'.state = e.state → e'.course = e.course → e'.milestones = e.milestones → Moves e e'
  | onward (added : List Count) : e.state ≠ .closed → e'.state ≠ .closed → e'.course = e.course ++ added →
      e'.milestones = e.milestones ++ added → Moves e e'
  | ends (added : List Count) : e.state ≠ .closed → e'.state = .closed → Course (e.course ++ added) →
      e'.milestones = e.milestones ++ (added ++ [.connectionClosed]) → Moves e e'

omit [Transport T] [Scheduler S] in
theorem course_sound (e : Endpoint T S) : Course e.course := by
  cases e with
  | client c =>
    unfold course
    dsimp only
    split
    · exact .nothing
    · exact .nothing
    · exact .attempt
    · exact .success
  | server c =>
    unfold course
    dsimp only
    split
    · exact .success
    · exact .attempt

omit [Transport T] [Scheduler S] in
theorem Books.moves (h : e.Books) (hmoves : e.Moves e') (hunarmed : e'.Unhurried → ¬e'.session.Armed) : e'.Books := by
  cases hmoves with
  | still hstate hcourse hsame =>
    refine ⟨fun hopen => ?_, fun hclosed => ?_, hunarmed⟩
    · rw [hsame, hcourse]
      exact h.ongoing (hstate ▸ hopen)
    · rw [hsame]
      exact h.ended (hstate ▸ hclosed)
  | onward added hopen hopen' hcourse hadded =>
    refine ⟨fun _ => ?_, fun hclosed => (hopen' hclosed).elim, hunarmed⟩
    rw [hadded, h.ongoing hopen, hcourse, List.cons_append]
  | ends added hopen hclosed hcourse hadded =>
    refine ⟨fun hopen' => (hopen' hclosed).elim, fun _ => ⟨_, hcourse, ?_⟩, hunarmed⟩
    rw [hadded, h.ongoing hopen, List.cons_append, List.append_assoc]

/-- Calls without milestones leave the course of an end as it was. -/
theorem moves_routine (e : Endpoint T (Remembering S)) {call : Call} (h : call.Routine) : e.Moves (e.call call) := by
  have hquiet := e.quiet_call h
  refine .still hquiet.state ?_ (by rw [milestones, hquiet.milestones, List.append_nil, milestones])
  cases e with
  | client c =>
    obtain ⟨c', hcall⟩ := call_client c call
    have hstate : c'.session.state = c.session.state := by
      have hsame := hquiet.state
      rwa [hcall] at hsame
    rw [hcall]
    simp only [course, ClientConnection.state, hstate]
  | server c =>
    rw [ServerConnection.server_call]
    have hmessage : ∀ bytes, call ≠ .message bytes := by
      rintro bytes rfl
      exact h
    obtain ⟨hconfig, hcame⟩ := c.call_keeps hmessage
    have hreceived : (c.call call).handshakeReceived = c.handshakeReceived := by
      rw [ServerConnection.handshakeReceived, hconfig, hcame]
      rfl
    simp only [course, hreceived]

omit [Transport T] [Scheduler S] in
theorem withSession_session (e : Endpoint T S) : e.withSession e.session = e := by
  cases e <;> rfl

omit [Transport T] [Scheduler S] in
/-- To close an open end ends its course. -/
theorem moves_closed {s : Session T (Remembering S)} (hopen : e.state ≠ .closed) (hclosed : s.state = .closed)
    (h : Session.Reaches [.connectionClosed] e.session s) : e.Moves (e.withSession s) := by
  refine .ends [] hopen (by rw [state, session_withSession, hclosed]) ?_ ?_
  · rw [List.append_nil]
    exact e.course_sound
  · rw [milestones, session_withSession]
    exact h.milestones

/-- Calls that close, and what they leave armed. -/
theorem moves_closing (e : Endpoint T (Remembering S)) {call : Call} (h : call.closing? ≠ none) :
    e.Moves (e.call call) ∧ ((e.call call).session.Armed → e.session.Armed) ∧ (e.call call).state = .closed := by
  by_cases hclosed : e.state = .closed
  · have hsession : e.session.state = .closed := hclosed
    have hsame : e.call call = e := by
      cases call with
      | close code reason =>
        show e.withSession (e.session.close code reason) = e
        rw [Session.close, if_pos hsession, withSession_session]
      | transportClosed code reason =>
        show e.withSession (e.session.closedByPeer code reason) = e
        rw [Session.closedByPeer, if_pos hsession, withSession_session]
      | _ => exact absurd rfl h
    rw [hsame]
    exact ⟨.still rfl rfl rfl, id, hclosed⟩
  · obtain ⟨s, hcall, hs, hreaches⟩ : ∃ s, e.call call = e.withSession s ∧ s.state = .closed ∧
        Session.Reaches [.connectionClosed] e.session s := by
      cases call with
      | close code reason => exact ⟨_, rfl, Session.close_state _ _ _, e.session.reaches_close hclosed code reason⟩
      | transportClosed code reason =>
        exact ⟨_, rfl, Session.closedByPeer_state _ _ _, e.session.reaches_closedByPeer hclosed code reason⟩
      | _ => exact absurd rfl h
    rw [hcall, state, session_withSession]
    exact ⟨moves_closed hclosed hs hreaches, hreaches.armed, hs⟩

end Endpoint

/-! ## What happens to a client -/

namespace ClientConnection

variable {T S : Type} [Transport T] [Scheduler S] {c : ClientConnection T (Remembering S)}

open Endpoint (Moves)

omit [Transport T] in
theorem milestones_adopt (c : ClientConnection T (Remembering S)) (handshake : Handshake) :
    Journal.milestones (c.adopt handshake).session.journal =
      Journal.milestones c.session.journal ++ [.handshakeSuccess] := by
  obtain ⟨_, _, hactivate⟩ :=
    c.session.activate_eq handshake.client handshake.server (rateWindowMs handshake.rateWindow)
  have hdropped : ∀ d : Dispatcher, Journal.milestones (d.drainPending handshake.server).2 = [] := by
    intro d
    simp [Journal.milestones, Journal.counts, Dispatcher.drainPending, Dispatcher.report, List.filterMap_flatMap]
  have hcalled : ∀ d : Dispatcher, Journal.milestones d.fireReady.2 = [] := by
    intro d
    simp [Journal.milestones, Journal.counts, Dispatcher.fireReady, List.filterMap_map]
  simp only [adopt, hactivate, Session.note, Session.count, Journal.milestones_append, hdropped, hcalled,
    List.append_nil]
  rfl

omit [Transport T] in
theorem milestones_stopExpiry (c : ClientConnection T (Remembering S)) :
    Journal.milestones c.stopExpiry.session.journal = Journal.milestones c.session.journal := by
  obtain ⟨scheduler, timers, hsession⟩ := c.stopExpiry_eq
  rw [hsession]

omit [Transport T] in
theorem moves_awaitHandshake (h : c.state = .connecting) :
    Moves (.client c) (.client c.awaitHandshake : Endpoint T (Remembering S)) := by
  refine .onward [.handshakeAttempt] (fun hclosed => nomatch h.symm.trans hclosed) nofun ?_ ?_
  · simp only [Endpoint.course, h]
    rfl
  · exact Journal.milestones_append _ _

/-- The first message makes a client ready, or it closes it. -/
theorem moves_completeHandshake (h : c.state = .awaitingSchema) (bytes : Bytes) :
    Moves (.client c) (.client (c.completeHandshake bytes) : Endpoint T (Remembering S)) := by
  have hopen : (Endpoint.client c).state ≠ .closed := fun hclosed => nomatch h.symm.trans hclosed
  have hcourse : (Endpoint.client c).course = [.handshakeAttempt] := by simp only [Endpoint.course, h]
  unfold completeHandshake
  split
  · refine .onward [.handshakeSuccess] hopen nofun (by rw [hcourse]; rfl) ?_
    exact (c.stopExpiry.milestones_adopt _).trans (congrArg (· ++ _) c.milestones_stopExpiry)
  · refine .ends [.handshakeFailed] hopen (Session.close_state _ _ _) (by rw [hcourse]; exact .failure) ?_
    have hstopped : c.stopExpiry.session.state ≠ .closed := by
      rw [c.aside_stopExpiry.state]
      exact hopen
    have hcount := c.stopExpiry.session.reaches_count .handshakeFailed rfl
    have hclose := (c.stopExpiry.session.count .handshakeFailed).reaches_close hstopped
    exact (hcount.trans (hclose _ _)).milestones.trans (congrArg (· ++ _) c.milestones_stopExpiry)

theorem moves_receiveOrFail (h : c.state = .ready) (bytes : Bytes) :
    Moves (.client c) (.client { c with session := c.session.receiveOrFail bytes } : Endpoint T (Remembering S)) := by
  have hopen : c.session.state ≠ .closed := fun hclosed => nomatch h.symm.trans hclosed
  obtain hquiet | ⟨hclosed, hfailed⟩ := c.session.receiveOrFail_reaches hopen bytes
  · refine .still hquiet.state ?_ (hquiet.milestones.trans (List.append_nil _))
    have hstate : (c.session.receiveOrFail bytes).state = .ready := hquiet.state.trans h
    simp only [Endpoint.course, ClientConnection.state, hstate]
    rw [show c.session.state = .ready from h]
  · refine .ends [] hopen hclosed ?_ hfailed.milestones
    rw [List.append_nil]
    exact Endpoint.course_sound _

theorem moves_expire (h : c.state ≠ .connecting) :
    Moves (.client c) (.client c.expire : Endpoint T (Remembering S)) := by
  unfold expire
  dsimp only
  split
  · rename_i hstate
    exact (h hstate).elim
  · rename_i hstate
    have hopen : c.session.state ≠ .closed := fun hclosed => nomatch Eq.trans (Eq.symm hstate) hclosed
    refine .ends [.handshakeFailed] hopen (Session.close_state _ _ _) ?_
      (c.session.reaches_handshakeTimedOut hopen).milestones
    have hcourse : (Endpoint.client c).course = [.handshakeAttempt] := by
      have hstate' : c.state = .awaitingSchema := hstate
      simp only [Endpoint.course, hstate']
    rw [hcourse]
    exact .failure
  · exact .still rfl rfl rfl

end ClientConnection

/-! ## What happens to a server -/

namespace ServerConnection

variable {T S : Type} [Transport T] [Scheduler S] {c : ServerConnection T (Remembering S)}

open Endpoint (Moves)

omit [Transport T] in
/-- The look at a message counts a success or a failure if nothing is decided yet; a message that is let pass
leaves the server with the course it counted. -/
theorem checkFirst_reaches (c : ServerConnection T (Remembering S)) (bytes : Bytes) :
    ∃ added, Session.Reaches added c.session (c.checkFirst bytes).2.session ∧
      Course ((Endpoint.server c).course ++ added) ∧
      ((c.checkFirst bytes).1 = .ok () →
        (Endpoint.server (c.checkFirst bytes).2).course = (Endpoint.server c).course ++ added) := by
  have hnothing : Session.Reaches [] c.session c.session := (Session.Quiet.refl _).toReaches
  have hsound : Course ((Endpoint.server c).course ++ []) := by
    rw [List.append_nil]
    exact Endpoint.course_sound _
  have hsame : (Endpoint.server c).course = (Endpoint.server c).course ++ [] := (List.append_nil _).symm
  unfold checkFirst
  split
  · exact ⟨[], hnothing, hsound, fun _ => hsame⟩
  · rename_i required hrequired
    split
    · exact ⟨[], hnothing, hsound, fun _ => hsame⟩
    · have hmissing : c.firstCame = false → (Endpoint.server c).course = [.handshakeAttempt] := by
        intro hcame
        simp [Endpoint.course, handshakeReceived, hcame, hrequired]
      split
      · rename_i hcame _
        refine ⟨[.handshakeSuccess], ?_, by rw [hmissing hcame]; exact .success, fun _ => ?_⟩
        · have hcancel : ∀ handle, Session.Reaches [] c.session (c.session.cancelTimer handle) :=
            fun _ => ⟨id, (List.append_nil _).symm⟩
          unfold takeFirst
          split
          · exact (hcancel _).trans (Session.reaches_count _ _ rfl)
          · exact c.session.reaches_count .handshakeSuccess rfl
        · rw [hmissing hcame]
          rfl
      · rename_i hcame _
        refine ⟨[.handshakeFailed], c.session.reaches_count _ rfl, ?_, fun hpassed => by cases hpassed⟩
        rw [hmissing hcame]
        exact .failure
      · exact ⟨[], hnothing, hsound, fun _ => hsame⟩
      · exact ⟨[], hnothing, hsound, fun _ => hsame⟩

theorem moves_onMessage (c : ServerConnection T (Remembering S)) (bytes : Bytes) :
    Moves (.server c) (.server (c.onMessage bytes) : Endpoint T (Remembering S)) ∧
      ((c.onMessage bytes).session.Armed → c.session.Armed) := by
  by_cases hready : c.session.state = .ready
  · have hopen : c.session.state ≠ .closed := by rw [hready]; decide
    have hstate := (c.aside_checkFirst bytes).state
    obtain ⟨added, hreaches, hcourse, hpassed⟩ := c.checkFirst_reaches bytes
    have hready' : c.session.isReady = true := by simp [Session.isReady, hready]
    simp only [onMessage, hready', if_true]
    generalize c.checkFirst bytes = checked at hstate hreaches hpassed
    obtain ⟨result, c'⟩ := checked
    have hopen' : c'.session.state ≠ .closed := hstate ▸ hopen
    cases result with
    | ok =>
      dsimp only
      obtain hquiet | ⟨hclosed, hfailed⟩ := c'.session.receiveOrFail_reaches hopen' bytes
      · have hpassed' := hreaches.trans hquiet.toReaches
        rw [List.append_nil] at hpassed'
        exact ⟨.onward added hopen (fun hclosed => hopen' (hquiet.state.symm.trans hclosed)) (hpassed rfl)
          hpassed'.milestones, hpassed'.armed⟩
      · have hclosing := hreaches.trans hfailed
        exact ⟨.ends added hopen hclosed hcourse hclosing.milestones, hclosing.armed⟩
    | error error =>
      have hclosing := hreaches.trans (c'.session.reaches_fail hopen' error)
      exact ⟨.ends added hopen (Session.fail_state _ _) hcourse hclosing.milestones, hclosing.armed⟩
  · rw [onMessage_of_not_ready hready]
    exact ⟨.still rfl rfl rfl, id⟩

/-- A server that requires no packet is not brought the timer. -/
theorem moves_expire (c : ServerConnection T (Remembering S)) (h : c.definition.config.handshakePacket ≠ none) :
    Moves (.server c) (.server c.expire : Endpoint T (Remembering S)) ∧ (c.expire.session.Armed → c.session.Armed) := by
  unfold expire
  dsimp only
  split
  · rename_i hpending
    simp only [Bool.and_eq_true, Bool.not_eq_true', Session.isReady, beq_iff_eq] at hpending
    obtain ⟨hcame, hready⟩ := hpending
    have hopen : c.session.state ≠ .closed := by rw [hready]; decide
    have hgone := c.session.reaches_handshakeTimedOut hopen
    refine ⟨.ends [.handshakeFailed] hopen (Session.close_state _ _ _) ?_ hgone.milestones, hgone.armed⟩
    have hcourse : (Endpoint.server c).course = [.handshakeAttempt] := by
      simp [Endpoint.course, handshakeReceived, hcame, h]
    rw [hcourse]
    exact .failure
  · exact ⟨.still rfl rfl rfl, id⟩

end ServerConnection

/-! ## Runs -/

namespace Endpoint

variable {T S : Type} [Transport T] [Scheduler S] {e : Endpoint T (Remembering S)}

omit [Transport T] [Scheduler S] in
/-- A client that left its first state does not come back to it. -/
theorem Books.left {c c' : ClientConnection T (Remembering S)} (h : (client c).Books)
    (hmoves : (client c).Moves (client c')) (hleft : c'.state ≠ .connecting) : (client c').Books :=
  h.moves hmoves fun hfirst => (hleft hfirst).elim

theorem Books.completeHandshake {c : ClientConnection T (Remembering S)} (h : (client c).Books)
    (hstate : c.state = .awaitingSchema) (bytes : Bytes) : (client (c.completeHandshake bytes)).Books := by
  have hne : c.session.state ≠ .connecting := fun hfirst => nomatch hfirst.symm.trans hstate
  exact h.left (ClientConnection.moves_completeHandshake hstate bytes)
    (ConnectionState.ne_connecting (c.acts_completeHandshake bytes hstate).rank_le hne)

theorem Books.clientMessage {c : ClientConnection T (Remembering S)} (h : (client c).Books) (bytes : Bytes) :
    (client (c.onMessage bytes)).Books := by
  unfold ClientConnection.onMessage
  split
  · rename_i hstate
    have hawaiting := h.left (ClientConnection.moves_awaitHandshake hstate) nofun
    exact hawaiting.completeHandshake rfl bytes
  · rename_i hstate
    exact h.completeHandshake hstate bytes
  · rename_i hstate
    have hne : c.session.state ≠ .connecting := fun hfirst => nomatch hfirst.symm.trans hstate
    exact h.left (ClientConnection.moves_receiveOrFail hstate bytes)
      (ConnectionState.ne_connecting (c.session.acts_receiveOrFail bytes hstate).rank_le hne)
  · exact h

theorem Books.clientCall {c : ClientConnection T (Remembering S)} (h : (client c).Books) (call : Call)
    (htimely : call = .timer .handshakeExpiry → c.session.Armed) : ((client c).call call).Books := by
  by_cases hroutine : call.Routine
  · have hquiet := (client c).quiet_call hroutine
    refine h.moves ((client c).moves_routine hroutine) fun hfirst harmed => ?_
    obtain ⟨c', hcall⟩ := call_client c call
    rw [hcall] at hfirst hquiet harmed
    exact h.unarmed (hquiet.state.symm.trans hfirst) (hquiet.armed harmed)
  · cases call with
    | opened =>
      show (client c.opened).Books
      unfold ClientConnection.opened
      split
      · exact h.left (ClientConnection.moves_awaitHandshake ‹_›) nofun
      · exact h
    | message bytes => exact h.clientMessage bytes
    | timer kind =>
      cases kind with
      | handshakeExpiry =>
        have hstate : c.state ≠ .connecting := fun hfirst => h.unarmed hfirst (htimely rfl)
        exact h.left (ClientConnection.moves_expire hstate)
          (ConnectionState.ne_connecting (c.acts_onTimer .handshakeExpiry).rank_le hstate)
      | _ => exact (hroutine trivial).elim
    | close code reason =>
      obtain ⟨hmoves, -, hclosed⟩ := @moves_closing _ _ _ _ (client c) (.close code reason) nofun
      exact h.left hmoves fun hfirst => nomatch hfirst.symm.trans hclosed
    | transportClosed code reason =>
      obtain ⟨hmoves, -, hclosed⟩ := @moves_closing _ _ _ _ (client c) (.transportClosed code reason) nofun
      exact h.left hmoves fun hfirst => nomatch hfirst.symm.trans hclosed
    | _ => exact (hroutine trivial).elim

theorem Books.serverCall {c : ServerConnection T (Remembering S)} (h : (server c).Books) (call : Call)
    (htimely : call = .timer .handshakeExpiry → c.session.Armed) : ((server c).call call).Books := by
  have hconfig := c.config_call call
  have hserver := c.server_call call
  -- no call on a server arms the timer
  have hkept : (server c).Moves ((server c).call call) ∧
      (((server c).call call).session.Armed → c.session.Armed) := by
    by_cases hroutine : call.Routine
    · exact ⟨(server c).moves_routine hroutine, ((server c).quiet_call hroutine).armed⟩
    · cases call with
      | opened => exact ⟨.still rfl rfl rfl, id⟩
      | message bytes => exact c.moves_onMessage bytes
      | timer kind =>
        cases kind with
        | handshakeExpiry =>
          exact c.moves_expire fun hnone => h.unarmed hnone (htimely rfl)
        | _ => exact (hroutine trivial).elim
      | close code reason =>
        obtain ⟨hmoves, harmed, -⟩ := @moves_closing _ _ _ _ (server c) (.close code reason) nofun
        exact ⟨hmoves, harmed⟩
      | transportClosed code reason =>
        obtain ⟨hmoves, harmed, -⟩ := @moves_closing _ _ _ _ (server c) (.transportClosed code reason) nofun
        exact ⟨hmoves, harmed⟩
      | _ => exact (hroutine trivial).elim
  refine h.moves hkept.1 fun hnone harmed => h.unarmed ?_ (hkept.2 harmed)
  rw [hserver] at hnone
  exact (congrArg ServerConfig.handshakePacket hconfig).symm.trans hnone

theorem Books.call (h : e.Books) (call : Call) (htimely : call = .timer .handshakeExpiry → e.session.Armed) :
    (e.call call).Books := by
  cases e with
  | client c => exact h.clientCall call htimely
  | server c => exact h.serverCall call htimely

/-! ## Beginnings -/

/-- The ends of all connections, from their beginnings on: clients, servers, and what is left of a server whose
handshake could not be written. The timer that gives up on a handshake is brought to those that armed it. -/
inductive Timely : Endpoint T (Remembering S) → Prop
  | client (transport : T) (scheduler : S) (config : ClientConfig) :
      Timely (client (.start transport ⟨scheduler, []⟩ config))
  | served {definition : Definition} {connection : ServerConnection T (Remembering S)} (transport : T)
      (scheduler : S) : ServerConnection.accept definition transport ⟨scheduler, []⟩ = .serving connection →
      Timely (server connection)
  | refused {definition : Definition} {error : ProtocolError} {session : Session T (Remembering S)} (transport : T)
      (scheduler : S) : ServerConnection.accept definition transport ⟨scheduler, []⟩ = .refused error session →
      Timely (server { session, definition })
  | call {e : Endpoint T (Remembering S)} (call : Call) : Timely e →
      (call = .timer .handshakeExpiry → e.session.Armed) → Timely (e.call call)

theorem Timely.run (h : e.Timely) {calls : List Call} (hcalls : ∀ call ∈ calls, call ≠ .timer .handshakeExpiry) :
    (e.run calls).Timely := by
  induction calls generalizing e with
  | nil => exact h
  | cons call calls ih =>
    obtain ⟨hcall, hrest⟩ := List.forall_mem_cons.1 hcalls
    exact ih (h.call call fun heq => (hcall heq).elim) hrest

omit [Transport T] in
theorem books_serve {definition : Definition} {s : Session T (Remembering S)} (hunarmed : ¬s.Armed)
    (h : Journal.milestones s.journal = [.connectionEstablished, .handshakeAttempt]) :
    (server (ServerConnection.serve definition s)).Books := by
  have hstill : ¬(s.activate definition.server definition.client definition.rateWindow).Armed :=
    hunarmed ∘ Session.armed_activate
  have hjournal : (s.activate definition.server definition.client definition.rateWindow).journal = s.journal := by
    obtain ⟨_, _, hactivate⟩ := s.activate_eq definition.server definition.client definition.rateWindow
    rw [hactivate]
  unfold ServerConnection.serve
  cases hrequired : definition.config.handshakePacket with
  | none =>
    refine ⟨fun _ => ?_, fun hclosed => (by cases hclosed), fun _ => hstill⟩
    have hcourse : Journal.milestones (s.journal ++ [.counted .handshakeSuccess]) =
        [.connectionEstablished, .handshakeAttempt, .handshakeSuccess] := by
      rw [Journal.milestones_append, h]
      rfl
    simp only [course, ServerConnection.handshakeReceived, hrequired]
    rw [← hjournal] at hcourse
    exact hcourse
  | some required =>
    refine ⟨fun _ => ?_, fun hclosed => (by cases hclosed), fun hnone => by cases hrequired.symm.trans hnone⟩
    simp only [course, ServerConnection.handshakeReceived, hrequired]
    rw [← hjournal] at h
    exact h

theorem books_refused {definition : Definition} {s : Session T (Remembering S)} (hopen : s.state ≠ .closed)
    (hunarmed : ¬s.Armed) (h : Journal.milestones s.journal = [.connectionEstablished, .handshakeAttempt])
    {code : CloseCode} {reason : String} :
    (server { session := (s.count .handshakeFailed).close code reason, definition }).Books := by
  have hclosed := Session.close_state (s.count .handshakeFailed) code reason
  have hreaches := (s.reaches_count .handshakeFailed rfl).trans
    ((s.count .handshakeFailed).reaches_close hopen code reason)
  refine ⟨fun hopen' => (hopen' hclosed).elim, fun _ => ⟨_, .failure, hreaches.milestones.trans ?_⟩,
    fun _ => hunarmed ∘ hreaches.armed⟩
  rw [h]
  rfl

/-- Every connection keeps its books. -/
theorem Timely.books (h : e.Timely) : e.Books := by
  induction h with
  | client transport scheduler config =>
    exact ⟨fun _ => rfl, fun hclosed => (by cases hclosed), fun _ => List.not_mem_nil⟩
  | served transport scheduler haccept =>
    simp only [ServerConnection.accept, Session.write] at haccept
    split at haccept
    · rename_i s hwrite
      cases haccept
      split at hwrite
      · cases hwrite
        exact books_serve List.not_mem_nil rfl
      · cases hwrite
    · cases haccept
  | @refused definition error session transport scheduler haccept =>
    simp only [ServerConnection.accept, Session.write] at haccept
    split at haccept
    · cases haccept
    · rename_i s hwrite
      cases haccept
      split at hwrite
      · cases hwrite
      · cases hwrite
        exact books_refused (fun hclosed => by cases hclosed) List.not_mem_nil rfl
  | call call _ htimely ih => exact ih.call call htimely

/-- What an end counted, in numbers. -/
structure Tallies (e : Endpoint T S) (counts : List Count) : Prop where
  established : counts.count .connectionEstablished = 1
  closed : counts.count .connectionClosed = if e.state = .closed then 1 else 0
  decided : counts.count .handshakeSuccess + counts.count .handshakeFailed ≤ counts.count .handshakeAttempt
  attempted : counts.count .handshakeAttempt ≤ 1

omit [Transport T] [Scheduler S] in
theorem Books.tallies (h : e.Books) : e.Tallies e.milestones := by
  have hcourse : ∀ course, Course course → course.count .connectionEstablished = 0 ∧
      course.count .connectionClosed = 0 ∧
      course.count .handshakeSuccess + course.count .handshakeFailed ≤ course.count .handshakeAttempt ∧
      course.count .handshakeAttempt ≤ 1 := by
    rintro course (_ | _ | _ | _) <;> decide
  by_cases hclosed : e.state = .closed
  · obtain ⟨course, hsound, hmilestones⟩ := h.ended hclosed
    obtain ⟨hbegun, hended, hdecided, hattempted⟩ := hcourse course hsound
    rw [hmilestones]
    constructor <;> simp [List.count_append, hclosed, hbegun, hended, hdecided, hattempted]
  · obtain ⟨hbegun, hended, hdecided, hattempted⟩ := hcourse _ e.course_sound
    rw [h.ongoing hclosed]
    constructor <;> simp [hclosed, hbegun, hended, hdecided, hattempted]

omit [Transport T] [Scheduler S] in
theorem count_milestones (e : Endpoint T S) {count : Count} (h : count.isMilestone = true) :
    (Journal.counts e.session.journal).count count = e.milestones.count count :=
  (List.count_filter h).symm

omit [Transport T] [Scheduler S] in
theorem Books.counted (h : e.Books) : e.Tallies (Journal.counts e.session.journal) := by
  have htallies := h.tallies
  constructor
  · exact (e.count_milestones rfl).trans htallies.established
  · exact (e.count_milestones rfl).trans htallies.closed
  · rw [e.count_milestones rfl, e.count_milestones rfl, e.count_milestones rfl]
    exact htallies.decided
  · exact (e.count_milestones rfl).trans_le htallies.attempted

omit [Transport T] [Scheduler S] in
/-- The first milestone of an end is its beginning. -/
theorem Books.begins (h : e.Books) : ∃ rest, e.milestones = .connectionEstablished :: rest := by
  by_cases hclosed : e.state = .closed
  · obtain ⟨course, -, hmilestones⟩ := h.ended hclosed
    exact ⟨_, hmilestones⟩
  · exact ⟨_, h.ongoing hclosed⟩

omit [Transport T] [Scheduler S] in
/-- At any time an end counted its close only after its beginning, and once. -/
theorem Books.closed_le (h : e.Books) {front back : List Count}
    (hcounts : Journal.counts e.session.journal = front ++ back) :
    front.count .connectionClosed + (back.take 1).count .connectionClosed ≤ front.count .connectionEstablished := by
  have honce : front.count .connectionClosed + back.count .connectionClosed ≤ 1 := by
    rw [← List.count_append, ← hcounts, h.counted.closed]
    split <;> decide
  have htake : (back.take 1).count .connectionClosed ≤ back.count .connectionClosed :=
    (List.take_sublist 1 back).count_le _
  obtain ⟨rest, hrest⟩ := h.begins
  rw [milestones, Journal.milestones, hcounts, List.filter_append] at hrest
  cases hfront : front.filter Count.isMilestone with
  | nil =>
    have hnone : ∀ count : Count, count.isMilestone = true → front.count count = 0 := by
      intro count hcount
      rw [← List.count_filter hcount, hfront, List.count_nil]
    have hnext : (back.take 1).count .connectionClosed = 0 := by
      rw [List.count_eq_zero]
      intro hmem
      cases back with
      | nil => cases hmem
      | cons count back =>
        cases List.mem_singleton.1 hmem
        rw [hfront, List.nil_append] at hrest
        cases hrest
    rw [hnone _ rfl, hnone _ rfl, hnext]
  | cons count before =>
    rw [hfront] at hrest
    cases hrest
    have hbegun : 0 < front.count .connectionEstablished := by
      rw [← List.count_filter (by rfl : Count.isMilestone .connectionEstablished = true), hfront]
      simp
    omega

end Endpoint

end PacketProtocol
