import PacketProtocol.Proofs.Callbacks
import PacketProtocol.Proofs.Refusals
/-!
# What becomes of released payloads

A window boundary takes payloads out of their queues before it sends any of them, and it stops at the first that
fails. The ones before that went into batches or were written, and the failed one is reported. Those behind it are
lost: they wait in no queue, and nothing is told of them.
-/

namespace PacketProtocol

/-- The transport takes these messages one after the other. -/
def Transport.Takes {T : Type} [Transport T] (transport : T) : List Bytes → Prop
  | [] => True
  | message :: messages =>
    (send transport message).1 = .ok () ∧ Takes (send transport message).2 messages

/-- Counting runs no callbacks. -/
theorem Journal.callbacks_tallied (journal : Journal) (counts : List Count) :
    callbacks (journal ++ counts.map .counted) = callbacks journal := by
  have hcounts : callbacks (counts.map .counted) = [] := by
    induction counts with
    | nil => rfl
    | cons count counts ih => exact ih
  rw [callbacks_append, hcounts, List.append_nil]

namespace Session

variable {T S : Type} {s s' s'' : Session T S} {key : UInt8} {payload : Bytes}

/-! ## Batches while payloads go out -/

theorem message?_of_batchers (h : s'.batchers = s.batchers) (key : UInt8) (payload : Bytes) :
    s'.message? key payload = s.message? key payload := by
  rw [message?, message?, batcher?, batcher?, h]

theorem waiting_of_batchers (h : s'.batchers = s.batchers) (key : UInt8) : s'.waiting key = s.waiting key := by
  rw [waiting, waiting, batcher?, batcher?, h]

/-- What a batch takes is written in no message of its own, and other packets are written as before. -/
theorem message?_setBatcher_of_ne {batcher : Batcher} {other : UInt8} (h : other ≠ batcher.key) (payload : Bytes) :
    (s.setBatcher batcher).message? other payload = s.message? other payload := by
  rw [message?, message?, batcher?_setBatcher_of_ne h]

theorem message?_of_room {batcher : Batcher} (hbatcher : s.batcher? key = some batcher)
    (hroom : batcher.isFull = false) (payload : Bytes) : s.message? key payload = none := by
  rw [message?, hbatcher]
  simp [hroom]

section Emitting

variable [Transport T]

/-- Why a released payload was not sent: the transport refuses its message, or no batch can hold it. -/
inductive Fails (s : Session T S) (transport : T) (key : UInt8) (payload : Bytes) : ProtocolError → T → Prop
  | refused {message : Bytes} {error : ProtocolError} {after : T} : s.message? key payload = some message →
      Transport.send transport message = (.error error, after) → Fails s transport key payload error after
  | long : (s.batcher? key).isSome → Varint.bound ≤ payload.length →
      Fails s transport key payload (.encode (.varintRange payload.length Varint.bound)) transport

/-- Only batchers matter for why. -/
theorem Fails.of_batchers {transport after : T} {error : ProtocolError}
    (h : s.Fails transport key payload error after) (hbatchers : s'.batchers = s.batchers) :
    s'.Fails transport key payload error after := by
  cases h with
  | refused hmessage hsend => exact .refused ((message?_of_batchers hbatchers key payload).trans hmessage) hsend
  | long hbatcher hlong =>
    rw [batcher?, ← hbatchers] at hbatcher
    exact .long hbatcher hlong

/-- Where released payloads went: into batches, out in messages, or nowhere, as the transport had stopped. -/
structure Released (s : Session T S) (released : List (UInt8 × Bytes)) (s' : Session T S)
    (batched written stopped : List (UInt8 × Bytes)) (messages : List Bytes) : Prop where
  split : ∀ key, ofKey key released = ofKey key batched ++ ofKey key written ++ ofKey key stopped
  waiting : ∀ key, s'.waiting key = s.waiting key ++ ofKey key batched
  sent : List.Forall₂ (fun entry message => s'.message? entry.1 entry.2 = some message) written messages
  taken : Transport.Takes s.transport messages
  /-- What is written at first is written on, and no batch takes it. -/
  lasting : ∀ key payload message, s.message? key payload = some message →
    s'.message? key payload = some message ∧ ofKey key batched = []
  dispatcher : s'.dispatcher = s.dispatcher
  journal : Journal.callbacks s'.journal = Journal.callbacks s.journal

/-- How sending released payloads came to an end, with those that were not sent. -/
inductive Halts (s s' : Session T S) (messages : List Bytes) : Result Unit → List (UInt8 × Bytes) → Prop
  | sent : s'.transport = Transport.sendAll s.transport messages → Halts s s' messages (.ok ()) []
  | failed {key : UInt8} {payload : Bytes} {lost : List (UInt8 × Bytes)} {error : ProtocolError} :
      s'.Fails (Transport.sendAll s.transport messages) key payload error s'.transport →
      Halts s s' messages (.error error) ((key, payload) :: lost)

variable {batched written stopped released : List (UInt8 × Bytes)} {messages : List Bytes}

/-- Only the transport matters for where the messages began. -/
theorem Halts.of_transport {messages' : List Bytes} {result : Result Unit} (h : s.Halts s' messages result stopped)
    (htransport : Transport.sendAll s.transport messages = Transport.sendAll s''.transport messages') :
    s''.Halts s' messages' result stopped := by
  cases h with
  | sent hsent => exact .sent (hsent.trans htransport)
  | failed hfails => exact .failed (htransport ▸ hfails)

/-- Nothing is sent of payloads the first of which fails. -/
theorem Released.none_sent (released : List (UInt8 × Bytes)) (hbatchers : s'.batchers = s.batchers)
    (hdispatcher : s'.dispatcher = s.dispatcher)
    (hjournal : Journal.callbacks s'.journal = Journal.callbacks s.journal) :
    s.Released released s' [] [] released [] := by
  refine ⟨fun _ => rfl, fun key => ?_, .nil, trivial, fun key payload message h => ⟨?_, rfl⟩, hdispatcher, hjournal⟩
  · rw [waiting_of_batchers hbatchers, ofKey_nil, List.append_nil]
  · rw [message?_of_batchers hbatchers]
    exact h

/-- The first payload was written. -/
theorem Released.cons_written {message : Bytes} {transport : T} (counts : List Count)
    (hmessage : s.message? key payload = some message)
    (hsend : Transport.send s.transport message = (.ok (), transport))
    (h : Released { s with transport, journal := s.journal ++ counts.map .counted } released s' batched written
      stopped messages) :
    s.Released ((key, payload) :: released) s' batched ((key, payload) :: written) stopped (message :: messages) := by
  have hnone : ofKey key batched = [] := (h.lasting key payload message hmessage).2
  refine ⟨fun other => ?_, h.waiting, .cons (h.lasting key payload message hmessage).1 h.sent,
    ⟨by rw [hsend], by rw [hsend]; exact h.taken⟩, h.lasting, h.dispatcher,
    h.journal.trans (Journal.callbacks_tallied _ _)⟩
  have hsplit := h.split other
  by_cases hother : key = other
  · subst hother
    rw [ofKey_cons_self, ofKey_cons_self, hsplit, hnone]
    rfl
  · rw [ofKey_cons_of_ne hother, ofKey_cons_of_ne hother]
    exact hsplit

/-- The first payload went into its batch. -/
theorem Released.cons_pending {batcher : Batcher} (counts : List Count) (hbatcher : s.batcher? key = some batcher)
    (hroom : batcher.isFull = false)
    (h : Released { s.setBatcher { batcher with pending := batcher.pending ++ [payload] } with
      journal := s.journal ++ counts.map .counted } released s' batched written stopped messages) :
    s.Released ((key, payload) :: released) s' ((key, payload) :: batched) written stopped messages := by
  obtain rfl := key_of_batcher? hbatcher
  refine ⟨fun other => ?_, fun other => ?_, h.sent, h.taken, fun other p message hmessage => ?_, h.dispatcher,
    h.journal.trans (Journal.callbacks_tallied _ _)⟩
  · have hsplit := h.split other
    by_cases hother : batcher.key = other
    · subst hother
      rw [ofKey_cons_self, ofKey_cons_self, hsplit]
      rfl
    · rw [ofKey_cons_of_ne hother, ofKey_cons_of_ne hother]
      exact hsplit
  · refine (h.waiting other).trans ?_
    by_cases hother : other = batcher.key
    · subst hother
      have hpending : (s.setBatcher { batcher with pending := batcher.pending ++ [payload] }).waiting batcher.key =
          batcher.pending ++ [payload] :=
        @waiting_setBatcher _ _ s { batcher with pending := batcher.pending ++ [payload] } _ hbatcher
      have happend : batcher.pending ++ payload :: ofKey batcher.key batched =
          batcher.pending ++ [payload] ++ ofKey batcher.key batched := by simp
      rw [ofKey_cons_self, waiting_of_batcher? hbatcher, happend]
      exact congrArg (· ++ ofKey batcher.key batched) hpending
    · rw [ofKey_cons_of_ne (Ne.symm hother),
        ← @waiting_setBatcher_of_ne _ _ s { batcher with pending := batcher.pending ++ [payload] } _ hother]
      rfl
  · -- a packet with room in its batch is not written directly
    have hother : other ≠ batcher.key := by
      rintro rfl
      rw [message?_of_room hbatcher hroom] at hmessage
      cases hmessage
    rw [ofKey_cons_of_ne (Ne.symm hother)]
    refine h.lasting other p message ?_
    rw [← hmessage]
    exact @message?_setBatcher_of_ne _ _ s { batcher with pending := batcher.pending ++ [payload] } _ hother p

theorem emitAll_released (released : List (UInt8 × Bytes)) (s : Session T S) :
    ∃ batched written stopped messages,
      s.Released released (s.emitAll released).2 batched written stopped messages ∧
        s.Halts (s.emitAll released).2 messages (s.emitAll released).1 stopped := by
  induction released generalizing s with
  | nil => exact ⟨[], [], [], [], .none_sent [] rfl rfl rfl, .sent rfl⟩
  | cons entry released ih =>
    obtain ⟨key, payload⟩ := entry
    have hemits := s.emit_emits key payload
    rw [emitAll]
    generalize s.emit key payload = emitted at hemits ⊢
    obtain ⟨result, after⟩ := emitted
    cases hemits with
    | @written message transport counts hmessage hsend hshort =>
      obtain ⟨batched, written, stopped, messages, hreleased, hhalts⟩ := ih _
      have hsent := hreleased.cons_written counts hmessage hsend
      refine ⟨_, _, _, _, hsent, ?_⟩
      have htransport : Transport.sendAll s.transport (message :: messages) = Transport.sendAll transport messages := by
        rw [Transport.sendAll, List.foldl_cons, hsend]
        rfl
      exact hhalts.of_transport htransport.symm
    | pending counts hbatcher hroom hlt =>
      obtain ⟨batched, written, stopped, messages, hreleased, hhalts⟩ := ih _
      exact ⟨_, _, _, _, hreleased.cons_pending counts hbatcher hroom, hhalts.of_transport rfl⟩
    | @refused message transport error counts hmessage hsend =>
      refine ⟨[], [], (key, payload) :: released, [], ?_, .failed (.refused hmessage hsend)⟩
      exact .none_sent _ rfl rfl (Journal.callbacks_tallied _ _)
    | long hbatcher hlong =>
      refine ⟨[], [], (key, payload) :: released, [], ?_, .failed (.long ?_ hlong)⟩
      · exact .none_sent _ rfl rfl (Journal.callbacks_tallied _ [.packetSent])
      · exact Option.isSome_iff_exists.2 ⟨_, hbatcher⟩

/-! ## Window boundaries -/

/-- Where the payloads are that waited in queues before a window boundary: for each key, in the order they were sent,
those in its batch, those that were written, those that were not sent, and those that wait still. -/
structure Accounts (s s' : Session T S) (batched written stopped : List (UInt8 × Bytes)) (messages : List Bytes) :
    Prop where
  waited : ∀ key, s.deferred.waiting key =
    ofKey key batched ++ ofKey key written ++ ofKey key stopped ++ s'.deferred.waiting key
  batched : ∀ key, s'.waiting key = s.waiting key ++ ofKey key batched
  written : List.Forall₂ (fun entry message => s'.message? entry.1 entry.2 = some message) written messages
  taken : Transport.Takes s.transport messages

/-- What is told of the payloads that were not sent. The first of them failed, and its error is reported; of the
others nothing is. -/
inductive Settles (s s' : Session T S) (messages : List Bytes) : List (UInt8 × Bytes) → Prop
  | sent : s'.transport = Transport.sendAll s.transport messages →
      Journal.callbacks s'.journal = Journal.callbacks s.journal → Settles s s' messages []
  | reported {key : UInt8} {payload : Bytes} {lost : List (UInt8 × Bytes)} {error : ProtocolError} :
      s'.Fails (Transport.sendAll s.transport messages) key payload error s'.transport →
      Journal.callbacks s'.journal =
        Journal.callbacks s.journal ++ [.reported s.dispatcher.errorCallback error] →
      Settles s s' messages ((key, payload) :: lost)

theorem onTimer_accounts (hready : s.state = .ready) (hordered : DeferredQueue.Ordered s.deferred.queues) :
    ∃ batched written stopped messages,
      s.Accounts (s.onTimer .rateReset) batched written stopped messages ∧
        s.Settles (s.onTimer .rateReset) messages stopped := by
  obtain ⟨batched, written, stopped, messages, hreleased, hhalts⟩ :=
    emitAll_released (s.deferred.drainAdmitted s.sendLimiter.reset).1 s.windowStart
  have hholding := s.windowStart.holding_emitAll (s.deferred.drainAdmitted s.sendLimiter.reset).1
  rw [← resetWindow_eq] at hreleased hhalts hholding
  have hwaited : ∀ key, s.deferred.waiting key =
      ofKey key batched ++ ofKey key written ++ ofKey key stopped ++ s.resetWindow.2.deferred.waiting key := by
    intro key
    rw [← hreleased.split key, hholding.deferred]
    exact DeferredQueue.waiting_drain hordered _ key
  refine ⟨batched, written, stopped, messages, ?_⟩
  obtain ⟨hresult, htick⟩ | ⟨error, hresult, htick⟩ := onTimer_rateReset hready
  · rw [hresult] at hhalts
    rw [htick]
    cases hhalts with
    | sent htransport =>
      exact ⟨⟨hwaited, hreleased.waiting, hreleased.sent, hreleased.taken⟩, .sent htransport hreleased.journal⟩
  · rw [hresult] at hhalts
    rw [htick]
    cases hhalts with
    | failed hfails =>
      have hreported : Journal.callbacks (s.resetWindow.2.report error).journal =
          Journal.callbacks s.journal ++ [.reported s.dispatcher.errorCallback error] := by
        have hdispatcher : s.resetWindow.2.dispatcher = s.dispatcher := hreleased.dispatcher
        rw [report, note, Journal.callbacks_append, hreleased.journal, hdispatcher]
        rfl
      exact ⟨⟨hwaited, hreleased.waiting, hreleased.sent, hreleased.taken⟩,
        .reported (hfails.of_batchers rfl) hreported⟩

end Emitting

end Session

/-! ## Connections -/

namespace Endpoint

variable {T S : Type} [Transport T] [Scheduler S] {e : Endpoint T S}

/-- Whatever was called on a connection before, at a window boundary every payload that waited in a queue goes into
its batch, is written, waits still, or was the first to fail, whose error is reported; or it stood behind that one,
and is lost. -/
theorem run_releases {transport : T} (hnew : e.New transport) (calls : List Call)
    (hready : (e.run calls).state = .ready) :
    let s := (e.run calls).session
    let s' := ((e.run calls).onTimer .rateReset).session
    ∃ batched written stopped messages,
      s.Accounts s' batched written stopped messages ∧ s.Settles s' messages stopped := by
  have hbacked := backed_run hnew.backed calls
  generalize e.run calls = after at hready hbacked ⊢
  have htick : (after.onTimer .rateReset).session = after.session.onTimer .rateReset := by
    cases after <;> rfl
  intro s s'
  rw [show s' = s.onTimer .rateReset from htick]
  exact Session.onTimer_accounts (by cases after <;> exact hready) hbacked.ordered

/-- A transport that takes so many messages, and no more. -/
structure Spool where
  room : Nat
  sent : List Bytes := []

instance : Transport Spool where
  send spool message :=
    if spool.room = 0 then (.error .connectionClosed, spool) else (.ok (), ⟨spool.room - 1, spool.sent ++ [message]⟩)
  close spool _ _ := { spool with room := 0 }

namespace Spool

/-- Takes four messages. -/
def client : Endpoint Spool Clock := .client (.start { room := 4 } {} {})

/-- Clients may note once a window, in batches, and move three times. -/
def greeting : Bytes :=
  [84, 87, 73, 82, 1, 137, 0, 4, 4, 50, 0, 1, 4, 110, 111, 116, 101, 137, 0, 4, 4, 0, 0, 3, 4, 109, 111, 118, 101, 0, 0,
    1]

/-- A note and three moves that pass, and as many that wait. -/
def calls : List Call :=
  [.message greeting, .onError "failed", .send "note" [.int 1], .send "note" [.int 2], .send "move" [.int 3],
    .send "move" [.int 4], .send "move" [.int 5], .send "move" [.int 6], .send "move" [.int 7], .send "move" [.int 8]]

/-- The connection when the window is over. -/
def after : Endpoint Spool Clock := (client.run calls).onTimer .rateReset

end Spool

/-- A note and three moves waited. The note went into its batch, the first move was written and the second refused.
The third is lost: it neither waits nor was written. -/
theorem run_releases_spool :
    Spool.client.New { room := 4 } ∧ (Spool.client.run Spool.calls).state = .ready ∧
      (Spool.client.run Spool.calls).session.deferred.queues = [(1, [[1, 2]]), (2, [[1, 6], [1, 7], [1, 8]])] ∧
      Spool.after.session.deferred.queues = [] ∧ Spool.after.session.waiting 1 = [[1, 1], [1, 2]] ∧
      Spool.after.session.transport.sent = [[2, 1, 3], [2, 1, 4], [2, 1, 5], [2, 1, 6]] ∧
      ∃ batched written stopped messages,
        (Spool.client.run Spool.calls).session.Accounts Spool.after.session batched written stopped messages ∧
          (Spool.client.run Spool.calls).session.Settles Spool.after.session messages stopped := by
  have hnew : Spool.client.New { room := 4 } := .client _ _
  have hready : (Spool.client.run Spool.calls).state = .ready := by cbv
  refine ⟨hnew, hready, by cbv, by cbv, by cbv, by cbv, run_releases hnew Spool.calls hready⟩

end Endpoint

end PacketProtocol
