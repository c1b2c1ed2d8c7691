import PacketProtocol.Proofs.Calls
import PacketProtocol.Proofs.Deferring
import PacketProtocol.Proofs.Delivery
/-!
# Ways out of a session

A payload that is sent goes out as a message, waits in a batch, or is held back by the rate limit and
goes one of these ways later. Over a transport that refuses nothing each operation is one of a few
cases, and queues and batches stay in order through all of them.
-/

namespace PacketProtocol

/-! ## Transports that refuse nothing -/

/-- Whatever was written, the next message is taken. -/
def Transport.Accepts {T : Type} [Transport T] (transport : T) : Prop :=
  ∀ messages message, (Transport.send (sendAll transport messages) message).1 = .ok ()

theorem Transport.Accepts.sendAll {T : Type} [Transport T] {transport : T} (h : Accepts transport)
    (messages : List Bytes) : Accepts (Transport.sendAll transport messages) := by
  intro more message
  rw [← sendAll_append]
  exact h (messages ++ more) message

/-! ## Payloads in messages -/

namespace Registry

/-- The payloads that a message carries under a key. -/
def carried (registry : Registry) (key : UInt8) : Bytes → List Bytes
  | [] => []
  | other :: body =>
    if other = key then
      match registry.byKey key with
      | .error _ => []
      | .ok packet =>
        if packet.schema.isBatched then
          match Batcher.unravel packet.tag body packet.schema.maxBatch with
          | .error _ => []
          | .ok payloads => payloads
        else [body]
    else []

variable {registry : Registry} {key other : UInt8} {packet : Packet}

theorem carried_of_ne (h : other ≠ key) (body : Bytes) : registry.carried key (other :: body) = [] := if_neg h

theorem carried_single (hkey : registry.byKey key = .ok packet) (hbatched : packet.schema.isBatched = false)
    (payload : Bytes) : registry.carried key (key :: payload) = [payload] := by
  simp [carried, hkey, hbatched]

theorem carried_batch {payloads : List Bytes} (hkey : registry.byKey key = .ok packet)
    (hbatched : packet.schema.isBatched = true) (hne : payloads ≠ [])
    (hshort : ∀ payload ∈ payloads, payload.length < Varint.bound)
    (hroom : 0 < packet.schema.maxBatch → payloads.length ≤ packet.schema.maxBatch.toNat) :
    registry.carried key (Batcher.message key payloads) = payloads := by
  simp [carried, Batcher.message, hkey, hbatched, Batcher.unravel_flatMap hne hshort hroom]

/-- Enabled bits do not matter for what a message carries. -/
theorem Alike.carried {a b : Registry} (h : a.Alike b) (hkey : a.byKey key = .ok packet) (message : Bytes) :
    a.carried key message = b.carried key message := by
  obtain ⟨packet', hkey', hsame⟩ := h.byKey hkey
  obtain ⟨htag, hschema, -, -⟩ := Packet.mk.injEq .. ▸ hsame
  cases message with
  | nil => rfl
  | cons octet body => simp only [Registry.carried, hkey, hkey', htag, hschema]

theorem Alike.symm {a b : Registry} (h : a.Alike b) : b.Alike a := Eq.symm h

/-- Under each key stands a packet of the same schema. -/
theorem Alike.schema {a b : Registry} (h : a.Alike b) (hkey : a.byKey key = .ok packet) :
    ∃ packet', b.byKey key = .ok packet' ∧ packet'.schema = packet.schema := by
  obtain ⟨packet', hkey', hsame⟩ := h.byKey hkey
  exact ⟨packet', hkey', congrArg (·.schema) hsame⟩

/-- Whether a payload can be put in a batch, if its packet is batched: its length has a varint. -/
def Short (registry : Registry) (entry : UInt8 × Bytes) : Prop :=
  ∀ packet, registry.byKey entry.1 = .ok packet → packet.schema.isBatched = true → entry.2.length < Varint.bound

end Registry

namespace Session

variable {T S : Type} [Transport T]

/-! ## Sessions that send -/

/-- Every batched packet of a registry has its batcher, with room in it, and there are no others. -/
structure Batching (registry : Registry) (s : Session T S) : Prop where
  serves : ∀ key batcher, s.batcher? key = some batcher → ∃ packet, registry.byKey key = .ok packet ∧
    packet.schema.isBatched = true ∧ batcher.maxBatch = packet.schema.maxBatch ∧
    (0 < packet.schema.maxBatch → batcher.pending.length ≤ packet.schema.maxBatch.toNat) ∧
    ∀ payload ∈ batcher.pending, payload.length < Varint.bound
  served : ∀ key packet, registry.byKey key = .ok packet → packet.schema.isBatched = true →
    ∃ batcher, s.batcher? key = some batcher

/-- The message in which a payload that passed the limit is written, unless it goes into a batch. -/
def message? (s : Session T S) (key : UInt8) (payload : Bytes) : Option Bytes :=
  match s.batcher? key with
  | none => some (key :: payload)
  | some batcher => if batcher.isFull then some (Batcher.message key [payload]) else none

/-- Where a payload goes that passed the rate limit, whatever the transport does. Journals are only counted on. -/
inductive Emits (s : Session T S) (key : UInt8) (payload : Bytes) : Result Unit → Session T S → Prop
  | written {message : Bytes} {transport : T} (counts : List Count) : s.message? key payload = some message →
      Transport.send s.transport message = (.ok (), transport) →
      ((s.batcher? key).isSome → payload.length < Varint.bound) →
      Emits s key payload (.ok ()) { s with transport, journal := s.journal ++ counts.map .counted }
  | pending {batcher : Batcher} (counts : List Count) : s.batcher? key = some batcher → batcher.isFull = false →
      payload.length < Varint.bound →
      Emits s key payload (.ok ())
        { s.setBatcher { batcher with pending := batcher.pending ++ [payload] } with
          journal := s.journal ++ counts.map .counted }
  | refused {message : Bytes} {transport : T} {error : ProtocolError} (counts : List Count) :
      s.message? key payload = some message → Transport.send s.transport message = (.error error, transport) →
      Emits s key payload (.error error) { s with transport, journal := s.journal ++ counts.map .counted }
  /-- No batch can hold the payload. -/
  | long {batcher : Batcher} : s.batcher? key = some batcher → Varint.bound ≤ payload.length →
      Emits s key payload (.error (.encode (.varintRange payload.length Varint.bound))) (s.count .packetSent)

/-- Where a payload went that passed the rate limit. -/
inductive Emitted (registry : Registry) (s : Session T S) (key : UInt8) (payload : Bytes) :
    Result Unit → Session T S → Prop
  | message (journal : Journal) :
      (∀ packet, registry.byKey key = .ok packet → packet.schema.isBatched = false) → s.batcher? key = none →
      Emitted registry s key payload (.ok ())
        { s with transport := Transport.sendAll s.transport [key :: payload], journal }
  | pending (batcher : Batcher) (journal : Journal) : s.batcher? key = some batcher → payload.length < Varint.bound →
      batcher.isFull = false →
      Emitted registry s key payload (.ok ())
        { s.setBatcher { batcher with pending := batcher.pending ++ [payload] } with journal }
  /-- The batch is full, and the payload passes those in it. -/
  | overflow (batcher : Batcher) (journal : Journal) : s.batcher? key = some batcher →
      payload.length < Varint.bound → batcher.isFull = true →
      Emitted registry s key payload (.ok ())
        { s with transport := Transport.sendAll s.transport [Batcher.message key [payload]], journal }
  /-- No batch can hold the payload. -/
  | long (batcher : Batcher) (error : ProtocolError) (journal : Journal) : s.batcher? key = some batcher →
      Varint.bound ≤ payload.length → Emitted registry s key payload (.error error) { s with journal }

variable {registry : Registry} {s s' : Session T S} {key : UInt8} {payload : Bytes}

theorem write_accepted (h : Transport.Accepts s.transport) (message : Bytes) :
    ∃ journal, s.write message =
      (.ok (), { s with transport := Transport.sendAll s.transport [message], journal }) := by
  have hsend : Transport.send s.transport message = (.ok (), (Transport.send s.transport message).2) :=
    Prod.ext (h [] message) rfl
  rw [write, hsend]
  exact ⟨_, rfl⟩

/-- A message is written and counted, or refused and not counted. -/
theorem write_cases (s : Session T S) (message : Bytes) :
    (∃ transport, Transport.send s.transport message = (.ok (), transport) ∧
      s.write message = (.ok (), count { s with transport } (.messageSent message.length))) ∨
    ∃ error transport, Transport.send s.transport message = (.error error, transport) ∧
      s.write message = (.error error, { s with transport }) := by
  rw [write]
  obtain ⟨result, transport⟩ := Transport.send s.transport message
  cases result with
  | ok _ => exact .inl ⟨transport, rfl, rfl⟩
  | error error => exact .inr ⟨error, transport, rfl, rfl⟩

/-- What is written directly is written or refused. -/
theorem write_emits {message : Bytes} (counts : List Count) (hmessage : s.message? key payload = some message)
    (hshort : (s.batcher? key).isSome → payload.length < Varint.bound) :
    s.Emits key payload (({ s with journal := s.journal ++ counts.map .counted } : Session T S).write message).1
      (({ s with journal := s.journal ++ counts.map .counted } : Session T S).write message).2 := by
  obtain ⟨transport, hsend, hwrite⟩ | ⟨error, transport, hsend, hwrite⟩ :=
    write_cases ({ s with journal := s.journal ++ counts.map .counted } : Session T S) message
  · rw [hwrite]
    have hwritten := Emits.written (counts ++ [.messageSent message.length]) hmessage hsend hshort
    rw [List.map_append, ← List.append_assoc] at hwritten
    exact hwritten
  · rw [hwrite]
    exact .refused counts hmessage hsend

theorem emit_emits (s : Session T S) (key : UInt8) (payload : Bytes) :
    s.Emits key payload (s.emit key payload).1 (s.emit key payload).2 := by
  have hcount : (s.count .packetSent).batcher? key = s.batcher? key := rfl
  unfold emit
  cases hbatcher : s.batcher? key with
  | none =>
    simp only [hcount, hbatcher]
    exact write_emits [.packetSent] (by rw [message?, hbatcher]) (by simp [hbatcher])
  | some batcher =>
    simp only [hcount, hbatcher]
    cases hadd : batcher.add payload with
    | error fault =>
      unfold Batcher.add at hadd
      split at hadd
      · rename_i hlong
        cases hadd
        exact .long hbatcher hlong
      · split at hadd <;> cases hadd
    | ok added =>
      obtain ⟨message, batcher'⟩ := added
      obtain ⟨hlt, ⟨hfull, rfl⟩ | ⟨hroom, rfl, rfl⟩⟩ := Batcher.add_eq_ok hadd
      · simp only [key_of_batcher? hbatcher]
        have hmessage : s.message? key payload = some (Batcher.message key [payload]) := by
          rw [message?, hbatcher]
          exact if_pos hfull
        have hwrite := write_emits [.packetSent, .batchFlushed] hmessage fun _ => hlt
        rw [List.map_cons, ← List.singleton_append, ← List.append_assoc] at hwrite
        exact hwrite
      · exact .pending [.packetSent] hbatcher hroom hlt

theorem emit_emitted (haccepts : Transport.Accepts s.transport) (h : s.Batching registry) (key : UInt8)
    (payload : Bytes) : s.Emitted registry key payload (s.emit key payload).1 (s.emit key payload).2 := by
  have hsends : ∀ message, Transport.send s.transport message =
      (.ok (), Transport.sendAll s.transport [message]) := fun message => Prod.ext (haccepts [] message) rfl
  have hemits := s.emit_emits key payload
  generalize (s.emit key payload).1 = result, (s.emit key payload).2 = after at hemits ⊢
  cases hemits with
  | @written message transport counts hmessage hsend hshort =>
    cases (hsends message).symm.trans hsend
    unfold message? at hmessage
    split at hmessage
    · rename_i hbatcher
      cases hmessage
      refine .message _ (fun packet hkey => ?_) hbatcher
      by_contra hbatched
      obtain ⟨batcher, hsome⟩ := h.served key packet hkey (by simpa using hbatched)
      rw [hbatcher] at hsome
      cases hsome
    · rename_i batcher hbatcher
      split at hmessage
      · rename_i hfull
        cases hmessage
        exact .overflow batcher _ hbatcher (hshort (by simp [hbatcher])) hfull
      · cases hmessage
  | pending counts hbatcher hroom hlt => exact .pending _ _ hbatcher hlt hroom
  | refused counts hmessage hsend =>
    rw [hsends] at hsend
    cases hsend
  | long hbatcher hlong => exact .long _ _ _ hbatcher hlong

omit [Transport T] in
theorem Batching.setBatcher (h : s.Batching registry) (batcher : Batcher) {old : Batcher}
    (hold : s.batcher? batcher.key = some old) (hmax : batcher.maxBatch = old.maxBatch)
    (hroom : 0 < old.maxBatch → batcher.pending.length ≤ old.maxBatch.toNat)
    (hpending : ∀ payload ∈ batcher.pending, payload.length < Varint.bound) :
    (s.setBatcher batcher).Batching registry := by
  constructor
  · intro k b hb
    by_cases hk : k = batcher.key
    · subst hk
      rw [batcher?_setBatcher_same hold] at hb
      cases hb
      obtain ⟨packet, hkey, hbatched, hserves, -, -⟩ := h.serves _ old hold
      exact ⟨packet, hkey, hbatched, hmax.trans hserves, hserves ▸ hroom, hpending⟩
    · rw [batcher?_setBatcher_of_ne hk] at hb
      exact h.serves k b hb
  · intro k packet hkey hbatched
    by_cases hk : k = batcher.key
    · subst hk
      exact ⟨batcher, batcher?_setBatcher_same hold⟩
    · rw [batcher?_setBatcher_of_ne hk]
      exact h.served k packet hkey hbatched

omit [Transport T] in
/-- Only batchers matter for it. -/
theorem Batching.of_batchers (h : s.Batching registry) (hbatchers : s'.batchers = s.batchers) :
    s'.Batching registry := by
  have hsame : ∀ key, s'.batcher? key = s.batcher? key := fun key => by rw [batcher?, batcher?, hbatchers]
  exact ⟨fun key => hsame key ▸ h.serves key, fun key => hsame key ▸ h.served key⟩

omit [Transport T] in
theorem Batching.isFull (h : s.Batching registry) {batcher : Batcher} {packet : Packet}
    (hbatcher : s.batcher? key = some batcher) (hkey : registry.byKey key = .ok packet)
    (hfull : batcher.isFull = true) :
    0 < packet.schema.maxBatch := by
  obtain ⟨packet', hkey', -, hmax, -⟩ := h.serves key batcher hbatcher
  obtain rfl := Outcome.ok_unique hkey hkey'
  simp only [Batcher.isFull, Bool.and_eq_true, decide_eq_true_eq] at hfull
  exact hmax ▸ hfull.1

theorem Emitted.same {result : Result Unit} (h : s.Emitted registry key payload result s') :
    s'.state = s.state ∧ s'.outbound = s.outbound ∧ s'.deferred = s.deferred ∧ s'.sendLimiter = s.sendLimiter := by
  cases h <;> exact ⟨rfl, rfl, rfl, rfl⟩

theorem Emitted.batching {result : Result Unit} (hbatching : s.Batching registry)
    (h : s.Emitted registry key payload result s') : s'.Batching registry := by
  cases h with
  | message journal _ _ => exact hbatching.of_batchers rfl
  | pending batcher journal hbatcher hlt hroom =>
    obtain ⟨packet, hkey, hbatched, hmax, hwithin, hshort⟩ := hbatching.serves key batcher hbatcher
    obtain rfl := key_of_batcher? hbatcher
    refine (hbatching.setBatcher { batcher with pending := batcher.pending ++ [payload] } hbatcher rfl
      (fun hpos => ?_) fun p hp => ?_).of_batchers rfl
    · have hless : ¬batcher.maxBatch.toNat ≤ batcher.pending.length := by
        intro hle
        simp [Batcher.isFull, hpos, Batcher.size, hle] at hroom
      rw [List.length_append]
      exact Nat.lt_of_not_le hless
    · rcases List.mem_append.1 hp with hp | hp
      · exact hshort p hp
      · obtain rfl := List.mem_singleton.1 hp
        exact hlt
  | overflow batcher journal _ _ _ => exact hbatching.of_batchers rfl
  | long batcher error journal _ _ => exact hbatching.of_batchers rfl

/-- What an emitted payload changes: it leaves or waits under its key, and nothing else does. -/
theorem Emitted.effect (hbatching : s.Batching registry) (h : s.Emitted registry key payload (.ok ()) s') :
    ∃ sent, s'.transport = Transport.sendAll s.transport sent ∧
      (∀ other, other ≠ key → s'.waiting other = s.waiting other ∧ sent.flatMap (registry.carried other) = []) ∧
      ∀ packet, registry.byKey key = .ok packet →
        sent.flatMap (registry.carried key) = [payload] ∧ s'.waiting key = s.waiting key ∧
            (packet.KeepsOrder → s.waiting key = []) ∨
          sent = [] ∧ s'.waiting key = s.waiting key ++ [payload] := by
  cases h with
  | message journal hunbatched hbatcher =>
    refine ⟨_, rfl, fun other hne => ⟨rfl, ?_⟩, fun packet hkey => .inl ⟨?_, rfl, fun _ => ?_⟩⟩
    · rw [List.flatMap_singleton, Registry.carried_of_ne hne.symm]
    · rw [List.flatMap_singleton, Registry.carried_single hkey (hunbatched packet hkey)]
    · simp [waiting, hbatcher]
  | pending batcher journal hbatcher _ _ =>
    obtain rfl := key_of_batcher? hbatcher
    refine ⟨[], rfl, fun other hne => ⟨waiting_setBatcher_of_ne hne, rfl⟩, fun packet _ => .inr ⟨rfl, ?_⟩⟩
    rw [waiting_of_batcher? hbatcher]
    exact @waiting_setBatcher _ _ s { batcher with pending := batcher.pending ++ [payload] } batcher hbatcher
  | overflow batcher journal hbatcher hlt hfull =>
    refine ⟨_, rfl, fun other hne => ⟨rfl, ?_⟩, fun packet hkey => .inl ⟨?_, rfl, fun horder => ?_⟩⟩
    · rw [List.flatMap_singleton, Batcher.message, Registry.carried_of_ne hne.symm]
    · obtain ⟨packet', hkey', hbatched, -⟩ := hbatching.serves key batcher hbatcher
      obtain rfl := Outcome.ok_unique hkey hkey'
      rw [List.flatMap_singleton]
      exact Registry.carried_batch hkey hbatched (List.cons_ne_nil _ _) (by simpa using hlt)
        fun hpos => UInt32.lt_iff_toNat_lt.1 hpos
    · -- a batch without a bound is never full, and a packet with one is batched
      have hpos := hbatching.isFull hbatcher hkey hfull
      obtain ⟨packet', hkey', hbatched, -⟩ := hbatching.serves key batcher hbatcher
      obtain rfl := Outcome.ok_unique hkey hkey'
      obtain hunbatched | hunbounded := horder
      · rw [hbatched] at hunbatched
        cases hunbatched
      · rw [hunbounded] at hpos
        cases hpos

/-- A session in use: its transport refuses nothing, and its queues and batches are in order. -/
structure Flowing (registry : Registry) (s : Session T S) : Prop where
  state : s.state = .ready
  accepts : Transport.Accepts s.transport
  alike : s.outbound.Alike registry
  batching : s.Batching registry
  ordered : DeferredQueue.Ordered s.deferred.queues
  within : s.deferred.Within

theorem Emitted.flowing {result : Result Unit} (hflow : s.Flowing registry)
    (h : s.Emitted registry key payload result s') : s'.Flowing registry := by
  obtain ⟨hstate, houtbound, hdeferred, -⟩ := h.same
  have haccepts : Transport.Accepts s'.transport := by
    cases h with
    | message _ _ _ | overflow _ _ _ _ _ => exact hflow.accepts.sendAll _
    | pending _ _ _ _ _ | long _ _ _ _ _ => exact hflow.accepts
  exact ⟨hstate.trans hflow.state, haccepts, houtbound ▸ hflow.alike, h.batching hflow.batching,
    hdeferred ▸ hflow.ordered, hdeferred ▸ hflow.within⟩

/-- Nothing changed that the payloads on their way out depend on. -/
structure Steady (s s' : Session T S) : Prop where
  state : s'.state = s.state
  transport : s'.transport = s.transport
  outbound : s'.outbound.Alike s.outbound
  deferred : s'.deferred = s.deferred
  batchers : s'.batchers = s.batchers

omit [Transport T] in
theorem Aside.steady (h : s.Aside s') : s.Steady s' := ⟨h.state, h.transport, h.outbound, h.deferred, h.batchers⟩

theorem Flowing.steady (h : s.Flowing registry) (hsteady : s.Steady s') : s'.Flowing registry :=
  ⟨hsteady.state.trans h.state, hsteady.transport ▸ h.accepts, Eq.trans hsteady.outbound h.alike,
    h.batching.of_batchers hsteady.batchers, hsteady.deferred ▸ h.ordered, hsteady.deferred ▸ h.within⟩

/-! ## Released payloads -/

theorem Flowing.emitAll (h : s.Flowing registry)
    (released : List (UInt8 × Bytes)) : (s.emitAll released).2.Flowing registry := by
  induction released generalizing s with
  | nil => exact h
  | cons entry released ih =>
    obtain ⟨key, payload⟩ := entry
    have hemitted := (emit_emitted h.accepts h.batching key payload).flowing h
    rw [Session.emitAll]
    split
    · rename_i hemit
      rw [hemit] at hemitted
      exact ih hemitted
    · rename_i hemit
      rw [hemit] at hemitted
      exact hemitted

theorem emitAll_deferred (h : s.Flowing registry)
    (released : List (UInt8 × Bytes)) : (s.emitAll released).2.deferred = s.deferred := by
  induction released generalizing s with
  | nil => rfl
  | cons entry released ih =>
    obtain ⟨key, payload⟩ := entry
    have hemitted := emit_emitted h.accepts h.batching key payload
    have hsame := hemitted.same.2.2.1
    have hflow := hemitted.flowing h
    rw [Session.emitAll]
    split
    · rename_i hemit
      rw [hemit] at hsame hflow
      exact (ih hflow).trans hsame
    · rename_i hemit
      rw [hemit] at hsame
      exact hsame

/-- The session at a window boundary, before anything held is sent. -/
def windowStart (s : Session T S) : Session T S :=
  let drained := s.deferred.drainAdmitted s.sendLimiter.reset
  { s with sendLimiter := drained.2.2, receiveLimiter := s.receiveLimiter.reset, deferred := drained.2.1 }

theorem resetWindow_eq (s : Session T S) :
    s.resetWindow = s.windowStart.emitAll (s.deferred.drainAdmitted s.sendLimiter.reset).1 := rfl

theorem Flowing.windowStart (h : s.Flowing registry) :
    s.windowStart.Flowing registry :=
  ⟨h.state, h.accepts, h.alike, h.batching.of_batchers rfl, h.ordered.drain _, h.within.drain h.ordered _⟩

theorem Flowing.resetWindow (h : s.Flowing registry) :
    s.resetWindow.2.Flowing registry := by
  rw [resetWindow_eq]
  exact h.windowStart.emitAll _

/-! ## Timers -/

/-- A flush finds nothing to write, or writes what the batch holds as one message. -/
inductive Flushed (s : Session T S) (key : UInt8) : Session T S → Prop
  | nothing : Flushed s key s
  | batch (batcher : Batcher) (journal : Journal) : s.batcher? key = some batcher → batcher.pending ≠ [] →
      Flushed s key
        { s.setBatcher batcher.clear with
          transport := Transport.sendAll s.transport [Batcher.message key batcher.pending]
          journal }

theorem flushBatch_flushed (haccepts : Transport.Accepts s.transport)
    (key : UInt8) : (s.flushBatch key).1 = .ok () ∧ s.Flushed key (s.flushBatch key).2 := by
  unfold flushBatch
  cases hbatcher : s.batcher? key with
  | none => exact ⟨rfl, .nothing⟩
  | some batcher =>
    by_cases hempty : batcher.pending = []
    · have hflush : batcher.flush = (none, batcher) := if_pos (by simp [hempty])
      simp only [hflush]
      exact ⟨trivial, .nothing⟩
    · have hflush : batcher.flush = (some (Batcher.message batcher.key batcher.pending), batcher.clear) :=
        if_neg (by simp [hempty])
      simp only [hflush, key_of_batcher? hbatcher]
      obtain ⟨journal, hwrite⟩ := @write_accepted _ _ _ ((s.setBatcher batcher.clear).count .batchFlushed) haccepts
        (Batcher.message key batcher.pending)
      rw [hwrite]
      exact ⟨rfl, .batch batcher journal hbatcher hempty⟩

theorem Flushed.flowing (hflow : s.Flowing registry)
    (h : s.Flushed key s') : s'.Flowing registry := by
  cases h with
  | nothing => exact hflow
  | batch batcher journal hbatcher _ =>
    obtain rfl := key_of_batcher? hbatcher
    have hbatching := hflow.batching.setBatcher batcher.clear hbatcher rfl (fun _ => Nat.zero_le _) nofun
    exact ⟨hflow.state, hflow.accepts.sendAll _, hflow.alike, hbatching.of_batchers rfl, hflow.ordered, hflow.within⟩

theorem Flushed.same (h : s.Flushed key s') :
    s'.deferred = s.deferred ∧ s'.sendLimiter = s.sendLimiter := by
  cases h <;> exact ⟨rfl, rfl⟩

/-- What a flush changes: of each packet all that waited leaves, or nothing does. -/
theorem Flushed.effect (hbatching : s.Batching registry) (h : s.Flushed key s') :
    ∃ sent, s'.transport = Transport.sendAll s.transport sent ∧ ∀ other packet, registry.byKey other = .ok packet →
      sent.flatMap (registry.carried other) = [] ∧ s'.waiting other = s.waiting other ∨
        sent.flatMap (registry.carried other) = s.waiting other ∧ s'.waiting other = [] := by
  cases h with
  | nothing => exact ⟨[], rfl, fun _ _ _ => .inl ⟨rfl, rfl⟩⟩
  | batch batcher journal hbatcher hne =>
    obtain rfl := key_of_batcher? hbatcher
    refine ⟨_, rfl, fun other packet hother => ?_⟩
    rw [List.flatMap_singleton]
    by_cases hother' : other = batcher.key
    · subst hother'
      obtain ⟨packet', hkey, hbatched, -, hroom, hshort⟩ := hbatching.serves _ batcher hbatcher
      obtain rfl := Outcome.ok_unique hother hkey
      rw [Registry.carried_batch hother hbatched hne hshort hroom, waiting_of_batcher? hbatcher]
      exact .inr ⟨rfl, @waiting_setBatcher _ _ s batcher.clear batcher hbatcher⟩
    · rw [Batcher.message, Registry.carried_of_ne (Ne.symm hother')]
      exact .inl ⟨rfl, @waiting_setBatcher_of_ne _ _ s batcher.clear other hother'⟩

/-- A window boundary reports the failure that the reset stopped at. -/
theorem onTimer_rateReset (hstate : s.state = .ready) :
    (s.resetWindow.1 = .ok () ∧ s.onTimer .rateReset = s.resetWindow.2) ∨
      ∃ error, s.resetWindow.1 = .error error ∧ s.onTimer .rateReset = s.resetWindow.2.report error := by
  have hready : s.isReady = true := by simp [isReady, hstate]
  simp only [Session.onTimer, hready, Bool.not_true, Bool.false_eq_true, if_false]
  cases hreset : s.resetWindow.1 with
  | ok _ => exact .inl ⟨rfl, rfl⟩
  | error error => exact .inr ⟨error, rfl, rfl⟩

theorem onTimer_batchFlush (hflow : s.Flowing registry) (key : UInt8) :
    s.Flushed key (s.onTimer (.batchFlush key)) := by
  have hready : s.isReady = true := by simp [isReady, hflow.state]
  obtain ⟨hok, hflushed⟩ := flushBatch_flushed hflow.accepts key
  simp only [Session.onTimer, hready, Bool.not_true, Bool.false_eq_true, if_false, hok]
  exact hflushed

theorem onTimer_handshakeExpiry (s : Session T S) : s.onTimer .handshakeExpiry = s := by
  simp [Session.onTimer]

theorem Flowing.onTimer (h : s.Flowing registry) (kind : TimerKind) :
    (s.onTimer kind).Flowing registry := by
  cases kind with
  | rateReset =>
    obtain ⟨-, htick⟩ | ⟨error, -, htick⟩ := onTimer_rateReset h.state
    · exact htick ▸ h.resetWindow
    · exact htick ▸ h.resetWindow.steady (aside_report _ error).steady
  | batchFlush key => exact (onTimer_batchFlush h key).flowing h
  | handshakeExpiry => exact (onTimer_handshakeExpiry s).symm ▸ h

theorem maxPerKey_onTimer (hflow : s.Flowing registry) (kind : TimerKind) :
    (s.onTimer kind).deferred.maxPerKey = s.deferred.maxPerKey := by
  cases kind with
  | rateReset =>
    have hreset : s.resetWindow.2.deferred.maxPerKey = s.deferred.maxPerKey := by
      rw [resetWindow_eq, emitAll_deferred hflow.windowStart]
      rfl
    obtain ⟨-, htick⟩ | ⟨error, -, htick⟩ := onTimer_rateReset hflow.state
    · exact htick ▸ hreset
    · exact htick ▸ hreset
  | batchFlush key => rw [(onTimer_batchFlush hflow key).same.1]
  | handshakeExpiry => rw [onTimer_handshakeExpiry]

/-! ## Sends -/

/-- The limiter of a session after a payload was sent: it counts those that nothing of their key waits before. -/
def counting (s : Session T S) (key : UInt8) : RateLimiter :=
  if s.deferred.waiting key = [] then (s.sendLimiter.hit key).2 else s.sendLimiter

/-- A payload passes the limit or is held back; where none of its key waits it is counted. -/
theorem sendEncoded_eq (hstate : s.state = .ready) (key : UInt8) (payload : Bytes) :
    s.sendEncoded key payload =
      if s.deferred.waiting key = [] ∧ (s.sendLimiter.hit key).1 = true then
        emit { s with sendLimiter := s.counting key } key payload
      else deferPayload { s with sendLimiter := s.counting key } key payload := by
  have hready : s.ensureReady = .ok () := by rw [ensureReady, hstate]
  unfold sendEncoded counting
  rw [hready]
  dsimp only
  by_cases hempty : s.deferred.waiting key = []
  · have hnone : ¬s.deferred.isWaiting key = true := fun hwaiting => DeferredQueue.isWaiting_iff.1 hwaiting hempty
    rw [if_neg hnone, if_pos hempty]
    generalize s.sendLimiter.hit key = hits
    obtain ⟨within, limiter⟩ := hits
    cases within <;> simp [hempty]
  · rw [if_pos (DeferredQueue.isWaiting_iff.2 hempty), if_neg hempty, if_neg fun hpass => hempty hpass.1]

/-- What becomes of a payload that is sent. It is emitted at once if nothing of its key waits and it is within
the cap; otherwise it is held, if its queue has room. -/
inductive Sent (registry : Registry) (s : Session T S) (key : UInt8) (payload : Bytes) :
    Result Unit → Session T S → Prop
  | emitted {result : Result Unit} {s' : Session T S} : s.deferred.waiting key = [] →
      (s.sendLimiter.hit key).1 = true →
      Emitted registry { s with sendLimiter := (s.sendLimiter.hit key).2 } key payload result s' →
      Sent registry s key payload result s'
  | held (deferred : DeferredQueue) (journal : Journal) :
      ¬(s.deferred.waiting key = [] ∧ (s.sendLimiter.hit key).1 = true) →
      s.deferred.push? key payload = some deferred →
      Sent registry s key payload (.ok ()) { s with deferred, sendLimiter := s.counting key, journal }
  | full (error : ProtocolError) : ¬(s.deferred.waiting key = [] ∧ (s.sendLimiter.hit key).1 = true) →
      s.deferred.push? key payload = none →
      Sent registry s key payload (.error error) { s with sendLimiter := s.counting key }

theorem deferPayload_sent (key : UInt8) (payload : Bytes)
    (hover : ¬(s.deferred.waiting key = [] ∧ (s.sendLimiter.hit key).1 = true)) :
    s.Sent registry key payload (deferPayload { s with sendLimiter := s.counting key } key payload).1
      (deferPayload { s with sendLimiter := s.counting key } key payload).2 := by
  unfold deferPayload
  cases hpush : s.deferred.push? key payload with
  | some deferred => exact .held deferred _ hover hpush
  | none =>
    dsimp only
    cases s.outbound.tagOf key with
    | ok tag => exact .full _ hover hpush
    | error error => exact .full _ hover hpush

theorem sendEncoded_sent (hflow : s.Flowing registry) (key : UInt8) (payload : Bytes) :
    s.Sent registry key payload (s.sendEncoded key payload).1 (s.sendEncoded key payload).2 := by
  rw [sendEncoded_eq hflow.state]
  split
  · rename_i hpass
    have hcounting : s.counting key = (s.sendLimiter.hit key).2 := if_pos hpass.1
    have hemitted := emit_emitted (s := { s with sendLimiter := (s.sendLimiter.hit key).2 }) hflow.accepts
      (hflow.batching.of_batchers rfl) key payload
    rw [hcounting]
    exact .emitted hpass.1 hpass.2 hemitted
  · rename_i hover
    exact deferPayload_sent key payload hover

/-- What becomes of a payload that is sent: it is refused, emitted, or held. It is counted if none of
its key were held before. -/
inductive Offered (registry : Registry) (s : Session T S) (key : UInt8) (payload : Bytes) :
    Result Unit → Session T S → Prop
  | refused (error : ProtocolError) (limiter : RateLimiter) :
      limiter = s.sendLimiter ∨ limiter = (s.sendLimiter.hit key).2 →
      Offered registry s key payload (.error error) { s with sendLimiter := limiter }
  | emitted {result : Result Unit} {s' : Session T S} (limiter : RateLimiter) :
      s.sendLimiter.hit key = (true, limiter) → s.deferred.waiting key = [] →
      Emitted registry { s with sendLimiter := limiter } key payload result s' →
      Offered registry s key payload result s'
  | held (deferred : DeferredQueue) (limiter : RateLimiter) (journal : Journal) :
      limiter = s.sendLimiter ∨ limiter = (s.sendLimiter.hit key).2 → s.deferred.push? key payload = some deferred →
      Offered registry s key payload (.ok ()) { s with deferred, sendLimiter := limiter, journal }

theorem sendEncoded_offered (hflow : s.Flowing registry) (key : UInt8) (payload : Bytes) :
    s.Offered registry key payload (s.sendEncoded key payload).1 (s.sendEncoded key payload).2 := by
  have hlimiter : s.counting key = s.sendLimiter ∨ s.counting key = (s.sendLimiter.hit key).2 := by
    unfold counting
    split
    · exact .inr rfl
    · exact .inl rfl
  have hsent := sendEncoded_sent hflow key payload
  generalize s.sendEncoded key payload = sent at hsent
  obtain ⟨result, s'⟩ := sent
  cases hsent with
  | emitted hempty hhit hemitted => exact .emitted _ (Prod.ext hhit rfl) hempty hemitted
  | held deferred journal _ hpush => exact .held deferred _ journal hlimiter hpush
  | full error _ _ => exact .refused error _ hlimiter

theorem Flowing.of_limiter (h : s.Flowing registry) (limiter : RateLimiter) :
    Flowing registry { s with sendLimiter := limiter } :=
  h.steady ⟨rfl, rfl, rfl, rfl, rfl⟩

theorem Offered.maxPerKey {result : Result Unit} (h : s.Offered registry key payload result s') :
    s'.deferred.maxPerKey = s.deferred.maxPerKey := by
  cases h with
  | refused error limiter _ => rfl
  | emitted limiter _ _ hemitted => rw [hemitted.same.2.2.1]
  | held deferred limiter journal _ hpush =>
    obtain ⟨-, rfl⟩ := DeferredQueue.push?_eq_some hpush
    rfl

theorem Offered.flowing {result : Result Unit} (hflow : s.Flowing registry)
    (h : s.Offered registry key payload result s') : s'.Flowing registry := by
  cases h with
  | refused error limiter _ => exact hflow.of_limiter limiter
  | emitted limiter _ _ hemitted => exact hemitted.flowing (hflow.of_limiter limiter)
  | held deferred limiter journal _ hpush =>
    have hwithin := hflow.within.push hflow.ordered hpush
    obtain ⟨-, rfl⟩ := DeferredQueue.push?_eq_some hpush
    exact ⟨hflow.state, hflow.accepts, hflow.alike, hflow.batching.of_batchers rfl, hflow.ordered.appendTo key payload,
      hwithin⟩

/-! ## New batches -/

omit [Transport T] in
theorem waiting_fresh (hbatchers : s.batchers = registry.entries.filterMap fun entry => entry.2.batcher? entry.1)
    (key : UInt8) : s.waiting key = [] := by
  unfold waiting
  cases hbatcher : s.batcher? key with
  | none => rfl
  | some batcher =>
    have hmem := List.mem_of_find?_eq_some hbatcher
    rw [hbatchers] at hmem
    obtain ⟨entry, -, hentry⟩ := List.mem_filterMap.1 hmem
    unfold Packet.batcher? at hentry
    split at hentry
    · cases hentry
      rfl
    · cases hentry

omit [Transport T] in
theorem batching_fresh (hnum : registry.Numbered)
    (hbatchers : s.batchers = registry.entries.filterMap fun entry => entry.2.batcher? entry.1) :
    s.Batching registry := by
  have hmem := fun batcher => hbatchers ▸ @Registry.mem_batchers registry hnum batcher
  constructor
  · intro key batcher hbatcher
    obtain ⟨key', packet, hkey, hbatched, rfl⟩ := (hmem batcher).1 (List.mem_of_find?_eq_some hbatcher)
    obtain rfl : key' = key := key_of_batcher? hbatcher
    exact ⟨packet, hkey, hbatched, rfl, fun _ => Nat.zero_le _, nofun⟩
  · intro key packet hkey hbatched
    have hexists := (hmem ⟨key, packet.schema.maxBatch, []⟩).2 ⟨key, packet, hkey, hbatched, rfl⟩
    exact Option.isSome_iff_exists.1 (List.find?_isSome.2 ⟨_, hexists, by simp⟩)

end Session

/-! ## New connections -/

/-- Over a transport that refuses nothing every connection is served, and begins with the handshake. -/
theorem ServerConnection.accept_accepted {T S : Type} [Transport T] [Scheduler S] (definition : Definition)
    {transport : T} (haccepts : Transport.Accepts transport) (scheduler : S) :
    ∃ connection, accept definition transport scheduler = .serving connection ∧
      connection.session.transport = Transport.sendAll transport [definition.handshake] := by
  have haccept : ∃ connection, accept definition transport scheduler = .serving connection := by
    obtain ⟨journal, hwrite⟩ := @Session.write_accepted T S _
      ((Session.start transport scheduler 0).count .handshakeAttempt) haccepts definition.handshake
    simp only [accept, hwrite]
    exact ⟨_, rfl⟩
  obtain ⟨connection, haccept⟩ := haccept
  obtain ⟨_, _, _, _, rfl⟩ := serving_eq haccept
  exact ⟨_, haccept, rfl⟩

/-- A client that has taken on a registry is ready to send, and wrote, counted and held back nothing. -/
theorem ClientConnection.Adopted.flowing {T S : Type} [Transport T] [Scheduler S] {transport : T}
    {handshake : Handshake} {before after : ClientConnection T S} (h : Adopted handshake before after)
    (haccepts : Transport.Accepts transport) (hunused : before.Unused transport) (hnum : handshake.client.Numbered) :
    after.session.Flowing handshake.client ∧
      after.session.sendLimiter =
        (if (rateWindowMs handshake.rateWindow).isSome then .ofRegistry handshake.client else .unlimited) ∧
      after.session.transport = transport ∧ after.session.deferred.queues = [] ∧
      ∀ key, after.session.waiting key = [] := by
  have hbatchers := h.batchers
  rw [hunused.batchers, List.nil_append] at hbatchers
  have htransport : after.session.transport = transport := h.transport.trans hunused.transport_eq
  have hqueues : after.session.deferred.queues = [] := by rw [h.deferred, hunused.deferred]
  refine ⟨⟨h.state, htransport ▸ haccepts, ?_, Session.batching_fresh hnum hbatchers, ?_, ?_⟩, ?_, htransport, hqueues,
    Session.waiting_fresh hbatchers⟩
  · rw [h.outbound]
    rfl
  · rw [hqueues]
    exact List.Pairwise.nil
  · intro key _
    rw [DeferredQueue.length, DeferredQueue.waiting, hqueues]
    exact Nat.zero_le _
  · rw [h.sendLimiter, h.rateWindow, hunused.limiter]

end PacketProtocol
