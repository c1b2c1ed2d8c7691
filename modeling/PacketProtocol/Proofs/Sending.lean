import PacketProtocol.Proofs.Batching
import PacketProtocol.Proofs.Numbering
import PacketProtocol.Session
import PacketProtocol.Wire
/-!
# What sends and flushes do

A session without rate limits writes what it sends or keeps it in a batch, and a flush writes what a
batch holds. `Sent` says all that a send can do, and `Sending` what every send and flush preserves.
-/

namespace PacketProtocol

/-! ## Payloads and batches -/

namespace Packet

/-- A payload of a packet in use that decodes. -/
def Readable (packet : Packet) (payload : Bytes) : Prop :=
  packet.enabled = true ∧ ∃ values, packet.decode payload = .ok values

/-- The arguments that payloads are delivered with, if they decode. -/
def opened (packet : Packet) (payloads : List Bytes) : List (List Value) :=
  payloads.filterMap fun payload => (packet.schema.arguments <$> packet.decode payload).toOption

@[simp]
theorem opened_nil (packet : Packet) : packet.opened [] = [] := rfl

@[simp]
theorem opened_append (packet : Packet) (front back : List Bytes) :
    packet.opened (front ++ back) = packet.opened front ++ packet.opened back := by
  simp [opened]

theorem opened_singleton {packet : Packet} {payload : Bytes} {values : List Value}
    (h : packet.decode payload = .ok values) : packet.opened [payload] = [packet.schema.arguments values] := by
  simp [opened, h, Functor.map, Except.map, Except.toOption]

end Packet

/-- A batcher in the service of a packet. -/
structure Batcher.Serves (batcher : Batcher) (key : UInt8) (packet : Packet) : Prop where
  key_eq : batcher.key = key
  maxBatch_eq : batcher.maxBatch = packet.schema.maxBatch
  room : 0 < packet.schema.maxBatch → batcher.pending.length ≤ packet.schema.maxBatch.toNat
  pending : ∀ payload ∈ batcher.pending, payload.length < Varint.bound ∧ packet.Readable payload

namespace Batcher

theorem add_eq_ok {batcher batcher' : Batcher} {payload : Bytes} {message : Option Bytes}
    (h : batcher.add payload = .ok (message, batcher')) :
    payload.length < Varint.bound ∧
      (batcher.isFull = true ∧ message = some (Batcher.message batcher.key [payload]) ∨
        batcher.isFull = false ∧ message = none ∧
          batcher' = { batcher with pending := batcher.pending ++ [payload] }) := by
  unfold add at h
  split at h
  · cases h
  rename_i hlt
  refine ⟨Nat.lt_of_not_le hlt, ?_⟩
  split at h
  · rename_i hfull
    cases h
    exact .inl ⟨hfull, rfl⟩
  · rename_i hroom
    cases h
    exact .inr ⟨by simpa using hroom, rfl, rfl⟩

theorem Serves.clear {batcher : Batcher} {key : UInt8} {packet : Packet} (h : batcher.Serves key packet) :
    batcher.clear.Serves key packet :=
  ⟨h.key_eq, h.maxBatch_eq, fun _ => Nat.zero_le _, nofun⟩

theorem Serves.add {batcher : Batcher} {key : UInt8} {packet : Packet} {payload : Bytes}
    (h : batcher.Serves key packet) (hroom : batcher.isFull = false) (hlt : payload.length < Varint.bound)
    (hreadable : packet.Readable payload) :
    Serves { batcher with pending := batcher.pending ++ [payload] } key packet := by
  refine ⟨h.key_eq, h.maxBatch_eq, fun hpos => ?_, fun p hp => ?_⟩
  · have hless : batcher.pending.length < packet.schema.maxBatch.toNat := by
      simpa [isFull, h.maxBatch_eq, hpos, size] using hroom
    rw [List.length_append, List.length_singleton]
    exact hless
  · rcases List.mem_append.1 hp with hp | hp
    · exact h.pending p hp
    · obtain rfl := List.mem_singleton.1 hp
      exact ⟨hlt, hreadable⟩

end Batcher

namespace Session

variable {T S : Type}

/-! ## Batchers by key -/

theorem key_of_batcher? {s : Session T S} {key : UInt8} {batcher : Batcher} (h : s.batcher? key = some batcher) :
    batcher.key = key := by
  simpa using List.find?_some h

theorem batcher?_setBatcher (s : Session T S) (batcher : Batcher) (key : UInt8) :
    (s.setBatcher batcher).batcher? key =
      (s.batcher? key).map fun other => if other.key == batcher.key then batcher else other := by
  unfold batcher? setBatcher
  rw [List.find?_map]
  congr 2
  funext other
  -- putting a batcher in another's place keeps the key
  by_cases hkey : other.key = batcher.key <;> simp [hkey]

theorem batcher?_setBatcher_same {s : Session T S} {batcher old : Batcher} (h : s.batcher? batcher.key = some old) :
    (s.setBatcher batcher).batcher? batcher.key = some batcher := by
  simp [batcher?_setBatcher, h, key_of_batcher? h]

theorem batcher?_setBatcher_of_ne {s : Session T S} {batcher : Batcher} {key : UInt8} (h : key ≠ batcher.key) :
    (s.setBatcher batcher).batcher? key = s.batcher? key := by
  rw [batcher?_setBatcher]
  cases hold : s.batcher? key with
  | none => rfl
  | some old => simp [key_of_batcher? hold, h]

/-! ## Sessions that send -/

/-- A ready session that sends packets of a registry over an open wire, with no limit on the rate. -/
structure Sending (registry : Registry) (s : Session Wire S) : Prop where
  state : s.state = .ready
  outbound : s.outbound = registry
  limiter : s.sendLimiter = .unlimited
  deferred : s.deferred.queues = []
  isOpen : s.transport.closed = none
  serves : ∀ key batcher, s.batcher? key = some batcher →
    ∃ packet, registry.byKey key = .ok packet ∧ packet.schema.isBatched = true ∧ batcher.Serves key packet
  served : ∀ key packet, registry.byKey key = .ok packet → packet.schema.isBatched = true →
    ∃ batcher, s.batcher? key = some batcher

variable {registry : Registry} {s s' : Session Wire S}

/-- Neither what is on the wire nor the journal matters for it. -/
theorem Sending.of_wire (h : s.Sending registry) (sent : List Bytes) (journal : Journal) :
    Sending registry { s with transport := { s.transport with sent }, journal } :=
  ⟨h.state, h.outbound, h.limiter, h.deferred, h.isOpen, h.serves, h.served⟩

theorem Sending.setBatcher (h : s.Sending registry) {key : UInt8} {packet : Packet} {batcher old : Batcher}
    (hkey : registry.byKey key = .ok packet) (hbatched : packet.schema.isBatched = true)
    (hold : s.batcher? key = some old) (hserves : batcher.Serves key packet) :
    (s.setBatcher batcher).Sending registry := by
  obtain rfl := hserves.key_eq
  refine ⟨h.state, h.outbound, h.limiter, h.deferred, h.isOpen, fun k b hb => ?_, fun k p hp hbp => ?_⟩
  · by_cases hk : k = batcher.key
    · subst hk
      rw [batcher?_setBatcher_same hold] at hb
      cases hb
      exact ⟨packet, hkey, hbatched, hserves⟩
    · rw [batcher?_setBatcher_of_ne hk] at hb
      exact h.serves k b hb
  · by_cases hk : k = batcher.key
    · subst hk
      exact ⟨batcher, batcher?_setBatcher_same hold⟩
    · rw [batcher?_setBatcher_of_ne hk]
      exact h.served k p hp hbp

/-- Where a payload went: to the wire as a message, into its batch, or past a batch that was full. -/
inductive Placed (s : Session Wire S) (key : UInt8) (packet : Packet) (payload : Bytes) : Session Wire S → Prop
  | message (journal : Journal) : packet.schema.isBatched = false →
      Placed s key packet payload
        { s with transport := { s.transport with sent := s.transport.sent ++ [key :: payload] }, journal }
  | pending (batcher : Batcher) (journal : Journal) : packet.schema.isBatched = true →
      s.batcher? key = some batcher → payload.length < Varint.bound → batcher.isFull = false →
      Placed s key packet payload
        { s.setBatcher { batcher with pending := batcher.pending ++ [payload] } with journal }
  | overflow (batcher : Batcher) (journal : Journal) : packet.schema.isBatched = true →
      s.batcher? key = some batcher → payload.length < Varint.bound → batcher.isFull = true →
      Placed s key packet payload
        { s with
          transport := { s.transport with sent := s.transport.sent ++ [Batcher.message key [payload]] }
          journal }

theorem write_eq (s : Session Wire S) (hopen : s.transport.closed = none) (message : Bytes) :
    s.write message = (.ok (),
      { s with
        transport := { s.transport with sent := s.transport.sent ++ [message] }
        journal := s.journal ++ [.counted (.messageSent message.length)] }) := by
  have hsend : Transport.send s.transport message =
      (.ok (), { s.transport with sent := s.transport.sent ++ [message] }) := by
    show Wire.send s.transport message = _
    rw [Wire.send, if_neg (by simp [hopen])]
  simp only [Session.write, hsend]
  rfl

/-- An encoded payload is placed, or it is too long for a batch and only counted. -/
theorem emit_cases (h : s.Sending registry) {key : UInt8} {packet : Packet} (hkey : registry.byKey key = .ok packet)
    (payload : Bytes) :
    (∃ e journal, s.emit key payload = (.error e, { s with journal })) ∨
      ∃ s', s.emit key payload = (.ok (), s') ∧ s.Placed key packet payload s' := by
  unfold emit
  have hcount : (s.count .packetSent).batcher? key = s.batcher? key := rfl
  cases hbatcher : s.batcher? key with
  | none =>
    have hunbatched : packet.schema.isBatched = false := by
      by_contra hbatched
      obtain ⟨batcher, hsome⟩ := h.served key packet hkey (by simpa using hbatched)
      rw [hbatcher] at hsome
      cases hsome
    simp only [hcount, hbatcher]
    rw [write_eq (s.count .packetSent) h.isOpen]
    exact .inr ⟨_, rfl, .message _ hunbatched⟩
  | some batcher =>
    obtain ⟨packet', hkey', hbatched, hserves⟩ := h.serves key batcher hbatcher
    obtain rfl := Outcome.ok_unique hkey hkey'
    simp only [hcount, hbatcher]
    cases hadd : batcher.add payload with
    | error fault => exact .inl ⟨_, _, rfl⟩
    | ok added =>
      obtain ⟨message, batcher'⟩ := added
      obtain ⟨hlt, ⟨hfull, rfl⟩ | ⟨hroom, rfl, rfl⟩⟩ := Batcher.add_eq_ok hadd
      · simp only [hserves.key_eq]
        rw [write_eq ((s.count .packetSent).count .batchFlushed) h.isOpen]
        exact .inr ⟨_, rfl, .overflow batcher _ hbatched hbatcher hlt hfull⟩
      · exact .inr ⟨_, rfl, .pending batcher _ hbatched hbatcher hlt hroom⟩

theorem prepare_eq_ok {T : Type} {s : Session T S} {tag : String} {values : List Value} {key : UInt8}
    {payload : Bytes} (h : s.prepare tag values = .ok (key, payload)) :
    s.outbound.keyOf tag = .ok key ∧ ∃ packet, s.outbound.byKey key = .ok packet ∧ packet.enabled = true ∧
      packet.encode values = .ok payload := by
  unfold prepare at h
  obtain ⟨⟨⟩, -, h⟩ := Outcome.bind_eq_ok.1 h
  obtain ⟨k, hkey, h⟩ := Outcome.bind_eq_ok.1 h
  obtain ⟨packet, hpacket, h⟩ := Outcome.bind_eq_ok.1 h
  split at h
  · cases h
  rename_i henabled
  obtain ⟨bytes, hencode, h⟩ := Outcome.bind_eq_ok.1 h
  cases h
  exact ⟨hkey, packet, hpacket, by simpa using henabled, hencode⟩

/-- A send fails and leaves wire and batches alone, or its payload is placed. -/
theorem send_cases (hnum : registry.Numbered) (h : s.Sending registry) (tag : String) (values : List Value) :
    (∃ e journal, s.send tag values = (.error e, { s with journal })) ∨
      ∃ s' key packet payload, s.send tag values = (.ok (), s') ∧ registry.byKey key = .ok packet ∧ packet.tag = tag ∧
        packet.enabled = true ∧ packet.encode values = .ok payload ∧ s.Placed key packet payload s' := by
  unfold send
  cases hprepare : s.prepare tag values with
  | error e => exact .inl ⟨e, s.journal, rfl⟩
  | ok prepared =>
    obtain ⟨key, payload⟩ := prepared
    obtain ⟨hkey, packet, hpacket, henabled, hencode⟩ := prepare_eq_ok hprepare
    rw [h.outbound] at hkey hpacket
    obtain ⟨packet', hpacket', htag⟩ := hnum.byKey_of_keyOf hkey
    obtain rfl := Outcome.ok_unique hpacket hpacket'
    have hready : s.ensureReady = .ok () := by simp [ensureReady, h.state]
    have hwaiting : s.deferred.isWaiting key = false := by
      simp [DeferredQueue.isWaiting, DeferredQueue.waiting, h.deferred]
    have hhit : s.sendLimiter.hit key = (true, s.sendLimiter) := by
      rw [h.limiter, RateLimiter.hit]
      have hnone : RateLimiter.unlimited.allowance? key = none := by
        simp [RateLimiter.allowance?, RateLimiter.unlimited]
      rw [hnone]
    have hsend : s.sendEncoded key payload = s.emit key payload := by
      simp only [sendEncoded, hready, hwaiting, hhit]
      rfl
    dsimp only
    rw [hsend]
    obtain ⟨e, journal, hemit⟩ | ⟨s', hemit, hplaced⟩ := emit_cases h hpacket payload
    · exact .inl ⟨e, journal, hemit⟩
    · exact .inr ⟨s', key, packet, payload, hemit, hpacket, htag, henabled, hencode, hplaced⟩

/-- A placed payload that decodes leaves a session that sends. -/
theorem Sending.placed (h : s.Sending registry) {key : UInt8} {packet : Packet} {payload : Bytes}
    (hkey : registry.byKey key = .ok packet) (hreadable : packet.Readable payload)
    (hplaced : s.Placed key packet payload s') : s'.Sending registry := by
  cases hplaced with
  | message journal _ => exact h.of_wire _ journal
  | pending batcher journal hbatched hbatcher hlt hroom =>
    obtain ⟨packet', hkey', -, hserves⟩ := h.serves key batcher hbatcher
    obtain rfl := Outcome.ok_unique hkey hkey'
    exact (h.setBatcher hkey hbatched hbatcher (hserves.add hroom hlt hreadable)).of_wire _ journal
  | overflow batcher journal _ _ _ _ => exact h.of_wire _ journal

/-! ## Flushes -/

/-- A flush finds nothing, or writes what the batch holds. -/
theorem flush_cases (h : s.Sending registry) (key : UInt8) :
    s.onTimer (.batchFlush key) = s ∨
      ∃ batcher packet journal, s.batcher? key = some batcher ∧ registry.byKey key = .ok packet ∧
        packet.schema.isBatched = true ∧ batcher.Serves key packet ∧ batcher.pending ≠ [] ∧
        s.onTimer (.batchFlush key) =
          { s.setBatcher batcher.clear with
            transport := { s.transport with sent := s.transport.sent ++ [Batcher.message key batcher.pending] }
            journal } := by
  have hready : s.isReady = true := by simp [isReady, h.state]
  simp only [onTimer, hready, flushBatch]
  cases hbatcher : s.batcher? key with
  | none => exact .inl rfl
  | some batcher =>
    obtain ⟨packet, hkey, hbatched, hserves⟩ := h.serves key batcher hbatcher
    by_cases hempty : batcher.pending = []
    · have hflush : batcher.flush = (none, batcher) := if_pos (by simp [hempty])
      simp only [hflush]
      exact .inl rfl
    · have hflush : batcher.flush = (some (Batcher.message batcher.key batcher.pending), batcher.clear) :=
        if_neg (by simp [hempty])
      simp only [hflush, hserves.key_eq]
      rw [write_eq ((s.setBatcher batcher.clear).count .batchFlushed) h.isOpen]
      exact .inr ⟨batcher, packet, _, rfl, hkey, hbatched, hserves, hempty, rfl⟩

theorem Sending.flushed (h : s.Sending registry) {key : UInt8} {packet : Packet} {batcher : Batcher}
    (hkey : registry.byKey key = .ok packet) (hbatched : packet.schema.isBatched = true)
    (hbatcher : s.batcher? key = some batcher) (hserves : batcher.Serves key packet) (messages : List Bytes)
    (journal : Journal) :
    Sending registry
      { s.setBatcher batcher.clear with
        transport := { s.transport with sent := s.transport.sent ++ messages }
        journal } :=
  (h.setBatcher hkey hbatched hbatcher hserves.clear).of_wire _ journal

end Session

end PacketProtocol
