import PacketProtocol.Proofs.Sending
import PacketProtocol.Server
/-!
# What a message does

A genuine message is one that a sender with the same registry could have written. A session without
rate limits takes it in whole: its listeners hear the arguments of each payload in order, and nothing
else of the session changes.
-/

namespace PacketProtocol

/-! ## Contents of messages -/

namespace Registry

/-- Tags and arguments of the packets in a message. -/
def contents (registry : Registry) : Bytes → List (String × List Value)
  | [] => []
  | key :: body =>
    match registry.byKey key with
    | .error _ => []
    | .ok packet =>
      match
        (if packet.schema.isBatched then Batcher.unravel packet.tag body packet.schema.maxBatch else .ok [body]) with
      | .error _ => []
      | .ok payloads => (packet.opened payloads).map (packet.tag, ·)

/-- Messages of payloads that decode, as senders write them. -/
inductive Genuine (registry : Registry) : Bytes → Prop
  | single {key : UInt8} {packet : Packet} {payload : Bytes} : registry.byKey key = .ok packet →
      packet.schema.isBatched = false → packet.Readable payload → Genuine registry (key :: payload)
  | batch {key : UInt8} {packet : Packet} {payloads : List Bytes} : registry.byKey key = .ok packet →
      packet.schema.isBatched = true → payloads ≠ [] →
      (0 < packet.schema.maxBatch → payloads.length ≤ packet.schema.maxBatch.toNat) →
      (∀ payload ∈ payloads, payload.length < Varint.bound ∧ packet.Readable payload) →
      Genuine registry (Batcher.message key payloads)

variable {registry : Registry} {key : UInt8} {packet : Packet}

theorem contents_single (hkey : registry.byKey key = .ok packet) (hbatched : packet.schema.isBatched = false)
    (payload : Bytes) : registry.contents (key :: payload) = (packet.opened [payload]).map (packet.tag, ·) := by
  simp only [contents, hkey, hbatched]
  rfl

theorem contents_batch {payloads : List Bytes} (hkey : registry.byKey key = .ok packet)
    (hbatched : packet.schema.isBatched = true) (hne : payloads ≠ [])
    (hroom : 0 < packet.schema.maxBatch → payloads.length ≤ packet.schema.maxBatch.toNat)
    (hpayloads : ∀ payload ∈ payloads, payload.length < Varint.bound ∧ packet.Readable payload) :
    registry.contents (Batcher.message key payloads) = (packet.opened payloads).map (packet.tag, ·) := by
  have hunravel := @Batcher.unravel_flatMap packet.tag _ _ hne (fun payload hp => (hpayloads payload hp).1) hroom
  simp only [Batcher.message, contents, hkey, hbatched, if_true, hunravel]

end Registry

theorem Packet.opened_of_mapM {packet : Packet} {payloads : List Bytes} {decoded : List (List Value)}
    (h : payloads.mapM packet.decode = .ok decoded) : packet.opened payloads = decoded.map packet.schema.arguments := by
  have hall := Outcome.mapM_eq_ok.1 h
  clear h
  induction hall with
  | nil => rfl
  | @cons payload values payloads decoded hvalues _ ih =>
    rw [← List.singleton_append, opened_append, opened_singleton hvalues, ih]
    rfl

/-! ## What listeners hear -/

namespace Journal

@[simp]
theorem heard_append (front back : Journal) : heard (front ++ back) = heard front ++ heard back := by
  simp [heard]

@[simp]
theorem heard_counted (count : Count) : heard [.counted count] = [] := rfl

end Journal

namespace Dispatcher

/-- The calls that packets with these tags and arguments lead to. -/
def calls (d : Dispatcher) (contents : List (String × List Value)) : List (String × List Value) :=
  contents.flatMap fun entry => (d.listenersOf entry.1).map fun listener => (listener.name, entry.2)

theorem heard_call (listener : Listener) (hearing : Hearing) :
    Journal.heard (listener.call hearing).2 = [(listener.name, hearing.args)] := by
  unfold Listener.call
  cases listener.forward <;> rfl

theorem heard_flatMap_call (listeners : List Listener) (hearing : Hearing) :
    Journal.heard ((listeners.map fun listener => listener.call hearing).flatMap Prod.snd) =
      listeners.map fun listener => (listener.name, hearing.args) := by
  induction listeners with
  | nil => rfl
  | cons listener listeners ih =>
    rw [List.map_cons, List.flatMap_cons, Journal.heard_append, heard_call, ih]
    rfl

theorem heard_failures (d : Dispatcher) (tag : String) (failures : List ProtocolError) :
    Journal.heard (failures.flatMap (d.reportFailure tag)) = [] := by
  induction failures with
  | nil => rfl
  | cons e failures ih =>
    rw [List.flatMap_cons, Journal.heard_append, ih]
    rfl

/-- Every listener of the tag hears the arguments once, whatever the others answer. -/
theorem heard_dispatchAfter (d : Dispatcher) (earlier : List (String × List Value)) (tag : String) (args : List Value) :
    Journal.heard (d.dispatchAfter earlier tag args).2 = d.calls [(tag, args)] := by
  rw [dispatchAfter, Journal.heard_append, heard_flatMap_call, heard_failures]
  simp [calls]

end Dispatcher

namespace Session

variable {T S : Type}

/-- A ready session that receives packets of a registry, with no limit on the rate. -/
structure Receiving (registry : Registry) (s : Session T S) : Prop where
  state : s.state = .ready
  inbound : s.inbound = registry
  limiter : s.receiveLimiter = .unlimited

variable {registry : Registry} {s : Session T S}

theorem Receiving.note (h : s.Receiving registry) (journal : Journal) : Receiving registry { s with journal } :=
  ⟨h.state, h.inbound, h.limiter⟩

theorem foldl_deliver (packet : Packet) (decoded : List (List Value)) (s : Session T S) :
    ∃ journal, decoded.foldl (deliver packet) s = { s with journal := s.journal ++ journal } ∧
      Journal.heard journal =
        s.dispatcher.calls (decoded.map fun values => (packet.tag, packet.schema.arguments values)) := by
  induction decoded generalizing s with
  | nil => exact ⟨[], by simp, rfl⟩
  | cons values decoded ih =>
    obtain ⟨journal, hfold, hheard⟩ := ih (deliver packet s values)
    refine ⟨.counted .packetReceived ::
      (s.dispatcher.dispatchAfter (Journal.heard s.journal) packet.tag (packet.schema.arguments values)).2 ++ journal,
      ?_, ?_⟩
    · rw [List.foldl_cons, hfold]
      simp [deliver, count, note]
    · have hdispatch := s.dispatcher.heard_dispatchAfter (Journal.heard s.journal) packet.tag
        (packet.schema.arguments values)
      rw [List.cons_append, ← List.singleton_append, Journal.heard_append, Journal.heard_append, hheard, hdispatch]
      simp [Dispatcher.calls, deliver, count, note]

theorem hitTimes_unlimited (key : UInt8) (times : Nat) :
    RateLimiter.unlimited.hitTimes key times = (true, .unlimited) := by
  have hnone : RateLimiter.unlimited.allowance? key = none := by simp [RateLimiter.allowance?, RateLimiter.unlimited]
  induction times with
  | zero => rfl
  | succ times ih => simp only [RateLimiter.hitTimes, RateLimiter.hit, hnone, ih]

theorem mapM_decode {packet : Packet} {payloads : List Bytes}
    (h : ∀ payload ∈ payloads, ∃ values, packet.decode payload = .ok values) :
    ∃ decoded, payloads.mapM packet.decode = .ok decoded ∧
      packet.opened payloads = decoded.map packet.schema.arguments := by
  obtain ⟨decoded, hdecoded⟩ := Outcome.exists_mapM h
  exact ⟨decoded, hdecoded, Packet.opened_of_mapM hdecoded⟩

theorem Receiving.openMessage_eq (h : s.Receiving registry) {key : UInt8} {packet : Packet} {body : Bytes}
    {payloads : List Bytes} (hkey : registry.byKey key = .ok packet) (henabled : packet.enabled = true)
    (hpayloads : (if packet.schema.isBatched then Batcher.unravel packet.tag body packet.schema.maxBatch
      else .ok [body]) = .ok payloads) :
    s.openMessage (key :: body) = .ok (key, packet, payloads) := by
  refine Outcome.bind_eq_ok.2 ⟨(key, packet, body), ?_, ?_⟩
  · rw [inboundPacket, h.inbound, hkey]
    rfl
  · dsimp only
    rw [henabled, if_neg (by simp)]
    split at hpayloads
    · rename_i hbatched
      rw [if_pos hbatched]
      exact Outcome.bind_eq_ok.2 ⟨payloads, hpayloads, rfl⟩
    · rename_i hsingle
      rw [if_neg hsingle]
      exact Outcome.bind_eq_ok.2 ⟨payloads, hpayloads, rfl⟩

/-- A genuine message opens to payloads that decode. -/
theorem openMessage_genuine (h : s.Receiving registry) {message : Bytes} (hgenuine : registry.Genuine message) :
    ∃ key packet payloads decoded, s.openMessage message = .ok (key, packet, payloads) ∧
      payloads.mapM packet.decode = .ok decoded ∧
      registry.contents message = decoded.map fun values => (packet.tag, packet.schema.arguments values) := by
  cases hgenuine with
  | @single key packet payload hkey hbatched hreadable =>
    obtain ⟨henabled, hvalues⟩ := hreadable
    obtain ⟨decoded, hdecoded, hopened⟩ := @mapM_decode packet [payload] (by simpa using hvalues)
    refine ⟨key, packet, [payload], decoded, h.openMessage_eq hkey henabled ?_, hdecoded, ?_⟩
    · rw [hbatched]
      rfl
    · rw [Registry.contents_single hkey hbatched, hopened, List.map_map]
      rfl
  | @batch key packet payloads hkey hbatched hne hroom hpayloads =>
    obtain ⟨payload, hpayload⟩ := List.exists_mem_of_ne_nil payloads hne
    obtain ⟨decoded, hdecoded, hopened⟩ := mapM_decode fun p hp => (hpayloads p hp).2.2
    refine ⟨key, packet, payloads, decoded, h.openMessage_eq hkey (hpayloads payload hpayload).2.1 ?_, hdecoded, ?_⟩
    · rw [if_pos hbatched]
      exact Batcher.unravel_flatMap hne (fun p hp => (hpayloads p hp).1) hroom
    · rw [Registry.contents_batch hkey hbatched hne hroom hpayloads, hopened, List.map_map]
      rfl

/-- A genuine message is taken in: its contents are heard, and nothing else changes. -/
theorem receive_genuine (h : s.Receiving registry) {message : Bytes} (hgenuine : registry.Genuine message) :
    ∃ journal, s.receive message = (.ok (), { s with journal := s.journal ++ journal }) ∧
      Journal.heard journal = s.dispatcher.calls (registry.contents message) := by
  have hcounted : (s.count (.messageReceived message.length)).Receiving registry := h.note _
  obtain ⟨key, packet, payloads, decoded, hopen, hdecoded, hcontents⟩ := openMessage_genuine hcounted hgenuine
  obtain ⟨journal, hfold, hheard⟩ := foldl_deliver packet decoded (s.count (.messageReceived message.length))
  refine ⟨.counted (.messageReceived message.length) :: journal, ?_, ?_⟩
  · have hlimiter : (s.count (.messageReceived message.length)).receiveLimiter = .unlimited := h.limiter
    unfold receive
    simp only [hopen, hlimiter, hitTimes_unlimited, hdecoded]
    have hsame : { s.count (.messageReceived message.length) with receiveLimiter := .unlimited } =
        s.count (.messageReceived message.length) := by rw [← hlimiter]
    rw [hsame, hfold]
    simp [count, note]
  · rw [← List.singleton_append, Journal.heard_append, Journal.heard_counted, hheard, hcontents]
    rfl

end Session

/-- Where no first packet is required, a server takes a genuine message in as its session does. -/
theorem ServerConnection.onMessage_genuine {T S : Type} [Transport T] [Scheduler S] {registry : Registry}
    {c : ServerConnection T S} (h : c.session.Receiving registry) (hfirst : c.definition.config.handshakePacket = none)
    {message : Bytes} (hgenuine : registry.Genuine message) :
    ∃ journal, c.onMessage message = { c with session := { c.session with journal := c.session.journal ++ journal } } ∧
      Journal.heard journal = c.session.dispatcher.calls (registry.contents message) := by
  obtain ⟨journal, hreceive, hheard⟩ := Session.receive_genuine h hgenuine
  have hready : c.session.isReady = true := by simp [Session.isReady, h.state]
  refine ⟨journal, ?_, hheard⟩
  simp only [onMessage, hready, checkFirst, hfirst, Session.receiveOrFail, hreceive]
  rfl

end PacketProtocol
