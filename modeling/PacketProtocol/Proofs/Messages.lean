import PacketProtocol.Proofs.Calls
import PacketProtocol.Proofs.Receiving
/-!
# What becomes of a message

A message is refused because of its octets, because of the rate limit or because one of its payloads
does not decode, or all of its payloads are delivered. Each refusal has a close code that blames the
peer, and until a message is known to be good no listener runs.
-/

namespace PacketProtocol

/-! ## Steps that fail -/

namespace Outcome

variable {ε ε' α β : Type}

theorem bind_eq_error {x : Except ε α} {f : α → Except ε β} {e : ε} :
    (x >>= f) = .error e ↔ x = .error e ∨ ∃ a, x = .ok a ∧ f a = .error e := by
  cases x <;> simp [bind, Except.bind]

theorem mapError_eq_error {f : ε → ε'} {x : Except ε α} {e : ε'} :
    x.mapError f = .error e ↔ ∃ e', x = .error e' ∧ f e' = e := by
  cases x <;> simp [Except.mapError]

theorem mapM_eq_error {f : α → Except ε β} {as : List α} {e : ε} (h : as.mapM f = .error e) :
    ∃ a ∈ as, f a = .error e := by
  induction as with
  | nil => cases h
  | cons a as ih =>
    rw [List.mapM_cons] at h
    obtain ha | ⟨b, -, h⟩ := bind_eq_error.1 h
    · exact ⟨a, by simp, ha⟩
    · obtain has | ⟨bs, -, h⟩ := bind_eq_error.1 h
      · obtain ⟨a', hmem, ha'⟩ := ih has
        exact ⟨a', by simp [hmem], ha'⟩
      · cases h

end Outcome

theorem Registry.byKey_eq_error {registry : Registry} {key : UInt8} {error : ProtocolError}
    (h : registry.byKey key = .error error) : error = .unknownKey key := by
  unfold byKey at h
  split at h <;> cases h
  rfl

theorem Packet.decode_eq_error {packet : Packet} {payload : Bytes} {error : ProtocolError}
    (h : packet.decode payload = .error error) : ∃ fault, error = .malformedPayload packet.tag fault := by
  unfold decode at h
  split at h
  · cases h
    exact ⟨_, rfl⟩
  · split at h
    · cases h
      exact ⟨_, rfl⟩
    · split at h <;> cases h
      exact ⟨_, rfl⟩

/-! ## Counts in a journal -/

namespace Journal

/-- Of a connection's runs, those of listeners are heard. -/
theorem heard_runs (journal : Journal) : heard (runs journal) = heard journal := by
  induction journal with
  | nil => rfl
  | cons entry journal ih =>
    rw [← List.singleton_append, runs_append, heard_append, heard_append, ih]
    cases entry <;> rfl

theorem Tally.heard {entries : Journal} (h : Tally entries) : heard entries = [] := by
  rw [← heard_runs, h.runs]
  rfl

end Journal

/-- Of its listeners' work a dispatcher counts the errors. -/
theorem Dispatcher.eq_of_mem_counts {d : Dispatcher} {earlier : List (String × List Value)} {tag : String}
    {args : List Value} {count : Count} (h : count ∈ Journal.counts (d.dispatchAfter earlier tag args).2) : count = .listenerError := by
  have hcall : ∀ listener : Listener, Journal.counts (listener.call ⟨args, earlier⟩).2 = [] := by
    intro listener
    unfold Listener.call
    cases listener.forward <;> rfl
  have hfailure : ∀ error, Journal.counts (d.reportFailure tag error) = [.listenerError] := fun _ => rfl
  have hflat : ∀ {α : Type} (items : List α) (entries : α → Journal),
      Journal.counts (items.flatMap entries) = items.flatMap fun item => Journal.counts (entries item) := by
    intro α items entries
    exact List.filterMap_flatMap
  have happend : ∀ front back : Journal, Journal.counts (front ++ back) = Journal.counts front ++ Journal.counts back :=
    fun _ _ => List.filterMap_append
  rw [dispatchAfter, happend, hflat, hflat, List.mem_append, List.mem_flatMap, List.mem_flatMap] at h
  obtain ⟨called, hcalled, hmem⟩ | ⟨error, -, hmem⟩ := h
  · obtain ⟨listener, -, rfl⟩ := List.mem_map.1 hcalled
    rw [hcall] at hmem
    cases hmem
  · rw [hfailure] at hmem
    exact List.mem_singleton.1 hmem

theorem Dispatcher.abuses_dispatchAfter (d : Dispatcher) (earlier : List (String × List Value)) (tag : String)
    (args : List Value) : Journal.abuses (d.dispatchAfter earlier tag args).2 = 0 :=
  List.count_eq_zero.2 fun h => nomatch Dispatcher.eq_of_mem_counts h

namespace Session

variable {T S : Type} {s s' : Session T S} {bytes : Bytes} {error : ProtocolError}

/-! ## Octets that open -/

theorem inboundPacket_eq_error (h : s.inboundPacket bytes = .error error) : error.closeCode = .malformedPayload := by
  cases bytes with
  | nil =>
    cases h
    rfl
  | cons key body =>
    obtain hkey | ⟨packet, -, h⟩ := Outcome.bind_eq_error.1 h
    · rw [Registry.byKey_eq_error hkey]
      rfl
    · cases h

theorem inboundTag_eq_error (h : s.inboundTag bytes = .error error) : error.closeCode = .malformedPayload := by
  obtain h | ⟨_, -, h⟩ := Outcome.bind_eq_error.1 h
  · exact inboundPacket_eq_error h
  · cases h

theorem openMessage_eq_error (h : s.openMessage bytes = .error error) : error.closeCode = .malformedPayload := by
  obtain h | ⟨⟨key, packet, body⟩, -, h⟩ := Outcome.bind_eq_error.1 h
  · exact inboundPacket_eq_error h
  · dsimp only at h
    split at h
    · cases h
      rfl
    · split at h
      · obtain h | ⟨_, -, h⟩ := Outcome.bind_eq_error.1 h
        · unfold Batcher.unravel at h
          split at h
          · cases h
            rfl
          · obtain ⟨fault, -, rfl⟩ := Outcome.mapError_eq_error.1 h
            rfl
        · cases h
      · cases h

/-- A message that opens is a known key with a body, and its payloads those of the body. -/
theorem openMessage_eq_ok {key : UInt8} {packet : Packet} {payloads : List Bytes}
    (h : s.openMessage bytes = .ok (key, packet, payloads)) :
    ∃ body, bytes = key :: body ∧ s.inbound.byKey key = .ok packet ∧
      (if packet.schema.isBatched then Batcher.unravel packet.tag body packet.schema.maxBatch else .ok [body]) =
        .ok payloads := by
  obtain ⟨⟨key', packet', body⟩, hpacket, h⟩ := Outcome.bind_eq_ok.1 h
  have hpayloads : key' = key ∧ packet' = packet ∧
      (if packet'.schema.isBatched then Batcher.unravel packet'.tag body packet'.schema.maxBatch else .ok [body]) =
        .ok payloads := by
    dsimp only at h
    split at h
    · cases h
    · split at h
      · rename_i hbatched
        obtain ⟨payloads', hpayloads, h⟩ := Outcome.bind_eq_ok.1 h
        cases h
        exact ⟨rfl, rfl, (if_pos hbatched).trans hpayloads⟩
      · rename_i hbatched
        cases h
        exact ⟨rfl, rfl, if_neg hbatched⟩
  obtain ⟨rfl, rfl, hpayloads⟩ := hpayloads
  cases bytes with
  | nil => cases hpacket
  | cons octet rest =>
    obtain ⟨packet'', hkey, hpacket⟩ := Outcome.bind_eq_ok.1 hpacket
    cases hpacket
    exact ⟨body, rfl, hkey, hpayloads⟩

/-! ## Taking in a message -/

/-- What taking in a message does. -/
inductive Received (s : Session T S) (bytes : Bytes) : Result Unit → Session T S → Prop
  | unopened (error : ProtocolError) (entries : Journal) : s.openMessage bytes = .error error →
      Journal.Tally entries → Received s bytes (.error error) { s with journal := s.journal ++ entries }
  | limited (key : UInt8) (packet : Packet) (payloads : List Bytes) (receiveLimiter : RateLimiter) (entries : Journal) :
      s.openMessage bytes = .ok (key, packet, payloads) →
      s.receiveLimiter.hitTimes key payloads.length = (false, receiveLimiter) → Journal.Tally entries →
      Received s bytes (.error (.rateLimited packet.tag))
        { s with receiveLimiter, journal := s.journal ++ entries }
  | undecoded (error : ProtocolError) (key : UInt8) (packet : Packet) (payloads : List Bytes)
      (receiveLimiter : RateLimiter) (entries : Journal) :
      s.openMessage bytes = .ok (key, packet, payloads) →
      s.receiveLimiter.hitTimes key payloads.length = (true, receiveLimiter) →
      payloads.mapM packet.decode = .error error → Journal.Tally entries →
      Received s bytes (.error error) { s with receiveLimiter, journal := s.journal ++ entries }
  | delivered (key : UInt8) (packet : Packet) (payloads : List Bytes) (receiveLimiter : RateLimiter)
      (decoded : List (List Value)) (entries : Journal) :
      s.openMessage bytes = .ok (key, packet, payloads) →
      s.receiveLimiter.hitTimes key payloads.length = (true, receiveLimiter) →
      payloads.mapM packet.decode = .ok decoded →
      Journal.heard entries =
        s.dispatcher.calls (decoded.map fun values => (packet.tag, packet.schema.arguments values)) →
      Journal.abuses entries = 0 →
      Received s bytes (.ok ()) { s with receiveLimiter, journal := s.journal ++ entries }

theorem abuses_foldl_deliver (packet : Packet) (decoded : List (List Value)) (s : Session T S) :
    Journal.abuses (decoded.foldl (deliver packet) s).journal = Journal.abuses s.journal := by
  induction decoded generalizing s with
  | nil => rfl
  | cons values decoded ih =>
    rw [List.foldl_cons, ih]
    simp only [deliver, note, count, Journal.abuses_append, Dispatcher.abuses_dispatchAfter]
    rfl

theorem receive_received (s : Session T S) (bytes : Bytes) :
    s.Received bytes (s.receive bytes).1 (s.receive bytes).2 := by
  have hcounted : Journal.Tally [.counted (.messageReceived bytes.length)] := .cons nofun .nil
  have hopen : (s.count (.messageReceived bytes.length)).openMessage bytes = s.openMessage bytes := rfl
  unfold receive
  cases hmessage : s.openMessage bytes with
  | error error =>
    simp only [hopen, hmessage]
    exact .unopened error _ hmessage hcounted
  | ok opened =>
    obtain ⟨key, packet, payloads⟩ := opened
    simp only [hopen, hmessage]
    have hlimiter : (s.count (.messageReceived bytes.length)).receiveLimiter = s.receiveLimiter := rfl
    rw [hlimiter]
    generalize hhit : s.receiveLimiter.hitTimes key payloads.length = hits
    obtain ⟨within, receiveLimiter⟩ := hits
    cases within with
    | false =>
      have hlimited : Journal.Tally [.counted (.messageReceived bytes.length), .counted .rateLimitHit] :=
        .cons nofun (.cons nofun .nil)
      have hentries := Received.limited key packet payloads receiveLimiter _ hmessage hhit hlimited
      simpa [count, note] using hentries
    | true =>
      cases hdecoded : payloads.mapM packet.decode with
      | error error => exact .undecoded error key packet payloads receiveLimiter _ hmessage hhit hdecoded hcounted
      | ok decoded =>
        let s₁ : Session T S := { s.count (.messageReceived bytes.length) with receiveLimiter }
        obtain ⟨journal, hfold, hheard⟩ := foldl_deliver packet decoded s₁
        have habuses := abuses_foldl_deliver packet decoded s₁
        rw [hfold] at habuses
        have hjournal : s₁.journal ++ journal =
            s.journal ++ (.counted (.messageReceived bytes.length) :: journal) := by simp [s₁, count, note]
        show s.Received bytes (.ok ()) (decoded.foldl (deliver packet) s₁)
        rw [hfold, hjournal]
        refine .delivered key packet payloads receiveLimiter decoded _ hmessage hhit hdecoded hheard ?_
        rw [← List.singleton_append, Journal.abuses_append, hcounted.abuses, Nat.zero_add]
        simpa using habuses

/-- A message is refused with a code that blames the peer. -/
theorem Received.closeCode (h : s.Received bytes (.error error) s') :
    error.closeCode = .malformedPayload ∨ error.closeCode = .rateLimitExceeded := by
  cases h with
  | unopened _ _ hopen _ => exact .inl (openMessage_eq_error hopen)
  | limited key packet payloads _ _ _ _ _ => exact .inr rfl
  | undecoded _ key packet payloads _ _ _ _ hdecoded _ =>
    obtain ⟨payload, -, hpayload⟩ := Outcome.mapM_eq_error hdecoded
    obtain ⟨fault, rfl⟩ := Packet.decode_eq_error hpayload
    exact .inl rfl

end Session

/-! ## The first packet -/

namespace ServerConnection

variable {T S : Type} [Scheduler S]

/-- The check for the first packet refuses with a code that blames the peer. -/
theorem checkFirst_eq_error {c : ServerConnection T S} {bytes : Bytes} {error : ProtocolError}
    (h : (c.checkFirst bytes).1 = .error error) :
    error.closeCode = .malformedPayload ∨ error.closeCode = .handshakeRequired ∨
      error.closeCode = .handshakeDuplicate := by
  unfold checkFirst at h
  split at h
  · cases h
  · split at h
    · rename_i htag
      cases h
      exact .inl (Session.inboundTag_eq_error htag)
    · split at h
      · cases h
      · cases h
        exact .inr (.inl rfl)
      · cases h
        exact .inr (.inr rfl)
      · cases h

end ServerConnection

end PacketProtocol
