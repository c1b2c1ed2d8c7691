import PacketProtocol.Proofs.Emission
import PacketProtocol.Proofs.Limits
/-!
# What is sent was let pass

Whatever a session writes or puts in a batch was counted by its limiter, in this window or, if it
waited in the batch, when it was put there.
-/

namespace PacketProtocol.Session

variable {T S : Type} [Transport T] {registry : Registry} {s s' s'' : Session T S} {key : UInt8} {payload : Bytes}

/-! ## Payloads -/

/-- From `s` to `s'` messages were written. Of each packet, what they carry, what waits now and what
was lost on the way are together what waited before and what was let pass. Nothing is lost if it is
short enough for a batch. -/
def Left (registry : Registry) (passed : List (UInt8 × Bytes)) (s s' : Session T S) : Prop :=
  ∃ sent lost, s'.transport = Transport.sendAll s.transport sent ∧
    ((∀ entry ∈ passed, registry.Short entry) → lost = []) ∧ ∀ key packet, registry.byKey key = .ok packet →
      (sent.flatMap (registry.carried key) ++ s'.waiting key ++ ofKey key lost).Perm (s.waiting key ++ ofKey key passed)

variable {passed passed' : List (UInt8 × Bytes)}

theorem Left.of_batchers (htransport : s'.transport = s.transport) (hbatchers : s'.batchers = s.batchers) :
    Left registry [] s s' := by
  refine ⟨[], [], htransport, fun _ => rfl, fun key packet _ => ?_⟩
  rw [waiting, waiting, batcher?, batcher?, hbatchers]
  exact .refl _

theorem Left.trans (h : Left registry passed s s') (h' : Left registry passed' s' s'') :
    Left registry (passed ++ passed') s s'' := by
  obtain ⟨sent, lost, htransport, hnone, hperm⟩ := h
  obtain ⟨sent', lost', htransport', hnone', hperm'⟩ := h'
  refine ⟨sent ++ sent', lost ++ lost', by rw [htransport', htransport, Transport.sendAll_append],
    fun hshort => ?_, fun key packet hkey => ?_⟩
  · rw [hnone fun entry hentry => hshort entry (List.mem_append_left _ hentry),
      hnone' fun entry hentry => hshort entry (List.mem_append_right _ hentry)]
    rfl
  · -- what waits in between stands on both sides
    rw [List.perm_iff_count]
    intro payload
    have hfirst := (hperm key packet hkey).count_eq payload
    have hsecond := (hperm' key packet hkey).count_eq payload
    simp only [List.flatMap_append, ofKey_append, List.count_append] at hfirst hsecond ⊢
    omega

theorem Emitted.left {result : Result Unit} (hbatching : s.Batching registry)
    (h : s.Emitted registry key payload result s') : Left registry [(key, payload)] s s' := by
  cases result with
  | error error =>
    cases h with
    | long batcher _ journal hbatcher hlong =>
      refine ⟨[], [(key, payload)], rfl, fun hshort => ?_, fun other packet _ => .refl _⟩
      obtain ⟨packet, hkey, hbatched, -⟩ := hbatching.serves key batcher hbatcher
      exact absurd (hshort _ (List.mem_singleton_self _) packet hkey hbatched) (Nat.not_lt.2 hlong)
  | ok _ =>
    obtain ⟨sent, htransport, hothers, hplace⟩ := h.effect hbatching
    refine ⟨sent, [], htransport, fun _ => rfl, fun other packet hother => ?_⟩
    rw [ofKey_nil, List.append_nil]
    by_cases hne : other = key
    · subst hne
      rw [ofKey_cons_self, ofKey_nil]
      obtain ⟨hcarried, hwaiting, -⟩ | ⟨rfl, hwaiting⟩ := hplace packet hother
      · rw [hcarried, hwaiting]
        exact List.perm_append_comm
      · rw [hwaiting]
        exact .refl _
    · obtain ⟨hwaiting, hcarried⟩ := hothers other hne
      rw [hwaiting, hcarried, ofKey_cons_of_ne (Ne.symm hne), ofKey_nil, List.append_nil]
      exact .refl _

/-- Released payloads leave, up to the first that fails. -/
theorem left_emitAll (hflow : s.Flowing registry) (released : List (UInt8 × Bytes)) :
    Left registry released s (s.emitAll released).2 := by
  induction released generalizing s with
  | nil => exact .of_batchers rfl rfl
  | cons entry released ih =>
    obtain ⟨key, payload⟩ := entry
    have hemitted := emit_emitted hflow.accepts hflow.batching key payload
    rw [Session.emitAll]
    split
    · rename_i s₁ hemit
      rw [hemit] at hemitted
      exact (hemitted.left hflow.batching).trans (ih (hemitted.flowing hflow))
    · rename_i error s₁ hemit
      rw [hemit] at hemitted
      cases hemitted with
      | long batcher _ journal hbatcher hlong =>
        refine ⟨[], (key, payload) :: released, rfl, fun hshort => ?_, fun other packet _ => .refl _⟩
        obtain ⟨packet, hkey, hbatched, -⟩ := hflow.batching.serves key batcher hbatcher
        exact absurd (hshort _ List.mem_cons_self packet hkey hbatched) (Nat.not_lt.2 hlong)

theorem emitAll_sendLimiter (hflow : s.Flowing registry) (released : List (UInt8 × Bytes)) :
    (s.emitAll released).2.sendLimiter = s.sendLimiter := by
  induction released generalizing s with
  | nil => rfl
  | cons entry released ih =>
    obtain ⟨key, payload⟩ := entry
    have hemitted := emit_emitted hflow.accepts hflow.batching key payload
    have hflow' := hemitted.flowing hflow
    have hsame := hemitted.same.2.2.2
    rw [Session.emitAll]
    split
    · rename_i hemit
      rw [hemit] at hsame hflow'
      exact (ih hflow').trans hsame
    · rename_i hemit
      rw [hemit] at hsame
      exact hsame

/-! ## Steps under caps -/

/-- From `s` to `s'` no more was written or put in a batch than was spent of the caps since they were
as in `limiter`. -/
structure Metered (registry : Registry) (limiter : RateLimiter) (s s' : Session T S) : Prop where
  cap : ∀ key, s'.sendLimiter.cap key = limiter.cap key
  moved : ∃ sent, s'.transport = Transport.sendAll s.transport sent ∧ ∀ key packet,
    registry.byKey key = .ok packet → limiter.Caps key →
    (sent.flatMap (registry.carried key)).length + (s'.waiting key).length + limiter.spent key ≤
      (s.waiting key).length + s'.sendLimiter.spent key

theorem Left.metered {limiter : RateLimiter} (h : Left registry passed s s')
    (hcap : ∀ key, s'.sendLimiter.cap key = limiter.cap key)
    (hspent : ∀ key, limiter.Caps key → (ofKey key passed).length + limiter.spent key ≤ s'.sendLimiter.spent key) :
    Metered registry limiter s s' := by
  obtain ⟨sent, lost, htransport, -, hperm⟩ := h
  refine ⟨hcap, sent, htransport, fun key packet hkey hcaps => ?_⟩
  have hlength := (hperm key packet hkey).length_eq
  have hpaid := hspent key hcaps
  simp only [List.length_append] at hlength
  omega

/-- Where nothing leaves, nothing has to be spent. -/
theorem Metered.of_batchers {limiter : RateLimiter} (htransport : s'.transport = s.transport)
    (hbatchers : s'.batchers = s.batchers) (hcap : ∀ key, s'.sendLimiter.cap key = limiter.cap key)
    (hspent : ∀ key, limiter.Caps key → limiter.spent key ≤ s'.sendLimiter.spent key) :
    Metered registry limiter s s' :=
  (Left.of_batchers htransport hbatchers).metered hcap fun key hcaps => by
    rw [ofKey_nil, List.length_nil, Nat.zero_add]
    exact hspent key hcaps

/-- What is sent at once is counted, and what is refused or held moves nothing. -/
theorem Offered.metered {result : Result Unit} (hflow : s.Flowing registry)
    (h : s.Offered registry key payload result s') : Metered registry s.sendLimiter s s' := by
  have hcounted : ∀ limiter, limiter = s.sendLimiter ∨ limiter = (s.sendLimiter.hit key).2 →
      (∀ other, limiter.cap other = s.sendLimiter.cap other) ∧
        ∀ other, s.sendLimiter.Caps other → s.sendLimiter.spent other ≤ limiter.spent other := by
    rintro limiter (rfl | rfl)
    · exact ⟨fun _ => rfl, fun _ _ => Nat.le_refl _⟩
    · refine ⟨fun other => RateLimiter.cap_hit _ _ _, fun other hcaps => ?_⟩
      by_cases hne : other = key
      · subst hne
        exact (RateLimiter.spent_hit hcaps).1
      · exact Nat.le_of_eq (RateLimiter.spent_hit_of_ne hne).symm
  cases h with
  | refused error limiter hlimiter =>
    obtain ⟨hcap, hspent⟩ := hcounted limiter hlimiter
    exact .of_batchers rfl rfl hcap hspent
  | held deferred limiter journal hlimiter _ =>
    obtain ⟨hcap, hspent⟩ := hcounted limiter hlimiter
    exact .of_batchers rfl rfl hcap hspent
  | emitted limiter hhit _ hemitted =>
    obtain ⟨hcap, hspent⟩ := hcounted limiter (.inr (by rw [hhit]))
    have hsame := hemitted.same.2.2.2
    have hleft := hemitted.left (hflow.of_limiter limiter).batching
    refine Left.metered (s := s) hleft (fun other => hsame ▸ hcap other) fun other hcaps => ?_
    rw [hsame]
    by_cases hne : key = other
    · subst hne
      have hone := (RateLimiter.spent_hit hcaps).2 (by rw [hhit])
      rw [hhit] at hone
      rw [ofKey_cons_self, ofKey_nil, hone, Nat.add_comm]
      exact Nat.le_refl _
    · rw [ofKey_cons_of_ne hne, ofKey_nil, List.length_nil, Nat.zero_add]
      exact hspent other hcaps

theorem metered_send (hflow : s.Flowing registry) (tag : String) (values : List Value) :
    Metered registry s.sendLimiter s (s.send tag values).2 ∧ (s.send tag values).2.Flowing registry := by
  unfold Session.send
  split
  · exact ⟨.of_batchers rfl rfl (fun _ => rfl) fun _ _ => Nat.le_refl _, hflow⟩
  · rename_i key payload _
    have hoffered := sendEncoded_offered hflow key payload
    exact ⟨hoffered.metered hflow, hoffered.flowing hflow⟩

/-- A flush lets nothing pass that waits elsewhere. -/
theorem Flushed.left (hbatching : s.Batching registry) (h : s.Flushed key s') : Left registry [] s s' := by
  obtain ⟨sent, htransport, hplace⟩ := h.effect hbatching
  refine ⟨sent, [], htransport, fun _ => rfl, fun other packet hother => ?_⟩
  obtain ⟨hcarried, hwaiting⟩ | ⟨hcarried, hwaiting⟩ := hplace other packet hother
  · rw [hcarried, hwaiting, List.nil_append]
  · rw [hcarried, hwaiting, List.append_nil]

theorem metered_flush (hflow : s.Flowing registry) (key : UInt8) :
    Metered registry s.sendLimiter s (s.onTimer (.batchFlush key)) := by
  have hflushed := onTimer_batchFlush hflow key
  rw [← hflushed.same.2]
  exact (hflushed.left hflow.batching).metered (fun _ => rfl) fun _ _ => Nat.le_of_eq (Nat.zero_add _)

/-- At a window boundary what is released leaves, and is spent of the new window. -/
theorem left_rateReset (hflow : s.Flowing registry) :
    Left registry (s.deferred.drainAdmitted s.sendLimiter.reset).1 s (s.onTimer .rateReset) ∧
      (s.onTimer .rateReset).sendLimiter = (s.deferred.drainAdmitted s.sendLimiter.reset).2.2 ∧
      (s.onTimer .rateReset).deferred = (s.deferred.drainAdmitted s.sendLimiter.reset).2.1 := by
  have hleft := left_emitAll hflow.windowStart (s.deferred.drainAdmitted s.sendLimiter.reset).1
  have hlimiter := emitAll_sendLimiter hflow.windowStart (s.deferred.drainAdmitted s.sendLimiter.reset).1
  have hdeferred := emitAll_deferred hflow.windowStart (s.deferred.drainAdmitted s.sendLimiter.reset).1
  rw [← resetWindow_eq] at hleft hlimiter hdeferred
  obtain ⟨-, htick⟩ | ⟨error, -, htick⟩ := onTimer_rateReset hflow.state
  · rw [htick]
    exact ⟨hleft, hlimiter, hdeferred⟩
  · rw [htick]
    exact ⟨hleft, hlimiter, hdeferred⟩

theorem metered_reset (hflow : s.Flowing registry) :
    Metered registry s.sendLimiter.reset s (s.onTimer .rateReset) := by
  obtain ⟨hleft, hlimiter, -⟩ := left_rateReset hflow
  have hcap := DeferredQueue.cap_admitAll s.deferred.queues s.sendLimiter.reset
  refine hleft.metered (fun key => hlimiter ▸ hcap key) fun key hcaps => ?_
  have hcaps' : s.sendLimiter.Caps key := by rwa [RateLimiter.Caps, RateLimiter.cap_reset] at hcaps
  have hnone : s.sendLimiter.reset.spent key = 0 := by rw [RateLimiter.spent, RateLimiter.count_reset, Nat.zero_min]
  rw [hlimiter, DeferredQueue.spent_drain hcaps' hflow.ordered, hnone]
  exact Nat.le_refl _

end PacketProtocol.Session
