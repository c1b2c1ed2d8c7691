import PacketProtocol.DeferredQueue
/-!
# Queues keep what they are given

Pushed payloads wait behind those of their key, and what is released came first. Nothing is lost
between the two, and a queue with a bound stays within it.
-/

namespace PacketProtocol

/-- The payloads of a key. -/
def ofKey (key : UInt8) (entries : List (UInt8 × Bytes)) : List Bytes :=
  entries.filterMap fun entry => if entry.1 = key then some entry.2 else none

@[simp]
theorem ofKey_nil (key : UInt8) : ofKey key [] = [] := rfl

@[simp]
theorem ofKey_append (key : UInt8) (front back : List (UInt8 × Bytes)) :
    ofKey key (front ++ back) = ofKey key front ++ ofKey key back := by
  simp [ofKey]

theorem ofKey_cons_self (key : UInt8) (payload : Bytes) (entries : List (UInt8 × Bytes)) :
    ofKey key ((key, payload) :: entries) = payload :: ofKey key entries := by
  simp [ofKey]

theorem ofKey_cons_of_ne {key other : UInt8} (h : other ≠ key) (payload : Bytes) (entries : List (UInt8 × Bytes)) :
    ofKey key ((other, payload) :: entries) = ofKey key entries := by
  simp [ofKey, h]

theorem ofKey_map_self (key : UInt8) (payloads : List Bytes) : ofKey key (payloads.map (key, ·)) = payloads := by
  induction payloads with
  | nil => rfl
  | cons payload payloads ih => rw [List.map_cons, ofKey_cons_self, ih]

theorem ofKey_map_of_ne {key other : UInt8} (h : other ≠ key) (payloads : List Bytes) :
    ofKey key (payloads.map (other, ·)) = [] := by
  simp [ofKey, h]

theorem mem_of_mem_ofKey {key : UInt8} {payload : Bytes} {entries : List (UInt8 × Bytes)}
    (h : payload ∈ ofKey key entries) : (key, payload) ∈ entries := by
  obtain ⟨entry, hentry, hpayload⟩ := List.mem_filterMap.1 h
  split at hpayload
  · rename_i hkey
    cases hpayload
    exact hkey ▸ hentry
  · cases hpayload

namespace DeferredQueue

/-- Every key stands once, and keys increase. -/
def Ordered (queues : List (UInt8 × List Bytes)) : Prop := queues.Pairwise fun entry other => entry.1 < other.1

/-- No key has more payloads than there may be. -/
def Within (queue : DeferredQueue) : Prop := ∀ key, 0 < queue.maxPerKey → queue.length key ≤ queue.maxPerKey

section Lookup

variable {queues : List (UInt8 × List Bytes)} {key other : UInt8} {payload : Bytes}

theorem lookup_cons_self (payloads : List Bytes) : ((key, payloads) :: queues).lookup key = some payloads := by
  simp

theorem lookup_cons_of_ne (h : other ≠ key) (payloads : List Bytes) :
    ((key, payloads) :: queues).lookup other = queues.lookup other := by
  rw [List.lookup_cons, beq_false_of_ne h]

theorem lookup_of_lt (h : ∀ entry ∈ queues, key < entry.1) : queues.lookup key = none := by
  induction queues with
  | nil => rfl
  | cons entry queues ih =>
    obtain ⟨hlt, hrest⟩ := List.forall_mem_cons.1 h
    rw [lookup_cons_of_ne (UInt8.ne_of_lt hlt), ih hrest]

theorem keys_appendTo {entry : UInt8 × List Bytes} (h : entry ∈ appendTo key payload queues) :
    entry.1 = key ∨ ∃ old ∈ queues, old.1 = entry.1 := by
  induction queues with
  | nil =>
    obtain rfl := List.mem_singleton.1 h
    exact .inl rfl
  | cons first queues ih =>
    obtain ⟨k, payloads⟩ := first
    simp only [appendTo] at h
    split at h
    · obtain rfl | h := List.mem_cons.1 h
      · exact .inl rfl
      · exact .inr ⟨entry, h, rfl⟩
    · split at h
      · obtain rfl | h := List.mem_cons.1 h
        · exact .inr ⟨_, List.mem_cons_self, rfl⟩
        · exact .inr ⟨entry, List.mem_cons_of_mem _ h, rfl⟩
      · obtain rfl | h := List.mem_cons.1 h
        · exact .inr ⟨_, List.mem_cons_self, rfl⟩
        · obtain hkey | ⟨old, hold, hkey⟩ := ih h
          · exact .inl hkey
          · exact .inr ⟨old, List.mem_cons_of_mem _ hold, hkey⟩

theorem Ordered.appendTo (h : Ordered queues) (key : UInt8) (payload : Bytes) :
    Ordered (DeferredQueue.appendTo key payload queues) := by
  induction queues with
  | nil => exact List.pairwise_singleton _ _
  | cons first queues ih =>
    obtain ⟨k, payloads⟩ := first
    obtain ⟨hfirst, hrest⟩ := List.pairwise_cons.1 h
    simp only [DeferredQueue.appendTo]
    split
    · rename_i hlt
      refine List.pairwise_cons.2 ⟨fun entry hentry => ?_, h⟩
      obtain rfl | hentry := List.mem_cons.1 hentry
      · exact hlt
      · exact UInt8.lt_trans hlt (hfirst entry hentry)
    · split
      · exact List.pairwise_cons.2 ⟨hfirst, hrest⟩
      · rename_i hnlt hne
        refine List.pairwise_cons.2 ⟨fun entry hentry => ?_, ih hrest⟩
        -- what is put in further back has a greater key as well
        obtain hkey | ⟨old, hold, hkey⟩ := keys_appendTo hentry
        · exact hkey ▸ UInt8.lt_of_le_of_ne (UInt8.not_lt.1 hnlt) (Ne.symm hne)
        · exact hkey ▸ hfirst old hold

theorem lookup_appendTo_self (h : Ordered queues) :
    (appendTo key payload queues).lookup key = some ((queues.lookup key).getD [] ++ [payload]) := by
  induction queues with
  | nil => exact lookup_cons_self _
  | cons first queues ih =>
    obtain ⟨k, payloads⟩ := first
    obtain ⟨hfirst, hrest⟩ := List.pairwise_cons.1 h
    simp only [appendTo]
    split
    · rename_i hlt
      have hnone : ((k, payloads) :: queues).lookup key = none := by
        refine lookup_of_lt (List.forall_mem_cons.2 ⟨hlt, fun entry hentry => ?_⟩)
        exact UInt8.lt_trans hlt (hfirst entry hentry)
      rw [lookup_cons_self, hnone]
      rfl
    · split
      · rename_i heq
        subst heq
        rw [lookup_cons_self, lookup_cons_self]
        rfl
      · rename_i hne
        rw [lookup_cons_of_ne hne, lookup_cons_of_ne hne]
        exact ih hrest

theorem lookup_appendTo_of_ne (hne : other ≠ key) :
    (appendTo key payload queues).lookup other = queues.lookup other := by
  induction queues with
  | nil => exact lookup_cons_of_ne hne _
  | cons first queues ih =>
    obtain ⟨k, payloads⟩ := first
    simp only [appendTo]
    split
    · exact lookup_cons_of_ne hne _
    · split
      · rename_i heq
        subst heq
        rw [lookup_cons_of_ne hne, lookup_cons_of_ne hne]
      · by_cases hk : other = k
        · subst hk
          rw [lookup_cons_self, lookup_cons_self]
        · rw [lookup_cons_of_ne hk, lookup_cons_of_ne hk]
          exact ih

end Lookup

/-! ## Pushing -/

section Push

variable {queue queue' : DeferredQueue} {key : UInt8} {payload : Bytes}

theorem isWaiting_iff : queue.isWaiting key = true ↔ queue.waiting key ≠ [] := by
  simp [isWaiting]

theorem push?_eq_some (h : queue.push? key payload = some queue') :
    ¬(0 < queue.maxPerKey ∧ queue.maxPerKey ≤ queue.length key) ∧
      queue' = { queue with queues := appendTo key payload queue.queues } := by
  unfold push? at h
  split at h
  · cases h
  · rename_i hroom
    cases h
    exact ⟨hroom, rfl⟩

theorem waiting_push (hordered : Ordered queue.queues) (h : queue.push? key payload = some queue') (other : UInt8) :
    queue'.waiting other = queue.waiting other ++ ofKey other [(key, payload)] := by
  obtain ⟨-, rfl⟩ := push?_eq_some h
  unfold waiting
  by_cases hne : other = key
  · subst hne
    rw [lookup_appendTo_self hordered, ofKey_cons_self]
    rfl
  · rw [lookup_appendTo_of_ne hne, ofKey_cons_of_ne (Ne.symm hne), ofKey_nil, List.append_nil]

theorem Within.push (hwithin : queue.Within) (hordered : Ordered queue.queues)
    (h : queue.push? key payload = some queue') : queue'.Within := by
  intro other hpos
  have hwaiting := waiting_push hordered h other
  obtain ⟨hroom, rfl⟩ := push?_eq_some h
  have hlength := congrArg List.length hwaiting
  rw [List.length_append] at hlength
  show List.length _ ≤ _
  rw [hlength]
  by_cases hne : other = key
  · subst hne
    have hless : queue.length other < queue.maxPerKey := Nat.lt_of_not_le fun hle => hroom ⟨hpos, hle⟩
    rw [ofKey_cons_self]
    exact hless
  · rw [ofKey_cons_of_ne (Ne.symm hne)]
    exact hwithin other hpos

end Push

/-! ## Releasing -/

theorem admitQueue_append (key : UInt8) (payloads : List Bytes) (limiter : RateLimiter) :
    (admitQueue limiter key payloads).2.1 ++ (admitQueue limiter key payloads).2.2 = payloads := by
  induction payloads generalizing limiter with
  | nil => rfl
  | cons payload payloads ih =>
    rw [admitQueue]
    split
    · rfl
    · exact congrArg (payload :: ·) (ih _)

theorem keys_admitAll (queues : List (UInt8 × List Bytes)) (limiter : RateLimiter) :
    ((admitAll limiter queues).2.2.map Prod.fst).Sublist (queues.map Prod.fst) := by
  induction queues generalizing limiter with
  | nil => exact .slnil
  | cons first queues ih =>
    simp only [admitAll]
    split
    · exact (ih _).cons _
    · exact (ih _).cons_cons _

/-- What is released had been held back under its key. -/
theorem keys_released (queues : List (UInt8 × List Bytes)) (limiter : RateLimiter)
    {entry : UInt8 × Bytes} (h : entry ∈ (admitAll limiter queues).2.1) : ∃ queue ∈ queues, queue.1 = entry.1 := by
  induction queues generalizing limiter with
  | nil => cases h
  | cons first queues ih =>
    obtain h | h := List.mem_append.1 h
    · obtain ⟨payload, -, rfl⟩ := List.mem_map.1 h
      exact ⟨first, List.mem_cons_self, rfl⟩
    · obtain ⟨queue, hqueue, hkey⟩ := ih _ h
      exact ⟨queue, List.mem_cons_of_mem _ hqueue, hkey⟩

theorem Ordered.admitAll {queues : List (UInt8 × List Bytes)} (h : Ordered queues) (limiter : RateLimiter) :
    Ordered (DeferredQueue.admitAll limiter queues).2.2 := by
  have hkeys : (queues.map Prod.fst).Pairwise (· < ·) := List.pairwise_map.2 h
  exact List.pairwise_map.1 (hkeys.sublist (keys_admitAll queues limiter))

theorem ofKey_admitAll_of_lt {queues : List (UInt8 × List Bytes)} {key : UInt8} (h : ∀ entry ∈ queues, key < entry.1)
    (limiter : RateLimiter) : ofKey key (admitAll limiter queues).2.1 = [] := by
  induction queues generalizing limiter with
  | nil => rfl
  | cons first queues ih =>
    obtain ⟨hlt, hrest⟩ := List.forall_mem_cons.1 h
    simp only [admitAll]
    rw [ofKey_append, ofKey_map_of_ne (UInt8.ne_of_lt hlt).symm, ih hrest]
    rfl

/-- Of each key, what is released and what is left are what waited. -/
theorem waiting_admitAll {queues : List (UInt8 × List Bytes)} (h : Ordered queues) (limiter : RateLimiter)
    (key : UInt8) :
    ofKey key (admitAll limiter queues).2.1 ++ ((admitAll limiter queues).2.2.lookup key).getD [] =
      (queues.lookup key).getD [] := by
  induction queues generalizing limiter with
  | nil => rfl
  | cons first queues ih =>
    obtain ⟨k, payloads⟩ := first
    obtain ⟨hfirst, hrest⟩ := List.pairwise_cons.1 h
    have hqueue := admitQueue_append k payloads limiter
    simp only [admitAll]
    rw [ofKey_append]
    by_cases hk : key = k
    · subst hk
      have hnone : ((admitAll (admitQueue limiter key payloads).1 queues).2.2).lookup key = none := by
        refine lookup_of_lt fun entry hentry => ?_
        have hmem := (keys_admitAll queues (admitQueue limiter key payloads).1).subset (List.mem_map_of_mem hentry)
        obtain ⟨old, hold, hkey⟩ := List.mem_map.1 hmem
        exact hkey ▸ hfirst old hold
      rw [ofKey_map_self, ofKey_admitAll_of_lt hfirst, List.append_nil, lookup_cons_self]
      split
      · rename_i hempty
        rw [List.isEmpty_iff.1 hempty, List.append_nil] at hqueue
        rw [hnone, hqueue]
        exact List.append_nil _
      · rw [lookup_cons_self]
        exact hqueue
    · rw [ofKey_map_of_ne (Ne.symm hk), lookup_cons_of_ne hk, List.nil_append,
        ← ih hrest (admitQueue limiter k payloads).1]
      split
      · rfl
      · rw [lookup_cons_of_ne hk]

section Drain

variable {queue : DeferredQueue} (h : Ordered queue.queues) (limiter : RateLimiter)

include h

theorem Ordered.drain : Ordered (queue.drainAdmitted limiter).2.1.queues := h.admitAll limiter

theorem waiting_drain (key : UInt8) :
    queue.waiting key =
      ofKey key (queue.drainAdmitted limiter).1 ++ (queue.drainAdmitted limiter).2.1.waiting key :=
  (waiting_admitAll h limiter key).symm

theorem Within.drain (hwithin : queue.Within) : (queue.drainAdmitted limiter).2.1.Within := by
  intro key hpos
  have hlength := congrArg List.length (waiting_drain h limiter key)
  rw [List.length_append] at hlength
  have hbefore : (queue.waiting key).length ≤ queue.maxPerKey := hwithin key hpos
  show ((queue.drainAdmitted limiter).2.1.waiting key).length ≤ queue.maxPerKey
  omega

end Drain

end DeferredQueue

end PacketProtocol
