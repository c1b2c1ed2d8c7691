import PacketProtocol.Proofs.Deferring
/-!
# Counting up to the cap

A limiter lets a packet pass as long as the packets of its key in this window, that one included, are
within the cap. What a queue releases at the start of a window is counted, so it is within the cap too.
-/

namespace PacketProtocol

namespace RateLimiter

variable {limiter : RateLimiter} {key other : UInt8}

/-- Whether the cap of a key can be passed at all: counters stop at a bound of their own. -/
def Caps (limiter : RateLimiter) (key : UInt8) : Prop := 0 < limiter.cap key ∧ limiter.cap key < maxCount

theorem allowance?_eq_some {a : Allowance} :
    limiter.allowance? key = some a ↔ key ≠ 0 ∧ limiter.allowances[key.toNat - 1]? = some a := by
  unfold allowance?
  split <;> simp [*]

theorem allowance?_of_pos (h : 0 < limiter.cap key) :
    limiter.allowance? key = some ⟨limiter.cap key, limiter.count key⟩ := by
  unfold cap at h
  cases hallowance : limiter.allowance? key with
  | none =>
    rw [hallowance] at h
    cases h
  | some a => simp [cap, count, hallowance]

/-- What may still be counted is what the cap leaves, if there is one. -/
theorem remaining_eq (limiter : RateLimiter) (key : UInt8) :
    limiter.remaining key = if limiter.cap key = 0 then none else some (limiter.cap key - limiter.count key) := by
  unfold remaining cap count
  cases limiter.allowance? key <;> rfl

/-- After a hit every other key is as before, and of its own only the count may differ. -/
theorem allowance?_hit (limiter : RateLimiter) (key other : UInt8) :
    ((limiter.hit key).2.allowance? other).map Allowance.cap = (limiter.allowance? other).map Allowance.cap ∧
      (other ≠ key → (limiter.hit key).2.allowance? other = limiter.allowance? other) := by
  unfold hit
  cases hallowance : limiter.allowance? key with
  | none => exact ⟨rfl, fun _ => rfl⟩
  | some a =>
    dsimp only
    split
    · exact ⟨rfl, fun _ => rfl⟩
    · obtain ⟨hkey, hslot⟩ := allowance?_eq_some.1 hallowance
      obtain ⟨hlt, hget⟩ := List.getElem?_eq_some_iff.1 hslot
      by_cases hother : other = 0
      · simp [allowance?, hother]
      · simp only [allowance?, if_neg hother, List.getElem?_set]
        by_cases hne : other = key
        · subst hne
          simp [hlt, hget]
        · have hindex : key.toNat - 1 ≠ other.toNat - 1 := by
            have hk : key.toNat ≠ 0 := fun h => hkey (UInt8.toNat_inj.1 h)
            have ho : other.toNat ≠ 0 := fun h => hother (UInt8.toNat_inj.1 h)
            have hko : key.toNat ≠ other.toNat := fun h => hne (UInt8.toNat_inj.1 h).symm
            omega
          simp [hindex]

theorem cap_hit (limiter : RateLimiter) (key other : UInt8) : (limiter.hit key).2.cap other = limiter.cap other := by
  rw [cap, cap, (allowance?_hit limiter key other).1]

theorem count_hit_of_ne (h : other ≠ key) : (limiter.hit key).2.count other = limiter.count other := by
  rw [count, count, (allowance?_hit limiter key other).2 h]

/-- A hit under a cap is within it or not, and counts either way. -/
theorem hit_of_pos (hpos : 0 < limiter.cap key) :
    (limiter.hit key).1 = decide (min (limiter.count key + 1) maxCount ≤ limiter.cap key) ∧
      (limiter.hit key).2.count key = min (limiter.count key + 1) maxCount := by
  have hallowance := allowance?_of_pos hpos
  obtain ⟨hkey, hslot⟩ := allowance?_eq_some.1 hallowance
  have hlt := (List.getElem?_eq_some_iff.1 hslot).1
  unfold hit
  rw [hallowance]
  dsimp only
  rw [if_neg (Nat.pos_iff_ne_zero.1 hpos)]
  exact ⟨rfl, by simp [count, allowance?, hkey, hlt]⟩

theorem hit_of_zero (h : limiter.cap key = 0) : limiter.hit key = (true, limiter) := by
  unfold hit
  cases hallowance : limiter.allowance? key with
  | none => rfl
  | some a => exact if_pos (by simpa [cap, hallowance] using h)

theorem hit_caps (h : limiter.Caps key) :
    (limiter.hit key).1 = decide (limiter.count key + 1 ≤ limiter.cap key) ∧
      (limiter.hit key).2.count key = min (limiter.count key + 1) maxCount := by
  obtain ⟨hpass, hcount⟩ := hit_of_pos h.1
  refine ⟨?_, hcount⟩
  have hbound := h.2
  rw [hpass, decide_eq_decide]
  omega

/-- Without a cap that can be passed every packet passes. -/
theorem hit_free (h : ¬limiter.Caps key) : (limiter.hit key).1 = true := by
  obtain hzero | hpos := Nat.eq_zero_or_pos (limiter.cap key)
  · rw [hit_of_zero hzero]
  · have hbound : maxCount ≤ limiter.cap key := Nat.le_of_not_lt fun hless => h ⟨hpos, hless⟩
    rw [(hit_of_pos hpos).1]
    exact decide_eq_true (Nat.le_trans (Nat.min_le_right _ _) hbound)

theorem caps_hit : (limiter.hit key).2.Caps other ↔ limiter.Caps other := by
  rw [Caps, Caps, cap_hit]

/-- Fresh counters count nothing. -/
theorem count_ofRegistry (registry : Registry) (key : UInt8) : (ofRegistry registry).count key = 0 := by
  unfold count allowance?
  split
  · rfl
  · simp only [ofRegistry, List.getElem?_map]
    cases registry.packets[key.toNat - 1]? <;> rfl

/-! ## Several packets -/

theorem cap_hitTimes (times : Nat) (limiter : RateLimiter) (key other : UInt8) :
    (limiter.hitTimes key times).2.cap other = limiter.cap other := by
  induction times generalizing limiter with
  | zero => rfl
  | succ times ih =>
    have hcap := cap_hit limiter key other
    rw [hitTimes]
    split
    · rename_i hhit
      rw [hhit] at hcap
      exact (ih _).trans hcap
    · rename_i hhit
      rw [hhit] at hcap
      exact hcap

theorem count_hitTimes_of_ne (h : other ≠ key) (times : Nat) (limiter : RateLimiter) :
    (limiter.hitTimes key times).2.count other = limiter.count other := by
  induction times generalizing limiter with
  | zero => rfl
  | succ times ih =>
    have hcount := @count_hit_of_ne limiter key other h
    rw [hitTimes]
    split
    · rename_i hhit
      rw [hhit] at hcount
      exact (ih _).trans hcount
    · rename_i hhit
      rw [hhit] at hcount
      exact hcount

/-- Packets within the cap pass, and are counted. -/
theorem hitTimes_within {times : Nat} (h : limiter.Caps key) (hroom : limiter.count key + times ≤ limiter.cap key) :
    (limiter.hitTimes key times).1 = true ∧ (limiter.hitTimes key times).2.count key = limiter.count key + times := by
  induction times generalizing limiter with
  | zero => exact ⟨rfl, rfl⟩
  | succ times ih =>
    obtain ⟨hpass, hcount⟩ := hit_caps h
    have hbound := h.2
    rw [decide_eq_true (by omega)] at hpass
    rw [Nat.min_eq_left (by omega)] at hcount
    have hrest := ih (caps_hit.2 h) (by rw [hcount, cap_hit]; omega)
    rw [hitTimes]
    split
    · rename_i limiter' hhit
      rw [hhit] at hrest hcount
      exact ⟨hrest.1, hrest.2.trans (by rw [hcount]; omega)⟩
    · rename_i hhit
      rw [hhit] at hpass
      cases hpass

theorem hitTimes_free (h : ¬limiter.Caps key) (times : Nat) : (limiter.hitTimes key times).1 = true := by
  induction times generalizing limiter with
  | zero => rfl
  | succ times ih =>
    have hpass := hit_free h
    have hrest := @ih (limiter.hit key).2 fun hcaps => h (caps_hit.1 hcaps)
    rw [hitTimes]
    split
    · rename_i hhit
      rw [hhit] at hrest
      exact hrest
    · rename_i hhit
      rw [hhit] at hpass
      cases hpass

/-! ## Spending -/

/-- What is used up of the cap in this window. -/
def spent (limiter : RateLimiter) (key : UInt8) : Nat := min (limiter.count key) (limiter.cap key)

/-- A hit spends what is left of a cap, and nothing else. -/
theorem spent_hit (h : limiter.Caps key) :
    limiter.spent key ≤ (limiter.hit key).2.spent key ∧
      ((limiter.hit key).1 = true → (limiter.hit key).2.spent key = limiter.spent key + 1) := by
  obtain ⟨hpass, hcount⟩ := hit_caps h
  obtain ⟨-, hbound⟩ := h
  rw [spent, spent, hcount, cap_hit, hpass]
  refine ⟨by omega, fun hle => ?_⟩
  have hle := of_decide_eq_true hle
  omega

/-- A hit passes as long as something is left of the cap. -/
theorem hit_iff (h : limiter.Caps key) : (limiter.hit key).1 = true ↔ limiter.spent key < limiter.cap key := by
  obtain ⟨hpass, -⟩ := hit_caps h
  rw [hpass, decide_eq_true_iff, spent]
  omega

/-- What does not pass spends nothing. -/
theorem spent_hit_over (h : limiter.Caps key) (hover : (limiter.hit key).1 = false) :
    (limiter.hit key).2.spent key = limiter.spent key := by
  obtain ⟨hpass, hcount⟩ := hit_caps h
  obtain ⟨-, hbound⟩ := h
  rw [hover] at hpass
  have hover := of_decide_eq_false hpass.symm
  rw [spent, spent, hcount, cap_hit]
  omega

theorem spent_hit_of_ne (h : other ≠ key) : (limiter.hit key).2.spent other = limiter.spent other := by
  rw [spent, spent, count_hit_of_ne h, cap_hit]

/-! ## New windows -/

theorem allowance?_reset (limiter : RateLimiter) (key : UInt8) :
    limiter.reset.allowance? key = (limiter.allowance? key).map fun a => { a with used := 0 } := by
  unfold allowance?
  split
  · rfl
  · simp [reset]

theorem cap_reset (limiter : RateLimiter) (key : UInt8) : limiter.reset.cap key = limiter.cap key := by
  simp [cap, allowance?_reset, Option.map_map, Function.comp_def]

theorem count_reset (limiter : RateLimiter) (key : UInt8) : limiter.reset.count key = 0 := by
  rw [count, allowance?_reset, Option.map_map]
  cases limiter.allowance? key <;> rfl

end RateLimiter

/-! ## What queues release -/

namespace RateLimiter

variable {limiter : RateLimiter} {key other : UInt8}

/-- Of some payloads, the first that may still be counted. -/
def grants (limiter : RateLimiter) (key : UInt8) (payloads : List Bytes) : List Bytes :=
  match limiter.remaining key with
  | none => payloads
  | some left => payloads.take left

theorem grants_of_pos (hpos : 0 < limiter.cap key) (payloads : List Bytes) :
    limiter.grants key payloads = payloads.take (limiter.cap key - limiter.count key) := by
  rw [grants, remaining_eq, if_neg (Nat.pos_iff_ne_zero.1 hpos)]

/-- A hit takes one off what may still be counted. -/
theorem remaining_hit (hfits : limiter.cap key ≤ maxCount) (hleft : limiter.remaining key ≠ some 0) :
    (limiter.hit key).2.remaining key = (limiter.remaining key).map (· - 1) ∧
      (limiter.hit key).2.count key = limiter.count key + if limiter.cap key = 0 then 0 else 1 := by
  rw [remaining_eq] at hleft ⊢
  rw [remaining_eq, cap_hit]
  by_cases hzero : limiter.cap key = 0
  · simp [hzero, hit_of_zero hzero]
  · simp only [if_neg hzero, ne_eq, Option.some.injEq] at hleft ⊢
    -- a counter below a cap is below the bound of counters as well
    have hcount := (hit_of_pos (Nat.pos_of_ne_zero hzero)).2
    rw [Nat.min_eq_left (by omega)] at hcount
    rw [hcount]
    exact ⟨congrArg some (Nat.sub_add_eq _ _ 1), rfl⟩

theorem grants_congr {limiter' : RateLimiter} (hcap : limiter'.cap key = limiter.cap key)
    (hcount : limiter'.count key = limiter.count key) (payloads : List Bytes) :
    limiter'.grants key payloads = limiter.grants key payloads := by
  rw [grants, grants, remaining_eq, remaining_eq, hcap, hcount]

end RateLimiter

namespace DeferredQueue

open RateLimiter

variable {key other : UInt8}

theorem cap_admitQueue (payloads : List Bytes) (limiter : RateLimiter) (key other : UInt8) :
    (admitQueue limiter key payloads).1.cap other = limiter.cap other := by
  induction payloads generalizing limiter with
  | nil => rfl
  | cons payload payloads ih =>
    rw [admitQueue]
    split
    · rfl
    · exact (ih _).trans (cap_hit limiter key other)

theorem count_admitQueue_of_ne (h : other ≠ key) (payloads : List Bytes) (limiter : RateLimiter) :
    (admitQueue limiter key payloads).1.count other = limiter.count other := by
  induction payloads generalizing limiter with
  | nil => rfl
  | cons payload payloads ih =>
    rw [admitQueue]
    split
    · rfl
    · exact (ih _).trans (count_hit_of_ne h)

/-- As many are taken as may still be counted, the oldest first, and under a cap they are counted. -/
theorem admitQueue_grants (payloads : List Bytes) {limiter : RateLimiter} (hfits : limiter.cap key ≤ maxCount) :
    (admitQueue limiter key payloads).2.1 = limiter.grants key payloads ∧
      (admitQueue limiter key payloads).1.count key =
        limiter.count key + if limiter.cap key = 0 then 0 else (limiter.grants key payloads).length := by
  induction payloads generalizing limiter with
  | nil => cases hleft : limiter.remaining key <;> simp [admitQueue, grants, hleft]
  | cons payload payloads ih =>
    rw [admitQueue]
    split
    · rename_i hleft
      simp [grants, hleft]
    · rename_i hleft
      obtain ⟨hrest, hhit⟩ := remaining_hit hfits hleft
      obtain ⟨htaken, hcount⟩ := @ih (limiter.hit key).2 (by rwa [cap_hit])
      have hgrants : limiter.grants key (payload :: payloads) = payload :: (limiter.hit key).2.grants key payloads := by
        unfold grants
        rw [hrest]
        cases hremaining : limiter.remaining key with
        | none => rfl
        | some left =>
          obtain ⟨less, rfl⟩ := Nat.exists_eq_succ_of_ne_zero fun hzero => hleft (hremaining.trans (congrArg some hzero))
          rfl
      rw [hgrants]
      refine ⟨congrArg (payload :: ·) htaken, hcount.trans ?_⟩
      rw [hhit, cap_hit, List.length_cons]
      split <;> omega

theorem cap_admitAll (queues : List (UInt8 × List Bytes)) (limiter : RateLimiter) (key : UInt8) :
    (admitAll limiter queues).1.cap key = limiter.cap key := by
  induction queues generalizing limiter with
  | nil => rfl
  | cons first queues ih =>
    obtain ⟨k, payloads⟩ := first
    exact (ih _).trans (cap_admitQueue payloads limiter k key)

/-- Of each key as many are released as may still be counted, the oldest first. -/
theorem ofKey_admitAll {queues : List (UInt8 × List Bytes)} (h : Ordered queues) {limiter : RateLimiter}
    (hfits : limiter.cap key ≤ maxCount) :
    ofKey key (admitAll limiter queues).2.1 = limiter.grants key ((queues.lookup key).getD []) := by
  induction queues generalizing limiter with
  | nil => cases hleft : limiter.remaining key <;> simp [admitAll, grants, hleft]
  | cons first queues ih =>
    obtain ⟨k, payloads⟩ := first
    obtain ⟨hfirst, hrest⟩ := List.pairwise_cons.1 h
    simp only [admitAll]
    rw [ofKey_append]
    by_cases hk : key = k
    · subst hk
      rw [ofKey_map_self, ofKey_admitAll_of_lt hfirst, List.append_nil, lookup_cons_self]
      exact (admitQueue_grants payloads hfits).1
    · -- the queues of other keys leave this one's count alone
      have hcap := cap_admitQueue payloads limiter k key
      rw [ofKey_map_of_ne (Ne.symm hk), List.nil_append, lookup_cons_of_ne hk, ih hrest (by rwa [hcap])]
      exact grants_congr hcap (count_admitQueue_of_ne hk payloads limiter) _

/-- What is released under a cap is counted, and nothing else. -/
theorem count_admitAll (queues : List (UInt8 × List Bytes)) {limiter : RateLimiter} (hfits : limiter.cap key ≤ maxCount) :
    (admitAll limiter queues).1.count key =
      limiter.count key + if limiter.cap key = 0 then 0 else (ofKey key (admitAll limiter queues).2.1).length := by
  induction queues generalizing limiter with
  | nil => simp [admitAll]
  | cons first queues ih =>
    obtain ⟨k, payloads⟩ := first
    have hcap := cap_admitQueue payloads limiter k key
    have hrest := @ih (admitQueue limiter k payloads).1 (by rwa [hcap])
    rw [hcap] at hrest
    show (admitAll (admitQueue limiter k payloads).1 queues).1.count key = limiter.count key + if limiter.cap key = 0
      then 0 else (ofKey key ((admitQueue limiter k payloads).2.1.map (k, ·) ++
        (admitAll (admitQueue limiter k payloads).1 queues).2.1)).length
    rw [hrest, ofKey_append, List.length_append]
    by_cases hk : key = k
    · subst hk
      obtain ⟨htaken, hcount⟩ := admitQueue_grants payloads hfits
      rw [ofKey_map_self, htaken, hcount]
      split <;> omega
    · rw [ofKey_map_of_ne (Ne.symm hk), count_admitQueue_of_ne hk]
      simp

section Drain

variable {queue : DeferredQueue} {limiter : RateLimiter} (hcaps : limiter.Caps key) (hordered : Ordered queue.queues)

include hcaps hordered

/-- At a window boundary as many are released as the cap allows. -/
theorem ofKey_drain : ofKey key (queue.drainAdmitted limiter.reset).1 = (queue.waiting key).take (limiter.cap key) := by
  have hcap := cap_reset limiter key
  have hreleased := ofKey_admitAll hordered (by rw [hcap]; exact Nat.le_of_lt hcaps.2)
  rw [grants_of_pos (hcap ▸ hcaps.1), hcap, count_reset, Nat.sub_zero] at hreleased
  exact hreleased

/-- What is released is spent of the new window. -/
theorem spent_drain : (queue.drainAdmitted limiter.reset).2.2.spent key =
    (ofKey key (queue.drainAdmitted limiter.reset).1).length := by
  have hcap := cap_reset limiter key
  have hpos := hcaps.1
  have hwithin := congrArg List.length (ofKey_drain hcaps hordered)
  have hcount := count_admitAll queue.queues (by rw [hcap]; exact Nat.le_of_lt hcaps.2)
  rw [count_reset, hcap, if_neg (Nat.pos_iff_ne_zero.1 hpos), Nat.zero_add] at hcount
  rw [List.length_take] at hwithin
  rw [spent]
  show min ((admitAll limiter.reset queue.queues).1.count key) ((admitAll limiter.reset queue.queues).1.cap key) = _
  rw [cap_admitAll, hcap, hcount]
  exact Nat.min_eq_left (hwithin ▸ Nat.min_le_left _ _)

theorem waiting_drain_drop :
    (queue.drainAdmitted limiter.reset).2.1.waiting key = (queue.waiting key).drop (limiter.cap key) := by
  have hall := waiting_drain hordered limiter.reset key
  rw [ofKey_drain hcaps hordered] at hall
  exact List.append_cancel_left (hall.symm.trans (List.take_append_drop _ _).symm)

end Drain

end DeferredQueue

end PacketProtocol
