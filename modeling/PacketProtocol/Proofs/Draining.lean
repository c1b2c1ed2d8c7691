import Mathlib.Algebra.Order.BigOperators.Group.List
import Mathlib.Algebra.Order.Group.Nat
import PacketProtocol.Proofs.Limits
/-!
# Draining takes what may be counted

A drain takes queue after queue, and of each payload after payload while one more may be counted. What it took and
what it left make up what waited, and the counters say how much it took.
-/

namespace PacketProtocol

open scoped Numerals

/-! ## Counters that are words -/

namespace RateLimiter

variable {limiter : RateLimiter} {key : UInt8}

/-- Caps and counters are numbers of 32 bits. -/
def Words (limiter : RateLimiter) : Prop := ∀ a ∈ limiter.allowances, a.cap ≤ maxCount ∧ a.used ≤ maxCount

theorem words_ofRegistry (registry : Registry) : (ofRegistry registry).Words := by
  intro a ha
  obtain ⟨packet, -, rfl⟩ := List.mem_map.1 ha
  have hlt := packet.schema.rateLimit.toNat_lt
  exact ⟨Nat.le_pred_of_lt hlt, Nat.zero_le _⟩

theorem words_unlimited : unlimited.Words := nofun

/-- A rate window puts the caps of a registry in place. -/
theorem Words.negotiated (h : limiter.Words) (window : Bool) (registry : Registry) :
    (if window then ofRegistry registry else limiter).Words := by
  split
  · exact words_ofRegistry registry
  · exact h

theorem Words.allowance? (h : limiter.Words) {a : Allowance} (ha : limiter.allowance? key = some a) :
    a.cap ≤ maxCount ∧ a.used ≤ maxCount :=
  h a (List.mem_of_getElem? (allowance?_eq_some.1 ha).2)

theorem Words.hit (h : limiter.Words) (key : UInt8) : (limiter.hit key).2.Words := by
  unfold RateLimiter.hit
  split
  · exact h
  · rename_i a hallowance
    split
    · exact h
    · intro b hb
      obtain hold | rfl := List.mem_or_eq_of_mem_set hb
      · exact h b hold
      · exact ⟨(h.allowance? hallowance).1, Nat.min_le_right _ _⟩

theorem Words.reset (h : limiter.Words) : limiter.reset.Words := by
  intro a ha
  obtain ⟨b, hb, rfl⟩ := List.mem_map.1 ha
  exact ⟨(h b hb).1, Nat.zero_le _⟩

theorem Words.cap_le (h : limiter.Words) (key : UInt8) : limiter.cap key ≤ maxCount := by
  unfold cap
  cases hallowance : limiter.allowance? key with
  | none => exact Nat.zero_le _
  | some a => exact (h.allowance? hallowance).1

theorem isLimited_iff : limiter.isLimited key = true ↔ 0 < limiter.cap key := decide_eq_true_iff

theorem cap_eq_zero_iff : limiter.cap key = 0 ↔ limiter.isLimited key = false := by
  rw [← Bool.not_eq_true, isLimited_iff, Nat.not_lt, Nat.le_zero]

end RateLimiter

namespace DeferredQueue

open RateLimiter

variable {queue : DeferredQueue} {limiter : RateLimiter} {key : UInt8}

theorem words_admitQueue (h : limiter.Words) (payloads : List Bytes) : (admitQueue limiter key payloads).1.Words := by
  induction payloads generalizing limiter with
  | nil => exact h
  | cons payload payloads ih =>
    rw [admitQueue]
    split
    · exact h
    · exact ih (h.hit key)

theorem words_admitAll (h : limiter.Words) (queues : List (UInt8 × List Bytes)) : (admitAll limiter queues).1.Words := by
  induction queues generalizing limiter with
  | nil => exact h
  | cons first queues ih => exact ih (words_admitQueue h first.2)

/-! ## Order -/

/-- Keys come in their order. -/
theorem ascending_admitAll {queues : List (UInt8 × List Bytes)} (h : Ordered queues) (limiter : RateLimiter) :
    (admitAll limiter queues).2.1.Pairwise fun entry later => entry.1 ≤ later.1 := by
  induction queues generalizing limiter with
  | nil => exact .nil
  | cons first queues ih =>
    obtain ⟨k, payloads⟩ := first
    obtain ⟨hfirst, hrest⟩ := List.pairwise_cons.1 h
    refine List.pairwise_append.2 ⟨List.pairwise_map.2 (List.pairwise_of_forall fun _ _ => UInt8.le_refl k), ih hrest _, ?_⟩
    intro entry hentry later hlater
    obtain ⟨payload, -, rfl⟩ := List.mem_map.1 hentry
    obtain ⟨held, hheld, hkey⟩ := keys_released _ _ hlater
    exact hkey ▸ UInt8.le_of_lt (hfirst held hheld)

theorem ne_nil_of_mem_admitAll {queues : List (UInt8 × List Bytes)} {entry : UInt8 × List Bytes}
    (h : entry ∈ (admitAll limiter queues).2.2) : entry.2 ≠ [] := by
  induction queues generalizing limiter with
  | nil => cases h
  | cons first queues ih =>
    simp only [admitAll] at h
    split at h
    · exact ih h
    · rename_i hleft
      obtain rfl | h := List.mem_cons.1 h
      · exact fun hnil => hleft (List.isEmpty_iff.2 hnil)
      · exact ih h

/-! ## Rounds -/

/-- The loop over one queue: while a payload waits and one more may be counted, it counts one and takes the first off
the queue. `none` if `fuel` rounds do not end it. -/
def drainLoop (key : UInt8) : Nat → RateLimiter → List Bytes → List (UInt8 × Bytes) →
    Option (RateLimiter × List Bytes × List (UInt8 × Bytes))
  | 0, _, _, _ => none
  | fuel + 1, limiter, queue, released =>
    if queue.isEmpty then some (limiter, queue, released)
    else if limiter.remaining key = some 0 then some (limiter, queue, released)
    else
      match queue with
      | [] => drainLoop key fuel (limiter.hit key).2 [] released
      | payload :: queue => drainLoop key fuel (limiter.hit key).2 queue (released ++ [(key, payload)])

/-- The loop over all queues. Each stays, even when nothing is left in it. -/
def drainLoops (fuel : Nat) : RateLimiter → List (UInt8 × List Bytes) → List (UInt8 × Bytes) →
    Option (RateLimiter × List (UInt8 × List Bytes) × List (UInt8 × Bytes))
  | limiter, [], released => some (limiter, [], released)
  | limiter, (key, payloads) :: queues, released => do
    let (limiter, left, released) ← drainLoop key fuel limiter payloads released
    let (limiter, queues, released) ← drainLoops fuel limiter queues released
    return (limiter, (key, left) :: queues, released)

/-- The loops, after which the queues that are empty are dropped. -/
def drainWithin (fuel : Nat) (queue : DeferredQueue) (limiter : RateLimiter) :
    Option (List (UInt8 × Bytes) × DeferredQueue × RateLimiter) := do
  let (limiter, queues, released) ← drainLoops fuel limiter queue.queues []
  return (released, { queue with queues := queues.filter fun entry => !entry.2.isEmpty }, limiter)

/-- Each round takes a payload, so there are no more rounds than payloads, and one that finds nothing to do. -/
theorem drainLoop_eq {fuel : Nat} {payloads : List Bytes} (hfuel : payloads.length < fuel) (limiter : RateLimiter)
    (released : List (UInt8 × Bytes)) :
    drainLoop key fuel limiter payloads released =
      some ((admitQueue limiter key payloads).1, (admitQueue limiter key payloads).2.2,
        released ++ (admitQueue limiter key payloads).2.1.map (key, ·)) := by
  induction fuel generalizing payloads limiter released with
  | zero => cases hfuel
  | succ fuel ih =>
    cases payloads with
    | nil => simp [drainLoop, admitQueue]
    | cons payload payloads =>
      rw [drainLoop, admitQueue]
      simp only [List.isEmpty_cons, Bool.false_eq_true, if_false]
      split
      · simp
      · rw [ih (Nat.lt_of_succ_lt_succ hfuel), List.append_assoc]
        rfl

theorem drainLoops_eq {fuel : Nat} {queues : List (UInt8 × List Bytes)}
    (hfuel : ∀ entry ∈ queues, entry.2.length < fuel) (limiter : RateLimiter) (released : List (UInt8 × Bytes)) :
    ∃ queues', drainLoops fuel limiter queues released =
        some ((admitAll limiter queues).1, queues', released ++ (admitAll limiter queues).2.1) ∧
      (queues'.filter fun entry => !entry.2.isEmpty) = (admitAll limiter queues).2.2 := by
  induction queues generalizing limiter released with
  | nil => exact ⟨[], by simp [drainLoops, admitAll], rfl⟩
  | cons first queues ih =>
    obtain ⟨k, payloads⟩ := first
    obtain ⟨hfirst, hrest⟩ := List.forall_mem_cons.1 hfuel
    obtain ⟨queues', hloops, hkept⟩ := ih hrest (admitQueue limiter k payloads).1
      (released ++ (admitQueue limiter k payloads).2.1.map (k, ·))
    refine ⟨(k, (admitQueue limiter k payloads).2.2) :: queues', ?_, ?_⟩
    · rw [drainLoops, drainLoop_eq hfirst]
      simp only [Option.bind_eq_bind, Option.bind_some, hloops, List.append_assoc]
      rfl
    · rw [List.filter_cons, hkept]
      simp only [admitAll]
      cases (admitQueue limiter k payloads).2.2 <;> rfl

theorem length_le_total {entry : UInt8 × List Bytes} (h : entry ∈ queue.queues) : entry.2.length ≤ queue.total :=
  List.le_sum_of_mem (List.mem_map.2 ⟨entry, h, rfl⟩)

/-- The loops end, and have done what a drain does. -/
theorem drainWithin_eq {fuel : Nat} (hfuel : queue.total < fuel) (limiter : RateLimiter) :
    drainWithin fuel queue limiter = some (queue.drainAdmitted limiter) := by
  obtain ⟨queues', hloops, hkept⟩ := @drainLoops_eq fuel queue.queues
    (fun entry hentry => Nat.lt_of_le_of_lt (length_le_total hentry) hfuel) limiter []
  rw [drainWithin, hloops]
  show some (_, { queue with queues := queues'.filter _ }, _) = _
  rw [hkept]
  rfl

/-! ## What a drain does -/

/-- What was released and what is left of what waited, and how the counters tell. -/
structure Partitions (queue : DeferredQueue) (limiter : RateLimiter) (released : List (UInt8 × Bytes))
    (queue' : DeferredQueue) (limiter' : RateLimiter) : Prop where
  parts : ∀ key, ofKey key released ++ queue'.waiting key = queue.waiting key
  limited : ∀ key, limiter.isLimited key = true → ∃ left, limiter.remaining key = some left ∧
    (ofKey key released).length = min (queue.length key) left
  unlimited : ∀ key, limiter.isLimited key = false → ofKey key released = queue.waiting key
  ascending : released.Pairwise fun entry later => entry.1 ≤ later.1
  counted : ∀ key, limiter.isLimited key = true →
    limiter'.count key = limiter.count key + (ofKey key released).length
  uncounted : ∀ key, limiter.isLimited key = false ∨ ofKey key released = [] →
    limiter'.count key = limiter.count key
  caps : ∀ key, limiter'.cap key = limiter.cap key
  bound : queue'.maxPerKey = queue.maxPerKey
  waits : ∀ entry ∈ queue'.queues, entry.2 ≠ []

/-- Whatever waits, under keys that increase, and whatever was counted, in words of 32 bits, a drain ends, after no more
rounds over a queue than payloads wait and one. Of each key it releases the payloads that may be counted, the oldest
first and keys in their order, and counts them where there is a cap; the rest stays. Another drain may follow. -/
theorem drain_partitions (hordered : Ordered queue.queues) (hwords : limiter.Words) :
    (∀ fuel, queue.total < fuel → drainWithin fuel queue limiter = some (queue.drainAdmitted limiter)) ∧
      queue.Partitions limiter (queue.drainAdmitted limiter).1 (queue.drainAdmitted limiter).2.1
        (queue.drainAdmitted limiter).2.2 ∧
      Ordered (queue.drainAdmitted limiter).2.1.queues ∧ (queue.drainAdmitted limiter).2.2.Words := by
  have hreleased : ∀ key, ofKey key (queue.drainAdmitted limiter).1 = limiter.grants key (queue.waiting key) :=
    fun key => ofKey_admitAll hordered (hwords.cap_le key)
  have hcount : ∀ key, (queue.drainAdmitted limiter).2.2.count key = limiter.count key +
      if limiter.cap key = 0 then 0 else (ofKey key (queue.drainAdmitted limiter).1).length :=
    fun key => count_admitAll queue.queues (hwords.cap_le key)
  refine ⟨fun fuel hfuel => drainWithin_eq hfuel limiter, ?_, hordered.drain limiter,
    words_admitAll hwords queue.queues⟩
  constructor
  case parts => exact fun key => (waiting_drain hordered limiter key).symm
  case limited =>
    intro key hlimited
    have hpos := isLimited_iff.1 hlimited
    refine ⟨limiter.cap key - limiter.count key, ?_, ?_⟩
    · rw [remaining_eq, if_neg (Nat.pos_iff_ne_zero.1 hpos)]
    · rw [hreleased, grants_of_pos hpos, List.length_take, Nat.min_comm]
      rfl
  case unlimited =>
    intro key hfree
    have hzero := cap_eq_zero_iff.2 hfree
    rw [hreleased, grants, remaining_eq, if_pos hzero]
  case ascending => exact ascending_admitAll hordered limiter
  case counted =>
    intro key hlimited
    rw [hcount, if_neg (Nat.pos_iff_ne_zero.1 (isLimited_iff.1 hlimited))]
  case uncounted =>
    intro key hnone
    rw [hcount]
    obtain hfree | hnone := hnone
    · rw [if_pos (cap_eq_zero_iff.2 hfree), Nat.add_zero]
    · rw [hnone, List.length_nil, ite_self, Nat.add_zero]
  case caps => exact cap_admitAll queue.queues limiter
  case bound => rfl
  case waits => exact fun entry => ne_nil_of_mem_admitAll

namespace Backlog

/-- Two more may be counted of the first key, any number of the second, one of the third, whose cap is the greatest
there is, and none of the fourth, which is over its cap. -/
def counters : RateLimiter := ⟨[⟨3, 1⟩, ⟨0, 0⟩, ⟨maxCount, maxCount - 1⟩, ⟨1, 5⟩]⟩

def held : DeferredQueue :=
  ⟨[(1, [[10], [11], [12]]), (2, [[20], [21]]), (3, [[30], [31]]), (4, [[40]]), (9, [])], 3⟩

/-- What of it stays. -/
def kept : DeferredQueue := ⟨[(1, [[12]]), (3, [[31]]), (4, [[40]])], 3⟩

end Backlog

theorem drain_partitions_backlog :
    Ordered Backlog.held.queues ∧ Backlog.counters.Words ∧
      Backlog.held.drainAdmitted Backlog.counters = ([(1, [10]), (1, [11]), (2, [20]), (2, [21]), (3, [30])],
        Backlog.kept, ⟨[⟨3, 3⟩, ⟨0, 0⟩, ⟨maxCount, maxCount⟩, ⟨1, 5⟩]⟩) ∧
      drainWithin 9 Backlog.held Backlog.counters = some (Backlog.held.drainAdmitted Backlog.counters) ∧
      (Backlog.held.Partitions Backlog.counters (Backlog.held.drainAdmitted Backlog.counters).1
        (Backlog.held.drainAdmitted Backlog.counters).2.1 (Backlog.held.drainAdmitted Backlog.counters).2.2) := by
  have hordered : Ordered Backlog.held.queues := by
    unfold Ordered
    decide
  have hwords : Backlog.counters.Words := by
    unfold Words
    decide
  obtain ⟨hends, hparts, -⟩ := drain_partitions hordered hwords
  exact ⟨hordered, hwords, by decide, hends 9 (by decide), hparts⟩

end DeferredQueue

end PacketProtocol
