import Mathlib.Data.Fintype.BigOperators
import Mathlib.Tactic.FinCases
import PacketProtocol.Proofs.Books
/-!
# What connections add to the counters

Many connections share one set of counters, and what they count reaches it in any order that keeps the order of each
of them. The number of active connections is then that of the connections that did not close, and it is never lowered
when it is zero.
-/

namespace PacketProtocol

/-! ## Shared counters -/

namespace Metrics

/-- If closes are counted after their beginnings, and the number of active connections fits its counter, the
counter follows it. -/
theorem active_recordAll (m : Metrics) {log : List Count}
    (hbalanced : ∀ front, front <+: log → front.count .connectionClosed ≤ front.count .connectionEstablished)
    (hroom : ∀ front, front <+: log →
      m.connectionsActive.toNat + front.count .connectionEstablished < 2 ^ 64 + front.count .connectionClosed) :
    (m.recordAll log).connectionsActive.toNat + log.count .connectionClosed =
      m.connectionsActive.toNat + log.count .connectionEstablished := by
  induction log using List.reverseRecOn with
  | nil => rfl
  | append_singleton log count ih =>
    have hfront : ∀ front, front <+: log → front <+: log ++ [count] := fun front h => h.trans (List.prefix_append _ _)
    have hih := ih (fun front h => hbalanced front (hfront front h)) fun front h => hroom front (hfront front h)
    have hbalanced' := hbalanced _ (List.prefix_refl _)
    have hroom' := hroom _ (List.prefix_refl _)
    rw [recordAll, List.foldl_append, ← recordAll]
    rw [List.count_append, List.count_append] at hbalanced' hroom' ⊢
    show (record (m.recordAll log) count).connectionsActive.toNat + _ = _
    cases count with
    | connectionEstablished =>
      have hroom'' : m.connectionsActive.toNat + (log.count .connectionEstablished + 1) <
          2 ^ 64 + log.count .connectionClosed := hroom'
      show ((m.recordAll log).connectionsActive + 1).toNat + log.count .connectionClosed =
        m.connectionsActive.toNat + (log.count .connectionEstablished + 1)
      rw [UInt64.toNat_add, Nat.mod_eq_of_lt (by rw [UInt64.toNat_one]; omega), UInt64.toNat_one]
      omega
    | connectionClosed =>
      have hbalanced'' : log.count .connectionClosed + 1 ≤ log.count .connectionEstablished := hbalanced'
      have hpositive : 1 ≤ (m.recordAll log).connectionsActive.toNat := by omega
      have hne : (m.recordAll log).connectionsActive ≠ 0 := by
        intro hzero
        rw [hzero] at hpositive
        exact absurd hpositive (by decide)
      show (if (m.recordAll log).connectionsActive = 0 then 0 else (m.recordAll log).connectionsActive - 1).toNat +
        (log.count .connectionClosed + 1) = m.connectionsActive.toNat + log.count .connectionEstablished
      rw [if_neg hne, UInt64.toNat_sub_of_le _ _ hpositive, UInt64.toNat_one]
      omega
    | _ => exact hih

/-- A counter that counts one thing holds how often it was counted. -/
theorem counter_recordAll {counter : Metrics → UInt64} {counted : Count}
    (h : ∀ m count, counter (record m count) = counter m + if count = counted then 1 else 0) (m : Metrics)
    (log : List Count) : counter (m.recordAll log) = counter m + UInt64.ofNat (log.count counted) := by
  induction log using List.reverseRecOn with
  | nil => simp [recordAll]
  | append_singleton log count ih =>
    rw [recordAll, List.foldl_append, ← recordAll]
    show counter (record (m.recordAll log) count) = _
    rw [h, ih, List.count_append, UInt64.ofNat_add, UInt64.add_assoc]
    by_cases hcount : count = counted <;> simp [hcount]

theorem handshakesTotal_recordAll (m : Metrics) (log : List Count) :
    (m.recordAll log).handshakesTotal = m.handshakesTotal + UInt64.ofNat (log.count .handshakeAttempt) :=
  @counter_recordAll handshakesTotal _ (fun m count => by cases count <;> simp [record]) m log

theorem handshakesSuccess_recordAll (m : Metrics) (log : List Count) :
    (m.recordAll log).handshakesSuccess = m.handshakesSuccess + UInt64.ofNat (log.count .handshakeSuccess) :=
  @counter_recordAll handshakesSuccess _ (fun m count => by cases count <;> simp [record]) m log

theorem handshakesFailed_recordAll (m : Metrics) (log : List Count) :
    (m.recordAll log).handshakesFailed = m.handshakesFailed + UInt64.ofNat (log.count .handshakeFailed) :=
  @counter_recordAll handshakesFailed _ (fun m count => by cases count <;> simp [record]) m log

end Metrics

/-- What one of many connections counted. -/
def Count.share {ι : Type} [DecidableEq ι] (i : ι) (log : List (ι × Count)) : List Count :=
  (log.filter fun entry => entry.1 = i).map Prod.snd

section Sharing

variable {ι : Type} [DecidableEq ι]

theorem Count.share_append (i : ι) (front back : List (ι × Count)) :
    share i (front ++ back) = share i front ++ share i back := by
  simp [share]

/-- What is counted is what all the connections counted. -/
theorem Count.sum_share [Fintype ι] (log : List (ι × Count)) (count : Count) :
    ∑ i, (share i log).count count = (log.map Prod.snd).count count := by
  induction log with
  | nil => simp [share]
  | cons entry log ih =>
    have hcons : ∀ i, (share i (entry :: log)).count count =
        (share i log).count count + if entry.1 = i then (if entry.2 = count then 1 else 0) else 0 := by
      intro i
      by_cases hi : entry.1 = i
      · simp [share, hi, List.count_cons]
      · simp [share, hi]
    simp only [hcons, Finset.sum_add_distrib, ih, List.map_cons, List.count_cons]
    simp

end Sharing

namespace Endpoint

variable {T S : Type} [Transport T] [Scheduler S] {e : Endpoint T (Remembering S)}

omit [Transport T] [Scheduler S] in
/-- What the books of an end come to in counters of its own. -/
theorem Books.handshakes (h : e.Books) :
    let own := ({} : Metrics).recordAll (Journal.counts e.session.journal)
    own.handshakesSuccess.toNat + own.handshakesFailed.toNat ≤ 1 ∧
      own.handshakesSuccess.toNat + own.handshakesFailed.toNat ≤ own.handshakesTotal.toNat := by
  obtain ⟨-, -, hdecided, hattempted⟩ := h.counted
  have hsmall : ∀ n ≤ 1, ((0 : UInt64) + UInt64.ofNat n).toNat = n := by
    intro n hn
    rw [UInt64.zero_add, UInt64.toNat_ofNat_of_lt' (Nat.lt_of_le_of_lt hn (by decide))]
  dsimp only
  rw [Metrics.handshakesTotal_recordAll, Metrics.handshakesSuccess_recordAll, Metrics.handshakesFailed_recordAll,
    hsmall _ (by omega), hsmall _ (by omega), hsmall _ hattempted]
  exact ⟨Nat.le_trans hdecided hattempted, hdecided⟩

variable {ι : Type} [Fintype ι] [DecidableEq ι]

omit [Transport T] [Scheduler S] in
/-- What many ends counted up to some moment is balanced. -/
theorem closed_le_share {ends : ι → Endpoint T (Remembering S)} (hends : ∀ i, (ends i).Books)
    {front back : List (ι × Count)}
    (hlog : ∀ i, Count.share i (front ++ back) = Journal.counts (ends i).session.journal) :
    (front.map Prod.snd).count .connectionClosed + ((back.map Prod.snd).take 1).count .connectionClosed ≤
      (front.map Prod.snd).count .connectionEstablished := by
  rw [← Count.sum_share, ← Count.sum_share, ← List.map_take, ← Count.sum_share, ← Finset.sum_add_distrib]
  refine Finset.sum_le_sum fun i _ => ?_
  have hi := (hends i).closed_le ((hlog i).symm.trans (Count.share_append i front back))
  refine Nat.le_trans (Nat.add_le_add_left ?_ _) hi
  cases back with
  | nil => exact Nat.le_refl _
  | cons entry back =>
    by_cases hentry : entry.1 = i <;> simp [Count.share, hentry]

/-- Whatever happens to any number of connections, and however the things they count reach the counters that they
share: the number of active connections has grown by those that were begun and are not closed, and it is not zero
when it is lowered, as long as it fits its counter. Each connection counted the success or the failure of
its handshake at most once, and not without an attempt. -/
theorem ledger_balances {ends : ι → Endpoint T (Remembering S)} (hends : ∀ i, (ends i).Timely)
    {log : List (ι × Count)} (hlog : ∀ i, Count.share i log = Journal.counts (ends i).session.journal)
    {metrics : Metrics}
    (hroom : ∀ front, front <+: log.map Prod.snd → metrics.connectionsActive.toNat +
      front.count .connectionEstablished < 2 ^ 64 + front.count .connectionClosed) :
    (metrics.recordAll (log.map Prod.snd)).connectionsActive.toNat =
        metrics.connectionsActive.toNat + (Finset.univ.filter fun i => (ends i).state ≠ .closed).card ∧
      (∀ front back, log.map Prod.snd = front ++ .connectionClosed :: back →
        (metrics.recordAll front).connectionsActive ≠ 0) ∧
      ∀ i,
        let own := ({} : Metrics).recordAll (Journal.counts (ends i).session.journal)
        own.handshakesSuccess.toNat + own.handshakesFailed.toNat ≤ 1 ∧
          own.handshakesSuccess.toNat + own.handshakesFailed.toNat ≤ own.handshakesTotal.toNat := by
  have hbooks : ∀ i, (ends i).Books := fun i => (hends i).books
  have hbalanced : ∀ front back, log.map Prod.snd = front ++ back →
      front.count .connectionClosed + (back.take 1).count .connectionClosed ≤ front.count .connectionEstablished := by
    intro front back heq
    obtain ⟨front', back', rfl, rfl, rfl⟩ := List.map_eq_append_iff.1 heq
    exact closed_le_share hbooks hlog
  have hactive : ∀ front, front <+: log.map Prod.snd →
      (metrics.recordAll front).connectionsActive.toNat + front.count .connectionClosed =
        metrics.connectionsActive.toNat + front.count .connectionEstablished := by
    rintro front hfront
    refine metrics.active_recordAll (fun before hbefore => ?_) fun before hbefore => hroom _ (hbefore.trans hfront)
    obtain ⟨back, hback⟩ := hbefore.trans hfront
    exact Nat.le_trans (Nat.le_add_right _ _) (hbalanced before back hback.symm)
  refine ⟨?_, fun front back heq => ?_, fun i => (hbooks i).handshakes⟩
  · have hall := hactive _ (List.prefix_refl _)
    rw [← Count.sum_share, ← Count.sum_share] at hall
    have hbegun : ∀ i, (Count.share i log).count .connectionEstablished = 1 := by
      intro i
      rw [hlog]
      exact (hbooks i).counted.established
    have hended : ∀ i, (Count.share i log).count .connectionClosed = if (ends i).state = .closed then 1 else 0 := by
      intro i
      rw [hlog]
      exact (hbooks i).counted.closed
    simp only [hbegun, hended] at hall
    have hsplit : ∑ _i : ι, 1 = (Finset.univ.filter fun i => (ends i).state ≠ .closed).card +
        ∑ i, if (ends i).state = .closed then 1 else 0 := by
      rw [Finset.card_filter, ← Finset.sum_add_distrib]
      refine Finset.sum_congr rfl fun i _ => ?_
      by_cases hclosed : (ends i).state = .closed <;> simp [hclosed]
    omega
  · have hnext := hbalanced front _ heq
    have hfront := hactive front ⟨_, heq.symm⟩
    intro hzero
    rw [hzero] at hfront
    simp at hnext hfront
    omega

namespace Fleet

/-- A definition without packets. -/
def definition : Definition where
  client := .empty
  server := .empty
  enums := .empty
  config := {}
  handshake := Late.handshake

def client : Endpoint Wire (Remembering Clock) := .client (.start {} ⟨{}, []⟩ {})

/-- What becomes of a server over a wire. -/
def server (wire : Wire) : Endpoint Wire (Remembering Clock) :=
  match ServerConnection.accept definition wire (⟨{}, []⟩ : Remembering Clock) with
  | .serving connection => .server connection
  | .refused _ session => .server { session, definition }

/-- A client that sees an unknown key, one that waits in vain, a server, and one over a dead wire. -/
def ends : Fin 4 → Endpoint Wire (Remembering Clock)
  | 0 => client.run [.opened, .message Late.handshake, .message [9]]
  | 1 => client.run [.opened, .timer .handshakeExpiry]
  | 2 => server {}
  | 3 => server { closed := some (.normal, "") }

/-- What they counted, as it reached the counters. -/
def log : List (Fin 4 × Count) :=
  [(3, .connectionEstablished), (0, .connectionEstablished), (1, .connectionEstablished), (3, .handshakeAttempt),
    (0, .handshakeAttempt), (3, .handshakeFailed), (2, .connectionEstablished), (1, .handshakeAttempt),
    (2, .handshakeAttempt), (3, .connectionClosed), (0, .handshakeSuccess), (2, .messageSent 8),
    (1, .handshakeFailed), (2, .handshakeSuccess), (0, .messageReceived 1), (0, .abuseClose),
    (1, .connectionClosed), (0, .connectionClosed)]

theorem timely_client : client.Timely := .client ({} : Wire) ({} : Clock) {}

theorem timely_server (wire : Wire) : (server wire).Timely := by
  unfold server
  split
  · exact .served _ _ ‹_›
  · exact .refused _ _ ‹_›

theorem timely_ends : ∀ i, (ends i).Timely
  | 0 => timely_client.run (by simp)
  | 1 => .call (.timer .handshakeExpiry) (.call .opened timely_client nofun) fun _ => List.mem_singleton_self _
  | 2 => timely_server {}
  | 3 => timely_server { closed := some (.normal, "") }

end Fleet

/-- Three of the four are closed, each once. -/
theorem ledger_balances_fleet :
    (∀ i, (Fleet.ends i).Timely) ∧ (∀ i, Count.share i Fleet.log = Journal.counts (Fleet.ends i).session.journal) ∧
      (({ connectionsActive := 7 } : Metrics).recordAll (Fleet.log.map Prod.snd)).connectionsActive.toNat = 8 ∧
      (Metrics.recordAll {} (Journal.counts (Fleet.ends 1).session.journal)).handshakesFailed.toNat ≤ 1 := by
  have hlog : ∀ i, Count.share i Fleet.log = Journal.counts (Fleet.ends i).session.journal := by
    intro i
    fin_cases i <;> rfl
  have hroom : ∀ front, front <+: Fleet.log.map Prod.snd →
      ({ connectionsActive := 7 } : Metrics).connectionsActive.toNat + front.count .connectionEstablished <
        2 ^ 64 + front.count .connectionClosed := by
    intro front hfront
    have hlength : front.length ≤ 18 := hfront.length_le
    have hcount : front.count .connectionEstablished ≤ front.length := List.count_le_length
    have hseven : ({ connectionsActive := 7 } : Metrics).connectionsActive.toNat = 7 := rfl
    omega
  obtain ⟨hactive, -, hown⟩ := ledger_balances Fleet.timely_ends hlog hroom
  refine ⟨Fleet.timely_ends, hlog, hactive, ?_⟩
  have := (hown 1).1
  omega

end Endpoint

end PacketProtocol
