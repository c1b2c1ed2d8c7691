import PacketProtocol.Proofs.Clocks
import PacketProtocol.Proofs.Dispatching
/-!
# Arming and cancelling

What a session that becomes ready arms, and what is left when it cancels the timer that gives up on a handshake,
or closes. Sends, messages and recurring timers arm and cancel nothing.
-/

namespace PacketProtocol

/-! ## Recurring timers -/

/-- The timer that flushes the batches of a packet, if it is sent in batches. -/
def Packet.flushing? (key : UInt8) (packet : Packet) : Option (TimerKind × Option Period) :=
  if packet.schema.isBatched then
    some (.batchFlush key, some (.ofInterval packet.schema.batchInterval.toNat))
  else none

/-- What a ready session needs timers for, and how often: its rate window, and its batches. -/
def recurring (window : Option Nat) (outbound : Registry) : List (TimerKind × Option Period) :=
  window.toList.map (fun ms => (.rateReset, some (.ofInterval ms))) ++
    outbound.entries.filterMap fun entry => entry.2.flushing? entry.1

theorem Packet.flushing?_eq_some {key : UInt8} {packet : Packet} {kind : TimerKind} {period : Option Period}
    (h : packet.flushing? key = some (kind, period)) : kind = .batchFlush key ∧ period ≠ none := by
  unfold flushing? at h
  split at h
  · cases h
    exact ⟨rfl, nofun⟩
  · cases h

theorem of_mem_recurring {window : Option Nat} {outbound : Registry} {kind : TimerKind} {period : Option Period}
    (h : (kind, period) ∈ recurring window outbound) : kind ≠ .handshakeExpiry ∧ period ≠ none := by
  rcases List.mem_append.1 h with h | h
  · rcases List.mem_map.1 h with ⟨ms, -, heq⟩
    cases heq
    exact ⟨nofun, nofun⟩
  · rcases List.mem_filterMap.1 h with ⟨entry, -, hentry⟩
    rcases Packet.flushing?_eq_some hentry with ⟨rfl, hperiod⟩
    exact ⟨nofun, hperiod⟩

theorem Registry.pairwise_entries {registry : Registry} (h : registry.Numbered) :
    registry.entries.Pairwise fun a b => a.1 ≠ b.1 := by
  rw [List.pairwise_iff_getElem]
  intro i j hi hj hlt heq
  simp only [entries, List.length_map, List.length_zipIdx] at hj
  have hlast : j + 1 < UInt8.size := Nat.lt_succ_of_le (Nat.le_trans hj h.size)
  simp only [entries, List.getElem_map, List.getElem_zipIdx, Nat.zero_add] at heq
  have hnat := congrArg UInt8.toNat heq
  rw [UInt8.toNat_ofNat_of_lt' (by omega), UInt8.toNat_ofNat_of_lt' hlast] at hnat
  omega

/-- No two timers of a ready session are for the same. -/
theorem nodup_recurring {outbound : Registry} (h : outbound.Numbered) (window : Option Nat) :
    ((recurring window outbound).map Prod.fst).Nodup := by
  have hflushes : (outbound.entries.filterMap fun entry => entry.2.flushing? entry.1).Pairwise
      fun a b => a.1 ≠ b.1 := by
    refine (Registry.pairwise_entries h).filterMap _ ?_
    rintro ⟨key, packet⟩ ⟨key', packet'⟩ hne ⟨kind, period⟩ hkind ⟨kind', period'⟩ hkind' heq
    rcases Packet.flushing?_eq_some hkind with ⟨rfl, -⟩
    rcases Packet.flushing?_eq_some hkind' with ⟨rfl, -⟩
    exact hne (TimerKind.batchFlush.inj heq)
  refine List.pairwise_map.2 (List.pairwise_append.2 ⟨?_, hflushes, ?_⟩)
  · cases window <;> simp
  · rintro ⟨kind, period⟩ hreset ⟨kind', period'⟩ hflush
    rcases List.mem_map.1 hreset with ⟨ms, -, heq⟩
    cases heq
    rcases List.mem_filterMap.1 hflush with ⟨entry, -, hentry⟩
    rcases Packet.flushing?_eq_some hentry with ⟨rfl, -⟩
    nofun

/-- Enabled bits do not matter for timers. -/
theorem Registry.Alike.recurring_eq {a b : Registry} (h : a.Alike b) (window : Option Nat) :
    recurring window a = recurring window b := by
  have hentries : ∀ registry : Registry, (registry.entries.filterMap fun entry => entry.2.flushing? entry.1) =
      ((registry.packets.map (·.setEnabled true)).zipIdx.filterMap fun entry =>
        entry.1.flushing? (UInt8.ofNat (entry.2 + 1))) := by
    intro registry
    rw [List.zipIdx_map, List.filterMap_map, Registry.entries, List.filterMap_map]
    rfl
  rw [recurring, recurring, hentries, hentries, h]

/-- Among recurring timers there is none that fires once. -/
theorem Clock.expiring_of_recurring {clock : Clock} {window : Option Nat} {outbound : Registry}
    (h : clock.timers.map Timer.purpose = recurring window outbound) : clock.Expiring none := by
  have hrecurring : ∀ timer ∈ clock.timers, timer.kind ≠ .handshakeExpiry ∧ timer.period ≠ none := by
    intro timer htimer
    have hmem : (timer.kind, timer.period) ∈ recurring window outbound := h ▸ List.mem_map_of_mem htimer
    exact of_mem_recurring hmem
  constructor
  · exact fun timer htimer => iff_of_false (hrecurring timer htimer).1 nofun
  · exact fun timer htimer => iff_of_false (hrecurring timer htimer).2 (hrecurring timer htimer).1

/-! ## Arming -/

namespace Session

variable {T : Type} {s s' s'' : Session T Clock} {added added' : List (TimerKind × Option Period)}

/-- A session knows the handles of all timers that its clock keeps. -/
def Owns (s : Session T Clock) : Prop := ∀ timer ∈ s.scheduler.timers, timer.handle ∈ s.timers

theorem owns_of_timers (h : s.scheduler.timers = []) : s.Owns := by
  intro timer htimer
  rw [h] at htimer
  cases htimer

/-- No handle was given out that is still to come. -/
def Past (s : Session T Clock) : Prop := ∀ timer ∈ s.scheduler.timers, timer.handle ≤ s.scheduler.handles

theorem past_of_timers (h : s.scheduler.timers = []) : s.Past := by
  intro timer htimer
  rw [h] at htimer
  cases htimer

/-- These timers were armed, and their handles kept. -/
structure Arms (added : List (TimerKind × Option Period)) (s s' : Session T Clock) : Prop where
  purposes : s'.scheduler.timers.map Timer.purpose = s.scheduler.timers.map Timer.purpose ++ added
  owns : s.Owns → s'.Owns
  past : s.Past → s'.Past

theorem Arms.refl (s : Session T Clock) : Arms [] s s := ⟨(List.append_nil _).symm, id, id⟩

theorem Arms.trans (h : Arms added s s') (h' : Arms added' s' s'') : Arms (added ++ added') s s'' :=
  ⟨by rw [h'.purposes, h.purposes, List.append_assoc], h'.owns ∘ h.owns, h'.past ∘ h.past⟩

/-- A timer was armed under the next handle, and the handle kept. -/
theorem arms_of_arm (kind : TimerKind) (delay : Nat) (period : Option Period)
    (hscheduler : s'.scheduler = (s.scheduler.arm kind delay period).2)
    (htimers : s'.timers = s.timers ++ [s.scheduler.handles + 1]) : Arms [(kind, period)] s s' := by
  have hkept : s'.scheduler.timers = s.scheduler.timers ++
      [⟨s.scheduler.handles + 1, kind, s.scheduler.now + delay, period, s.scheduler.armings + 1⟩] :=
    congrArg Clock.timers hscheduler
  constructor
  · rw [hkept]
    exact List.map_append
  · intro howns timer htimer
    rw [hkept] at htimer
    rw [htimers]
    rcases List.mem_append.1 htimer with hold | hnew
    · exact List.mem_append_left _ (howns timer hold)
    · rcases List.mem_singleton.1 hnew with rfl
      exact List.mem_append_right _ (List.mem_singleton_self _)
  · intro hpast timer htimer
    have hhandles : s'.scheduler.handles = s.scheduler.handles + 1 := congrArg Clock.handles hscheduler
    rw [hkept] at htimer
    rw [hhandles]
    rcases List.mem_append.1 htimer with hold | hnew
    · exact Nat.le_succ_of_le (hpast timer hold)
    · rcases List.mem_singleton.1 hnew with rfl
      exact Nat.le_refl _

theorem arms_activateBatch (s : Session T Clock) (entry : UInt8 × Packet) :
    Arms (entry.2.flushing? entry.1).toList s (s.activateBatch entry) := by
  rcases entry with ⟨key, packet⟩
  by_cases hbatched : packet.schema.isBatched = true
  · simp only [activateBatch, Packet.flushing?, hbatched, if_true]
    exact arms_of_arm (.batchFlush key) _ (some (.ofInterval packet.schema.batchInterval.toNat)) rfl rfl
  · simp only [activateBatch, Packet.flushing?, hbatched]
    exact .refl s

theorem arms_foldl_activateBatch (entries : List (UInt8 × Packet)) (s : Session T Clock) :
    Arms (entries.filterMap fun entry => entry.2.flushing? entry.1) s (entries.foldl activateBatch s) := by
  induction entries generalizing s with
  | nil => exact .refl s
  | cons entry entries ih =>
    have htrans := (s.arms_activateBatch entry).trans (ih (s.activateBatch entry))
    rw [List.filterMap_cons]
    cases hflush : entry.2.flushing? entry.1 with
    | none => simpa [hflush] using htrans
    | some timer => simpa [hflush] using htrans

/-- Activation arms the recurring timers. -/
theorem arms_activate (s : Session T Clock) (outbound inbound : Registry) (window : Option Nat) :
    Arms (recurring window outbound) s (s.activate outbound inbound window) := by
  cases window with
  | none =>
    have hflushes := arms_foldl_activateBatch outbound.entries s
    exact ⟨hflushes.purposes, hflushes.owns, hflushes.past⟩
  | some ms =>
    let limited : Session T Clock :=
      { s with sendLimiter := .ofRegistry outbound, receiveLimiter := .ofRegistry inbound }
    have hreset : Arms [(.rateReset, some (.ofInterval ms))] s (limited.scheduleRepeating .rateReset ms) :=
      arms_of_arm .rateReset (max ms 1) (some (.ofInterval ms)) rfl rfl
    have hall := hreset.trans (arms_foldl_activateBatch outbound.entries _)
    exact ⟨hall.purposes, hall.owns, hall.past⟩

/-! ## Cancelling -/

/-- The timer that gives up on a handshake was cancelled, if it was there. -/
structure Stops (s s' : Session T Clock) : Prop where
  state : s'.state = s.state
  outbound : s'.outbound = s.outbound
  owns : s.Owns → s'.Owns
  expiring : s'.scheduler.Expiring none
  purposes : s'.scheduler.timers.map Timer.purpose =
    (s.scheduler.timers.map Timer.purpose).filter fun purpose => purpose.1 ≠ .handshakeExpiry

theorem stops_cancelTimer {handle : TimerHandle} (h : s.scheduler.Expiring (some handle)) :
    Stops s (s.cancelTimer handle) := by
  have hkept : (s.cancelTimer handle).scheduler.timers =
      s.scheduler.timers.filter fun timer => timer.kind ≠ .handshakeExpiry := by
    refine List.filter_congr fun timer htimer => ?_
    have hsame : timer.kind = .handshakeExpiry ↔ timer.handle = handle :=
      (h.handle timer htimer).trans (Option.some_inj.trans eq_comm)
    rw [Bool.eq_iff_iff]
    simp [hsame]
  refine ⟨rfl, rfl, ?_, ⟨?_, ?_⟩, ?_⟩
  · intro howns timer htimer
    have hmem : timer ∈ s.scheduler.timers.filter fun timer => timer.handle != handle := htimer
    rcases List.mem_filter.1 hmem with ⟨hold, hne⟩
    exact List.mem_filter.2 ⟨howns timer hold, hne⟩
  · intro timer htimer
    rw [hkept] at htimer
    simpa using (List.mem_filter.1 htimer).2
  · intro timer htimer
    rw [hkept] at htimer
    exact h.once timer (List.mem_filter.1 htimer).1
  · rw [hkept, List.filter_map]
    rfl

theorem stops_of_none (h : s.scheduler.Expiring none) : Stops s s := by
  refine ⟨rfl, rfl, id, h, (List.filter_eq_self.2 fun purpose hpurpose => ?_).symm⟩
  rcases List.mem_map.1 hpurpose with ⟨timer, htimer, rfl⟩
  have hnot : timer.kind ≠ .handshakeExpiry := fun hkind => by
    have hnone := (h.handle timer htimer).1 hkind
    cases hnone
  exact decide_eq_true hnot

theorem Stops.count (h : Stops s s') (count : Count) : Stops s (s'.count count) :=
  ⟨h.state, h.outbound, h.owns, h.expiring, h.purposes⟩

/-! ## Where no timer comes or goes -/

/-- No timer was armed or cancelled, and the state and the packets that are sent are the same. -/
structure Timeless (s s' : Session T Clock) : Prop where
  state : s'.state = s.state
  scheduler : s'.scheduler = s.scheduler
  timers : s'.timers = s.timers
  outbound : s'.outbound.Alike s.outbound

theorem Timeless.refl (s : Session T Clock) : s.Timeless s := ⟨rfl, rfl, rfl, rfl⟩

theorem Timeless.trans (h : s.Timeless s') (h' : s'.Timeless s'') : s.Timeless s'' :=
  ⟨h'.state.trans h.state, h'.scheduler.trans h.scheduler, h'.timers.trans h.timers, Eq.trans h'.outbound h.outbound⟩

theorem timeless_receive (s : Session T Clock) (bytes : Bytes) : s.Timeless (s.receive bytes).2 := by
  have hreceived := s.receive_received bytes
  generalize s.receive bytes = received at hreceived
  rcases received with ⟨result, s'⟩
  cases hreceived <;> exact ⟨rfl, rfl, rfl, rfl⟩

section Works

variable [Transport T]

theorem Work.timeless (h : Work s s') : s.Timeless s' := by
  cases h with
  | queues sendLimiter deferred batchers => exact ⟨rfl, rfl, rfl, rfl⟩
  | count count => exact ⟨rfl, rfl, rfl, rfl⟩
  | report error => exact ⟨rfl, rfl, rfl, rfl⟩
  | write message =>
    simp only [Session.write]
    split <;> exact ⟨rfl, rfl, rfl, rfl⟩

theorem Working.timeless (h : Working s s') : s.Timeless s' := by
  induction h with
  | refl => exact .refl s
  | tail _ hwork ih => exact ih.trans hwork.timeless

/-- When a timer is brought to a session, what it does concerns no timers. -/
theorem timeless_onTimer (s : Session T Clock) (kind : TimerKind) : s.Timeless (s.onTimer kind) := by
  by_cases hstate : s.state = .ready
  · have hreset : ∀ receiveLimiter, s.Timeless { s with receiveLimiter } := fun _ => ⟨rfl, rfl, rfl, rfl⟩
    exact (hreset _).trans (working_onTimer hstate kind).timeless
  · rw [onTimer_of_not_ready hstate]
    exact .refl s

end Works

/-! ## Closing -/

/-- A session that knows all its timers, keeps none once it is closed, and has numbered what it sends. -/
structure Tidy (s : Session T Clock) : Prop where
  owns : s.Owns
  closed : s.state = .closed → s.scheduler.timers = []
  numbered : s.outbound.Numbered

theorem tidy_of_timers (htimers : s.scheduler.timers = []) (hnum : s.outbound.Numbered) : s.Tidy :=
  ⟨owns_of_timers htimers, fun _ => htimers, hnum⟩

theorem tidy_of_ready (howns : s.Owns) (hready : s.state = .ready) (hnum : s.outbound.Numbered) : s.Tidy :=
  ⟨howns, fun hclosed => absurd (hready.symm.trans hclosed) (by decide), hnum⟩

theorem Tidy.count (h : s.Tidy) (count : Count) : (s.count count).Tidy := ⟨h.owns, h.closed, h.numbered⟩

theorem Tidy.timeless (h : s.Tidy) (hsame : s.Timeless s') : s'.Tidy := by
  refine ⟨fun timer htimer => ?_, fun hclosed => ?_, hsame.outbound.numbered h.numbered⟩
  · rw [hsame.scheduler] at htimer
    rw [hsame.timers]
    exact h.owns timer htimer
  · rw [hsame.scheduler]
    exact h.closed (hsame.state.symm.trans hclosed)

theorem Tidy.closedByPeer (h : s.Tidy) (code : CloseCode) (reason : String) : (s.closedByPeer code reason).Tidy := by
  unfold Session.closedByPeer
  split
  · exact h
  · refine tidy_of_timers ?_ h.numbered
    show (s.timers.foldl Scheduler.cancel s.scheduler).timers = []
    rw [Clock.timers_foldl_cancel, List.filter_eq_nil_iff]
    intro timer htimer
    simp [h.owns timer htimer]

section Close

variable [Transport T]

theorem Tidy.close (h : s.Tidy) (code : CloseCode) (reason : String) : (s.close code reason).Tidy := by
  by_cases hstate : s.state = .closed
  · rw [Session.close, if_pos hstate]
    exact h
  · have hpeer := h.closedByPeer code reason
    rw [close_eq hstate]
    exact ⟨hpeer.owns, hpeer.closed, hpeer.numbered⟩

theorem Tidy.fail (h : s.Tidy) (error : ProtocolError) : (s.fail error).Tidy := by
  unfold Session.fail
  split
  · exact (h.count _).close _ _
  · exact h.close _ _

theorem Tidy.handshakeTimedOut (h : s.Tidy) : s.handshakeTimedOut.Tidy := (h.count _).close _ _

end Close

end Session

end PacketProtocol
