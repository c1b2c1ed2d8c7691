import PacketProtocol.Clock
/-!
# What the timers of a clock are for

As time passes timers are armed anew, but for those that fire once: these are gone. What a timer is for, how
often it fires and by which handle it is cancelled stay as they are.
-/

namespace PacketProtocol

namespace Timer

/-- What a timer is for, and how often it fires. -/
def purpose (timer : Timer) : TimerKind × Option Period := (timer.kind, timer.period)

/-- The same, and the handle. -/
def core (timer : Timer) : TimerHandle × TimerKind × Option Period := (timer.handle, timer.purpose)

theorem core_fired {timer after : Timer} {armed : Nat} (h : timer.fired armed = some after) :
    after.core = timer.core := by
  rcases Option.map_eq_some_iff.1 h with ⟨period, _, rfl⟩
  rfl

end Timer

namespace Clock

variable {clock clock' : Clock} {expiry : Option TimerHandle} {moment : Nat}

/-! ## The timer that fires once -/

/-- The timers that give up on a handshake are those that fire once, and those with this handle. -/
structure Expiring (expiry : Option TimerHandle) (clock : Clock) : Prop where
  handle : ∀ timer ∈ clock.timers, timer.kind = .handshakeExpiry ↔ expiry = some timer.handle
  once : ∀ timer ∈ clock.timers, timer.period = none ↔ timer.kind = .handshakeExpiry

theorem expiring_of_timers (h : clock.timers = []) : clock.Expiring expiry := by
  constructor <;> simp [h]

theorem Expiring.of_core (h : clock.Expiring expiry)
    (hcore : ∀ after ∈ clock'.timers, ∃ timer ∈ clock.timers, after.core = timer.core) : clock'.Expiring expiry := by
  constructor
  · intro after hafter
    rcases hcore after hafter with ⟨timer, htimer, heq⟩
    rcases Prod.mk.inj heq with ⟨hhandle, hpurpose⟩
    rw [hhandle, (Prod.mk.inj hpurpose).1]
    exact h.handle timer htimer
  · intro after hafter
    rcases hcore after hafter with ⟨timer, htimer, heq⟩
    rcases Prod.mk.inj (Prod.mk.inj heq).2 with ⟨hkind, hperiod⟩
    rw [hkind, hperiod]
    exact h.once timer htimer

theorem Expiring.forget (h : clock.Expiring expiry) (hnone : ∀ timer ∈ clock.timers, timer.kind ≠ .handshakeExpiry) :
    clock.Expiring none :=
  ⟨fun timer htimer => iff_of_false (hnone timer htimer) nofun, h.once⟩

/-- The timer that fires once is armed under a handle that no other timer has. -/
theorem Expiring.arm (h : clock.Expiring none) (hpast : ∀ timer ∈ clock.timers, timer.handle ≤ clock.handles)
    (delay : Nat) : (clock.arm .handshakeExpiry delay none).2.Expiring (some (clock.handles + 1)) := by
  constructor
  · intro timer htimer
    rcases List.mem_append.1 htimer with hold | hnew
    · have hne : clock.handles + 1 ≠ timer.handle := Nat.ne_of_gt (Nat.lt_succ_of_le (hpast timer hold))
      exact (h.handle timer hold).trans (iff_of_false nofun fun heq => hne (Option.some.inj heq))
    · rcases List.mem_singleton.1 hnew with rfl
      exact iff_of_true rfl rfl
  · intro timer htimer
    rcases List.mem_append.1 htimer with hold | hnew
    · exact h.once timer hold
    · rcases List.mem_singleton.1 hnew with rfl
      exact iff_of_true rfl rfl

/-! ## Passing time -/

theorem mem_fire {handle : TimerHandle} {armed : Nat} {timers : List Timer} {after : Timer}
    (h : after ∈ fire handle armed timers) : ∃ timer ∈ timers, after.core = timer.core := by
  rcases List.mem_filterMap.1 h with ⟨timer, hmem, hafter⟩
  refine ⟨timer, hmem, ?_⟩
  split at hafter
  · exact Timer.core_fired hafter
  · cases hafter
    rfl

/-- A repeating timer is still there after it fired. -/
theorem core_fire {handle : TimerHandle} (armed : Nat) {timers : List Timer}
    (h : ∀ timer ∈ timers, timer.handle = handle → timer.period ≠ none) :
    (fire handle armed timers).map Timer.core = timers.map Timer.core := by
  induction timers with
  | nil => rfl
  | cons timer rest ih =>
    rw [fire_cons, List.map_append, List.map_cons, ih fun other hother => h other (List.mem_cons_of_mem _ hother)]
    split
    · rename_i hhandle
      cases hafter : timer.fired armed with
      | none => exact absurd (Option.map_eq_none_iff.1 hafter) (h timer List.mem_cons_self hhandle)
      | some after => simp [Timer.core_fired hafter]
    · rfl

/-- No timers come with time. -/
theorem mem_advanceTo {after : Timer} (h : after ∈ (advanceTo moment clock).2.timers) :
    ∃ timer ∈ clock.timers, after.core = timer.core := by
  fun_induction advanceTo moment clock with
  | case1 clock _ => exact ⟨after, h, rfl⟩
  | case2 clock timer _ _ kinds final hfinal ih =>
    rcases ih (hfinal ▸ h) with ⟨fired, hfired, hcore⟩
    rcases mem_fire hfired with ⟨before, hbefore, hcore'⟩
    exact ⟨before, hbefore, hcore.trans hcore'⟩
  | case3 clock timer _ _ => exact ⟨after, h, rfl⟩

/-- Only timers that are there fire. -/
theorem kind_of_mem_advanceTo {kind : TimerKind} (h : kind ∈ (advanceTo moment clock).1) :
    ∃ timer ∈ clock.timers, timer.kind = kind := by
  fun_induction advanceTo moment clock with
  | case1 clock _ => cases h
  | case2 clock timer hfirst _ kinds final hfinal ih =>
    rcases List.mem_cons.1 h with rfl | hlater
    · exact ⟨timer, first?_mem hfirst, rfl⟩
    · rcases ih (hfinal ▸ hlater) with ⟨fired, hfired, rfl⟩
      rcases mem_fire hfired with ⟨before, hbefore, hcore⟩
      exact ⟨before, hbefore, (congrArg (·.2.1) hcore).symm⟩
  | case3 clock timer _ _ => cases h

/-- Unless the timer that fires once is among those that fired, all timers are still there. -/
theorem core_advanceTo (h : clock.Expiring expiry) (hnot : .handshakeExpiry ∉ (advanceTo moment clock).1) :
    (advanceTo moment clock).2.timers.map Timer.core = clock.timers.map Timer.core := by
  fun_induction advanceTo moment clock with
  | case1 clock _ => rfl
  | case2 clock timer hfirst _ kinds final hfinal ih =>
    rw [List.mem_cons, not_or] at hnot
    rw [hfinal] at ih
    refine (ih (h.of_core fun after hafter => mem_fire hafter) hnot.2).trans (core_fire _ ?_)
    intro other hother hhandle honce
    have hexpiry := (h.handle other hother).1 ((h.once other hother).1 honce)
    rw [hhandle] at hexpiry
    exact hnot.1 ((h.handle timer (first?_mem hfirst)).2 hexpiry).symm
  | case3 clock timer _ _ => rfl

/-! ## Cancelling -/

theorem timers_foldl_cancel (handles : List TimerHandle) (clock : Clock) :
    (handles.foldl Scheduler.cancel clock).timers = clock.timers.filter fun timer => timer.handle ∉ handles := by
  induction handles generalizing clock with
  | nil => exact (List.filter_eq_self.2 (by simp)).symm
  | cons handle handles ih =>
    rw [List.foldl_cons, ih]
    show (clock.timers.filter fun timer => timer.handle != handle).filter _ = _
    rw [List.filter_filter]
    refine List.filter_congr fun timer _ => ?_
    rw [Bool.eq_iff_iff]
    simp [and_comm]

end Clock

end PacketProtocol
