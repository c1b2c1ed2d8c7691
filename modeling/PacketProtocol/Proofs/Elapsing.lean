import Mathlib.Data.List.Nodup
import PacketProtocol.Clock
/-!
# Time passes at once or in parts

What fires in a span of time, and the clock after it, do not depend on where the span is cut. On every clock that
can come about a span brings exactly the firings whose moments lie in it, in the order of these moments, and of
the handles where several fall on one.

- `Clock.advanceTo_split`: up to a moment, and from there on.
- `Clock.fires_advanceTo`: which firings there are, and in which order.
- `Clock.advance_add`: both, for all that can be asked of a clock.
-/

namespace PacketProtocol

/-- One firing of one timer. -/
structure Firing where
  moment : Nat
  handle : TimerHandle
  kind : TimerKind
deriving DecidableEq, Repr

/-- The order of firings: by their moments, and by handle where these are the same. -/
def Firing.Before (a b : Firing) : Prop := a.moment < b.moment ∨ a.moment = b.moment ∧ a.handle < b.handle

namespace Timer

/-- The firing that comes next. -/
def next (timer : Timer) : Firing := ⟨timer.due, timer.handle, timer.kind⟩

/-- The moments at which a timer fires: when it is due, and every period after that if it has one. -/
def FiresAt (timer : Timer) (moment : Nat) : Prop :=
  match timer.period with
  | none => moment = timer.due
  | some period => ∃ times, moment = timer.due + times * period.ms

/-- The firings of a timer. -/
structure Fires (timer : Timer) (firing : Firing) : Prop where
  handle : timer.handle = firing.handle
  kind : timer.kind = firing.kind
  moment : timer.FiresAt firing.moment

variable {timer after : Timer} {firing : Firing} {armed : Nat}

theorem FiresAt.due_le {moment : Nat} (h : timer.FiresAt moment) : timer.due ≤ moment := by
  unfold FiresAt at h
  split at h
  · exact Nat.le_of_eq h.symm
  · obtain ⟨times, rfl⟩ := h
    exact Nat.le_add_right _ _

theorem fires_next (timer : Timer) : timer.Fires timer.next := by
  refine ⟨rfl, rfl, ?_⟩
  unfold FiresAt
  split
  · rfl
  · exact ⟨0, by simp [next]⟩

/-- What a timer fires is the firing that comes next, or one of those after it. -/
theorem fires_iff (armed : Nat) :
    timer.Fires firing ↔ firing = timer.next ∨ ∃ after, timer.fired armed = some after ∧ after.Fires firing := by
  constructor
  · rintro ⟨hhandle, hkind, hmoment⟩
    cases hperiod : timer.period with
    | none =>
      rw [FiresAt, hperiod] at hmoment
      exact .inl (by rw [next, hhandle, hkind, ← hmoment])
    | some period =>
      rw [FiresAt, hperiod] at hmoment
      obtain ⟨times, hmoment⟩ := hmoment
      cases times with
      | zero =>
        rw [Nat.zero_mul, Nat.add_zero] at hmoment
        exact .inl (by rw [next, hhandle, hkind, ← hmoment])
      | succ times =>
        refine .inr ⟨_, Option.map_eq_some_iff.2 ⟨period, hperiod, rfl⟩, hhandle, hkind, ?_⟩
        simp only [FiresAt, hperiod]
        exact ⟨times, by rw [hmoment, Nat.succ_mul]; omega⟩
  · rintro (rfl | ⟨after, hafter, hfires⟩)
    · exact timer.fires_next
    · obtain ⟨period, hperiod, rfl⟩ := Option.map_eq_some_iff.1 hafter
      refine ⟨hfires.handle, hfires.kind, ?_⟩
      have hmoment := hfires.moment
      simp only [FiresAt, hperiod] at hmoment ⊢
      obtain ⟨times, hmoment⟩ := hmoment
      exact ⟨times + 1, by rw [hmoment, Nat.succ_mul]; omega⟩

theorem due_lt_fired (h : timer.fired armed = some after) : timer.due < after.due := by
  obtain ⟨period, -, rfl⟩ := Option.map_eq_some_iff.1 h
  exact Nat.lt_add_of_pos_right period.positive

theorem handle_fired (h : timer.fired armed = some after) : after.handle = timer.handle := by
  obtain ⟨period, -, rfl⟩ := Option.map_eq_some_iff.1 h
  rfl

end Timer

namespace Clock

variable {clock : Clock} {timer : Timer} {moment : Nat}

/-! ## A span that is cut -/

/-- The clock when a timer has just fired. -/
def after (clock : Clock) (timer : Timer) : Clock :=
  { clock with
    now := timer.due
    armings := clock.armings + 1
    timers := fire timer.handle (clock.armings + 1) clock.timers }

theorem advanceTo_due (hfirst : first? clock.turn clock.timers = some timer) (hdue : timer.due ≤ moment) :
    clock.advanceTo moment =
      (timer.kind :: ((clock.after timer).advanceTo moment).1, ((clock.after timer).advanceTo moment).2) := by
  rw [advanceTo]
  split
  · rename_i hnone
    cases hnone.symm.trans hfirst
  · rename_i other hother
    cases hother.symm.trans hfirst
    exact if_pos hdue

theorem advanceTo_quiet (h : ∀ timer, first? clock.turn clock.timers = some timer → moment < timer.due) :
    clock.advanceTo moment = ([], { clock with now := moment }) := by
  rw [advanceTo]
  split
  · rfl
  · rename_i timer hfirst
    exact if_neg (Nat.not_le.2 (h timer hfirst))

theorem now_advanceTo (moment : Nat) (clock : Clock) : (clock.advanceTo moment).2.now = moment := by
  fun_induction advanceTo moment clock with
  | case1 | case3 => rfl
  | case2 clock timer _ _ kinds final hfinal ih => rwa [hfinal] at ih

/-- What the time was does not matter, only which timers are due when. -/
theorem advanceTo_now (moment now : Nat) (clock : Clock) :
    advanceTo moment { clock with now } = clock.advanceTo moment := by
  by_cases hdue : ∃ timer, first? clock.turn clock.timers = some timer ∧ timer.due ≤ moment
  · obtain ⟨timer, hfirst, hdue⟩ := hdue
    rw [advanceTo_due hfirst hdue, @advanceTo_due { clock with now } _ _ hfirst hdue]
    rfl
  · have hquiet : ∀ timer, first? clock.turn clock.timers = some timer → moment < timer.due :=
      fun timer hfirst => Nat.not_le.1 fun hle => hdue ⟨timer, hfirst, hle⟩
    rw [advanceTo_quiet hquiet, @advanceTo_quiet { clock with now } _ hquiet]

/-- A span is what it is up to a moment in it, and then the rest. -/
theorem advanceTo_split {middle : Nat} (hle : middle ≤ moment) (clock : Clock) :
    clock.advanceTo moment =
      ((clock.advanceTo middle).1 ++ ((clock.advanceTo middle).2.advanceTo moment).1,
        ((clock.advanceTo middle).2.advanceTo moment).2) := by
  fun_induction advanceTo middle clock with
  | case1 clock _ => exact (advanceTo_now moment middle clock).symm
  | case2 clock timer hfirst hdue kinds final hfinal ih =>
    rw [hfinal] at ih
    rw [advanceTo_due hfirst (Nat.le_trans hdue hle)]
    change (clock.after timer).advanceTo moment = _ at ih
    rw [ih]
    rfl
  | case3 clock timer _ _ => exact (advanceTo_now moment middle clock).symm

/-! ## What fires in a span -/

theorem first?_eq_none {turn : Turn} {timers : List Timer} (h : first? turn timers = none) : timers = [] := by
  cases timers with
  | nil => rfl
  | cons timer rest =>
    rw [first?] at h
    split at h
    · cases h
    · split at h <;> cases h

/-- No timer fires before the first of all. -/
theorem first?_least {timers : List Timer} (h : first? .byHandle timers = some timer) :
    ∀ other ∈ timers, timer.due < other.due ∨ timer.due = other.due ∧ timer.handle ≤ other.handle := by
  induction timers generalizing timer with
  | nil => cases h
  | cons head rest ih =>
    rw [List.forall_mem_cons]
    cases hrest : first? .byHandle rest with
    | none =>
      rw [first?_eq_none hrest] at h ⊢
      cases h
      exact ⟨.inr ⟨rfl, Nat.le_refl _⟩, nofun⟩
    | some least =>
      have hleast := ih hrest
      simp only [first?, hrest] at h
      split at h <;> cases h
      · rename_i hbefore
        simp only [before, Bool.or_eq_true, Bool.and_eq_true, beq_iff_eq, decide_eq_true_eq] at hbefore
        exact ⟨by grind, hleast⟩
      · rename_i hbefore
        simp only [before, Bool.or_eq_true, Bool.and_eq_true, beq_iff_eq, decide_eq_true_eq] at hbefore
        exact ⟨.inr ⟨rfl, Nat.le_refl _⟩, fun other hother => by grind [hleast other hother]⟩

/-- The firings of all timers. -/
def Fires (timers : List Timer) (firing : Firing) : Prop := ∃ timer ∈ timers, timer.Fires firing

/-- A clock whose handles were given out in order, and none of whose timers is overdue. -/
structure Punctual (clock : Clock) : Prop where
  turn : clock.turn = .byHandle
  increasing : clock.timers.Pairwise fun a b => a.handle < b.handle
  given : ∀ timer ∈ clock.timers, timer.handle ≤ clock.handles
  ahead : ∀ timer ∈ clock.timers, clock.now ≤ timer.due

theorem eq_of_handle {timers : List Timer} (hincreasing : timers.Pairwise fun a b => a.handle < b.handle) {a b : Timer}
    (ha : a ∈ timers) (hb : b ∈ timers) (h : a.handle = b.handle) : a = b :=
  List.inj_on_of_nodup_map ((List.pairwise_map.2 hincreasing).imp fun hlt => Nat.ne_of_lt hlt) ha hb h

theorem mem_fire_iff {timers : List Timer} {armed : Nat} {after : Timer}
    (hincreasing : timers.Pairwise fun a b => a.handle < b.handle) (htimer : timer ∈ timers) :
    after ∈ fire timer.handle armed timers ↔
      timer.fired armed = some after ∨ after ∈ timers ∧ after.handle ≠ timer.handle := by
  rw [fire, List.mem_filterMap]
  constructor
  · rintro ⟨other, hother, hafter⟩
    split at hafter
    · rename_i hhandle
      rw [eq_of_handle hincreasing hother htimer hhandle] at hafter
      exact .inl hafter
    · rename_i hhandle
      cases hafter
      exact .inr ⟨hother, hhandle⟩
  · rintro (hafter | ⟨hafter, hhandle⟩)
    · exact ⟨timer, htimer, by rw [if_pos rfl, hafter]⟩
    · exact ⟨after, hafter, if_neg hhandle⟩

/-- What the timers fire is the next firing of one of them, and what they fire after it. -/
theorem fires_iff {timers : List Timer} (hincreasing : timers.Pairwise fun a b => a.handle < b.handle)
    (htimer : timer ∈ timers) (armed : Nat) (firing : Firing) :
    Fires timers firing ↔ firing = timer.next ∨ Fires (fire timer.handle armed timers) firing := by
  constructor
  · rintro ⟨other, hother, hfires⟩
    by_cases hhandle : other.handle = timer.handle
    · cases eq_of_handle hincreasing hother htimer hhandle
      exact ((Timer.fires_iff armed).1 hfires).imp_right fun ⟨after, hafter, hfires⟩ =>
        ⟨after, (mem_fire_iff hincreasing htimer).2 (.inl hafter), hfires⟩
    · exact .inr ⟨other, (mem_fire_iff hincreasing htimer).2 (.inr ⟨hother, hhandle⟩), hfires⟩
  · rintro (rfl | ⟨after, hafter, hfires⟩)
    · exact ⟨timer, htimer, timer.fires_next⟩
    · obtain hafter | ⟨hafter, -⟩ := (mem_fire_iff hincreasing htimer).1 hafter
      · exact ⟨timer, htimer, (Timer.fires_iff armed).2 (.inr ⟨after, hafter, hfires⟩)⟩
      · exact ⟨after, hafter, hfires⟩

/-- When the first timer has fired, all that comes is after that. -/
theorem before_of_fires {timers : List Timer} {armed : Nat} {firing : Firing}
    (hincreasing : timers.Pairwise fun a b => a.handle < b.handle) (hfirst : first? .byHandle timers = some timer)
    (h : Fires (fire timer.handle armed timers) firing) : timer.next.Before firing := by
  obtain ⟨after, hafter, hfires⟩ := h
  have hdue := hfires.moment.due_le
  obtain hafter | ⟨hafter, hhandle⟩ := (mem_fire_iff hincreasing (first?_mem hfirst)).1 hafter
  · exact .inl (Nat.lt_of_lt_of_le (Timer.due_lt_fired hafter) hdue)
  · obtain hlt | ⟨heq, hle⟩ := first?_least hfirst after hafter
    · exact .inl (Nat.lt_of_lt_of_le hlt hdue)
    · have hlt : timer.handle < after.handle := Nat.lt_of_le_of_ne hle hhandle.symm
      rw [hfires.handle] at hlt
      obtain hlater | hsame := Nat.lt_or_eq_of_le hdue
      · exact .inl (Nat.lt_of_le_of_lt (Nat.le_of_eq heq) hlater)
      · exact .inr ⟨heq.trans hsame, hlt⟩

theorem Punctual.now (h : clock.Punctual) {now : Nat} (hahead : ∀ timer ∈ clock.timers, now ≤ timer.due) :
    { clock with now }.Punctual :=
  ⟨h.turn, h.increasing, h.given, hahead⟩

/-- A timer keeps its handle when one fires. -/
theorem handle_fire {handle : TimerHandle} {armed : Nat} {timer after : Timer}
    (h : (if timer.handle = handle then timer.fired armed else some timer) = some after) :
    after.handle = timer.handle := by
  split at h
  · exact Timer.handle_fired h
  · cases h
    rfl

theorem Punctual.after (h : clock.Punctual) (hfirst : first? clock.turn clock.timers = some timer) :
    (clock.after timer).Punctual := by
  have htimer := first?_mem hfirst
  rw [h.turn] at hfirst
  refine ⟨h.turn, ?_, fun after hafter => ?_, fun after hafter => ?_⟩
  · refine h.increasing.filterMap _ fun a b hlt a' ha' b' hb' => ?_
    rwa [handle_fire ha', handle_fire hb']
  · obtain hafter | ⟨hafter, -⟩ := (mem_fire_iff h.increasing htimer).1 hafter
    · exact Timer.handle_fired hafter ▸ h.given timer htimer
    · exact h.given after hafter
  · obtain hafter | ⟨hafter, -⟩ := (mem_fire_iff h.increasing htimer).1 hafter
    · exact Nat.le_of_lt (Timer.due_lt_fired hafter)
    · exact (first?_least hfirst after hafter).elim Nat.le_of_lt fun heq => Nat.le_of_eq heq.1

/-- The first timer is due after a moment, and so are all others. -/
theorem Punctual.quiet (h : clock.Punctual) (hfirst : first? clock.turn clock.timers = some timer)
    (hdue : moment < timer.due) : ∀ other ∈ clock.timers, moment < other.due := by
  intro other hother
  rw [h.turn] at hfirst
  exact Nat.lt_of_lt_of_le hdue ((first?_least hfirst other hother).elim Nat.le_of_lt fun heq => Nat.le_of_eq heq.1)

theorem Punctual.advanceTo (h : clock.Punctual) (moment : Nat) : (clock.advanceTo moment).2.Punctual := by
  fun_induction Clock.advanceTo moment clock with
  | case1 clock hnone => exact h.now (by simp [first?_eq_none hnone])
  | case2 clock timer hfirst _ kinds final hfinal ih =>
    have hfinal' := ih (h.after hfirst)
    rwa [hfinal] at hfinal'
  | case3 clock timer hfirst hdue =>
    exact h.now fun other hother => Nat.le_of_lt (h.quiet hfirst (Nat.not_le.1 hdue) other hother)

/-- Up to a moment just the firings come that fall into this time, in their order. -/
theorem fires_advanceTo (h : clock.Punctual) (moment : Nat) :
    ∃ firings : List Firing, (clock.advanceTo moment).1 = firings.map Firing.kind ∧ firings.Pairwise Firing.Before ∧
      ∀ firing, firing ∈ firings ↔ firing.moment ≤ moment ∧ Fires clock.timers firing := by
  have hnothing : ∀ timers : List Timer, (∀ timer ∈ timers, moment < timer.due) → ∀ firing : Firing,
      firing ∈ ([] : List Firing) ↔ firing.moment ≤ moment ∧ Fires timers firing := by
    rintro timers hlate firing
    refine iff_of_false nofun ?_
    rintro ⟨hle, timer, htimer, hfires⟩
    exact Nat.not_le.2 (hlate timer htimer) (Nat.le_trans hfires.moment.due_le hle)
  fun_induction Clock.advanceTo moment clock with
  | case1 clock hnone => exact ⟨[], rfl, .nil, hnothing _ (by simp [first?_eq_none hnone])⟩
  | case2 clock timer hfirst hdue kinds final hfinal ih =>
    obtain ⟨firings, hkinds, hordered, hmem⟩ := ih (h.after hfirst)
    rw [hfinal] at hkinds
    have hiff := fires_iff h.increasing (first?_mem hfirst) (clock.armings + 1)
    refine ⟨timer.next :: firings, congrArg _ hkinds, List.pairwise_cons.2 ⟨fun firing hfiring => ?_, hordered⟩,
      fun firing => ?_⟩
    · exact before_of_fires h.increasing (h.turn ▸ hfirst) ((hmem firing).1 hfiring).2
    · rw [List.mem_cons, hmem, hiff]
      constructor
      · rintro (rfl | ⟨hle, hfires⟩)
        · exact ⟨hdue, .inl rfl⟩
        · exact ⟨hle, .inr hfires⟩
      · rintro ⟨hle, rfl | hfires⟩
        · exact .inl rfl
        · exact .inr ⟨hle, hfires⟩
  | case3 clock timer hfirst hdue => exact ⟨[], rfl, .nil, hnothing _ (h.quiet hfirst (Nat.not_le.1 hdue))⟩

/-- Each step of the loop uses up some of what there is to fire. -/
theorem length_advanceTo (moment : Nat) (clock : Clock) :
    (clock.advanceTo moment).1.length ≤ pendingUntil moment clock.timers := by
  fun_induction Clock.advanceTo moment clock with
  | case1 | case3 => exact Nat.zero_le _
  | case2 clock timer hfirst hdue kinds final hfinal ih =>
    rw [hfinal] at ih
    exact Nat.lt_of_le_of_lt ih (pendingUntil_fire_lt (first?_mem hfirst) hdue)

theorem pendingUntil_le {timers : List Timer} {now : Nat} (h : ∀ timer ∈ timers, now ≤ timer.due) (duration : Nat) :
    pendingUntil (now + duration) timers ≤ timers.length * (duration + 1) := by
  induction timers with
  | nil => simp [pendingUntil]
  | cons timer rest ih =>
    obtain ⟨hdue, hrest⟩ := List.forall_mem_cons.1 h
    have := ih hrest
    simp only [pendingUntil, List.map_cons, List.sum_cons, List.length_cons, Nat.add_mul, Nat.one_mul] at this ⊢
    omega

/-! ## All that can be asked of a clock -/

/-- What is asked of a clock. -/
inductive Use where
  | repeating (kind : TimerKind) (interval : Nat)
  | once (kind : TimerKind) (delay : Nat)
  | cancel (handle : TimerHandle)
  | advance (duration : Nat)

/-- A clock may count units of which the shortest interval has many. -/
def use (shortest : Nat) (clock : Clock) : Use → Clock
  | .repeating kind interval => (clock.scheduleRepeating kind (max interval shortest)).2
  | .once kind delay => (clock.scheduleOnce kind delay).2
  | .cancel handle => clock.cancel handle
  | .advance duration => (clock.advance duration).2

theorem Punctual.arm (h : clock.Punctual) (kind : TimerKind) (delay : Nat) (period : Option Period) :
    (clock.arm kind delay period).2.Punctual := by
  refine ⟨h.turn, ?_, ?_, ?_⟩
  · refine List.pairwise_append.2 ⟨h.increasing, List.pairwise_singleton .., fun a ha b hb => ?_⟩
    cases List.mem_singleton.1 hb
    exact Nat.lt_succ_of_le (h.given a ha)
  · refine List.forall_mem_append.2 ⟨fun timer htimer => Nat.le_succ_of_le (h.given timer htimer), ?_⟩
    simp [Clock.arm]
  · refine List.forall_mem_append.2 ⟨h.ahead, ?_⟩
    simp [Clock.arm]

theorem Punctual.use (h : clock.Punctual) (shortest : Nat) (asked : Use) : (clock.use shortest asked).Punctual := by
  cases asked with
  | repeating kind interval => exact h.arm ..
  | once kind delay => exact h.arm ..
  | cancel handle =>
    exact ⟨h.turn, h.increasing.filter _, fun timer htimer => h.given timer ((List.mem_filter.1 htimer).1),
      fun timer htimer => h.ahead timer ((List.mem_filter.1 htimer).1)⟩
  | advance duration => exact h.advanceTo _

theorem punctual_uses (shortest : Nat) (uses : List Use) : (uses.foldl (use shortest) {}).Punctual :=
  List.foldlRecOn uses (use shortest) ⟨rfl, .nil, nofun, nofun⟩ fun _ h asked _ => h.use shortest asked

/-- Whatever a clock was asked before, a span of time brings exactly the firings whose moments lie in it, as many at
most as every timer could fire, in order; and two spans, one after the other, bring together what their sum
brings, and leave the clock as it does: the same time, and the same timers due at the same moments. -/
theorem advance_add (shortest : Nat) (uses : List Use) :
    let clock := uses.foldl (use shortest) {}
    (∀ duration, ∃ firings : List Firing,
        (clock.advance duration).1 = firings.map Firing.kind ∧ firings.Pairwise Firing.Before ∧
          (∀ firing, firing ∈ firings ↔ firing.moment ≤ clock.now + duration ∧ Fires clock.timers firing) ∧
          firings.length ≤ clock.active * (duration + 1) ∧ (clock.advance duration).2.now = clock.now + duration) ∧
      ∀ a b, clock.advance (a + b) =
        ((clock.advance a).1 ++ ((clock.advance a).2.advance b).1, ((clock.advance a).2.advance b).2) := by
  intro clock
  have hpunctual : clock.Punctual := punctual_uses shortest uses
  refine ⟨fun duration => ?_, fun a b => ?_⟩
  · obtain ⟨firings, hkinds, hordered, hmem⟩ := fires_advanceTo hpunctual (clock.now + duration)
    refine ⟨firings, hkinds, hordered, hmem, ?_, now_advanceTo _ _⟩
    calc firings.length = (clock.advance duration).1.length := by rw [advance, hkinds, List.length_map]
      _ ≤ pendingUntil (clock.now + duration) clock.timers := length_advanceTo _ _
      _ ≤ clock.active * (duration + 1) := pendingUntil_le hpunctual.ahead duration
  · have hmoment : (clock.advance a).2.now + b = clock.now + (a + b) := by
      rw [advance, now_advanceTo, Nat.add_assoc]
    show clock.advanceTo _ = (_ ++ (Clock.advanceTo _ _).1, (Clock.advanceTo _ _).2)
    rw [hmoment]
    exact advanceTo_split (Nat.add_le_add_left (Nat.le_add_right a b) _) clock

example :
    let clock : Clock :=
      [.repeating .rateReset 100, .once .handshakeExpiry 150, .once (.batchFlush 1) 50].foldl (use 1) {}
    (clock.advance 250).1 = [.batchFlush 1, .rateReset, .handshakeExpiry, .rateReset] := by
  cbv

end Clock

end PacketProtocol
