import PacketProtocol.Transport
/-!
# Clocks

A scheduler whose time moves only when `advance` is called. The timers that fall due are fired in
the order of their due times; of those due at one moment the order is by handle, or by the time they
were last armed. A repeating timer is armed anew each time it fires.
-/

namespace PacketProtocol

open scoped Numerals

/-- The length of a repeating timer's interval: at least a millisecond. -/
structure Period where
  ms : Nat
  positive : 0 < ms
deriving DecidableEq, Repr

/-- The interval asked for, or the shortest there is. -/
def Period.ofInterval (interval : Nat) : Period := ⟨max interval 1, by omega⟩

structure Timer where
  handle : TimerHandle
  kind : TimerKind
  due : Nat
  /-- The interval of a repeating timer. -/
  period : Option Period
  /-- The place of its last arming among all armings. -/
  armed : Nat
deriving DecidableEq, Repr

/-- A timer after it fired: armed anew, or gone. -/
def Timer.fired (armed : Nat) (timer : Timer) : Option Timer :=
  timer.period.map fun period => { timer with due := timer.due + period.ms, armed }

/-- Which of the timers due at one moment goes first. -/
inductive Turn where
  | byHandle
  | byArming
deriving DecidableEq, Repr, Inhabited

structure Clock where
  now : Nat := 0
  /-- The last handle given out. -/
  handles : Nat := 0
  /-- How often a timer was armed. -/
  armings : Nat := 0
  /-- Handles increasing. -/
  timers : List Timer := []
  turn : Turn := .byHandle
deriving DecidableEq, Repr, Inhabited

namespace Clock

/-- How many timers are kept. -/
def active (clock : Clock) : Nat := clock.timers.length

def isScheduled (clock : Clock) (kind : TimerKind) : Bool :=
  clock.timers.any fun timer => timer.kind == kind

/-- Keeps a new timer under the next handle. -/
def arm (clock : Clock) (kind : TimerKind) (delay : Nat) (period : Option Period) :
    TimerHandle × Clock :=
  let handle := clock.handles + 1
  (handle,
    { clock with
      handles := handle
      armings := clock.armings + 1
      timers := clock.timers ++ [⟨handle, kind, clock.now + delay, period, clock.armings + 1⟩] })

def scheduleRepeating (clock : Clock) (kind : TimerKind) (interval : Nat) : TimerHandle × Clock :=
  clock.arm kind (max interval 1) (some (.ofInterval interval))

def scheduleOnce (clock : Clock) (kind : TimerKind) (delay : Nat) : TimerHandle × Clock :=
  clock.arm kind delay none

def cancel (clock : Clock) (handle : TimerHandle) : Clock :=
  { clock with timers := clock.timers.filter fun timer => timer.handle != handle }

instance : Scheduler Clock where
  scheduleRepeating := scheduleRepeating
  scheduleOnce := scheduleOnce
  cancel := cancel

/-! ## Passing time -/

/-- Whether one timer fires before another. -/
def before (turn : Turn) (a b : Timer) : Bool :=
  a.due < b.due || a.due == b.due &&
    match turn with
    | .byHandle => a.handle < b.handle
    | .byArming => a.armed < b.armed

/-- The timer that fires first of all. -/
def first? (turn : Turn) : List Timer → Option Timer
  | [] => none
  | timer :: rest =>
    match first? turn rest with
    | none => some timer
    | some other => if before turn other timer then some other else some timer

/-- The timers after the one with a handle fired. -/
def fire (handle : TimerHandle) (armed : Nat) (timers : List Timer) : List Timer :=
  timers.filterMap fun timer => if timer.handle = handle then timer.fired armed else some timer

/-- How much firing there can be up to a moment: for each timer the milliseconds from its due time to
the moment, both counted. -/
def pendingUntil (moment : Nat) (timers : List Timer) : Nat :=
  (timers.map fun timer => moment + 1 - timer.due).sum

theorem first?_mem {turn : Turn} {timers : List Timer} {timer : Timer}
    (h : first? turn timers = some timer) : timer ∈ timers := by
  induction timers with
  | nil => cases h
  | cons head rest ih =>
    simp only [first?] at h
    split at h
    · cases h; simp
    · split at h <;> cases h
      · exact List.mem_cons_of_mem _ (ih ‹_›)
      · simp

theorem pendingUntil_fired (moment armed : Nat) (timer : Timer) :
    pendingUntil moment (timer.fired armed).toList ≤ moment + 1 - timer.due := by
  cases hp : timer.period with
  | none => simp [Timer.fired, hp, pendingUntil]
  | some period => simp [Timer.fired, hp, pendingUntil]; omega

theorem pendingUntil_fired_lt {moment : Nat} (armed : Nat) {timer : Timer} (hdue : timer.due ≤ moment) :
    pendingUntil moment (timer.fired armed).toList < moment + 1 - timer.due := by
  cases hp : timer.period with
  | none => simp [Timer.fired, hp, pendingUntil]; omega
  | some period =>
    have := period.positive
    simp [Timer.fired, hp, pendingUntil]; omega

theorem fire_cons (handle : TimerHandle) (armed : Nat) (timer : Timer) (rest : List Timer) :
    fire handle armed (timer :: rest) =
      (if timer.handle = handle then timer.fired armed else some timer).toList ++
        fire handle armed rest := by
  simp only [fire, List.filterMap_cons]
  split <;> simp_all

theorem pendingUntil_append (moment : Nat) (as bs : List Timer) :
    pendingUntil moment (as ++ bs) = pendingUntil moment as + pendingUntil moment bs := by
  simp [pendingUntil]

theorem pendingUntil_fire_le (moment armed : Nat) (handle : TimerHandle) (timers : List Timer) :
    pendingUntil moment (fire handle armed timers) ≤ pendingUntil moment timers := by
  induction timers with
  | nil => simp [fire]
  | cons timer rest ih =>
    rw [fire_cons, pendingUntil_append]
    have hcons : pendingUntil moment (timer :: rest) =
        (moment + 1 - timer.due) + pendingUntil moment rest := by simp [pendingUntil]
    rw [hcons]
    split
    · have := pendingUntil_fired moment armed timer
      omega
    · simp only [Option.toList_some, pendingUntil, List.map_cons, List.map_nil, List.sum_cons,
        List.sum_nil] at ih ⊢
      omega

/-- Firing a timer that is due leaves less to fire. -/
theorem pendingUntil_fire_lt {moment armed : Nat} {timer : Timer} {timers : List Timer}
    (hmem : timer ∈ timers) (hdue : timer.due ≤ moment) :
    pendingUntil moment (fire timer.handle armed timers) < pendingUntil moment timers := by
  induction timers with
  | nil => cases hmem
  | cons head rest ih =>
    rw [fire_cons, pendingUntil_append]
    have hcons : pendingUntil moment (head :: rest) =
        (moment + 1 - head.due) + pendingUntil moment rest := by simp [pendingUntil]
    have hle := pendingUntil_fire_le moment armed timer.handle rest
    rw [hcons]
    rcases List.mem_cons.1 hmem with rfl | hrest
    · rw [if_pos rfl]
      have := pendingUntil_fired_lt armed hdue
      omega
    · have := ih hrest
      split
      · have := pendingUntil_fired moment armed head
        omega
      · simp only [Option.toList_some, pendingUntil, List.map_cons, List.map_nil, List.sum_cons,
          List.sum_nil] at this ⊢
        omega

/-- Fires all timers due up to a moment, in order: their kinds, and the clock at that moment. -/
def advanceTo (moment : Nat) (clock : Clock) : List TimerKind × Clock :=
  match _first : first? clock.turn clock.timers with
  | none => ([], { clock with now := moment })
  | some timer =>
    if timer.due ≤ moment then
      let (kinds, clock) := advanceTo moment
        { clock with
          now := timer.due
          armings := clock.armings + 1
          timers := fire timer.handle (clock.armings + 1) clock.timers }
      (timer.kind :: kinds, clock)
    else ([], { clock with now := moment })
termination_by pendingUntil moment clock.timers
decreasing_by exact pendingUntil_fire_lt (first?_mem _first) ‹_›

/-- Lets time pass: the kinds of the timers that fired, in order, and the clock after it. -/
def advance (clock : Clock) (ms : Nat) : List TimerKind × Clock :=
  clock.advanceTo (clock.now + ms)

end Clock

end PacketProtocol
