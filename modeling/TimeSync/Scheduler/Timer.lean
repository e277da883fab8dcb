import TimeSync.Time.DurationText
import TimeSync.Time.Instant

/-!
# Timers

A timer fires once or again and again.  A repeating timer keeps to the grid of
its first deadline: `phase` is a point of that grid, and `fireAt` is the instant
at which the timer is to run, which differs from `phase` only where the timer
ran so late that it has to run again at once.
-/

namespace TimeSync

/-- Timers are numbered in the order in which they are registered. -/
abbrev TimerId := Nat

/-- The number of a timer as messages show it, from one. -/
def TimerId.number (timer : TimerId) : Nat := timer + 1

inductive FirstFire where
  | after (delay : Duration)
  | instant (deadline : Instant)
deriving DecidableEq

namespace FirstFire

/-- A hundred years, in place of delays that go beyond the monotonic scale. -/
def farFuture : Duration := ⟨100 * 365 * 24 * 3600 * 1000000000, by omega⟩

def resolve (first : FirstFire) (now : Instant) : Instant :=
  match first with
  | instant deadline => deadline
  | after delay => ((now.add? delay).or (now.add? farFuture)).getD now

end FirstFire

inductive Timer.Status where
  | pending
  | running
  | cancelled
  | completed
deriving DecidableEq

def Timer.Status.name : Timer.Status → String
  | pending => "Pending"
  | running => "Running"
  | cancelled => "Cancelled"
  | completed => "Completed"

@[ext]
structure Timer where
  period : Option Duration
  status : Timer.Status := .pending
  cancelRequested : Bool := false
  fireAt : Instant
  phase : Instant
deriving DecidableEq

namespace Timer

def leastPeriod : Duration := .ofMillis 1

def clampPeriod (period : Duration) : Duration :=
  if period < leastPeriod then leastPeriod else period

def waiting (deadline : Instant) (period : Option Duration) : Timer :=
  { period, fireAt := deadline, phase := deadline }

/-- The next grid point and the next instant to run at, after a run that ended at
`now`.  If the next grid point has passed, the timer runs again at once and the
grid point moves to the last one that is not after `now`. -/
def nextDeadline (phase : Instant) (period : Duration) (now : Instant) :
    Instant × Instant :=
  match phase.add? period with
  | none => (now, now)
  | some next =>
    if now ≤ next then
      (next, next)
    else
      let skipped := (now.since phase).nanos / period.nanos * period.nanos
      let reached : Option Instant := do
        if skipped < UInt64.size then phase.add? (.clamp skipped) else none
      (reached.getD now, now)

/-- The timer after an execution that ended at `now`: cancelled if that was asked
for meanwhile, completed if it does not repeat, else waiting for its next
deadline. -/
def afterRun (timer : Timer) (now : Instant) : Timer :=
  if timer.cancelRequested then
    { timer with status := .cancelled }
  else
    match timer.period with
    | none => { timer with status := .completed }
    | some period =>
      let (phase, fireAt) := nextDeadline timer.phase period now
      { timer with status := .pending, phase, fireAt }

theorem status_afterRun (timer : Timer) (now : Instant) :
    (timer.afterRun now).status =
      if timer.cancelRequested then .cancelled
      else if timer.period = none then .completed
      else .pending := by
  unfold afterRun
  split
  · rfl
  · split <;> simp_all

theorem status_afterRun_ne_running (timer : Timer) (now : Instant) :
    (timer.afterRun now).status ≠ .running := by
  rw [status_afterRun]
  split
  · simp
  · split <;> simp

def nextFire (timer : Timer) : Option Instant :=
  if timer.status = .pending then some timer.fireAt else none

def periodText (period : Option Duration) : String :=
  match period with
  | none => "None"
  | some period => "Some(" ++ period.text ++ ")"

def describe (timer : Timer) (id : TimerId) : String :=
  "TimerHandle \x7b id: " ++ toString id.number ++ ", status: " ++ timer.status.name
    ++ ", period: " ++ periodText timer.period ++ " \x7d"

end Timer

end TimeSync
