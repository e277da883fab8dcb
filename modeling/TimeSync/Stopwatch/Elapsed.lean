import TimeSync.Time.Instant

/-!
# Elapsed time

A stopwatch on the monotonic clock.  One that is not running shows no time and
never expires.
-/

namespace TimeSync

@[ext]
structure Stopwatch where
  start : Option Instant := none
deriving DecidableEq

namespace Stopwatch

def started (now : Instant) : Stopwatch := ⟨some now⟩

def running (stopwatch : Stopwatch) : Bool := stopwatch.start.isSome

def elapsed (stopwatch : Stopwatch) (now : Instant) : Duration :=
  match stopwatch.start with
  | none => .zero
  | some start => now.since start

def restart (stopwatch : Stopwatch) (now : Instant) : Duration × Stopwatch :=
  (stopwatch.elapsed now, started now)

def expired (stopwatch : Stopwatch) (timeout : Duration) (now : Instant) : Bool :=
  stopwatch.running ∧ timeout ≤ stopwatch.elapsed now

/-- Whole milliseconds elapsed, in 64 bits. -/
def elapsedMs (stopwatch : Stopwatch) (now : Instant) : Nat :=
  (stopwatch.elapsed now).millis % UInt64.size

end Stopwatch

end TimeSync
