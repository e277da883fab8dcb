import TimeSync.Time.Instant

/-!
# Deadlines

A deadline is stopped, an instant, or never reached.  A timeout that goes beyond
the end of the monotonic scale is never reached.
-/

namespace TimeSync

inductive Deadline where
  | stopped
  | finite (instant : Instant)
  | forever
deriving DecidableEq

namespace Deadline

def after (instant : Instant) (duration : Duration) : Deadline :=
  match instant.add? duration with
  | some deadline => .finite deadline
  | none => .forever

def running : Deadline → Bool
  | stopped => false
  | .finite _ | forever => true

def instant? : Deadline → Option Instant
  | .finite instant => some instant
  | stopped | forever => none

def expired (deadline : Deadline) (now : Instant) : Bool :=
  match deadline with
  | .finite instant => instant ≤ now
  | stopped | forever => false

/-- The time left: none once expired or stopped, the longest where the deadline is
never reached. -/
def remaining (deadline : Deadline) (now : Instant) : Duration :=
  match deadline with
  | .finite instant => instant.since now
  | forever => .longest
  | stopped => .zero

/-- Moves a deadline out, from now or from where it is if that is later. -/
def extend (deadline : Deadline) (duration : Duration) (now : Instant) : Deadline :=
  match deadline with
  | .finite instant => after (instant.later now) duration
  | stopped => stopped
  | forever => forever

end Deadline

end TimeSync
