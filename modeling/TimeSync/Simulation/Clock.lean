import TimeSync.Context

/-!
# Driven clocks

In a simulation time passes only when a step says so.  The monotonic clock may
be set back; it does not go beyond the end of its scale.
-/

namespace TimeSync.Simulation

inductive ClockStep where
  | advance (duration : Duration)
  | setNow (instant : Instant)
  | setWall (nanos : Int)
  | setCpu (seconds nanos : Int)
  | refuseCpu
deriving DecidableEq

def ClockStep.apply {ε : Type} (step : ClockStep) (context : Context ε) : Context ε :=
  match step with
  | advance duration => { context with now := (context.now.add? duration).getD context.now }
  | setNow instant => { context with now := instant }
  | setWall nanos => { context with wall := nanos }
  | setCpu seconds nanos => { context with cpu := { seconds, nanos } }
  | refuseCpu => { context with cpu := { context.cpu with refused := true } }

/-- Moves the processor clock, which then shows less than a second of nanoseconds. -/
def moveCpu {ε : Type} (nanos : Int) (context : Context ε) : Context ε :=
  let moved := context.cpu.seconds * 1000000000 + context.cpu.nanos + nanos
  { context with cpu := { context.cpu with
      seconds := moved / 1000000000
      nanos := moved % 1000000000 } }

/-- A clock that shows what it is set to, in 64 signed bits. -/
abbrev ManualClock := Int

/-- Moves a manual clock, which wraps around. -/
def ManualClock.advance (clock : ManualClock) (micros : Int) : ManualClock :=
  Micros.wrap (clock + micros)

end TimeSync.Simulation
