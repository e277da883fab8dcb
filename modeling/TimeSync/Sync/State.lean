import TimeSync.Ntp.Exchange
import TimeSync.Pool.Health

/-!
# The published state

What a synchronisation publishes after each cycle.  A cycle that fails keeps
what the last successful one has published and adds only its failure.
-/

namespace TimeSync.Sync

open Ntp (Fault Sample)

/-- Times are in microseconds. -/
@[ext]
structure State where
  /-- The offset in effect, smoothed over the samples so far. -/
  offset : Int := 0
  sampleOffset : Int := 0
  delay : Int := 0
  stratum : Option UInt8 := none
  server : Option Endpoint := none
  lastSync : Option Instant := none
  /-- The local time at which the last sample arrived. -/
  lastArrival : Option Int := none
  lastFault : Option Fault := none
  cycles : Nat := 0
  failedCycles : Nat := 0
  servers : List Pool.Health := []
deriving DecidableEq

/-- The published offset after a sample: the step toward it is weighted and
rounded, a half away from zero. -/
def smooth (previous sample : Int) (weight : Float) : Int :=
  if 1.0 ≤ weight then
    sample
  else
    let weight := if 0.0 < weight then weight else 0.0
    let step := weight * Float.ofInt (Micros.wrap (sample - previous))
    Micros.wrap (previous + step.round.toInt64.toInt)

namespace State

def synchronized (state : State) : Bool := state.lastSync.isSome

/-- The offset in effect after a sample; the first is taken as it is. -/
def offsetAfter (state : State) (sample : Sample) (weight : Float) : Int :=
  if state.synchronized then
    smooth state.offset sample.offset weight
  else
    sample.offset

def succeed (state : State) (endpoint : Endpoint) (sample : Sample) (weight : Float)
    (now : Instant) (servers : List Pool.Health) : State :=
  { offset := state.offsetAfter sample weight
    sampleOffset := sample.offset
    delay := sample.delay
    stratum := some sample.stratum
    server := some endpoint
    lastSync := some now
    lastArrival := some sample.arrival
    lastFault := none
    cycles := state.cycles + 1
    failedCycles := state.failedCycles
    servers }

def fail (state : State) (fault : Fault) (servers : List Pool.Health) : State :=
  { state with
    lastFault := some fault
    cycles := state.cycles + 1
    failedCycles := state.failedCycles + 1
    servers }

/-- Whether no cycle has succeeded for longer than `age`. -/
def stale (state : State) (now : Instant) (age : Duration) : Bool :=
  match state.lastSync with
  | none => true
  | some last => age < now.since last

/-- Coordinated universal time for a reading of the local clock. -/
def utcMicros (state : State) (reading : Int) : Int := Micros.wrap (reading + state.offset)

end State

end TimeSync.Sync
