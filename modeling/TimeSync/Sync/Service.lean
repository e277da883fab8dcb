import TimeSync.Scheduler.Engine
import TimeSync.Sync.Cycle

/-!
# The synchronisation service

A service runs cycles from a repeating timer of a scheduler.  Further cycles can
be asked for, at once or from a timer that fires once; such a timer outlives
the service.  Every timer of the scheduler runs one cycle of the one poller, so
cycles never overlap.
-/

namespace TimeSync.Sync

open Ntp (Outcome)

/-- A service, with the engine that runs it.  The surroundings of the engine hold
the poller. -/
structure Service (ε : Type) where
  engine : Engine (Poller × ε)
  timer : TimerId
  interval : Duration

namespace Service

variable {ε : Type}

def cycle (source : Source ε) (context : Context (Poller × ε)) :
    Outcome × Context (Poller × ε) :=
  let (poller, env) := context.env
  let (outcome, poller, after) := poller.runCycle source (context.withEnv env)
  (outcome, after.withEnv (poller, after.env))

/-- What the callback of every timer does.  A cycle that fails has published its
failure, and the callback ends well. -/
def behaviour (source : Source ε) : Behaviour (Poller × ε) where
  call := fun _ _ engine =>
    some (.done, { engine with context := (cycle source engine.context).2 })
  sink := Behaviour.logFailure

/-- Starts a service on a scheduler that has no timers yet.  Settings that do not
pass the checks register nothing. -/
def start (settings : Settings) (engine : Engine ε) :
    Except SettingsFault (Service ε) :=
  match settings.fault? with
  | some fault => .error fault
  | none =>
    let env := (Poller.ofSettings settings, engine.context.env)
    let interval := settings.pollInterval
    let first := if settings.measureImmediately then Duration.zero else interval
    let (timer, engine) :=
      Engine.register { scheduler := engine.scheduler, context := engine.context.withEnv env }
        (.after first) (some interval)
    let count := settings.servers.length
    let every := interval.text
    let selection := settings.selection.name
    let engine := engine.note .info
      s!"[Sync] polling {count} server(s) every {every} ({selection} selection)"
    .ok { engine, timer, interval }

def context (service : Service ε) : Context (Poller × ε) := service.engine.context

def poller (service : Service ε) : Poller := service.context.env.1

def state (service : Service ε) : State := service.poller.state

def status (service : Service ε) : Option Timer.Status :=
  service.engine.scheduler.status? service.timer

def mapContext (service : Service ε) (change : Context (Poller × ε) → Context (Poller × ε)) :
    Service ε :=
  { service with engine := { service.engine with context := change service.context } }

def runPending (source : Source ε) (bound : Nat) (service : Service ε) :
    Option (Nat × Service ε) := do
  let (count, engine) ← service.engine.runPending (behaviour source) bound 0
  return (count, { service with engine })

def forceMeasure (source : Source ε) (service : Service ε) : Outcome × Service ε :=
  let (outcome, context) := cycle source service.context
  (outcome, { service with engine := { service.engine with context } })

/-- Registers a timer that runs one further cycle as soon as timers are run. -/
def measureNow (service : Service ε) : TimerId × Service ε :=
  let (id, engine) := service.engine.register (.after .zero) none
  (id, { service with engine })

def setServers (service : Service ε) (servers : List Endpoint) :
    Except SettingsFault Unit × Service ε :=
  let (poller, env) := service.context.env
  let (result, poller, context) :=
    poller.replaceServers servers (service.context.withEnv env)
  (result, service.mapContext fun _ => context.withEnv (poller, context.env))

/-- Stops the cycles; what has been published stays.  Says whether they ran. -/
def shutdown (service : Service ε) : Bool × Service ε :=
  let (cancelled, engine) := service.engine.cancel service.timer
  (cancelled, { service with engine })

/-- Gives the service up: its own timer is cancelled. -/
def release (service : Service ε) : Service ε := service.shutdown.2

end Service

end TimeSync.Sync
