import TimeSync.Scheduler.Engine
import TimeSync.Simulation.Clock

/-!
# Scripted timers

Timers whose callbacks follow a script: the first run performs the first list
of actions, the second run the second, and further runs the last.  What the
callbacks do and find out is recorded as a sequence of events.  A name stands
for the timer that was registered under it last.
-/

namespace TimeSync.Simulation

inductive Action where
  | clock (step : ClockStep)
  | cancel (name : String)
  | status (name : String)
  | schedule (name : String) (first : FirstFire) (period : Option Duration)
      (script : List (List Action))
  | pending
  | current
  | runPending
  | stop
  | start
  | fail (chain : List String)
  | abort (text : Option String)

structure Plan where
  name : String
  first : FirstFire
  period : Option Duration
  script : List (List Action)

inductive Event where
  | fired (name : String) (run : Nat) (now : Instant) (current : Option TimerId)
  | cancelled (name : String) (result : Bool)
  | status (name : String) (status : Timer.Status) (next : Option Instant)
  | scheduled (timer : TimerId)
  | pending (count : Nat)
  | current (timer : Option TimerId)
  | ran (count : Nat)
  | stopped (running : Bool)
  | started (result : Except Engine.StartFault Unit)
  | failed (failure : Failure)

/-- A scripted timer that has been registered, and how often it has run. -/
structure Scripted where
  plan : Plan
  runs : Nat := 0

/-- The registered timers in order, and the events so far. -/
structure Stage where
  timers : List Scripted := []
  events : Array Event := #[]

abbrev Rehearsal := Engine Stage

namespace Rehearsal

def record (rehearsal : Rehearsal) (event : Event) : Rehearsal :=
  let stage := rehearsal.context.env
  { rehearsal with
    context := rehearsal.context.withEnv { stage with events := stage.events.push event } }

/-- The timer that was registered last under a name. -/
def find? (rehearsal : Rehearsal) (name : String) : Option TimerId :=
  let timers := rehearsal.context.env.timers
  (timers.reverse.findIdx? fun scripted => scripted.plan.name = name).map
    fun index => timers.length - 1 - index

def schedule (rehearsal : Rehearsal) (plan : Plan) : TimerId × Rehearsal :=
  let (id, engine) := Engine.register rehearsal plan.first plan.period
  let stage := engine.context.env
  (id, { engine with
         context := engine.context.withEnv
           { stage with timers := stage.timers ++ [{ plan }] } })

def cancel (rehearsal : Rehearsal) (name : String) : Bool × Rehearsal :=
  match rehearsal.find? name with
  | none => (false, rehearsal)
  | some id => Engine.cancel rehearsal id

/-- The actions of a run of a timer, the first run being number one. -/
def actions (script : List (List Action)) (run : Nat) : List Action :=
  (script[min run script.length - 1]?).getD []

def beginRun (thread : ThreadId) (id : TimerId) (rehearsal : Rehearsal) :
    List Action × Rehearsal :=
  let stage := rehearsal.context.env
  match stage.timers[id]? with
  | none => ([], rehearsal)
  | some scripted =>
    let run := scripted.runs + 1
    let timers := stage.timers.modify id fun scripted => { scripted with runs := run }
    let counted : Rehearsal :=
      { rehearsal with context := rehearsal.context.withEnv { stage with timers } }
    (actions scripted.plan.script run,
      counted.record <| .fired scripted.plan.name run counted.context.now
        (counted.scheduler.current thread))

/-- Performs actions one after the other until one ends the callback.  `runPending`
is what the action of that name does. -/
def perform (runPending : Rehearsal → Option (Nat × Rehearsal)) (thread : ThreadId) :
    List Action → Rehearsal → Option (Ending × Rehearsal)
  | [], rehearsal => some (.done, rehearsal)
  | action :: rest, rehearsal =>
    match action with
    | .clock step =>
      perform runPending thread rest
        { rehearsal with context := step.apply rehearsal.context }
    | .cancel name =>
      let (cancelled, rehearsal) := rehearsal.cancel name
      perform runPending thread rest (rehearsal.record (.cancelled name cancelled))
    | .status name =>
      let found := rehearsal.find? name >>= rehearsal.scheduler.timer?
      perform runPending thread rest <| match found with
        | none => rehearsal
        | some timer => rehearsal.record (.status name timer.status timer.nextFire)
    | .schedule name first period script =>
      let (id, rehearsal) := rehearsal.schedule { name, first, period, script }
      perform runPending thread rest (rehearsal.record (.scheduled id))
    | .pending =>
      perform runPending thread rest
        (rehearsal.record (.pending rehearsal.scheduler.pendingCount))
    | .current =>
      perform runPending thread rest
        (rehearsal.record (.current (rehearsal.scheduler.current thread)))
    | .runPending => do
      let (count, rehearsal) ← runPending rehearsal
      perform runPending thread rest (rehearsal.record (.ran count))
    | .stop =>
      let stopped : Rehearsal := Engine.stop rehearsal thread
      perform runPending thread rest
        (stopped.record (.stopped stopped.scheduler.isRunning))
    | .start =>
      let (result, rehearsal) := Engine.start rehearsal thread
      perform runPending thread rest (Rehearsal.record rehearsal (.started result))
    | .fail chain => some (.failed chain, rehearsal)
    | .abort text => some (.aborted text, rehearsal)

def recordFailure (failure : Failure) (context : Context Stage) : Context Stage :=
  let stage := context.env
  context.withEnv { stage with events := stage.events.push (.failed failure) }

/-- What scripted callbacks do, with callbacks inside callbacks up to a depth and a
bound on the timers that each call may run. -/
def behaviour (sink : Failure → Context Stage → Context Stage) (bound : Nat) :
    Nat → Behaviour Stage
  | 0 => { call := fun _ _ _ => none, sink }
  | depth + 1 =>
    { call := fun thread id rehearsal =>
        let (actions, rehearsal) := beginRun thread id rehearsal
        perform (Engine.runPending (behaviour sink bound depth) bound thread) thread
          actions rehearsal
      sink }

end Rehearsal

end TimeSync.Simulation
