import TimeSync.Binary64.Layout
import TimeSync.Scheduler.Basic
import TimeSync.Stopwatch.Processor

/-!
# Running timers

An `Engine` is a scheduler in its surroundings.  What the callbacks do is given
by a `Behaviour`; a callback may change the surroundings and the scheduler, and
may run timers itself.  A loop that runs timers is given a bound on their
number and has no result where the bound is too small.
-/

namespace TimeSync

inductive Ending where
  | done
  /-- An error with its causes, the outermost first. -/
  | failed (chain : List String)
  /-- Broken off, with a text if there is one. -/
  | aborted (text : Option String)
deriving DecidableEq

structure Failure where
  timer : TimerId
  message : String
  aborted : Bool
deriving DecidableEq

def Ending.failure? (timer : TimerId) : Ending → Option Failure
  | done => none
  | failed chain => some ⟨timer, ": ".intercalate chain, false⟩
  | aborted none => some ⟨timer, "panicked", true⟩
  | aborted (some text) => some ⟨timer, "panicked: " ++ text, true⟩

structure Engine (ε : Type) where
  scheduler : Scheduler := {}
  context : Context ε

/-- What callbacks do on a thread, and where failures are reported.  A callback
that never returns has no result. -/
structure Behaviour (ε : Type) where
  call : ThreadId → TimerId → Engine ε → Option (Ending × Engine ε)
  sink : Failure → Context ε → Context ε

namespace Behaviour

def logFailure {ε : Type} (failure : Failure) (context : Context ε) : Context ε :=
  let number := failure.timer.number
  let message := failure.message
  context.note .error s!"[Timer] #{number} callback failed: {message}"

end Behaviour

namespace Engine

variable {ε : Type}

def note (engine : Engine ε) (level : Level) (text : String) : Engine ε :=
  { engine with context := engine.context.note level text }

def register (engine : Engine ε) (first : FirstFire) (period : Option Duration) :
    TimerId × Engine ε :=
  let context := match period with
    | none => engine.context
    | some period =>
      if period < Timer.leastPeriod then
        let given := period.text
        let least := Timer.leastPeriod.text
        engine.context.note .warn
          s!"[Timer] period {given} too small, clamping to {least}"
      else
        engine.context
  let (id, scheduler) := engine.scheduler.register first period context.now
  let number := id.number
  let shown := Timer.periodText (period.map Timer.clampPeriod)
  (id, { scheduler,
         context := context.note .trace s!"[Timer] #{number} scheduled, period {shown}" })

def cancel (engine : Engine ε) (id : TimerId) : Bool × Engine ε :=
  let (cancelled, scheduler) := engine.scheduler.cancelHandle id
  (cancelled, { engine with scheduler })

def afterTaking (engine : Engine ε) (taken : Scheduler.Taken) : Engine ε :=
  let report := fun (context : Context ε) (id : TimerId) =>
    let number := id.number
    let status := ((engine.scheduler.status? id).map Timer.Status.name).getD ""
    context.note .debug s!"[Timer] #{number} dropped from queue in state {status}"
  { scheduler := taken.scheduler, context := taken.dropped.foldl report engine.context }

def takeDue (engine : Engine ε) (thread : ThreadId) (now : Instant) :
    Option Execution × Engine ε :=
  let taken := engine.scheduler.takeDue thread now
  (taken.execution, engine.afterTaking taken)

def settle (engine : Engine ε) (execution : Execution) : Engine ε :=
  let scheduler := engine.scheduler.settle execution engine.context.now
  let number := execution.timer.number
  let engine := { engine with scheduler }
  match scheduler.timer? execution.timer with
  | none => engine
  | some timer =>
    if timer.status = .pending ∧ timer.fireAt ≠ timer.phase then
      engine.note .debug s!"[Timer] #{number} overran its period, firing again now"
    else
      engine

/-- Runs the callback of a timer that has been taken, reports its failure and ends
the execution. -/
def fire (behaviour : Behaviour ε) (execution : Execution) (engine : Engine ε) :
    Option (Engine ε) := do
  let number := execution.timer.number
  let late := (engine.context.now.since execution.dueAt).text
  let context := engine.context.note .trace
    s!"[Timer] #{number} firing {late} after deadline"
  let (watch, context) := ({} : ProcessorWatch).begin context
  let (ending, engine) ←
    behaviour.call execution.thread execution.timer { engine with context }
  let (watch, context) := watch.finish engine.context
  let (seconds, context) := watch.elapsed context
  let used := Binary64.thousandths (seconds * 1000.0)
  let context := context.note .trace s!"[Timer] #{number} callback used {used} ms CPU"
  let context := match ending.failure? execution.timer with
    | none => context
    | some failure => behaviour.sink failure context
  return { engine with context }.settle execution

/-- Runs what is due at `cutoff`, at most `bound - 1` timers, and counts them. -/
def runDue (behaviour : Behaviour ε) (thread : ThreadId) (cutoff : Instant) :
    Nat → Engine ε → Option (Nat × Engine ε)
  | 0, _ => none
  | bound + 1, engine =>
    match engine.takeDue thread cutoff with
    | (none, engine) => some (0, engine)
    | (some execution, engine) => do
      let engine ← engine.fire behaviour execution
      let (count, engine) ← runDue behaviour thread cutoff bound engine
      return (count + 1, engine)

/-- Runs every timer that is due when the call begins. -/
def runPending (behaviour : Behaviour ε) (bound : Nat) (thread : ThreadId)
    (engine : Engine ε) : Option (Nat × Engine ε) :=
  runDue behaviour thread engine.context.now bound engine

def leave (engine : Engine ε) (worker : ThreadId) : Engine ε :=
  { engine with scheduler := engine.scheduler.leave worker }.note .debug
    "[Timer] worker exiting"

/-- The worker, if there is one, runs until it has to sleep or to leave. -/
def runWorker (behaviour : Behaviour ε) : Nat → Engine ε → Option (Engine ε)
  | 0, _ => none
  | bound + 1, engine =>
    match engine.scheduler.worker with
    | none => some engine
    | some worker =>
      let (move, taken) := engine.scheduler.turn worker engine.context.now
      let engine := engine.afterTaking taken
      match move with
      | .leave => some (engine.leave worker)
      | .sleep _ => some engine
      | .run execution => do
        let engine ← engine.fire behaviour execution
        runWorker behaviour bound engine

inductive StartFault where
  /-- The thread is a worker that was told to leave, and would wait for itself. -/
  | ownWorker
  | noThread
deriving DecidableEq

def StartFault.message : StartFault → String
  | ownWorker => "cannot restart the timer scheduler from its own stopping worker"
  | noThread => "failed to spawn timer worker thread"

/-- Lets a worker that has to leave do so. -/
def awaitWorker (engine : Engine ε) : Engine ε :=
  let waiting := engine.note .debug "[Timer] waiting for the previous worker to exit"
  match engine.scheduler.worker with
  | none => waiting
  | some worker => waiting.leave worker

/-- Starts the worker on a system that has a thread for it.  A worker that has to
leave does so first. -/
def start (engine : Engine ε) (thread : ThreadId) :
    Except StartFault Unit × Engine ε :=
  let ready := match engine.scheduler.start thread true with
    | (.wait, _) => engine.awaitWorker
    | _ => engine
  match ready.scheduler.start thread true with
  | (.spawned _, scheduler) =>
    (.ok (), { ready with scheduler }.note .debug "[Timer] worker started")
  | (.alreadyRunning, _) | (.wait, _) => (.ok (), ready)
  | (.ownWorker, _) => (.error .ownWorker, ready)
  | (.refused, scheduler) => (.error .noThread, { ready with scheduler })

/-- Stops the worker, and waits until it has left unless the thread is the worker. -/
def stop (engine : Engine ε) (thread : ThreadId) : Engine ε :=
  let (joinable, scheduler) := engine.scheduler.requestStop
  let engine := { engine with scheduler }
  match joinable with
  | none => engine
  | some worker =>
    if worker = thread then
      engine.note .debug "[Timer] stop requested from the worker thread"
    else if scheduler.worker = some worker then
      engine.leave worker
    else
      engine

def close (engine : Engine ε) (thread : ThreadId) : Engine ε :=
  let engine := engine.stop thread
  { engine with scheduler := engine.scheduler.close }

end Engine

end TimeSync
