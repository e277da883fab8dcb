import TimeSync.Scheduler.Queue

/-!
# The scheduler

A scheduler holds every timer that was ever registered, the queue of those that
wait and the executions in progress.  Each operation here is one step that
nothing else can interrupt: an execution begins with `takeDue`, which takes its
timer from the queue, and ends with `settle`, and any steps of any thread may
come between the two.
-/

namespace TimeSync

/-- Threads are numbered; the one that has made the scheduler is zero. -/
abbrev ThreadId := Nat

/-- A timer whose callback is being run by a thread. -/
@[ext]
structure Execution where
  thread : ThreadId
  timer : TimerId
  /-- The deadline that it was taken at. -/
  dueAt : Instant
deriving DecidableEq

@[ext]
structure Scheduler where
  timers : List Timer := []
  queue : List QueueKey := []
  /-- The executions in progress, the one that began last first. -/
  executions : List Execution := []
  shutdown : Bool := false
  /-- The thread inside the worker's loop. -/
  worker : Option ThreadId := none
  /-- The worker that nobody has begun to wait for. -/
  joinable : Option ThreadId := none
  /-- The number of the last thread that was made. -/
  lastThread : ThreadId := 0
  /-- Whether only the handles to its timers are left. -/
  closed : Bool := false
deriving DecidableEq

namespace Scheduler

def timer? (scheduler : Scheduler) (id : TimerId) : Option Timer :=
  scheduler.timers[id]?

def status? (scheduler : Scheduler) (id : TimerId) : Option Timer.Status :=
  (scheduler.timer? id).map Timer.status

def modify (scheduler : Scheduler) (id : TimerId) (change : Timer → Timer) :
    Scheduler :=
  { scheduler with timers := scheduler.timers.modify id change }

def pendingCount (scheduler : Scheduler) : Nat := scheduler.queue.length

/-- The timer whose callback a thread is running, the innermost if there are more. -/
def current (scheduler : Scheduler) (thread : ThreadId) : Option TimerId :=
  (scheduler.executions.find? fun execution => execution.thread = thread).map
    Execution.timer

def register (scheduler : Scheduler) (first : FirstFire) (period : Option Duration)
    (now : Instant) : TimerId × Scheduler :=
  let id := scheduler.timers.length
  let deadline := first.resolve now
  (id,
    { scheduler with
      timers :=
        scheduler.timers ++ [.waiting deadline (period.map Timer.clampPeriod)]
      queue := QueueKey.insert ⟨deadline, id⟩ scheduler.queue })

structure Taken where
  /-- Timers that were queued though they did not wait. -/
  dropped : List TimerId
  execution : Option Execution
  scheduler : Scheduler

def enter (scheduler : Scheduler) (execution : Execution) : Scheduler :=
  { scheduler.modify execution.timer fun timer => { timer with status := .running }
    with executions := execution :: scheduler.executions }

def takeFrom (scheduler : Scheduler) (thread : ThreadId) (now : Instant) :
    List QueueKey → Taken
  | [] => ⟨[], none, { scheduler with queue := [] }⟩
  | key :: rest =>
    if now < key.dueAt then
      ⟨[], none, { scheduler with queue := key :: rest }⟩
    else if scheduler.status? key.timer = some .pending then
      let execution : Execution := ⟨thread, key.timer, key.dueAt⟩
      ⟨[], some execution, { scheduler with queue := rest }.enter execution⟩
    else
      let taken := takeFrom scheduler thread now rest
      { taken with dropped := key.timer :: taken.dropped }

/-- Takes the timer with the earliest deadline, if it is due at `now`, and begins
its execution on `thread`. -/
def takeDue (scheduler : Scheduler) (thread : ThreadId) (now : Instant) : Taken :=
  takeFrom scheduler thread now scheduler.queue

def settle (scheduler : Scheduler) (execution : Execution) (now : Instant) :
    Scheduler :=
  match scheduler.timer? execution.timer with
  | none => scheduler
  | some timer =>
    let timer := timer.afterRun now
    { scheduler.modify execution.timer fun _ => timer with
      queue :=
        if timer.status = .pending then
          QueueKey.insert ⟨timer.fireAt, execution.timer⟩ scheduler.queue
        else
          scheduler.queue
      executions := scheduler.executions.erase execution }

/-- Cancels a timer: at once if it waits, after its run if it is running.  Says
whether there was anything to cancel. -/
def cancel (scheduler : Scheduler) (id : TimerId) : Bool × Scheduler :=
  match scheduler.timer? id with
  | none => (false, scheduler)
  | some timer =>
    match timer.status with
    | .pending =>
      (true,
        { scheduler.modify id fun timer =>
            { timer with status := .cancelled, cancelRequested := true }
          with queue := QueueKey.remove ⟨timer.fireAt, id⟩ scheduler.queue })
    | .running =>
      (true, scheduler.modify id fun timer => { timer with cancelRequested := true })
    | .cancelled | .completed => (false, scheduler)

/-- Cancels a timer of which only the handle is left.  No lock is left either that
would hold between the look at the status and its change: here they are one step, so
that one such call follows another, but where two of them overlap both may find the
timer live and answer `true`. -/
def cancelDetached (scheduler : Scheduler) (id : TimerId) : Bool × Scheduler :=
  match scheduler.timer? id with
  | none => (false, scheduler)
  | some timer =>
    let live := timer.status = .pending ∨ timer.status = .running
    (live,
      scheduler.modify id fun timer =>
        { timer with
          cancelRequested := true
          status := if live then .cancelled else timer.status })

def cancelHandle (scheduler : Scheduler) (id : TimerId) : Bool × Scheduler :=
  if scheduler.closed then scheduler.cancelDetached id else scheduler.cancel id

/-- What a thread that wants the worker to run finds out. -/
inductive StartAnswer where
  | spawned (worker : ThreadId)
  | refused
  | alreadyRunning
  /-- The thread is the worker itself and has to leave its loop first. -/
  | ownWorker
  /-- The last worker has not left its loop yet. -/
  | wait
deriving DecidableEq

/-- One attempt to start the worker; `granted` says whether the system has a thread
for it. -/
def start (scheduler : Scheduler) (thread : ThreadId) (granted : Bool) :
    StartAnswer × Scheduler :=
  match scheduler.worker with
  | none =>
    if granted then
      let worker := scheduler.lastThread + 1
      (.spawned worker,
        { scheduler with
          shutdown := false
          worker := some worker
          joinable := some worker
          lastThread := worker })
    else
      (.refused, { scheduler with shutdown := false })
  | some worker =>
    if scheduler.shutdown = false then
      (.alreadyRunning, scheduler)
    else if worker = thread then
      (.ownWorker, scheduler)
    else
      (.wait, scheduler)

inductive WorkerMove where
  | run (execution : Execution)
  /-- Sleeps, until an instant at the latest if one is given. -/
  | sleep (wakeAt : Option Instant)
  | leave
deriving DecidableEq

/-- One turn of the worker's loop, with the clock at `now`. -/
def turn (scheduler : Scheduler) (worker : ThreadId) (now : Instant) :
    WorkerMove × Taken :=
  if scheduler.shutdown then
    (.leave, ⟨[], none, scheduler⟩)
  else
    let taken := scheduler.takeDue worker now
    match taken.execution with
    | some execution => (.run execution, taken)
    | none => (.sleep (taken.scheduler.queue.head?.map QueueKey.dueAt), taken)

/-- Tells the worker to leave its loop; gives the worker that can be waited for. -/
def requestStop (scheduler : Scheduler) : Option ThreadId × Scheduler :=
  (scheduler.joinable, { scheduler with shutdown := true, joinable := none })

def leave (scheduler : Scheduler) (thread : ThreadId) : Scheduler :=
  if scheduler.worker = some thread then
    { scheduler with worker := none }
  else
    scheduler

def isRunning (scheduler : Scheduler) : Bool :=
  scheduler.worker.isSome ∧ scheduler.shutdown = false

/-- The scheduler is gone, and with it the queue. -/
def close (scheduler : Scheduler) : Scheduler :=
  { scheduler with queue := [], closed := true }

end Scheduler

end TimeSync
