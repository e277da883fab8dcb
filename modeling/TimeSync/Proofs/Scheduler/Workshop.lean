import Mathlib.Logic.Function.Basic
import TimeSync.Simulation.Timers

/-!
# An engine in the hands of several threads

A `Workshop` is an engine together with what each thread is in the middle of: running what
is due, in a callback, or in the worker's loop.  A `Call` is one thing that a thread does
without anybody else coming between, and the calls of different threads follow each other
in any order; what a callback does are the calls between its beginning and its end.  All
that an engine does by itself, with scripted callbacks inside callbacks, is made of such
calls.
-/

namespace TimeSync

namespace Context

variable {ε δ : Type}

def clocks (context : Context ε) : Instant × Int × CpuClock :=
  (context.now, context.wall, context.cpu)

theorem now_of_clocks {context : Context ε} {other : Context δ}
    (same : context.clocks = other.clocks) : context.now = other.now :=
  congrArg Prod.fst same

theorem cpuSeconds_of_clocks {context : Context ε} {other : Context δ}
    (same : context.clocks = other.clocks) : context.cpuSeconds.1 = other.cpuSeconds.1 := by
  have cpu : context.cpu = other.cpu := congrArg (fun shown => shown.2.2) same
  unfold cpuSeconds
  rw [cpu]
  split <;> rfl

structure Noted (before after : Context ε) : Prop where
  clocks : after.clocks = before.clocks
  env : after.env = before.env

theorem Noted.refl (context : Context ε) : Noted context context := ⟨rfl, rfl⟩

theorem Noted.trans {first middle last : Context ε} (earlier : Noted first middle)
    (later : Noted middle last) : Noted first last :=
  ⟨later.clocks.trans earlier.clocks, later.env.trans earlier.env⟩

theorem noted_note (context : Context ε) (level : Level) (text : String) :
    Noted context (context.note level text) := ⟨rfl, rfl⟩

theorem noted_cpuSeconds (context : Context ε) : Noted context context.cpuSeconds.2 := by
  unfold cpuSeconds
  split
  · exact noted_note ..
  · exact .refl context

theorem Noted.clocks_eq {context after : Context ε} {other otherAfter : Context δ}
    (noted : Noted context after) (otherNoted : Noted other otherAfter)
    (same : context.clocks = other.clocks) : after.clocks = otherAfter.clocks :=
  noted.clocks.trans (same.trans otherNoted.clocks.symm)

end Context

open Context (Noted)

namespace ProcessorWatch

variable {ε δ : Type}

theorem noted_begin (watch : ProcessorWatch) (context : Context ε) :
    Noted context (watch.begin context).2 :=
  context.noted_cpuSeconds

theorem noted_finish (watch : ProcessorWatch) (context : Context ε) :
    Noted context (watch.finish context).2 := by
  unfold finish
  split
  · exact context.noted_cpuSeconds
  · exact .refl context

theorem noted_elapsed (watch : ProcessorWatch) (context : Context ε) :
    Noted context (watch.elapsed context).2 := by
  unfold elapsed
  split
  · exact context.noted_cpuSeconds
  · exact .refl context

theorem begin_of_clocks (watch : ProcessorWatch) {context : Context ε} {other : Context δ}
    (same : context.clocks = other.clocks) :
    (watch.begin context).1 = (watch.begin other).1 :=
  congrArg watch.startAt (Context.cpuSeconds_of_clocks same)

end ProcessorWatch

/-- Where failures are reported, and how to read there what has been reported.  A report
leaves the clocks alone. -/
structure Sink (ε : Type) where
  tell : Failure → Context ε → Context ε
  told : ε → List Failure
  clocksTell : ∀ failure context, (tell failure context).clocks = context.clocks
  toldTell : ∀ failure context,
    told (tell failure context).env = told context.env ++ [failure]

namespace Engine

variable {ε : Type}

/-- The engine at the moment at which a callback begins. -/
def announce (execution : Execution) (engine : Engine ε) : ProcessorWatch × Engine ε :=
  let number := execution.timer.number
  let late := (engine.context.now.since execution.dueAt).text
  let context := engine.context.note .trace
    s!"[Timer] #{number} firing {late} after deadline"
  let (watch, context) := ({} : ProcessorWatch).begin context
  (watch, { engine with context })

/-- The surroundings at the moment at which a callback has returned. -/
def afterCallback (execution : Execution) (watch : ProcessorWatch) (context : Context ε) :
    Context ε :=
  let number := execution.timer.number
  let (watch, context) := watch.finish context
  let (seconds, context) := watch.elapsed context
  let used := Binary64.thousandths (seconds * 1000.0)
  context.note .trace s!"[Timer] #{number} callback used {used} ms CPU"

/-- The engine after a callback has returned and its failure, if there is one, has been
reported. -/
def report (tell : Failure → Context ε → Context ε) (execution : Execution)
    (watch : ProcessorWatch) (ending : Ending) (engine : Engine ε) : Engine ε :=
  let context := afterCallback execution watch engine.context
  { engine with
    context := match ending.failure? execution.timer with
      | none => context
      | some failure => tell failure context }

theorem fire_eq (behaviour : Behaviour ε) (execution : Execution) (engine : Engine ε) :
    engine.fire behaviour execution = (do
      let (watch, engine) := engine.announce execution
      let (ending, engine) ← behaviour.call execution.thread execution.timer engine
      return (engine.report behaviour.sink execution watch ending).settle execution) := rfl

theorem fire_eq_some_iff {behaviour : Behaviour ε} {execution : Execution}
    {engine after : Engine ε} :
    engine.fire behaviour execution = some after ↔
      ∃ ending called, behaviour.call execution.thread execution.timer
          (engine.announce execution).2 = some (ending, called) ∧
        (called.report behaviour.sink execution (engine.announce execution).1
          ending).settle execution = after := by
  rw [fire_eq]
  simp only [Option.bind_eq_bind, Option.bind_eq_some_iff, Option.pure_def, Option.some.injEq,
    Prod.exists]

theorem fire_of_call {behaviour : Behaviour ε} {execution : Execution}
    {engine called : Engine ε} {ending : Ending}
    (returned : behaviour.call execution.thread execution.timer
      (engine.announce execution).2 = some (ending, called)) :
    engine.fire behaviour execution = some
      ((called.report behaviour.sink execution (engine.announce execution).1 ending).settle
        execution) :=
  fire_eq_some_iff.mpr ⟨ending, called, returned, rfl⟩

theorem noted_register (engine : Engine ε) (first : FirstFire) (period : Option Duration) :
    Noted engine.context (engine.register first period).2.context := by
  unfold register
  cases period with
  | none => exact Context.noted_note ..
  | some period =>
    dsimp only
    split
    · exact (Context.noted_note ..).trans (Context.noted_note ..)
    · exact Context.noted_note ..

theorem scheduler_register (engine : Engine ε) (first : FirstFire)
    (period : Option Duration) :
    (engine.register first period).2.scheduler =
      (engine.scheduler.register first period engine.context.now).2 := by
  unfold register
  cases period with
  | none => rfl
  | some period =>
    dsimp only
    split <;> rfl

theorem noted_afterTaking (engine : Engine ε) (taken : Scheduler.Taken) :
    Noted engine.context (engine.afterTaking taken).context := by
  unfold afterTaking
  dsimp only
  generalize engine.context = context
  induction taken.dropped generalizing context with
  | nil => exact .refl context
  | cons id dropped induction => exact (Context.noted_note ..).trans (induction _)

theorem noted_announce (execution : Execution) (engine : Engine ε) :
    Noted engine.context (engine.announce execution).2.context :=
  (Context.noted_note ..).trans (ProcessorWatch.noted_begin {} _)

theorem noted_afterCallback (execution : Execution) (watch : ProcessorWatch)
    (context : Context ε) : Noted context (afterCallback execution watch context) :=
  (watch.noted_finish context).trans
    ((ProcessorWatch.noted_elapsed _ _).trans (Context.noted_note ..))

theorem now_announce (execution : Execution) (engine : Engine ε) :
    (engine.announce execution).2.context.now = engine.context.now :=
  Context.now_of_clocks (noted_announce execution engine).clocks

theorem now_report {tell : Failure → Context ε → Context ε}
    (still : ∀ failure context, (tell failure context).now = context.now)
    (execution : Execution) (watch : ProcessorWatch) (ending : Ending) (engine : Engine ε) :
    (engine.report tell execution watch ending).context.now = engine.context.now := by
  rw [← Context.now_of_clocks (noted_afterCallback execution watch engine.context).clocks]
  unfold report
  dsimp only
  split
  · rfl
  · exact still ..

theorem scheduler_settle (engine : Engine ε) (execution : Execution) :
    (engine.settle execution).scheduler =
      engine.scheduler.settle execution engine.context.now := by
  unfold settle
  dsimp only
  split
  · rfl
  · split <;> rfl

theorem noted_settle (engine : Engine ε) (execution : Execution) :
    Noted engine.context (engine.settle execution).context := by
  unfold settle
  dsimp only
  split
  · exact .refl _
  · split
    · exact Context.noted_note ..
    · exact .refl _

theorem clocks_report (sink : Sink ε) (execution : Execution) (watch : ProcessorWatch)
    (ending : Ending) (engine : Engine ε) :
    (engine.report sink.tell execution watch ending).context.clocks =
      engine.context.clocks := by
  have noted := noted_afterCallback execution watch engine.context
  unfold report
  dsimp only
  split
  · exact noted.clocks
  · exact (sink.clocksTell ..).trans noted.clocks

theorem told_report (sink : Sink ε) (execution : Execution) (watch : ProcessorWatch)
    (ending : Ending) (engine : Engine ε) :
    sink.told (engine.report sink.tell execution watch ending).context.env =
      sink.told engine.context.env ++ (ending.failure? execution.timer).toList := by
  have noted := noted_afterCallback execution watch engine.context
  unfold report
  dsimp only
  cases ending.failure? execution.timer with
  | none => simp [noted.env]
  | some failure => simp [sink.toldTell, noted.env]

end Engine

/-- What a thread is in the middle of. -/
inductive Workshop.Task where
  /-- It runs what was due at a cutoff, and has begun to run that many timers. -/
  | pending (cutoff : Instant) (count : Nat)
  /-- It is at the head of the worker's loop. -/
  | loop
  /-- It has left the worker's loop, but is still in the scheduler's books. -/
  | leaving
  /-- It is in a callback. -/
  | callback (execution : Execution) (watch : ProcessorWatch)
  /-- The callback has returned, and its failure has been reported. -/
  | returned (execution : Execution)

structure Workshop (ε : Type) where
  engine : Engine ε
  /-- What each thread is in the middle of, the innermost first. -/
  tasks : ThreadId → List Workshop.Task := fun _ => []
  /-- The executions so far, in the order in which they began. -/
  begun : List Execution := []
  /-- The callbacks that have returned, in that order, each with the way it ended. -/
  ended : List (Execution × Ending) := []

inductive Workshop.Call {ε : Type} (sink : Sink ε) where
  | register (first : FirstFire) (period : Option Duration)
  | cancel (timer : TimerId)
  | inspect (timer : TimerId)
  | pendingCount
  | current (thread : ThreadId)
  /-- Something that has nothing to do with timers, and reports no failure.  It may take
  time or set clocks. -/
  | other (change : Context ε → Context ε)
      (quiet : ∀ context, sink.told (change context).env = sink.told context.env)
  /-- A thread begins to run what is due. -/
  | runPending (thread : ThreadId)
  /-- A thread that runs timers looks for the next one. -/
  | next (thread : ThreadId)
  /-- The callback that a thread is in returns or breaks off. -/
  | finish (thread : ThreadId) (ending : Ending)
  | settle (thread : ThreadId)
  | start (thread : ThreadId) (granted : Bool)
  | stop (thread : ThreadId)
  | leave (worker : ThreadId)
  /-- The scheduler goes, and nothing but the handles to its timers is left. -/
  | close

inductive Workshop.Answer where
  | registered (timer : TimerId)
  | cancelled (done : Bool)
  | shown (timer : Option Timer)
  | counted (timers : Nat)
  | current (timer : Option TimerId)
  | began (execution : Execution)
  | ran (timers : Nat)
  | moved (move : Scheduler.WorkerMove)
  | started (answer : Scheduler.StartAnswer)
  | stopped (worker : Option ThreadId)
  | done
deriving DecidableEq

namespace Workshop

variable {ε : Type}

/-- A workshop whose engine has a new scheduler; other threads are numbered up to
`outsiders`. -/
def new (outsiders : Nat) (context : Context ε) : Workshop ε :=
  { engine := { scheduler := { lastThread := outsiders }, context } }

/-- Whether a thread can use the engine as it likes: it is in a callback, or in nothing. -/
def free (shop : Workshop ε) (thread : ThreadId) : Bool :=
  match shop.tasks thread with
  | [] | .callback _ _ :: _ => true
  | _ => false

def withTasks (shop : Workshop ε) (thread : ThreadId) (tasks : List Task) : Workshop ε :=
  { shop with tasks := Function.update shop.tasks thread tasks }

/-- A thread begins the execution of a timer that it has taken, on top of other tasks. -/
def begin (shop : Workshop ε) (thread : ThreadId) (execution : Execution)
    (tasks : List Task) : Workshop ε :=
  let (watch, engine) := shop.engine.announce execution
  { shop with engine, begun := shop.begun ++ [execution] }.withTasks thread
    (.callback execution watch :: tasks)

/-- The worker begins what it has found to do in its loop. -/
def move (shop : Workshop ε) (worker : ThreadId) (rest : List Task) :
    Scheduler.WorkerMove → Workshop ε
  | .run execution => shop.begin worker execution (.loop :: rest)
  | .sleep _ => shop
  | .leave => shop.withTasks worker (.leaving :: rest)

/-- A thread looks for the next timer, or for what else it has to do in its loop. -/
def next (shop : Workshop ε) (thread : ThreadId) : Option (Answer × Workshop ε) :=
  match shop.tasks thread with
  | .pending cutoff count :: rest =>
    match shop.engine.takeDue thread cutoff with
    | (none, engine) => some (.ran count, { shop with engine }.withTasks thread rest)
    | (some execution, engine) =>
      some (.began execution,
        { shop with engine }.begin thread execution (.pending cutoff (count + 1) :: rest))
  | .loop :: rest =>
    let (move, taken) := shop.engine.scheduler.turn thread shop.engine.context.now
    some (.moved move,
      { shop with engine := shop.engine.afterTaking taken }.move thread rest move)
  | _ => none

def start (shop : Workshop ε) (thread : ThreadId) (granted : Bool) : Answer × Workshop ε :=
  let (answer, scheduler) := shop.engine.scheduler.start thread granted
  let engine := { shop.engine with scheduler }
  (.started answer, match answer with
    | .spawned worker =>
      { shop with engine := engine.note .debug "[Timer] worker started" }.withTasks worker
        [.loop]
    | .wait =>
      { shop with
        engine := engine.note .debug "[Timer] waiting for the previous worker to exit" }
    | _ => { shop with engine })

def stop (shop : Workshop ε) (thread : ThreadId) : Answer × Workshop ε :=
  let (worker, scheduler) := shop.engine.scheduler.requestStop
  let engine := { shop.engine with scheduler }
  (.stopped worker, { shop with
    engine := if worker = some thread then
      engine.note .debug "[Timer] stop requested from the worker thread"
    else
      engine })

/-- What a call answers and makes of a workshop, if it can be made there. -/
def step {sink : Sink ε} (shop : Workshop ε) : Call sink → Option (Answer × Workshop ε)
  | .register first period =>
    let (timer, engine) := shop.engine.register first period
    some (.registered timer, { shop with engine })
  | .cancel timer =>
    let (cancelled, engine) := shop.engine.cancel timer
    some (.cancelled cancelled, { shop with engine })
  | .inspect timer => some (.shown (shop.engine.scheduler.timer? timer), shop)
  | .pendingCount => some (.counted shop.engine.scheduler.pendingCount, shop)
  | .current thread => some (.current (shop.engine.scheduler.current thread), shop)
  | .other change _ =>
    some (.done,
      { shop with engine := { shop.engine with context := change shop.engine.context } })
  | .runPending thread =>
    if shop.free thread then
      some (.done, shop.withTasks thread
        (.pending shop.engine.context.now 0 :: shop.tasks thread))
    else
      none
  | .next thread => shop.next thread
  | .finish thread ending =>
    match shop.tasks thread with
    | .callback execution watch :: rest =>
      some (.done,
        { shop with
          engine := shop.engine.report sink.tell execution watch ending
          ended := shop.ended ++ [(execution, ending)] }.withTasks thread
            (.returned execution :: rest))
    | _ => none
  | .settle thread =>
    match shop.tasks thread with
    | .returned execution :: rest =>
      some (.done,
        { shop with engine := shop.engine.settle execution }.withTasks thread rest)
    | _ => none
  | .start thread granted =>
    if shop.free thread then some (shop.start thread granted) else none
  | .stop thread => if shop.free thread then some (shop.stop thread) else none
  | .leave worker =>
    match shop.tasks worker with
    | .leaving :: rest =>
      some (.done, { shop with engine := shop.engine.leave worker }.withTasks worker rest)
    | _ => none
  | .close =>
    if shop.engine.scheduler.executions = [] then
      some (.done, { shop with
        engine := { shop.engine with scheduler := shop.engine.scheduler.close } })
    else
      none

/-- Makes one call after the other.  The trace has what each of them answered, and the
scheduler as it was then. -/
def run {sink : Sink ε} :
    List (Call sink) → Workshop ε → Option (List (Answer × Scheduler) × Workshop ε)
  | [], shop => some ([], shop)
  | call :: calls, shop => do
    let (answer, shop) ← shop.step call
    let (trace, last) ← run calls shop
    return ((answer, shop.engine.scheduler) :: trace, last)

end Workshop

end TimeSync
