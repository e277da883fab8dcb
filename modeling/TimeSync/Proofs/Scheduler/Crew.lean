import TimeSync.Proofs.Scheduler.Coupling

/-!
# A scheduler among threads

A `Crew` is a scheduler together with the threads that use it: any number of threads from
outside, and those that were made for the worker's loop, each with the `Stage` that it
has reached.  What is done under the lock of the queue is one step, and the steps of
different threads follow each other in any order.  A thread whose callback runs can do
all that a thread from outside can.  A thread that has to wait for another one is not free
until then; whoever sleeps may wake for no reason.
-/

namespace TimeSync

namespace Scheduler

/-- What the worker and those that start and stop it read is the same in two schedulers. -/
structure SameWorker (before after : Scheduler) : Prop where
  worker : after.worker = before.worker
  shutdown : after.shutdown = before.shutdown
  joinable : after.joinable = before.joinable
  lastThread : after.lastThread = before.lastThread
  closed : after.closed = before.closed

theorem SameWorker.refl (scheduler : Scheduler) : SameWorker scheduler scheduler :=
  ⟨rfl, rfl, rfl, rfl, rfl⟩

theorem Takes.sameWorker {before after : Scheduler} {execution : Execution} {now : Instant}
    (takes : Takes before execution now after) : SameWorker before after := by
  obtain ⟨rest, -, rfl⟩ := takes.queue
  exact ⟨rfl, rfl, rfl, rfl, rfl⟩

theorem Takes.stack {before after : Scheduler} {execution : Execution} {now : Instant}
    (takes : Takes before execution now after) {thread : ThreadId}
    (other : thread ≠ execution.thread) : after.stack thread = before.stack thread := by
  obtain ⟨rest, -, rfl⟩ := takes.queue
  simp [Scheduler.stack, enter, modify, Ne.symm other]

theorem sameWorker_settle (scheduler : Scheduler) (execution : Execution) (now : Instant) :
    SameWorker scheduler (scheduler.settle execution now) := by
  unfold settle
  split <;> exact ⟨rfl, rfl, rfl, rfl, rfl⟩

theorem stack_settle (scheduler : Scheduler) {execution : Execution} (now : Instant)
    {thread : ThreadId} (other : thread ≠ execution.thread) :
    (scheduler.settle execution now).stack thread = scheduler.stack thread := by
  unfold settle
  split
  · rfl
  · simp only [Scheduler.stack]
    rw [← List.erase_filter]
    apply List.erase_of_not_mem
    simp [Ne.symm other]

theorem sameWorker_cancelHandle (scheduler : Scheduler) (id : TimerId) :
    SameWorker scheduler (scheduler.cancelHandle id).2 := by
  unfold cancelHandle cancelDetached cancel
  split <;> split
  · exact .refl scheduler
  · exact ⟨rfl, rfl, rfl, rfl, rfl⟩
  · exact .refl scheduler
  · split <;> exact ⟨rfl, rfl, rfl, rfl, rfl⟩

theorem start_cases (scheduler : Scheduler) (thread : ThreadId) (granted : Bool) :
    (scheduler.worker = none ∧ granted = true ∧
      scheduler.start thread granted = (.spawned (scheduler.lastThread + 1),
        { scheduler with
          shutdown := false
          worker := some (scheduler.lastThread + 1)
          joinable := some (scheduler.lastThread + 1)
          lastThread := scheduler.lastThread + 1 })) ∨
    (scheduler.worker = none ∧ granted = false ∧
      scheduler.start thread granted = (.refused, { scheduler with shutdown := false })) ∨
    (scheduler.worker.isSome ∧ scheduler.shutdown = false ∧
      scheduler.start thread granted = (.alreadyRunning, scheduler)) ∨
    (scheduler.worker = some thread ∧ scheduler.shutdown = true ∧
      scheduler.start thread granted = (.ownWorker, scheduler)) ∨
    (∃ worker, scheduler.worker = some worker ∧ worker ≠ thread ∧
      scheduler.shutdown = true ∧ scheduler.start thread granted = (.wait, scheduler)) := by
  unfold start
  cases working : scheduler.worker with
  | none =>
    cases granted with
    | true => exact .inl ⟨rfl, rfl, rfl⟩
    | false => exact .inr (.inl ⟨rfl, rfl, rfl⟩)
  | some worker =>
    cases told : scheduler.shutdown with
    | false => exact .inr (.inr (.inl ⟨rfl, rfl, rfl⟩))
    | true =>
      by_cases own : worker = thread
      · subst own
        exact .inr (.inr (.inr (.inl ⟨rfl, rfl, by simp⟩)))
      · exact .inr (.inr (.inr (.inr ⟨worker, rfl, own, rfl, by simp [own]⟩)))

theorem turn_cases (scheduler : Scheduler) (worker : ThreadId) (now : Instant) :
    (scheduler.shutdown = true ∧ (scheduler.turn worker now).1 = .leave ∧
      (scheduler.turn worker now).2.scheduler = scheduler) ∨
    (scheduler.shutdown = false ∧
      (scheduler.turn worker now).2.scheduler = (scheduler.takeDue worker now).scheduler ∧
      ((∃ execution, (scheduler.takeDue worker now).execution = some execution ∧
          (scheduler.turn worker now).1 = .run execution) ∨
        (∃ wakeAt, (scheduler.takeDue worker now).execution = none ∧
          (scheduler.turn worker now).1 = .sleep wakeAt))) := by
  unfold turn
  cases told : scheduler.shutdown with
  | true => exact .inl ⟨rfl, rfl, rfl⟩
  | false =>
    refine .inr ⟨rfl, ?_⟩
    cases found : (scheduler.takeDue worker now).execution with
    | some execution => simp [found]
    | none => simp [found]

theorem Coupled.sameWorker_turn {scheduler : Scheduler} (coupled : scheduler.Coupled)
    (present : scheduler.closed = false) (worker : ThreadId) (now : Instant) :
    SameWorker scheduler (scheduler.turn worker now).2.scheduler := by
  rcases scheduler.turn_cases worker now with
    ⟨-, -, same⟩ | ⟨-, same, ⟨execution, found, -⟩ | ⟨wakeAt, none, -⟩⟩
  · rw [same]
    exact .refl scheduler
  · rw [same]
    exact (coupled.takes present found).2.sameWorker
  · rw [same, coupled.takeDue_eq_self present none]
    exact .refl scheduler

/-- Whether a step is an operation on timers, made by a thread. -/
def Event.MadeBy (event : Event) (thread : ThreadId) : Prop :=
  match event with
  | .registered _ _ | .cancelled _ _ => True
  | .taken execution _ | .settled execution _ _ => execution.thread = thread
  | .idle other => other = thread
  | .started _ _ | .stopRequested | .left _ | .closed => False

/-- How many wake-up calls a step on timers sends to the worker. -/
def Event.signals (before after : Scheduler) : Event → Nat
  | .registered _ _ => 1
  | .settled execution _ _ =>
    if after.status? execution.timer = some .pending then 1 else 0
  | .cancelled timer _ => if before.status? timer = some .pending then 1 else 0
  | _ => 0

theorem Step.of_madeBy {before after : Scheduler} {event : Event} {thread : ThreadId}
    (step : Step before event after) (coupled : Coupled before)
    (made : event.MadeBy thread) :
    SameWorker before after ∧
      ∀ other, other ≠ thread → after.stack other = before.stack other := by
  cases step with
  | register first period now => exact ⟨⟨rfl, rfl, rfl, rfl, rfl⟩, fun _ _ => rfl⟩
  | take own now present found =>
    have takes := (coupled.takes present found).2
    cases made
    exact ⟨takes.sameWorker, fun _ different => takes.stack different⟩
  | idle own now present found =>
    rw [coupled.takeDue_eq_self present found]
    exact ⟨.refl before, fun _ _ => rfl⟩
  | settle ending now =>
    cases made
    exact ⟨sameWorker_settle before _ now, fun _ different => before.stack_settle now different⟩
  | cancel id =>
    refine ⟨before.sameWorker_cancelHandle id, fun other _ => ?_⟩
    unfold Scheduler.stack
    rw [(before.effects_cancelHandle id).1]
  | _ => cases made

end Scheduler

/-- How far a thread has come that was made for the worker's loop. -/
inductive Stage where
  /-- At the head of the loop, or in the callback of a timer that it has taken. -/
  | looping
  /-- Until an instant at the latest, if one is given. -/
  | asleep (wakeAt : Option Instant)
  /-- Out of the loop, but still in the scheduler's books. -/
  | leaving
  | gone
deriving DecidableEq

/-- What a move makes of the worker. -/
def Scheduler.WorkerMove.stage : Scheduler.WorkerMove → Stage
  | run _ => .looping
  | sleep wakeAt => .asleep wakeAt
  | leave => .leaving

/-- A scheduler with the threads that use it. -/
structure Crew where
  scheduler : Scheduler
  /-- The threads that were made for the worker's loop. -/
  stage : ThreadId → Option Stage := fun _ => none
  /-- Threads that have to wait, before they can start a worker, for the last one to leave. -/
  starters : List ThreadId := []
  /-- Threads that have stopped a worker and wait for its end, each with that worker. -/
  stoppers : List (ThreadId × ThreadId) := []
  /-- The wake-up calls on their way to the worker. -/
  signals : Nat := 0

namespace Crew

/-- A new scheduler in a program whose other threads are numbered up to `outsiders`. -/
def new (outsiders : Nat) : Crew := { scheduler := { lastThread := outsiders } }

/-- Whether a thread was made for the worker's loop and has not cleared its entry in the
scheduler's books. -/
def Working (crew : Crew) (thread : ThreadId) : Prop :=
  ∃ stage, crew.stage thread = some stage ∧ stage ≠ .gone

/-- Whether a thread can use the scheduler: it does not wait for another, and one that was
made for the worker's loop is in a callback. -/
structure Free (crew : Crew) (thread : ThreadId) : Prop where
  made : thread ≤ crew.scheduler.lastThread
  notStarting : thread ∉ crew.starters
  notStopping : ∀ worker, (thread, worker) ∉ crew.stoppers
  inCallback : ∀ stage, crew.stage thread = some stage →
    stage = .looping ∧ crew.scheduler.stack thread ≠ []

theorem Free.of_outside {crew : Crew} {thread : ThreadId}
    (made : thread ≤ crew.scheduler.lastThread) (notStarting : thread ∉ crew.starters)
    (notStopping : ∀ worker, (thread, worker) ∉ crew.stoppers)
    (outside : crew.stage thread = none) : crew.Free thread :=
  ⟨made, notStarting, notStopping, fun _ is => nomatch outside.symm.trans is⟩

theorem Free.of_callback {crew : Crew} {thread : ThreadId}
    (made : thread ≤ crew.scheduler.lastThread) (notStarting : thread ∉ crew.starters)
    (notStopping : thread ∉ crew.stoppers.map Prod.fst)
    (looping : crew.stage thread = some .looping) (executing : crew.scheduler.stack thread ≠ []) :
    crew.Free thread :=
  ⟨made, notStarting, fun _ waiting => notStopping (List.mem_map_of_mem waiting),
    fun _ is => ⟨Option.some.inj (is.symm.trans looping), executing⟩⟩

/-- What a thread has done in one step. -/
inductive Act where
  | operated (thread : ThreadId) (event : Scheduler.Event)
  | started (thread : ThreadId) (answer : Scheduler.StartAnswer)
  /-- A worker was told to leave; the thread waits for its end if there is one to wait for. -/
  | stopped (thread : ThreadId) (awaited : Option ThreadId)
  | joined (thread worker : ThreadId)
  | turned (worker : ThreadId) (move : Scheduler.WorkerMove)
  | woken (worker : ThreadId)
  /-- A wake-up call has arrived, at a worker if one was asleep. -/
  | signalled (worker : Option ThreadId)
  | left (worker : ThreadId)

def afterStart (crew : Crew) (thread : ThreadId) (granted : Bool) : Crew :=
  let (answer, scheduler) := crew.scheduler.start thread granted
  let others := crew.starters.filter (· ≠ thread)
  { crew with
    scheduler
    stage := match answer with
      | .spawned worker => Function.update crew.stage worker (some .looping)
      | _ => crew.stage
    starters := if answer = .wait then thread :: others else others }

/-- The worker that a thread has to wait for after it has told it to leave: the last one that
nobody waits for, unless that is the thread itself. -/
def awaited (crew : Crew) (thread : ThreadId) : Option ThreadId :=
  crew.scheduler.requestStop.1.filter (· ≠ thread)

def afterStop (crew : Crew) (thread : ThreadId) : Crew :=
  { crew with
    scheduler := crew.scheduler.requestStop.2
    stoppers := (crew.awaited thread).toList.map (Prod.mk thread) ++ crew.stoppers
    signals := crew.signals + 1 }

def afterTurn (crew : Crew) (worker : ThreadId) (now : Instant) : Crew :=
  let (move, taken) := crew.scheduler.turn worker now
  { crew with
    scheduler := taken.scheduler
    stage := Function.update crew.stage worker (some move.stage) }

inductive Step : Crew → Act → Crew → Prop where
  | operate {crew : Crew} {event : Scheduler.Event} {after : Scheduler} (thread : ThreadId) :
      crew.Free thread → event.MadeBy thread →
      Scheduler.Step crew.scheduler event after →
      Step crew (.operated thread event)
        { crew with
          scheduler := after
          signals := crew.signals + event.signals crew.scheduler after }
  | start {crew : Crew} (thread : ThreadId) (granted : Bool) :
      (crew.Free thread ∨ thread ∈ crew.starters) →
      Step crew (.started thread (crew.scheduler.start thread granted).1)
        (crew.afterStart thread granted)
  | stop {crew : Crew} (thread : ThreadId) :
      crew.Free thread →
      Step crew (.stopped thread (crew.awaited thread)) (crew.afterStop thread)
  | join {crew : Crew} (thread worker : ThreadId) :
      (thread, worker) ∈ crew.stoppers → crew.stage worker = some .gone →
      Step crew (.joined thread worker)
        { crew with stoppers := crew.stoppers.erase (thread, worker) }
  | turn {crew : Crew} (worker : ThreadId) (now : Instant) :
      crew.stage worker = some .looping → crew.scheduler.stack worker = [] →
      Step crew (.turned worker (crew.scheduler.turn worker now).1)
        (crew.afterTurn worker now)
  | wake {crew : Crew} {wakeAt : Option Instant} (worker : ThreadId) :
      crew.stage worker = some (.asleep wakeAt) →
      Step crew (.woken worker)
        { crew with stage := Function.update crew.stage worker (some .looping) }
  | signal {crew : Crew} {wakeAt : Option Instant} (worker : ThreadId) :
      0 < crew.signals → crew.stage worker = some (.asleep wakeAt) →
      Step crew (.signalled worker)
        { crew with
          stage := Function.update crew.stage worker (some .looping)
          signals := crew.signals - 1 }
  | signalNobody {crew : Crew} :
      0 < crew.signals → (∀ worker wakeAt, crew.stage worker ≠ some (.asleep wakeAt)) →
      Step crew (.signalled none) { crew with signals := crew.signals - 1 }
  | leave {crew : Crew} (worker : ThreadId) :
      crew.stage worker = some .leaving →
      Step crew (.left worker)
        { crew with
          scheduler := crew.scheduler.leave worker
          stage := Function.update crew.stage worker (some .gone) }

inductive Run : Crew → List Act → Crew → Prop where
  | nil {crew : Crew} : Run crew [] crew
  | cons {first middle last : Crew} {act : Act} {acts : List Act} :
      Step first act middle → Run middle acts last → Run first (act :: acts) last

end Crew

end TimeSync
