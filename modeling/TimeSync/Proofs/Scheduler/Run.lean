import Mathlib
import TimeSync.Scheduler.Engine

/-!
# Runs of a scheduler

A `Step` is one operation that nothing else interrupts, made by any thread with
the clock at any reading.  A callback lies between the step that takes its timer
and the step that settles the execution, so the steps of other threads, and those
that the callback makes itself, come between these two in any order.  A `Run` is
any finite sequence of steps, listed by what each of them shows.
-/

namespace TimeSync.Scheduler

/-- The executions of a thread, the innermost first. -/
def stack (scheduler : Scheduler) (thread : ThreadId) : List Execution :=
  scheduler.executions.filter fun execution => execution.thread = thread

def executionsOf (scheduler : Scheduler) (id : TimerId) : List Execution :=
  scheduler.executions.filter fun execution => execution.timer = id

theorem mem_executions_of_stack {scheduler : Scheduler} {thread : ThreadId}
    {execution : Execution} {rest : List Execution}
    (innermost : scheduler.stack thread = execution :: rest) :
    execution ∈ scheduler.executions ∧ execution.thread = thread := by
  have member : execution ∈ scheduler.stack thread := by
    rw [innermost]
    exact List.mem_cons_self
  simpa [stack] using member

theorem mem_executionsOf_iff {scheduler : Scheduler} {id : TimerId}
    {execution : Execution} :
    execution ∈ scheduler.executionsOf id ↔
      execution ∈ scheduler.executions ∧ execution.timer = id := by
  simp [executionsOf]

inductive Event where
  | registered (timer : TimerId) (deadline : Instant)
  /-- An execution has begun, of a timer that was due at `now`. -/
  | taken (execution : Execution) (now : Instant)
  /-- A thread has found no timer that is due. -/
  | idle (thread : ThreadId)
  /-- An execution is over whose callback ended in this way. -/
  | settled (execution : Execution) (ending : Ending) (now : Instant)
  | cancelled (timer : TimerId) (answer : Bool)
  | started (thread : ThreadId) (answer : StartAnswer)
  | stopRequested
  | left (worker : ThreadId)
  | closed

def Event.timer? : Event → Option TimerId
  | registered timer _ => some timer
  | taken execution _ => some execution.timer
  | settled execution _ _ => some execution.timer
  | cancelled timer _ => some timer
  | idle _ | started _ _ | stopRequested | left _ | closed => none

/-- Whether a step begins an execution of a timer. -/
def Event.Begins (event : Event) (id : TimerId) : Prop :=
  ∃ execution now, event = .taken execution now ∧ execution.timer = id

/-- A thread settles only its innermost execution, and the scheduler is given up
only when nothing runs any more; then the handles to its timers are left. -/
inductive Step : Scheduler → Event → Scheduler → Prop where
  | register {scheduler : Scheduler} (first : FirstFire) (period : Option Duration)
      (now : Instant) :
      scheduler.closed = false →
      Step scheduler
        (.registered (scheduler.register first period now).1 (first.resolve now))
        (scheduler.register first period now).2
  | take {scheduler : Scheduler} {execution : Execution} (thread : ThreadId)
      (now : Instant) :
      scheduler.closed = false →
      (scheduler.takeDue thread now).execution = some execution →
      Step scheduler (.taken execution now) (scheduler.takeDue thread now).scheduler
  | idle {scheduler : Scheduler} (thread : ThreadId) (now : Instant) :
      scheduler.closed = false →
      (scheduler.takeDue thread now).execution = none →
      Step scheduler (.idle thread) (scheduler.takeDue thread now).scheduler
  | settle {scheduler : Scheduler} {execution : Execution} {rest : List Execution}
      (ending : Ending) (now : Instant) :
      scheduler.stack execution.thread = execution :: rest →
      Step scheduler (.settled execution ending now) (scheduler.settle execution now)
  | cancel {scheduler : Scheduler} (id : TimerId) :
      Step scheduler (.cancelled id (scheduler.cancelHandle id).1)
        (scheduler.cancelHandle id).2
  | start {scheduler : Scheduler} (thread : ThreadId) (granted : Bool) :
      scheduler.closed = false →
      Step scheduler (.started thread (scheduler.start thread granted).1)
        (scheduler.start thread granted).2
  | requestStop {scheduler : Scheduler} :
      scheduler.closed = false →
      Step scheduler .stopRequested scheduler.requestStop.2
  | leave {scheduler : Scheduler} {worker : ThreadId} :
      scheduler.worker = some worker →
      scheduler.shutdown = true →
      Step scheduler (.left worker) (scheduler.leave worker)
  | close {scheduler : Scheduler} :
      scheduler.closed = false →
      scheduler.executions = [] →
      scheduler.worker = none →
      Step scheduler .closed scheduler.close

inductive Run : Scheduler → List Event → Scheduler → Prop where
  | nil {scheduler : Scheduler} : Run scheduler [] scheduler
  | cons {first middle last : Scheduler} {event : Event} {events : List Event} :
      Step first event middle → Run middle events last →
      Run first (event :: events) last

/-- What a new scheduler becomes by some run. -/
def Reachable (scheduler : Scheduler) : Prop := ∃ events, Run {} events scheduler

theorem Run.append {first middle last : Scheduler} {earlier later : List Event}
    (front : Run first earlier middle) (back : Run middle later last) :
    Run first (earlier ++ later) last := by
  induction front with
  | nil => exact back
  | cons step _ induction => exact .cons step (induction back)

theorem Run.single {first last : Scheduler} {event : Event}
    (step : Step first event last) : Run first [event] last :=
  .cons step .nil

theorem Reachable.run {first last : Scheduler} {events : List Event}
    (reachable : Reachable first) (run : Run first events last) : Reachable last := by
  obtain ⟨earlier, front⟩ := reachable
  exact ⟨earlier ++ events, front.append run⟩

@[simp] theorem timer?_modify (scheduler : Scheduler) (id : TimerId)
    (change : Timer → Timer) (other : TimerId) :
    (scheduler.modify id change).timer? other =
      if id = other then (scheduler.timer? other).map change
      else scheduler.timer? other := by
  simp only [modify, timer?, List.getElem?_modify]
  split <;> simp

theorem timer?_register (scheduler : Scheduler) (first : FirstFire)
    (period : Option Duration) (now : Instant) :
    (scheduler.register first period now).2.timer? scheduler.timers.length =
      some (.waiting (first.resolve now) (period.map Timer.clampPeriod)) := by
  change (scheduler.timers ++ [_])[scheduler.timers.length]? = _
  rw [List.getElem?_append_right (Nat.le_refl _), Nat.sub_self]
  rfl

theorem status?_eq_some_iff {scheduler : Scheduler} {id : TimerId}
    {status : Timer.Status} :
    scheduler.status? id = some status ↔
      ∃ timer, scheduler.timer? id = some timer ∧ timer.status = status := by
  simp [status?]

theorem settle_eq {scheduler : Scheduler} {execution : Execution} {timer : Timer}
    (found : scheduler.timer? execution.timer = some timer) (now : Instant) :
    scheduler.settle execution now =
      { scheduler.modify execution.timer fun _ => timer.afterRun now with
        queue :=
          if (timer.afterRun now).status = .pending then
            QueueKey.insert ⟨(timer.afterRun now).fireAt, execution.timer⟩
              scheduler.queue
          else
            scheduler.queue
        executions := scheduler.executions.erase execution } := by
  simp only [settle, found]

theorem stack_settle_self {scheduler : Scheduler} {execution : Execution} {timer : Timer}
    {rest : List Execution} (found : scheduler.timer? execution.timer = some timer)
    (innermost : scheduler.stack execution.thread = execution :: rest) (now : Instant) :
    (scheduler.settle execution now).stack execution.thread = rest := by
  rw [settle_eq found]
  calc
    (scheduler.executions.erase execution).filter
          (fun other => other.thread = execution.thread) =
        (scheduler.stack execution.thread).erase execution := List.erase_filter.symm
    _ = rest := by rw [innermost, List.erase_cons_head]

theorem cancel_of_pending {scheduler : Scheduler} {id : TimerId} {timer : Timer}
    (found : scheduler.timer? id = some timer) (waiting : timer.status = .pending) :
    scheduler.cancel id =
      (true,
        { scheduler.modify id fun timer =>
            { timer with status := .cancelled, cancelRequested := true }
          with queue := QueueKey.remove ⟨timer.fireAt, id⟩ scheduler.queue }) := by
  simp only [cancel, found, waiting]

theorem cancel_of_running {scheduler : Scheduler} {id : TimerId} {timer : Timer}
    (found : scheduler.timer? id = some timer) (running : timer.status = .running) :
    scheduler.cancel id =
      (true, scheduler.modify id fun timer => { timer with cancelRequested := true }) := by
  simp only [cancel, found, running]

theorem cancel_of_over {scheduler : Scheduler} {id : TimerId} {timer : Timer}
    (found : scheduler.timer? id = some timer)
    (finished : timer.status = .cancelled ∨ timer.status = .completed) :
    scheduler.cancel id = (false, scheduler) := by
  rcases finished with status | status <;> simp only [cancel, found, status]

theorem cancel_of_none {scheduler : Scheduler} {id : TimerId}
    (unknown : scheduler.timer? id = none) :
    scheduler.cancel id = (false, scheduler) := by
  simp only [cancel, unknown]

theorem cancelDetached_of_none {scheduler : Scheduler} {id : TimerId}
    (unknown : scheduler.timer? id = none) :
    scheduler.cancelDetached id = (false, scheduler) := by
  simp only [cancelDetached, unknown]

theorem timer?_cancelDetached {scheduler : Scheduler} {id : TimerId} {timer : Timer}
    (found : scheduler.timer? id = some timer) :
    (scheduler.cancelDetached id).2.timer? id =
      some { timer with
        cancelRequested := true
        status := if timer.status = .pending ∨ timer.status = .running then
          .cancelled else timer.status } := by
  simp only [cancelDetached, found, timer?_modify, if_pos, Option.map_some]

theorem cancelHandle_of_present {scheduler : Scheduler}
    (present : scheduler.closed = false) (id : TimerId) :
    scheduler.cancelHandle id = scheduler.cancel id := by
  simp [cancelHandle, present]

theorem cancelHandle_of_closed {scheduler : Scheduler}
    (closed : scheduler.closed = true) (id : TimerId) :
    scheduler.cancelHandle id = scheduler.cancelDetached id := by
  simp [cancelHandle, closed]

/-- A timer is the same in two schedulers, with the same places in the queue and
the same executions. -/
structure SameAt (id : TimerId) (before after : Scheduler) : Prop where
  timer : after.timer? id = before.timer? id
  queue : ∀ dueAt, ⟨dueAt, id⟩ ∈ after.queue ↔ ⟨dueAt, id⟩ ∈ before.queue
  executions : after.executionsOf id = before.executionsOf id

theorem SameAt.status {id : TimerId} {before after : Scheduler}
    (same : SameAt id before after) : after.status? id = before.status? id := by
  unfold status?
  rw [same.timer]

theorem sameAt_register {scheduler : Scheduler} (first : FirstFire)
    (period : Option Duration) (now : Instant) {id : TimerId}
    (different : id ≠ (scheduler.register first period now).1) :
    SameAt id scheduler (scheduler.register first period now).2 := by
  have notLast : id ≠ scheduler.timers.length := different
  constructor
  · simp only [register, timer?]
    rw [List.getElem?_append]
    split
    · rfl
    · rename_i beyond
      have behind : ¬ id - scheduler.timers.length = 0 := by
        intro none
        apply notLast
        exact Nat.le_antisymm (Nat.sub_eq_zero_iff_le.mp none) (Nat.le_of_not_lt beyond)
      rw [List.getElem?_eq_none (Nat.le_of_not_lt beyond)]
      exact List.getElem?_eq_none (Nat.pos_of_ne_zero behind)
  · intro dueAt
    simp only [register, QueueKey.mem_insert, QueueKey.mk.injEq]
    constructor
    · rintro (⟨_, same⟩ | member)
      · exact (notLast same).elim
      · exact member
    · exact Or.inr
  · rfl

theorem sameAt_enter {scheduler : Scheduler} {execution : Execution} {id : TimerId}
    (different : id ≠ execution.timer) :
    SameAt id scheduler (scheduler.enter execution) := by
  constructor
  · have other : ¬ execution.timer = id := Ne.symm different
    change (scheduler.modify execution.timer _).timer? id = _
    rw [timer?_modify, if_neg other]
  · intro dueAt
    rfl
  · have other : ¬ execution.timer = id := Ne.symm different
    simp [executionsOf, enter, modify, other]

theorem sameAt_settle {scheduler : Scheduler} {execution : Execution} (now : Instant)
    {id : TimerId} (different : id ≠ execution.timer) :
    SameAt id scheduler (scheduler.settle execution now) := by
  have other : ¬ execution.timer = id := Ne.symm different
  unfold settle
  split
  · exact ⟨rfl, fun _ => Iff.rfl, rfl⟩
  · constructor
    · change (scheduler.modify execution.timer _).timer? id = _
      rw [timer?_modify, if_neg other]
    · intro dueAt
      dsimp only
      split
      · simp [QueueKey.mem_insert, different]
      · rfl
    · simp only [executionsOf]
      rw [← List.erase_filter]
      apply List.erase_of_not_mem
      simp [other]

theorem sameAt_cancelHandle {scheduler : Scheduler} (target : TimerId) {id : TimerId}
    (different : id ≠ target) :
    SameAt id scheduler (scheduler.cancelHandle target).2 := by
  have other : ¬ target = id := Ne.symm different
  have unchanged : SameAt id scheduler scheduler := ⟨rfl, fun _ => Iff.rfl, rfl⟩
  have modified : ∀ change, SameAt id scheduler (scheduler.modify target change) := by
    intro change
    refine ⟨?_, fun _ => Iff.rfl, rfl⟩
    rw [timer?_modify, if_neg other]
  unfold cancelHandle cancelDetached cancel
  split
  · split
    · exact unchanged
    · exact modified _
  · split
    · exact unchanged
    · split
      · refine ⟨(modified _).timer, ?_, rfl⟩
        intro dueAt
        simp [QueueKey.mem_remove, different]
      · exact modified _
      · exact unchanged
      · exact unchanged

end TimeSync.Scheduler
