import TimeSync.Proofs.Scheduler.Cancellation
import TimeSync.Proofs.Scheduler.QueueStatus

/-!
# Runs on a clock

A `Timeline` is a run of a new scheduler together with a clock that never goes back:
the clock stands still at a step, and time passes between steps.  An execution ends
at the very reading from which the next deadline of its timer is worked out.  A call
that runs timers reads its cutoff once, when it begins, so a timer may be taken by a
cutoff that the clock has left behind, but never by one that it has still to reach.
-/

namespace TimeSync

namespace Timer

/-- A repeating timer is never made to wait for an instant before the end of its run. -/
theorem le_nextDeadline (phase : Instant) (period : Duration) (now : Instant) :
    now ≤ (nextDeadline phase period now).2 := by
  unfold nextDeadline
  split
  · exact Int.le_refl _
  · split
    · assumption
    · exact Int.le_refl _

theorem afterRun_of_pending {timer : Timer} {now : Instant}
    (again : (timer.afterRun now).status = .pending) :
    ∃ period, timer.period = some period ∧
      timer.afterRun now =
        { timer with
          status := .pending
          phase := (nextDeadline timer.phase period now).1
          fireAt := (nextDeadline timer.phase period now).2 } := by
  rw [status_afterRun] at again
  split at again
  · cases again
  · rename_i kept
    split at again
    · cases again
    · rename_i repeats
      obtain ⟨period, repeating⟩ := Option.ne_none_iff_exists'.mp repeats
      refine ⟨period, repeating, ?_⟩
      simp only [afterRun, if_neg kept, repeating]

theorem afterRun_of_not_pending {timer : Timer} {now : Instant}
    (finished : (timer.afterRun now).status ≠ .pending) :
    timer.afterRun now = { timer with status := (timer.afterRun now).status } := by
  unfold afterRun at finished ⊢
  split
  · rfl
  · rename_i kept
    rw [if_neg kept] at finished
    split
    · rfl
    · rename_i period repeating
      simp only [repeating] at finished
      exact (finished rfl).elim

end Timer

namespace Scheduler

def Event.Finishes (event : Event) (id : TimerId) : Prop :=
  ∃ execution ending now, event = .settled execution ending now ∧ execution.timer = id

theorem timer?_cancelHandle {scheduler : Scheduler} {id : TimerId} {timer : Timer}
    (found : scheduler.timer? id = some timer) :
    ∃ status asked, (status = timer.status ∨ status = .cancelled) ∧
      (status = .pending → asked = timer.cancelRequested) ∧
      (scheduler.cancelHandle id).2.timer? id =
        some { timer with status, cancelRequested := asked } := by
  cases closed : scheduler.closed with
  | true =>
    rw [cancelHandle_of_closed closed]
    refine ⟨_, true, ?_, ?_, timer?_cancelDetached found⟩
    · split
      · exact .inr rfl
      · exact .inl rfl
    · intro waiting
      split at waiting
      · cases waiting
      · rename_i idle
        exact (idle (.inl waiting)).elim
  | false =>
    rw [cancelHandle_of_present closed]
    cases status : timer.status with
    | pending =>
      refine ⟨.cancelled, true, .inr rfl, nofun, ?_⟩
      rw [cancel_of_pending found status]
      change (scheduler.modify id _).timer? id = _
      rw [timer?_modify, if_pos rfl, found]
      rfl
    | running =>
      refine ⟨.running, true, .inl rfl, nofun, ?_⟩
      rw [cancel_of_running found status, timer?_modify, if_pos rfl, found, ← status]
      rfl
    | cancelled =>
      refine ⟨.cancelled, timer.cancelRequested, .inl rfl, fun _ => rfl, ?_⟩
      rw [cancel_of_over found (.inl status), found, ← status]
    | completed =>
      refine ⟨.completed, timer.cancelRequested, .inl rfl, fun _ => rfl, ?_⟩
      rw [cancel_of_over found (.inr status), found, ← status]

theorem timer?_settle {scheduler : Scheduler} {execution : Execution} {timer : Timer}
    (found : scheduler.timer? execution.timer = some timer) (now : Instant) :
    (scheduler.settle execution now).timer? execution.timer =
      some (timer.afterRun now) := by
  rw [settle_eq found]
  change (scheduler.modify execution.timer _).timer? execution.timer = _
  rw [timer?_modify, if_pos rfl, found]
  rfl

theorem Takes.timer? {before after : Scheduler} {execution : Execution} {now : Instant}
    (takes : Takes before execution now after) {timer : Timer}
    (found : before.timer? execution.timer = some timer) :
    after.timer? execution.timer = some { timer with status := .running } := by
  obtain ⟨rest, _, rfl⟩ := takes.queue
  change (before.modify execution.timer _).timer? execution.timer = _
  rw [timer?_modify, if_pos rfl, found]
  rfl

theorem Takes.mem_queue {before after : Scheduler} {execution : Execution} {now : Instant}
    (takes : Takes before execution now after) :
    (⟨execution.dueAt, execution.timer⟩ : QueueKey) ∈ before.queue := by
  obtain ⟨rest, queue, _⟩ := takes.queue
  rw [queue]
  exact List.mem_cons_self

theorem Takes.queue_subset {before after : Scheduler} {execution : Execution} {now : Instant}
    (takes : Takes before execution now after) {key : QueueKey} (queued : key ∈ after.queue) :
    key ∈ before.queue := by
  obtain ⟨rest, queue, entered⟩ := takes.queue
  rw [entered] at queued
  rw [queue]
  exact List.mem_cons_of_mem _ queued

theorem Takes.waits {before after : Scheduler} {execution : Execution} {now : Instant}
    (takes : Takes before execution now after) (coupled : Coupled before)
    (present : before.closed = false) :
    ∃ timer, before.timer? execution.timer = some timer ∧ timer.status = .pending ∧
      timer.fireAt = execution.dueAt :=
  ((coupled.timers execution.timer).queued present execution.dueAt).mp takes.mem_queue

/-- A step begins or ends an execution of a timer, or leaves it as it is but for a mark
that it is cancelled, and then it does not wait. -/
theorem Step.timer_cases {before after : Scheduler} {event : Event} {id : TimerId}
    {timer : Timer} (step : Step before event after) (coupled : Coupled before)
    (found : before.timer? id = some timer) :
    (¬ event.Begins id ∧ ¬ event.Finishes id ∧
      ∃ status asked, (status = timer.status ∨ status = .cancelled) ∧
        (status = .pending → asked = timer.cancelRequested) ∧
        after.timer? id = some { timer with status, cancelRequested := asked }) ∨
    (∃ execution cutoff, event = .taken execution cutoff ∧ execution.timer = id ∧
      execution.dueAt = timer.fireAt ∧ timer.status = .pending ∧
      after.timer? id = some { timer with status := .running }) ∨
    (∃ execution ending now, event = .settled execution ending now ∧
      execution.timer = id ∧ timer.status = .running ∧
      after.timer? id = some (timer.afterRun now)) := by
  by_cases about : event.timer? = some id
  · cases step with
    | register first period now =>
      cases about
      have unknown : before.timer? before.timers.length = none :=
        List.getElem?_eq_none (Nat.le_refl _)
      cases unknown.symm.trans found
    | take thread cutoff present taken =>
      cases about
      obtain ⟨_, takes⟩ := coupled.takes present taken
      obtain ⟨waiting, same, pending, due⟩ := takes.waits coupled present
      cases found.symm.trans same
      exact .inr (.inl ⟨_, cutoff, rfl, rfl, due.symm, pending, takes.timer? found⟩)
    | settle ending now innermost =>
      cases about
      have running := coupled.status_of_executing (mem_executions_of_stack innermost).1
      obtain ⟨other, same, runs⟩ := status?_eq_some_iff.mp running
      cases found.symm.trans same
      exact .inr (.inr ⟨_, ending, now, rfl, rfl, runs, timer?_settle found now⟩)
    | cancel target =>
      cases about
      refine .inl ⟨?_, ?_, timer?_cancelHandle found⟩
      · rintro ⟨_, _, begins, _⟩
        cases begins
      · rintro ⟨_, _, _, finishes, _⟩
        cases finishes
    | _ => cases about
  · refine .inl ⟨?_, ?_, timer.status, timer.cancelRequested, .inl rfl, fun _ => rfl, ?_⟩
    · rintro ⟨execution, cutoff, rfl, rfl⟩
      exact about rfl
    · rintro ⟨execution, ending, now, rfl, rfl⟩
      exact about rfl
    · by_cases closing : event = .closed
      · subst closing
        cases step with
        | close => exact found
      · rw [(step.sameAt coupled about closing).timer, found]

theorem Step.timer?_eq_none {before after : Scheduler} {event : Event} {id : TimerId}
    (step : Step before event after) (coupled : Coupled before)
    (unknown : after.timer? id = none) :
    before.timer? id = none ∧ ¬ event.Begins id ∧ ¬ event.Finishes id := by
  have unknownBefore : before.timer? id = none := by
    cases found : before.timer? id with
    | none => rfl
    | some timer =>
      rcases step.timer_cases coupled found with ⟨_, _, _, _, _, _, still⟩ |
        ⟨_, _, _, _, _, _, still⟩ | ⟨_, _, _, _, _, _, still⟩ <;>
      cases unknown.symm.trans still
  refine ⟨unknownBefore, step.not_begins coupled ?_, ?_⟩
  · simp [status?, unknownBefore]
  · rintro ⟨execution, ending, now, rfl, rfl⟩
    cases step with
    | settle _ _ innermost =>
      have running := coupled.status_of_executing (mem_executions_of_stack innermost).1
      simp [status?, unknownBefore] at running

/-- A step queues nothing but the timer that it registers, and the one that waits again
after its run; that is never for an instant before the run's end. -/
theorem Step.mem_queue {before after : Scheduler} {event : Event}
    (step : Step before event after) (coupled : Coupled before) {key : QueueKey}
    (queued : key ∈ after.queue) :
    key ∈ before.queue ∨ event = .registered key.timer key.dueAt ∨
      ∃ execution ending now, event = .settled execution ending now ∧
        now ≤ key.dueAt := by
  cases step with
  | register first period now =>
    rcases QueueKey.mem_insert.mp queued with rfl | earlier
    · exact .inr (.inl rfl)
    · exact .inl earlier
  | take thread cutoff present taken =>
    exact .inl ((coupled.takes present taken).2.queue_subset queued)
  | idle thread cutoff present idle =>
    rw [coupled.takeDue_eq_self present idle] at queued
    exact .inl queued
  | @settle execution _ ending now innermost =>
    have running := coupled.status_of_executing (mem_executions_of_stack innermost).1
    obtain ⟨timer, found, _⟩ := status?_eq_some_iff.mp running
    rw [settle_eq found] at queued
    dsimp only at queued
    split at queued
    · rename_i again
      rcases QueueKey.mem_insert.mp queued with rfl | earlier
      · obtain ⟨period, _, renewed⟩ := Timer.afterRun_of_pending again
        refine .inr (.inr ⟨execution, ending, now, rfl, ?_⟩)
        rw [renewed]
        exact Timer.le_nextDeadline timer.phase period now
      · exact .inl earlier
    · exact .inl queued
  | cancel target => exact .inl ((effects_cancelHandle before target).2.2 key queued)
  | start thread granted =>
    obtain ⟨_, queue, _⟩ := timers_start before thread granted
    exact .inl (queue ▸ queued)
  | requestStop => exact .inl queued
  | leave =>
    obtain ⟨_, queue, _⟩ := timers_leave before _
    exact .inl (queue ▸ queued)
  | close => cases queued

theorem Step.mem_executions {before after : Scheduler} {event : Event}
    (step : Step before event after) (coupled : Coupled before) {execution : Execution}
    (inProgress : execution ∈ after.executions) :
    execution ∈ before.executions ∨ ∃ cutoff, event = .taken execution cutoff := by
  cases step with
  | take thread cutoff present taken =>
    obtain ⟨rest, queue, entered⟩ := (coupled.takes present taken).2.queue
    rw [entered] at inProgress
    rcases List.mem_cons.mp inProgress with rfl | earlier
    · exact .inr ⟨cutoff, rfl⟩
    · exact .inl earlier
  | idle thread cutoff present idle =>
    rw [coupled.takeDue_eq_self present idle] at inProgress
    exact .inl inProgress
  | settle ending now innermost =>
    have running := coupled.status_of_executing (mem_executions_of_stack innermost).1
    obtain ⟨timer, found, _⟩ := status?_eq_some_iff.mp running
    rw [settle_eq found] at inProgress
    exact .inl (List.mem_of_mem_erase inProgress)
  | cancel target =>
    rw [(effects_cancelHandle before target).1] at inProgress
    exact .inl inProgress
  | start thread granted =>
    obtain ⟨_, _, executions, _⟩ := timers_start before thread granted
    exact .inl (executions ▸ inProgress)
  | leave =>
    obtain ⟨_, _, executions, _⟩ := timers_leave before _
    exact .inl (executions ▸ inProgress)
  | _ => exact .inl inProgress

theorem Step.fireAt_of_executing {before after : Scheduler} {event : Event}
    (step : Step before event after) (coupled : Coupled before)
    (same : ∀ execution ∈ before.executions, ∃ timer,
      before.timer? execution.timer = some timer ∧ timer.fireAt = execution.dueAt)
    {execution : Execution} (inProgress : execution ∈ after.executions) :
    ∃ timer, after.timer? execution.timer = some timer ∧
      timer.fireAt = execution.dueAt := by
  have runs := (step.coupled coupled).status_of_executing inProgress
  rcases step.mem_executions coupled inProgress with earlier | ⟨cutoff, begins⟩
  · obtain ⟨timer, found, due⟩ := same execution earlier
    have running := coupled.status_of_executing earlier
    rcases step.timer_cases coupled found with ⟨_, _, _, _, _, _, still⟩ |
      ⟨_, _, _, _, _, pending, still⟩ | ⟨_, _, now, _, _, _, still⟩
    · exact ⟨_, still, due⟩
    · exact ⟨_, still, due⟩
    · obtain ⟨settled, again, status⟩ := status?_eq_some_iff.mp runs
      cases still.symm.trans again
      exact (timer.status_afterRun_ne_running now status).elim
  · generalize shown : event = last at step
    cases step with
    | take thread _ present found =>
      cases shown.symm.trans begins
      have takes := (coupled.takes present found).2
      obtain ⟨timer, waits, _, due⟩ := takes.waits coupled present
      exact ⟨_, takes.timer? waits, due⟩
    | _ => cases shown.symm.trans begins

/-- A step between the states before and after it, at a reading of the clock. -/
structure Moment where
  before : Scheduler
  event : Event
  after : Scheduler
  clock : Instant

/-- Whether what a step has read off the clock can have been read by now. -/
def Event.ReadBy (event : Event) (clock : Instant) : Prop :=
  match event with
  | .taken _ cutoff => cutoff ≤ clock
  | .settled _ _ now => now = clock
  | _ => True

/-- What has happened to a new scheduler so far, and what the clock reads now. -/
inductive Timeline : List Moment → Scheduler → Instant → Prop where
  | start (clock : Instant) : Timeline [] {} clock
  | wait {moments : List Moment} {scheduler : Scheduler} {clock later : Instant}
      (earlier : Timeline moments scheduler clock) :
      clock ≤ later → Timeline moments scheduler later
  | step {moments : List Moment} {before after : Scheduler} {event : Event}
      {clock : Instant} (earlier : Timeline moments before clock) :
      Step before event after → event.ReadBy clock →
      Timeline (moments ++ [⟨before, event, after, clock⟩]) after clock

namespace Timeline

variable {moments : List Moment} {scheduler : Scheduler} {clock : Instant}

theorem run (timeline : Timeline moments scheduler clock) :
    Run {} (moments.map Moment.event) scheduler := by
  induction timeline with
  | start clock => exact .nil
  | wait earlier _ induction => exact induction
  | step earlier step _ induction =>
    rw [List.map_append]
    exact induction.append (.single step)

theorem coupled (timeline : Timeline moments scheduler clock) : Coupled scheduler :=
  timeline.run.coupled Coupled.initial

theorem of_mem (timeline : Timeline moments scheduler clock) {moment : Moment}
    (member : moment ∈ moments) :
    (∃ earlier, Timeline earlier moment.before moment.clock) ∧
      Step moment.before moment.event moment.after ∧
      moment.event.ReadBy moment.clock ∧ moment.clock ≤ clock := by
  induction timeline with
  | start clock => cases member
  | wait earlier passed induction =>
    obtain ⟨front, step, read, past⟩ := induction member
    exact ⟨front, step, read, Int.le_trans past passed⟩
  | @step moments before after event clock earlier step read induction =>
    rcases List.mem_append.mp member with front | last
    · exact induction front
    · cases List.mem_singleton.mp last
      exact ⟨⟨moments, earlier⟩, step, read, Int.le_refl _⟩

theorem fireAt_of_executing (timeline : Timeline moments scheduler clock)
    {execution : Execution} (inProgress : execution ∈ scheduler.executions) :
    ∃ timer, scheduler.timer? execution.timer = some timer ∧
      timer.fireAt = execution.dueAt := by
  induction timeline generalizing execution with
  | start clock => cases inProgress
  | wait earlier _ induction => exact induction inProgress
  | step earlier step _ induction =>
    exact step.fireAt_of_executing earlier.coupled (fun _ member => induction member) inProgress

end Timeline

def Moment.taken? (moment : Moment) : Option Execution :=
  match moment.event with
  | .taken execution _ => some execution
  | _ => none

def taken (moments : List Moment) : List Execution := moments.filterMap Moment.taken?

theorem Moment.taken?_eq_some_iff {moment : Moment} {execution : Execution} :
    moment.taken? = some execution ↔ ∃ cutoff, moment.event = .taken execution cutoff := by
  unfold taken?
  split
  · rename_i shown
    simp [shown]
  · rename_i other
    simpa using fun cutoff => other execution cutoff

theorem mem_taken_iff {moments : List Moment} {execution : Execution} :
    execution ∈ taken moments ↔
      ∃ moment ∈ moments, ∃ cutoff, moment.event = .taken execution cutoff := by
  simp only [taken, List.mem_filterMap, Moment.taken?_eq_some_iff]

theorem taken_append (earlier later : List Moment) :
    taken (earlier ++ later) = taken earlier ++ taken later :=
  List.filterMap_append

theorem taken_concat (moments : List Moment) (moment : Moment) :
    taken (moments ++ [moment]) = taken moments ++ moment.taken?.toList := by
  rw [taken_append]
  simp only [taken, List.filterMap_cons, List.filterMap_nil]
  cases moment.taken? <;> rfl

end Scheduler

end TimeSync
