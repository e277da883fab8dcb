import TimeSync.Proofs.Scheduler.Coupling

/-!
# A successful cancellation is final

A timer that is finished, by completion or by cancellation, stays as it is.  One that
was cancelled while it was running is `Doomed`: it keeps its one execution, and
when that is settled it is cancelled, whatever the callback's end and the clock.
-/

namespace TimeSync.Scheduler

/-- A timer that will not wait again. -/
def Finished (scheduler : Scheduler) (id : TimerId) (status : Timer.Status) : Prop :=
  scheduler.status? id = some status ∧ (status = .cancelled ∨ status = .completed)

/-- A timer in an execution that its cancellation has come too late for. -/
structure Doomed (scheduler : Scheduler) (id : TimerId) (execution : Execution) :
    Prop where
  asked : ∃ timer, scheduler.timer? id = some timer ∧ timer.status = .running ∧
    timer.cancelRequested = true
  alone : scheduler.executionsOf id = [execution]

def Event.Ends (event : Event) (execution : Execution) : Prop :=
  ∃ ending now, event = .settled execution ending now

theorem Step.not_begins {before after : Scheduler} {event : Event} {id : TimerId}
    (step : Step before event after) (coupled : Coupled before)
    (notWaiting : before.status? id ≠ some .pending) : ¬ event.Begins id := by
  rintro ⟨execution, now, rfl, rfl⟩
  cases step with
  | take thread _ present found =>
    exact notWaiting ((coupled.takes present found).2.waiting coupled present)

theorem Finished.cancelHandle {scheduler : Scheduler} {id : TimerId}
    {status : Timer.Status} (finished : Finished scheduler id status) :
    Finished (scheduler.cancelHandle id).2 id status := by
  obtain ⟨timer, found, rfl⟩ := status?_eq_some_iff.mp finished.1
  refine ⟨?_, finished.2⟩
  cases closed : scheduler.closed with
  | false =>
    rw [cancelHandle_of_present closed, cancel_of_over found finished.2]
    exact finished.1
  | true =>
    have idle : ¬ (timer.status = .pending ∨ timer.status = .running) := by
      rcases finished.2 with is | is <;> simp [is]
    rw [cancelHandle_of_closed closed]
    exact status?_eq_some_iff.mpr ⟨_, timer?_cancelDetached found, if_neg idle⟩

theorem Step.finished {before after : Scheduler} {event : Event} {id : TimerId}
    {status : Timer.Status} (step : Step before event after) (coupled : Coupled before)
    (finished : Finished before id status) : Finished after id status := by
  by_cases about : event.timer? = some id
  · rcases step.about coupled about with unknown | ⟨waiting, _⟩ |
      ⟨execution, member, ending, now, rfl, rfl⟩ | ⟨rfl, rfl⟩
    · cases unknown.symm.trans finished.1
    · rcases finished.2 with is | is <;> cases is <;> cases waiting.symm.trans finished.1
    · have running := coupled.status_of_mem_executionsOf member
      rcases finished.2 with is | is <;> cases is <;> cases running.symm.trans finished.1
    · exact finished.cancelHandle
  · by_cases closing : event = .closed
    · subst closing
      cases step with
      | close => exact finished
    · have same := step.sameAt coupled about closing
      exact ⟨same.status.trans finished.1, finished.2⟩

theorem Run.finished {first last : Scheduler} {events : List Event} {id : TimerId}
    {status : Timer.Status} (run : Run first events last) (coupled : Coupled first)
    (finished : Finished first id status) :
    Finished last id status ∧ ∀ event ∈ events, ¬ event.Begins id := by
  induction run with
  | nil => exact ⟨finished, by simp⟩
  | @cons first middle last event events step _ induction =>
    obtain ⟨still, never⟩ := induction (step.coupled coupled) (step.finished coupled finished)
    refine ⟨still, ?_⟩
    have notWaiting : first.status? id ≠ some .pending := by
      rw [finished.1]
      rcases finished.2 with is | is <;> simp [is]
    exact List.forall_mem_cons.mpr ⟨step.not_begins coupled notWaiting, never⟩

theorem Doomed.running {scheduler : Scheduler} {id : TimerId} {execution : Execution}
    (doomed : Doomed scheduler id execution) :
    scheduler.status? id = some .running := by
  obtain ⟨timer, found, running, _⟩ := doomed.asked
  exact status?_eq_some_iff.mpr ⟨timer, found, running⟩

theorem Doomed.settle {scheduler : Scheduler} {execution : Execution}
    (doomed : Doomed scheduler execution.timer execution) (now : Instant) :
    Finished (scheduler.settle execution now) execution.timer .cancelled := by
  obtain ⟨timer, found, _, asked⟩ := doomed.asked
  refine ⟨status?_eq_some_iff.mpr ⟨timer.afterRun now, ?_, ?_⟩, .inl rfl⟩
  · rw [settle_eq found now]
    change (scheduler.modify execution.timer _).timer? execution.timer = _
    rw [timer?_modify, if_pos rfl, found]
    rfl
  · rw [Timer.status_afterRun, if_pos asked]

theorem Coupled.doomed_cancelHandle {scheduler : Scheduler} (coupled : Coupled scheduler)
    {id : TimerId} {execution : Execution}
    (running : scheduler.status? id = some .running)
    (alone : scheduler.executionsOf id = [execution]) :
    Doomed (scheduler.cancelHandle id).2 id execution := by
  obtain ⟨timer, found, runs⟩ := status?_eq_some_iff.mp running
  rw [cancelHandle_of_present (coupled.present_of_running running),
    cancel_of_running found runs]
  refine ⟨⟨{ timer with cancelRequested := true }, ?_, runs, rfl⟩, alone⟩
  rw [timer?_modify, if_pos rfl, found]
  rfl

/-- A step of a doomed timer either ends its execution, and cancels it, or leaves it
doomed. -/
theorem Step.doomed {before after : Scheduler} {event : Event} {id : TimerId}
    {execution : Execution} (step : Step before event after) (coupled : Coupled before)
    (doomed : Doomed before id execution) :
    (event.Ends execution ∧ Finished after id .cancelled) ∨
      (¬ event.Ends execution ∧ Doomed after id execution) := by
  by_cases about : event.timer? = some id
  · rcases step.about coupled about with unknown | ⟨waiting, _⟩ |
      ⟨other, member, ending, now, rfl, rfl⟩ | ⟨rfl, rfl⟩
    · cases unknown.symm.trans doomed.running
    · cases waiting.symm.trans doomed.running
    · cases about
      rw [doomed.alone] at member
      cases List.mem_singleton.mp member
      exact .inl ⟨⟨ending, now, rfl⟩, doomed.settle now⟩
    · right
      refine ⟨?_, coupled.doomed_cancelHandle doomed.running doomed.alone⟩
      intro ends
      obtain ⟨ending, now, same⟩ := ends
      cases same
  · right
    obtain ⟨member, timer⟩ := mem_executionsOf_iff.mp
      (doomed.alone ▸ List.mem_singleton_self execution)
    refine ⟨?_, ?_⟩
    · rintro ⟨ending, now, rfl⟩
      exact about (congrArg some timer)
    · have kept : event ≠ .closed := by
        rintro rfl
        cases step with
        | close present idle =>
          rw [idle] at member
          cases member
      have same := step.sameAt coupled about kept
      exact ⟨same.timer ▸ doomed.asked, same.executions.trans doomed.alone⟩

theorem Run.doomed {first last : Scheduler} {events : List Event} {id : TimerId}
    {execution : Execution} (run : Run first events last) (coupled : Coupled first)
    (doomed : Doomed first id execution) :
    (((∀ event ∈ events, ¬ event.Ends execution) ∧ Doomed last id execution) ∨
      ((∃ event ∈ events, event.Ends execution) ∧ Finished last id .cancelled)) ∧
    ∀ event ∈ events, ¬ event.Begins id := by
  induction run with
  | nil => exact ⟨.inl ⟨by simp, doomed⟩, by simp⟩
  | @cons first middle last event events step rest induction =>
    have notBegins : ¬ event.Begins id := by
      apply step.not_begins coupled
      rw [doomed.running]
      simp
    rcases step.doomed coupled doomed with ⟨ends, finished⟩ | ⟨goesOn, still⟩
    · obtain ⟨final, never⟩ := rest.finished (step.coupled coupled) finished
      refine ⟨.inr ⟨⟨event, List.mem_cons_self, ends⟩, final⟩, ?_⟩
      exact List.forall_mem_cons.mpr ⟨notBegins, never⟩
    · obtain ⟨cases, never⟩ := induction (step.coupled coupled) still
      refine ⟨?_, List.forall_mem_cons.mpr ⟨notBegins, never⟩⟩
      rcases cases with ⟨goOn, final⟩ | ⟨⟨other, member, ends⟩, final⟩
      · exact .inl ⟨List.forall_mem_cons.mpr ⟨goesOn, goOn⟩, final⟩
      · exact .inr ⟨⟨other, List.mem_cons_of_mem _ member, ends⟩, final⟩

theorem Coupled.cancelled_of_pending {before : Scheduler} (coupled : Coupled before)
    {id : TimerId} {timer : Timer} (found : before.timer? id = some timer)
    (waiting : timer.status = .pending) :
    Finished (before.cancelHandle id).2 id .cancelled ∧
      ∀ key ∈ (before.cancelHandle id).2.queue, key.timer ≠ id := by
  cases closed : before.closed with
  | true =>
    rw [cancelHandle_of_closed closed]
    refine ⟨⟨?_, .inl rfl⟩, ?_⟩
    · exact status?_eq_some_iff.mpr
        ⟨_, timer?_cancelDetached found, if_pos (.inl waiting)⟩
    · have queue : (before.cancelDetached id).2.queue = [] := by
        simp only [Scheduler.cancelDetached, found]
        exact (coupled.released closed).2
      simp [queue]
  | false =>
    rw [cancelHandle_of_present closed, cancel_of_pending found waiting]
    refine ⟨⟨?_, .inl rfl⟩, ?_⟩
    · refine status?_eq_some_iff.mpr
        ⟨{ timer with status := .cancelled, cancelRequested := true }, ?_, rfl⟩
      change (before.modify id _).timer? id = _
      rw [timer?_modify, if_pos rfl, found]
      rfl
    · intro key member same
      subst same
      obtain ⟨queued, different⟩ := QueueKey.mem_remove.mp member
      obtain ⟨other, otherFound, _, due⟩ :=
        ((coupled.timers key.timer).queued closed key.dueAt).mp queued
      cases found.symm.trans otherFound
      exact different (QueueKey.ext due.symm rfl)

theorem status_of_cancelHandle {scheduler : Scheduler} {id : TimerId}
    (success : (scheduler.cancelHandle id).1 = true) :
    ∃ timer, scheduler.timer? id = some timer ∧
      (timer.status = .pending ∨ timer.status = .running) := by
  cases found : scheduler.timer? id with
  | none =>
    unfold cancelHandle at success
    rw [cancelDetached_of_none found, cancel_of_none found] at success
    split at success <;> cases success
  | some timer =>
    refine ⟨timer, rfl, ?_⟩
    by_contra idle
    have finished : timer.status = .cancelled ∨ timer.status = .completed := by
      cases status : timer.status <;> simp_all
    unfold cancelHandle at success
    split at success
    · simp [cancelDetached, found, idle] at success
    · rw [cancel_of_over found finished] at success
      cases success

theorem Step.cancelled {before after : Scheduler} {id : TimerId} {answer : Bool}
    (step : Step before (.cancelled id answer) after) :
    (before.cancelHandle id).1 = answer ∧ after = (before.cancelHandle id).2 := by
  generalize shown : Event.cancelled id answer = event at step
  cases step with
  | cancel target =>
    injection shown with sameId sameAnswer
    subst sameId
    exact ⟨sameAnswer.symm, rfl⟩
  | _ => cases shown

private theorem not_begins_append {earlier later : List Event} {id : TimerId}
    {answer : Bool} (never : ∀ event ∈ later, ¬ event.Begins id)
    (notYet : ∀ event ∈ earlier, ¬ event.Begins id) :
    ∀ event ∈ earlier ++ .cancelled id answer :: later, ¬ event.Begins id := by
  intro event member
  rcases List.mem_append.mp member with before | after
  · exact notYet event before
  · rcases List.mem_cons.mp after with rfl | further
    · rintro ⟨execution, now, same, _⟩
      cases same
    · exact never event further

/-- After a cancellation that has succeeded no execution of the timer begins.  A timer
that waited is cancelled at once and out of the queue; one that was running keeps its
one execution, and is cancelled as soon as that has ended, in whichever way and at
whichever instant.  A timer that is cancelled or completed stays so for ever. -/
theorem cancel_is_final {before : Scheduler} {events : List Event}
    (run : Run {} events before) :
    (∀ id status, before.status? id = some status →
      (status = .cancelled ∨ status = .completed) →
      ∀ later last, Run before later last →
        last.status? id = some status ∧ ∀ event ∈ later, ¬ event.Begins id) ∧
    (∀ id after later last, Step before (.cancelled id true) after →
      Run after later last →
      (∀ event ∈ later, ¬ event.Begins id) ∧
      ((∀ event ∈ events, ¬ event.Begins id) →
        ∀ event ∈ events ++ .cancelled id true :: later, ¬ event.Begins id) ∧
      ((before.status? id = some .pending ∧
          after.status? id = some .cancelled ∧
          (∀ key ∈ after.queue, key.timer ≠ id) ∧
          last.status? id = some .cancelled) ∨
        (before.status? id = some .running ∧
          after.status? id = some .running ∧
          ∃ execution, before.executionsOf id = [execution] ∧
            (((∀ event ∈ later, ¬ event.Ends execution) ∧
                last.status? id = some .running ∧
                last.executionsOf id = [execution]) ∨
              ((∃ event ∈ later, event.Ends execution) ∧
                last.status? id = some .cancelled ∧
                last.executionsOf id = []))))) := by
  have coupled := run.coupled Coupled.initial
  refine ⟨?_, ?_⟩
  · intro id status shown ended later last further
    obtain ⟨final, never⟩ := further.finished coupled ⟨shown, ended⟩
    exact ⟨final.1, never⟩
  · intro id after later last step further
    have stepped := step.coupled coupled
    obtain ⟨success, rfl⟩ := step.cancelled
    obtain ⟨timer, found, waiting | running⟩ := status_of_cancelHandle success
    · obtain ⟨finished, gone⟩ := coupled.cancelled_of_pending found waiting
      obtain ⟨final, never⟩ := further.finished stepped finished
      have shown : before.status? id = some .pending :=
        status?_eq_some_iff.mpr ⟨timer, found, waiting⟩
      exact ⟨never, not_begins_append never, .inl ⟨shown, finished.1, gone, final.1⟩⟩
    · have shown : before.status? id = some .running :=
        status?_eq_some_iff.mpr ⟨timer, found, running⟩
      have one := (coupled.timers id).executing
      rw [if_pos shown, List.length_eq_one_iff] at one
      obtain ⟨execution, alone⟩ := one
      have doomed := coupled.doomed_cancelHandle shown alone
      obtain ⟨fate, never⟩ := further.doomed stepped doomed
      refine ⟨never, not_begins_append never,
        .inr ⟨shown, doomed.running, execution, alone, ?_⟩⟩
      rcases fate with ⟨goesOn, still⟩ | ⟨ends, finished⟩
      · exact .inl ⟨goesOn, still.running, still.alone⟩
      · have none := ((further.coupled stepped).timers id).executing
        rw [if_neg (by simp [finished.1]), List.length_eq_zero_iff] at none
        exact .inr ⟨ends, finished.1, none⟩

/-- A repeating timer that is cancelled in the middle of a run, which then breaks off
after many further deadlines have passed. -/
theorem cancel_is_final_midway :
    let registered := (Scheduler.register {} (.instant .origin) (some .zero) .origin).2
    let before := (registered.takeDue 0 .origin).scheduler
    let after := (before.cancelHandle 0).2
    let late : Instant := ⟨60000000000, by decide, by decide⟩
    let last := after.settle ⟨0, 0, .origin⟩ late
    Run {} [.registered 0 .origin, .taken ⟨0, 0, .origin⟩ .origin] before ∧
    Step before (.cancelled 0 true) after ∧
    Run after [.settled ⟨0, 0, .origin⟩ (.aborted none) late] last ∧
    before.status? 0 = some .running ∧ last.status? 0 = some .cancelled := by
  intro registered before after late last
  have run : Run {} [.registered 0 .origin, .taken ⟨0, 0, .origin⟩ .origin] before :=
    .cons (.register (.instant .origin) (some .zero) .origin rfl)
      (.cons (.take 0 .origin rfl (by decide)) .nil)
  have step : Step before (.cancelled 0 true) after := .cancel 0
  have innermost : after.stack 0 = [⟨0, 0, .origin⟩] := by decide
  have further : Run after [.settled ⟨0, 0, .origin⟩ (.aborted none) late] last :=
    .single (.settle (.aborted none) late innermost)
  obtain ⟨_, _, waited | ⟨running, _, execution, alone, fate⟩⟩ :=
    (cancel_is_final run).2 0 after _ last step further
  · exact absurd waited.1 (by decide)
  · refine ⟨run, step, further, running, ?_⟩
    rcases fate with ⟨goesOn, _⟩ | ⟨_, cancelled, _⟩
    · have own : execution = ⟨0, 0, .origin⟩ := by
        have same : before.executionsOf 0 = [⟨0, 0, .origin⟩] := by decide
        rw [alone] at same
        exact List.head_eq_of_cons_eq same
      subst own
      exact (goesOn _ (List.mem_singleton_self _) ⟨_, _, rfl⟩).elim
    · exact cancelled

end TimeSync.Scheduler
