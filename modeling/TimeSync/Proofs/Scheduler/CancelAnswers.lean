import TimeSync.Proofs.Scheduler.Cancellation

/-!
# What cancelling answers

Cancelling says whether the timer waited or was running, and looks at nothing else.  So
the first success on a timer that waited is its only one.  A timer that was running goes
on until its execution is settled, and cancelling it again succeeds until then.
-/

namespace TimeSync.Scheduler

/-- Whether a step is a cancellation of a timer that succeeds. -/
def Event.succeeds (id : TimerId) : Event → Bool
  | .cancelled timer answer => timer = id ∧ answer
  | _ => false

theorem Event.succeeds_iff {event : Event} {id : TimerId} :
    event.succeeds id = true ↔ event = .cancelled id true := by
  cases event <;> simp [Event.succeeds]

theorem cancelHandle_eq_true_iff {scheduler : Scheduler} {id : TimerId} :
    (scheduler.cancelHandle id).1 = true ↔
      scheduler.status? id = some .pending ∨ scheduler.status? id = some .running := by
  constructor
  · intro success
    obtain ⟨timer, found, live⟩ := status_of_cancelHandle success
    simpa only [status?, found, Option.map_some, Option.some.injEq] using live
  · intro live
    obtain ⟨timer, found, status⟩ :
        ∃ timer, scheduler.timer? id = some timer ∧
          (timer.status = .pending ∨ timer.status = .running) := by
      rcases live with status | status <;>
        obtain ⟨timer, found, is⟩ := status?_eq_some_iff.mp status
      · exact ⟨timer, found, .inl is⟩
      · exact ⟨timer, found, .inr is⟩
    cases closed : scheduler.closed with
    | true =>
      rw [cancelHandle_of_closed closed]
      simp [cancelDetached, found, status]
    | false =>
      rw [cancelHandle_of_present closed]
      rcases status with waiting | running
      · rw [cancel_of_pending found waiting]
      · rw [cancel_of_running found running]

theorem Step.answer_iff {before after : Scheduler} {id : TimerId} {answer : Bool}
    (step : Step before (.cancelled id answer) after) :
    answer = true ↔
      before.status? id = some .pending ∨ before.status? id = some .running := by
  rw [← step.cancelled.1]
  exact cancelHandle_eq_true_iff

theorem Finished.not_succeeds {before after : Scheduler} {id : TimerId}
    {status : Timer.Status} {event : Event} (finished : Finished before id status)
    (step : Step before event after) : event.succeeds id = false := by
  rw [Bool.eq_false_iff, Ne, Event.succeeds_iff]
  rintro rfl
  rcases step.answer_iff.mp rfl with live | live <;>
    rcases finished.2 with rfl | rfl <;> cases finished.1.symm.trans live

theorem Run.not_succeeds {first last : Scheduler} {events : List Event} {id : TimerId}
    {status : Timer.Status} (run : Run first events last) (coupled : Coupled first)
    (finished : Finished first id status) :
    ∀ event ∈ events, event.succeeds id = false := by
  induction run with
  | nil => simp
  | cons step _ induction =>
    exact List.forall_mem_cons.mpr ⟨finished.not_succeeds step,
      induction (step.coupled coupled) (step.finished coupled finished)⟩

theorem Coupled.cancelled {before after : Scheduler} (coupled : Coupled before)
    {id : TimerId} (success : Step before (.cancelled id true) after) :
    (before.executionsOf id = [] ∧ Finished after id .cancelled) ∨
      ∃ execution, before.executionsOf id = [execution] ∧ Doomed after id execution := by
  have executing := (coupled.timers id).executing
  obtain ⟨-, rfl⟩ := success.cancelled
  rcases success.answer_iff.mp rfl with waiting | running
  · left
    rw [if_neg (by simp [waiting]), List.length_eq_zero_iff] at executing
    obtain ⟨timer, found, waits⟩ := status?_eq_some_iff.mp waiting
    exact ⟨executing, (coupled.cancelled_of_pending found waits).1⟩
  · right
    rw [if_pos running, List.length_eq_one_iff] at executing
    obtain ⟨execution, alone⟩ := executing
    exact ⟨execution, alone, coupled.doomed_cancelHandle running alone⟩

/-- After a success the timer is cancelled with success again only during the execution in
which the first one came, and always then. -/
theorem Coupled.answer_after_success {before after further last : Scheduler}
    (coupled : Coupled before) {id : TimerId} {middle : List Event} {answer : Bool}
    (success : Step before (.cancelled id true) after) (between : Run after middle further)
    (again : Step further (.cancelled id answer) last) :
    answer = true ↔ ∃ execution, before.executionsOf id = [execution] ∧
      ∀ event ∈ middle, ¬ event.Ends execution := by
  have stepped := success.coupled coupled
  have refused (finished : Finished further id .cancelled) : answer ≠ true := by
    rintro rfl
    have silent := finished.not_succeeds again
    rw [Event.succeeds_iff.mpr rfl] at silent
    cases silent
  rcases coupled.cancelled success with ⟨none, finished⟩ | ⟨execution, alone, doomed⟩
  · have final := (between.finished stepped finished).1
    simp [refused final, none]
  · rcases (between.doomed stepped doomed).1 with ⟨goesOn, still⟩ | ⟨⟨event, member, ends⟩, final⟩
    · exact ⟨fun _ => ⟨execution, alone, goesOn⟩,
        fun _ => again.answer_iff.mpr (.inr still.running)⟩
    · refine ⟨fun success => absurd success (refused final), ?_⟩
      rintro ⟨other, same, goesOn⟩
      rw [alone] at same
      cases same
      exact absurd ends (goesOn event member)

/-- Where a success meets no execution of its timer, no cancellation before it has
succeeded. -/
theorem Run.not_succeeds_before {first before after : Scheduler} {events : List Event}
    {id : TimerId} (run : Run first events before) (coupled : Coupled first)
    (idle : before.executionsOf id = []) (success : Step before (.cancelled id true) after) :
    ∀ event ∈ events, event.succeeds id = false := by
  induction run with
  | nil => simp
  | @cons first middle before event events step rest induction =>
    have stepped := step.coupled coupled
    refine List.forall_mem_cons.mpr ⟨?_, induction stepped idle success⟩
    rw [Bool.eq_false_iff, Ne, Event.succeeds_iff]
    rintro rfl
    have live : ¬ Finished before id .cancelled := fun finished =>
      absurd (finished.not_succeeds success) (by simp [Event.succeeds])
    rcases coupled.cancelled step with ⟨-, finished⟩ | ⟨execution, -, doomed⟩
    · exact live (rest.finished stepped finished).1
    · rcases (rest.doomed stepped doomed).1 with ⟨-, still⟩ | ⟨-, finished⟩
      · cases idle.symm.trans still.alone
      · exact live finished

/-- Cancelling a timer succeeds exactly while it waits or is running, and never again once
it is cancelled or completed.  Of two cancellations, the first with success, the second
succeeds exactly if the first came during an execution that has not ended meanwhile.  So
a success that comes when the timer is not executed, the scheduler being gone or not, is
the only one of the whole run. -/
theorem cancel_succeeds_once_unless_running {events : List Event} {before : Scheduler}
    (run : Run {} events before) (id : TimerId) :
    (∀ answer after, Step before (.cancelled id answer) after →
      (answer = true ↔
        before.status? id = some .pending ∨ before.status? id = some .running)) ∧
    (∀ status, before.status? id = some status →
      (status = .cancelled ∨ status = .completed) →
      ∀ later last, Run before later last → later.countP (Event.succeeds id) = 0) ∧
    (∀ after middle further answer last, Step before (.cancelled id true) after →
      Run after middle further → Step further (.cancelled id answer) last →
      (answer = true ↔ ∃ execution, before.executionsOf id = [execution] ∧
        ∀ event ∈ middle, ¬ event.Ends execution)) ∧
    (before.executionsOf id = [] →
      ∀ after later last, Step before (.cancelled id true) after → Run after later last →
      (events ++ .cancelled id true :: later).countP (Event.succeeds id) = 1) := by
  have coupled := run.coupled Coupled.initial
  have noneOf {events : List Event} (silent : ∀ event ∈ events, event.succeeds id = false) :
      events.countP (Event.succeeds id) = 0 :=
    List.countP_eq_zero.mpr fun event member => by simp [silent event member]
  refine ⟨fun _ _ step => step.answer_iff, ?_, ?_, ?_⟩
  · intro status shown ended later last further
    exact noneOf (further.not_succeeds coupled ⟨shown, ended⟩)
  · intro after middle further answer last success between again
    exact coupled.answer_after_success success between again
  · intro idle after later last success further
    have early := noneOf (run.not_succeeds_before Coupled.initial idle success)
    rcases coupled.cancelled success with ⟨-, finished⟩ | ⟨execution, alone, -⟩
    · have late := noneOf (further.not_succeeds (success.coupled coupled) finished)
      rw [List.countP_append, List.countP_cons, early, late]
      simp [Event.succeeds]
    · cases idle.symm.trans alone

/-- The callback of the first of two timers cancels its own timer twice, and the other one.
When it has ended, cancelling its timer is refused. -/
theorem cancel_succeeds_once_unless_running_ended :
    let one := (Scheduler.register {} (.instant .origin) none .origin).2
    let both := (one.register (.instant .origin) none .origin).2
    let before := (both.takeDue 0 .origin).scheduler
    let after := (before.cancelHandle 0).2
    let again := (after.cancelHandle 0).2
    let other := (again.cancelHandle 1).2
    let last := other.settle ⟨0, 0, .origin⟩ .origin
    let events : List Event :=
      [.registered 0 .origin, .registered 1 .origin, .taken ⟨0, 0, .origin⟩ .origin]
    let twice : List Event := [.cancelled 0 true, .cancelled 0 true]
    let ended : List Event := [.settled ⟨0, 0, .origin⟩ .done .origin]
    Run {} events before ∧ Run before twice again ∧
    Run again (.cancelled 1 true :: ended) last ∧
    (last.cancelHandle 0).1 = false ∧
    (events ++ twice ++ .cancelled 1 true :: ended).countP (Event.succeeds 1) = 1 := by
  intro one both before after again other last events twice ended
  have run : Run {} events before :=
    .cons (.register (.instant .origin) none .origin rfl)
      (.cons (.register (.instant .origin) none .origin rfl)
        (.cons (.take 0 .origin rfl (by decide)) .nil))
  have success : Step before (.cancelled 0 true) after := .cancel 0
  have second : Step after (.cancelled 0 true) again := .cancel 0
  have third : Step again (.cancelled 1 true) other := .cancel 1
  have innermost : other.stack 0 = [⟨0, 0, .origin⟩] := by decide
  have settling : Run other ended last := .single (.settle .done .origin innermost)
  have between : Run after (.cancelled 0 true :: .cancelled 1 true :: ended) last :=
    .cons second (.cons third settling)
  refine ⟨run, .cons success (.single second), .cons third settling, ?_, ?_⟩
  · obtain ⟨-, -, exactly, -⟩ := cancel_succeeds_once_unless_running run 0
    rw [← Bool.not_eq_true, exactly after _ last _ _ success between (.cancel 0)]
    rintro ⟨execution, alone, goesOn⟩
    have own : before.executionsOf 0 = [⟨0, 0, .origin⟩] := by decide
    cases alone.symm.trans own
    exact goesOn _ (by simp [ended]) ⟨.done, .origin, rfl⟩
  · have longer : Run {} (events ++ twice) again :=
      run.append (.cons success (.single second))
    exact (cancel_succeeds_once_unless_running longer 1).2.2.2 (by decide) other ended last
      third settling

/-- A callback that cancels its own timer twice is told twice that it has. -/
theorem cancel_succeeds_twice_while_running :
    let registered := (Scheduler.register {} (.instant .origin) none .origin).2
    let running := (registered.takeDue 0 .origin).scheduler
    let last := ((running.cancelHandle 0).2.cancelHandle 0).2
    let events : List Event :=
      [.registered 0 .origin, .taken ⟨0, 0, .origin⟩ .origin, .cancelled 0 true,
        .cancelled 0 true]
    Run {} events last ∧ events.countP (Event.succeeds 0) = 2 :=
  ⟨.cons (.register (.instant .origin) none .origin rfl)
    (.cons (.take 0 .origin rfl (by decide)) (.cons (.cancel 0) (.single (.cancel 0)))),
    by decide⟩

end TimeSync.Scheduler
