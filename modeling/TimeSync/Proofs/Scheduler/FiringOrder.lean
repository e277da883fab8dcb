import TimeSync.Proofs.Scheduler.Timeline

/-!
# The order in which timers fire

A timer is taken only as the first of all that wait.  That its deadline is also not
before any that was taken earlier needs more: whatever comes to wait meanwhile must not
have an earlier deadline.  A timer that waits again after its run never has, because its
new deadline is not before the end of the run, and the clock had passed every deadline
taken so far by then.  For a new timer it has to be assumed.
-/

namespace TimeSync.Scheduler

def Moment.registered? (moment : Moment) : Option TimerId :=
  match moment.event with
  | .registered timer _ => some timer
  | _ => none

/-- No timer is registered with a first deadline before one that was taken already. -/
def NeverBehind (moments : List Moment) : Prop :=
  moments.Pairwise fun earlier later => ∀ execution cutoff timer deadline,
    earlier.event = .taken execution cutoff → later.event = .registered timer deadline →
      execution.dueAt ≤ deadline

theorem Step.registered?_eq {before after : Scheduler} {event : Event}
    (step : Step before event after) (clock : Instant) :
    (Moment.registered? ⟨before, event, after, clock⟩).toList =
      if event.registers then [before.timers.length] else [] := by
  cases step <;> rfl

theorem Timeline.registrations {moments : List Moment} {scheduler : Scheduler}
    {clock : Instant} (timeline : Timeline moments scheduler clock) :
    moments.filterMap Moment.registered? = List.range scheduler.timers.length := by
  induction timeline with
  | start clock => rfl
  | wait earlier _ induction => exact induction
  | @step moments before after event clock earlier step _ induction =>
    have last := step.registered?_eq clock
    rw [List.filterMap_append, induction, step.length_timers earlier.coupled,
      List.filterMap_cons, List.filterMap_nil]
    cases shown : Moment.registered? ⟨before, event, after, clock⟩ with
    | none =>
      rw [shown] at last
      split at last
      · cases last
      · rename_i other
        simp [other]
    | some timer =>
      rw [shown] at last
      split at last
      · rename_i registers
        cases last
        simp [registers, List.range_succ]
      · cases last

theorem Step.takes {before after : Scheduler} {execution : Execution} {cutoff : Instant}
    (step : Step before (.taken execution cutoff) after) (coupled : Coupled before) :
    before.closed = false ∧ Takes before execution cutoff after := by
  generalize shown : Event.taken execution cutoff = event at step
  cases step with
  | take thread now present found =>
    cases shown
    exact ⟨present, (coupled.takes present found).2⟩
  | _ => cases shown

theorem Takes.before {before after : Scheduler} {execution : Execution} {now : Instant}
    (takes : Takes before execution now after) (coupled : Coupled before)
    {key : QueueKey} (queued : key ∈ before.queue) :
    key = ⟨execution.dueAt, execution.timer⟩ ∨
      (⟨execution.dueAt, execution.timer⟩ : QueueKey).before key = true := by
  obtain ⟨rest, queue, _⟩ := takes.queue
  have ordered := coupled.ordered
  rw [queue] at ordered queued
  rcases List.mem_cons.mp queued with first | later
  · exact .inl first
  · exact .inr ((List.pairwise_cons.mp ordered).1 key later)

theorem Takes.dueAt_le {before after : Scheduler} {execution : Execution} {now : Instant}
    (takes : Takes before execution now after) (coupled : Coupled before)
    {key : QueueKey} (queued : key ∈ before.queue) : execution.dueAt ≤ key.dueAt := by
  rcases takes.before coupled queued with rfl | later
  · exact Int.le_refl _
  · rw [QueueKey.before_iff] at later
    rw [Instant.le_def]
    dsimp only at later
    omega

namespace Timeline

variable {moments : List Moment} {scheduler : Scheduler} {clock : Instant}

theorem dueAt_le (timeline : Timeline moments scheduler clock) {execution : Execution}
    (member : execution ∈ taken moments) : execution.dueAt ≤ clock := by
  obtain ⟨moment, happened, cutoff, begins⟩ := mem_taken_iff.mp member
  obtain ⟨⟨_, front⟩, step, read, past⟩ := timeline.of_mem happened
  rw [begins] at step read
  have due := (step.takes front.coupled).2.due
  rw [Instant.lt_def] at due
  rw [Event.ReadBy, Instant.le_def] at read
  rw [Instant.le_def] at past ⊢
  omega

theorem dueAt_le_of_executing (timeline : Timeline moments scheduler clock)
    {execution : Execution} (inProgress : execution ∈ scheduler.executions) :
    execution.dueAt ≤ clock := by
  suffices wasTaken : execution ∈ taken moments from timeline.dueAt_le wasTaken
  induction timeline with
  | start clock => cases inProgress
  | wait earlier _ induction => exact induction inProgress
  | step earlier step _ induction =>
    rw [taken_append, List.mem_append]
    rcases step.mem_executions earlier.coupled inProgress with before | ⟨cutoff, rfl⟩
    · exact .inl (induction before)
    · exact .inr (List.mem_singleton_self execution)

/-- What comes to wait in a step does not wait for a deadline before one that was taken. -/
theorem ahead_of_step {before after : Scheduler} {event : Event}
    (earlier : Timeline moments before clock) (step : Step before event after)
    (read : event.ReadBy clock)
    (notBehind : ∀ moment ∈ moments, ∀ execution cutoff timer deadline,
      moment.event = .taken execution cutoff → event = .registered timer deadline →
        execution.dueAt ≤ deadline)
    (ahead : ∀ execution ∈ taken moments, ∀ key ∈ before.queue, execution.dueAt ≤ key.dueAt) :
    ∀ execution ∈ taken moments, ∀ key ∈ after.queue, execution.dueAt ≤ key.dueAt := by
  intro execution member key queued
  rcases step.mem_queue earlier.coupled queued with
    waited | registers | ⟨finished, ending, now, rfl, notEarlier⟩
  · exact ahead execution member key waited
  · obtain ⟨moment, happened, cutoff, begins⟩ := mem_taken_iff.mp member
    exact notBehind moment happened execution cutoff key.timer key.dueAt begins registers
  · cases read
    exact Int.le_trans (earlier.dueAt_le member) notEarlier

/-- Nothing that waits has a deadline before one that was taken. -/
theorem taken_in_order (timeline : Timeline moments scheduler clock)
    (neverBehind : NeverBehind moments) :
    ((taken moments).Pairwise fun first second => first.dueAt ≤ second.dueAt) ∧
      ∀ execution ∈ taken moments, ∀ key ∈ scheduler.queue,
        execution.dueAt ≤ key.dueAt := by
  induction timeline with
  | start clock => exact ⟨.nil, fun _ member => (List.not_mem_nil member).elim⟩
  | wait earlier _ induction => exact induction neverBehind
  | @step moments before after event clock earlier step read induction =>
    obtain ⟨frontBehind, -, lastBehind⟩ := List.pairwise_append.mp neverBehind
    obtain ⟨sorted, ahead⟩ := induction frontBehind
    have kept := earlier.ahead_of_step step read
      (fun moment member => lastBehind moment member _ (List.mem_singleton_self _)) ahead
    cases shown : Moment.taken? ⟨before, event, after, clock⟩ with
    | none =>
      rw [taken_concat, shown, Option.toList_none, List.append_nil]
      exact ⟨sorted, kept⟩
    | some execution =>
      obtain ⟨cutoff, begins⟩ := Moment.taken?_eq_some_iff.mp shown
      cases begins
      have takes := (step.takes earlier.coupled).2
      rw [taken_concat, shown, Option.toList_some, List.pairwise_append]
      refine ⟨⟨sorted, List.pairwise_singleton _ _, ?_⟩, ?_⟩
      · intro previous member last same
        cases List.mem_singleton.mp same
        exact ahead previous member _ takes.mem_queue
      · intro previous member key queued
        rcases List.mem_append.mp member with front | same
        · exact kept previous front key queued
        · cases List.mem_singleton.mp same
          exact takes.dueAt_le earlier.coupled (takes.queue_subset queued)

end Timeline

/-- Over any run with a clock that never goes back, whichever calls run timers on whichever
threads and however they nest: if no timer is registered with a first deadline before one
that was taken already, deadlines are taken in an order in which they never decrease.  In
any case a timer is taken only while it waits, at its own deadline, and before every
other timer that waits; of two with the same deadline the one that was registered first
has the smaller number.  As long as an execution is in progress, so also when its
callback is called, the clock reads its deadline or later. -/
theorem fires_in_deadline_order {moments : List Moment} {scheduler : Scheduler}
    {clock : Instant} (timeline : Timeline moments scheduler clock) :
    (NeverBehind moments →
      (taken moments).Pairwise fun first second => first.dueAt ≤ second.dueAt) ∧
    (∀ moment ∈ moments, ∀ execution cutoff, moment.event = .taken execution cutoff →
      (∃ timer, moment.before.timer? execution.timer = some timer ∧
        timer.status = .pending ∧ timer.fireAt = execution.dueAt) ∧
      ∀ other timer, moment.before.timer? other = some timer → timer.status = .pending →
        other ≠ execution.timer →
          execution.dueAt < timer.fireAt ∨
            (execution.dueAt = timer.fireAt ∧ execution.timer < other)) ∧
    moments.filterMap Moment.registered? = List.range scheduler.timers.length ∧
    ∀ execution ∈ scheduler.executions, execution.dueAt ≤ clock := by
  refine ⟨fun neverBehind => (timeline.taken_in_order neverBehind).1, ?_,
    timeline.registrations, fun execution => timeline.dueAt_le_of_executing⟩
  intro moment happened execution cutoff begins
  obtain ⟨⟨_, front⟩, step, -, -⟩ := timeline.of_mem happened
  rw [begins] at step
  obtain ⟨present, takes⟩ := step.takes front.coupled
  refine ⟨takes.waits front.coupled present, ?_⟩
  intro other timer found waiting different
  have queued : (⟨timer.fireAt, other⟩ : QueueKey) ∈ moment.before.queue :=
    (front.coupled.mem_queue_iff present found).mpr ⟨waiting, rfl⟩
  rcases takes.before front.coupled queued with same | before
  · exact (different (congrArg QueueKey.timer same)).elim
  · simpa [QueueKey.before] using before

/-- A callback of a repeating timer that runs the other timer itself and ends late, so that
it is due again at once. -/
theorem fires_in_deadline_order_nested :
    let late : Instant := ⟨2000000, by decide, by decide⟩
    let one := (Scheduler.register {} (.instant .origin) (some .zero) .origin).2
    let both := (one.register (.instant .origin) none .origin).2
    let outer := (both.takeDue 0 .origin).scheduler
    let inner := (outer.takeDue 0 .origin).scheduler
    let returned := inner.settle ⟨0, 1, .origin⟩ .origin
    let again := returned.settle ⟨0, 0, .origin⟩ late
    let last := (again.takeDue 0 late).scheduler
    ∃ moments, Timeline moments last late ∧ NeverBehind moments ∧
      taken moments = [⟨0, 0, .origin⟩, ⟨0, 1, .origin⟩, ⟨0, 0, late⟩] ∧
      ((taken moments).Pairwise fun first second => first.dueAt ≤ second.dueAt) ∧
      ∀ execution ∈ last.executions, execution.dueAt ≤ late := by
  intro late one both outer inner returned again last
  have first : (both.takeDue 0 .origin).execution = some ⟨0, 0, .origin⟩ := by decide
  have second : (outer.takeDue 0 .origin).execution = some ⟨0, 1, .origin⟩ := by decide
  have third : (again.takeDue 0 late).execution = some ⟨0, 0, late⟩ := by decide
  have innermost : inner.stack 0 = [⟨0, 1, .origin⟩, ⟨0, 0, .origin⟩] := by decide
  have outermost : returned.stack 0 = [⟨0, 0, .origin⟩] := by decide
  have ready : Timeline _ both .origin :=
    .step (.step (.start .origin) (.register (.instant .origin) (some .zero) .origin rfl)
      trivial) (.register (.instant .origin) none .origin rfl) trivial
  have nested : Timeline _ inner .origin :=
    .step (.step ready (.take 0 .origin rfl first) (Int.le_refl _))
      (.take 0 .origin rfl second) (Int.le_refl _)
  have ended : Timeline _ again late :=
    .step (.wait (.step nested (.settle .done .origin innermost) rfl) (by decide))
      (.settle (.failed []) late outermost) rfl
  have timeline : Timeline _ last late :=
    .step ended (.take 0 late rfl third) (Int.le_refl _)
  obtain ⟨ordered, -, -, due⟩ := fires_in_deadline_order timeline
  refine ⟨_, timeline, ?_, rfl, ordered ?_, due⟩ <;> simp [NeverBehind]

end TimeSync.Scheduler
