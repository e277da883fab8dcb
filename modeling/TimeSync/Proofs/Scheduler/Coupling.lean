import TimeSync.Proofs.Scheduler.Run

/-!
# Queue and status belong together

The place of a timer in the queue, its status and its executions are kept in
three places, and each operation changes only some of them.  `Coupled` says how
they belong together.  It holds between any two steps, so also while callbacks
run, and every step preserves it.
-/

namespace TimeSync.Scheduler

/-- A timer is queued at its deadline exactly while it waits, and executed exactly
once while it is running. -/
structure CoupledAt (scheduler : Scheduler) (id : TimerId) : Prop where
  queued : scheduler.closed = false → ∀ dueAt, ⟨dueAt, id⟩ ∈ scheduler.queue ↔
    ∃ timer, scheduler.timer? id = some timer ∧ timer.status = .pending ∧
      timer.fireAt = dueAt
  executing : (scheduler.executionsOf id).length =
    if scheduler.status? id = some .running then 1 else 0

structure Coupled (scheduler : Scheduler) : Prop where
  ordered : QueueKey.Ordered scheduler.queue
  timers : ∀ id, CoupledAt scheduler id
  released : scheduler.closed = true →
    scheduler.executions = [] ∧ scheduler.queue = []

theorem CoupledAt.of_sameAt {before after : Scheduler} {id : TimerId}
    (coupled : CoupledAt before id) (same : SameAt id before after)
    (closed : after.closed = before.closed) : CoupledAt after id := by
  constructor
  · intro present dueAt
    rw [same.queue, same.timer]
    exact coupled.queued (closed ▸ present) dueAt
  · rw [same.executions, same.status]
    exact coupled.executing

theorem Coupled.of_one {before after : Scheduler} (coupled : Coupled before)
    (id : TimerId)
    (others : ∀ other, other ≠ id → SameAt other before after)
    (closed : after.closed = before.closed)
    (ordered : QueueKey.Ordered after.queue)
    (released : after.closed = true → after.executions = [] ∧ after.queue = [])
    (here : CoupledAt after id) : Coupled after := by
  refine ⟨ordered, ?_, released⟩
  intro other
  by_cases same : other = id
  · exact same ▸ here
  · exact (coupled.timers other).of_sameAt (others other same) closed

theorem Coupled.initial : Coupled {} := by
  refine ⟨List.Pairwise.nil, ?_, fun _ => ⟨rfl, rfl⟩⟩
  intro id
  constructor
  · intro _ dueAt
    simp [timer?]
  · simp [executionsOf, status?, timer?]

theorem Coupled.status_of_executing {scheduler : Scheduler} (coupled : Coupled scheduler)
    {execution : Execution} (inProgress : execution ∈ scheduler.executions) :
    scheduler.status? execution.timer = some .running := by
  by_contra notRunning
  have none := (coupled.timers execution.timer).executing
  rw [if_neg notRunning, List.length_eq_zero_iff] at none
  have member := mem_executionsOf_iff.mpr ⟨inProgress, rfl⟩
  rw [none] at member
  cases member

theorem Coupled.status_of_mem_executionsOf {scheduler : Scheduler}
    (coupled : Coupled scheduler) {id : TimerId} {execution : Execution}
    (inProgress : execution ∈ scheduler.executionsOf id) :
    scheduler.status? id = some .running := by
  obtain ⟨member, rfl⟩ := mem_executionsOf_iff.mp inProgress
  exact coupled.status_of_executing member

theorem Coupled.present_of_running {scheduler : Scheduler} (coupled : Coupled scheduler)
    {id : TimerId} (running : scheduler.status? id = some .running) :
    scheduler.closed = false := by
  cases closed : scheduler.closed with
  | false => rfl
  | true =>
    have one := (coupled.timers id).executing
    rw [if_pos running, executionsOf, (coupled.released closed).1] at one
    cases one

theorem Coupled.executionsOf_eq {scheduler : Scheduler} (coupled : Coupled scheduler)
    {execution : Execution} (inProgress : execution ∈ scheduler.executions) :
    scheduler.executionsOf execution.timer = [execution] := by
  have one := (coupled.timers execution.timer).executing
  rw [if_pos (coupled.status_of_executing inProgress), List.length_eq_one_iff] at one
  obtain ⟨only, same⟩ := one
  have member := mem_executionsOf_iff.mpr ⟨inProgress, rfl⟩
  rw [same] at member ⊢
  rw [List.mem_singleton.mp member]

theorem Coupled.status_of_mem {scheduler : Scheduler} (coupled : Coupled scheduler)
    (present : scheduler.closed = false) {key : QueueKey}
    (member : key ∈ scheduler.queue) :
    scheduler.status? key.timer = some .pending := by
  obtain ⟨timer, found, waiting, _⟩ :=
    ((coupled.timers key.timer).queued present key.dueAt).mp member
  exact status?_eq_some_iff.mpr ⟨timer, found, waiting⟩

theorem Coupled.takeDue_eq {scheduler : Scheduler} (coupled : Coupled scheduler)
    (present : scheduler.closed = false) (thread : ThreadId) (now : Instant) :
    scheduler.takeDue thread now =
      match scheduler.queue with
      | [] => ⟨[], none, scheduler⟩
      | key :: rest =>
        if now < key.dueAt then
          ⟨[], none, scheduler⟩
        else
          ⟨[], some ⟨thread, key.timer, key.dueAt⟩,
            { scheduler with queue := rest }.enter ⟨thread, key.timer, key.dueAt⟩⟩ := by
  unfold takeDue
  cases queue : scheduler.queue with
  | nil => simp only [takeFrom, ← queue]
  | cons key rest =>
    have waiting : scheduler.status? key.timer = some .pending := by
      apply coupled.status_of_mem present
      rw [queue]
      exact List.mem_cons_self
    simp only [takeFrom, waiting, if_true, ← queue]

theorem Coupled.dropped_eq_nil {scheduler : Scheduler} (coupled : Coupled scheduler)
    (present : scheduler.closed = false) (thread : ThreadId) (now : Instant) :
    (scheduler.takeDue thread now).dropped = [] := by
  rw [coupled.takeDue_eq present]
  split
  · rfl
  · split <;> rfl

theorem Coupled.takeDue_eq_self {scheduler : Scheduler} (coupled : Coupled scheduler)
    (present : scheduler.closed = false) {thread : ThreadId} {now : Instant}
    (idle : (scheduler.takeDue thread now).execution = none) :
    (scheduler.takeDue thread now).scheduler = scheduler := by
  rw [coupled.takeDue_eq present] at idle ⊢
  split
  · rfl
  · rename_i key rest queue
    rw [queue] at idle
    dsimp only at idle ⊢
    split
    · rfl
    · rename_i due
      rw [if_neg due] at idle
      cases idle

/-- What a thread has taken: the first key of the queue, which was due. -/
structure Takes (scheduler : Scheduler) (execution : Execution) (now : Instant)
    (after : Scheduler) : Prop where
  due : ¬ now < execution.dueAt
  queue : ∃ rest, scheduler.queue = ⟨execution.dueAt, execution.timer⟩ :: rest ∧
    after = { scheduler with queue := rest }.enter execution

theorem Takes.stack_self {before after : Scheduler} {execution : Execution} {now : Instant}
    (takes : Takes before execution now after) :
    after.stack execution.thread = execution :: before.stack execution.thread := by
  obtain ⟨rest, -, rfl⟩ := takes.queue
  simp [Scheduler.stack, enter, modify]

theorem Coupled.takes {scheduler : Scheduler} (coupled : Coupled scheduler)
    (present : scheduler.closed = false) {thread : ThreadId} {now : Instant}
    {execution : Execution}
    (found : (scheduler.takeDue thread now).execution = some execution) :
    execution.thread = thread ∧
      Takes scheduler execution now (scheduler.takeDue thread now).scheduler := by
  rw [coupled.takeDue_eq present] at found ⊢
  cases queue : scheduler.queue with
  | nil =>
    rw [queue] at found
    cases found
  | cons key rest =>
    rw [queue] at found
    dsimp only at found ⊢
    by_cases early : now < key.dueAt
    · rw [if_pos early] at found
      cases found
    · rw [if_neg early] at found ⊢
      cases found
      exact ⟨rfl, early, rest, queue, rfl⟩

theorem Coupled.register {scheduler : Scheduler} (coupled : Coupled scheduler)
    (present : scheduler.closed = false) (first : FirstFire)
    (period : Option Duration) (now : Instant) :
    Coupled (scheduler.register first period now).2 := by
  refine coupled.of_one scheduler.timers.length ?_ rfl coupled.ordered.insert ?_ ?_
  · intro other different
    exact sameAt_register first period now different
  · intro closed
    exact absurd (present.symm.trans closed) (by decide)
  · have unknown : scheduler.timer? scheduler.timers.length = none :=
      List.getElem?_eq_none (Nat.le_refl _)
    have found := timer?_register scheduler first period now
    have before := coupled.timers scheduler.timers.length
    constructor
    · intro _ dueAt
      have absent : ⟨dueAt, scheduler.timers.length⟩ ∉ scheduler.queue := by
        rw [before.queued present, unknown]
        simp
      change ⟨dueAt, scheduler.timers.length⟩ ∈ QueueKey.insert _ _ ↔
        ∃ timer, _ = some timer ∧ _
      rw [QueueKey.mem_insert, found]
      simp [absent, Timer.waiting, eq_comm]
    · have none : scheduler.executionsOf scheduler.timers.length = [] := by
        have idle := before.executing
        simpa [status?, unknown] using idle
      have notRunning : (scheduler.register first period now).2.status?
          scheduler.timers.length ≠ some .running := by
        simp [status?, found, Timer.waiting]
      change (scheduler.executionsOf scheduler.timers.length).length =
        if (scheduler.register first period now).2.status? scheduler.timers.length
          = some .running then 1 else 0
      rw [none, if_neg notRunning]
      rfl

theorem Takes.sameAt {before after : Scheduler} {execution : Execution}
    {now : Instant} (takes : Takes before execution now after) {id : TimerId}
    (different : id ≠ execution.timer) : SameAt id before after := by
  obtain ⟨rest, queue, rfl⟩ := takes.queue
  have frame : SameAt id { before with queue := rest }
      ({ before with queue := rest }.enter execution) := sameAt_enter different
  refine ⟨frame.timer, ?_, frame.executions⟩
  intro dueAt
  change _ ∈ rest ↔ _
  rw [queue]
  simp [different]

theorem Coupled.take {scheduler after : Scheduler} (coupled : Coupled scheduler)
    (present : scheduler.closed = false) {execution : Execution} {now : Instant}
    (takes : Takes scheduler execution now after) : Coupled after := by
  have others : ∀ other, other ≠ execution.timer → SameAt other scheduler after :=
    fun other different => takes.sameAt different
  obtain ⟨rest, queue, rfl⟩ := takes.queue
  have queueOrdered : QueueKey.Ordered (⟨execution.dueAt, execution.timer⟩ :: rest) :=
    queue ▸ coupled.ordered
  have before := coupled.timers execution.timer
  have member : (⟨execution.dueAt, execution.timer⟩ : QueueKey) ∈ scheduler.queue := by
    rw [queue]
    exact List.mem_cons_self
  obtain ⟨timer, found, waiting, due⟩ := (before.queued present _).mp member
  have entered : ({ scheduler with queue := rest }.enter execution).timer?
      execution.timer = some { timer with status := .running } := by
    change (scheduler.modify execution.timer _).timer? execution.timer = _
    rw [timer?_modify, if_pos rfl, found]
    rfl
  refine coupled.of_one execution.timer others rfl queueOrdered.tail ?_ ?_
  · intro closed
    exact absurd (present.symm.trans closed) (by decide)
  · constructor
    · intro _ dueAt
      rw [entered]
      constructor
      · intro later
        have queued : ⟨dueAt, execution.timer⟩ ∈ scheduler.queue := by
          rw [queue]
          exact List.mem_cons_of_mem _ later
        obtain ⟨other, otherFound, _, otherDue⟩ := (before.queued present _).mp queued
        cases found.symm.trans otherFound
        rw [← otherDue, due] at later
        exact (queueOrdered.head_notMem later).elim
      · rintro ⟨other, same, pending, _⟩
        cases same
        cases pending
    · have idle : scheduler.executionsOf execution.timer = [] := by
        have none := before.executing
        simpa [status?, found, waiting] using none
      have running : ({ scheduler with queue := rest }.enter execution).status?
          execution.timer = some .running :=
        status?_eq_some_iff.mpr ⟨_, entered, rfl⟩
      have one : ({ scheduler with queue := rest }.enter execution).executionsOf
          execution.timer = execution :: scheduler.executionsOf execution.timer := by
        simp [executionsOf, enter]
      rw [if_pos running, one, idle]
      rfl

theorem Coupled.settle {scheduler : Scheduler} (coupled : Coupled scheduler)
    {execution : Execution} (inProgress : execution ∈ scheduler.executions)
    (now : Instant) : Coupled (scheduler.settle execution now) := by
  have before := coupled.timers execution.timer
  have single := coupled.executionsOf_eq inProgress
  obtain ⟨timer, found, status⟩ :=
    status?_eq_some_iff.mp (coupled.status_of_executing inProgress)
  have present : scheduler.closed = false := by
    by_contra closed
    rw [(coupled.released (by simpa using closed)).1] at inProgress
    cases inProgress
  have absent : ∀ dueAt, ⟨dueAt, execution.timer⟩ ∉ scheduler.queue := by
    intro dueAt queued
    obtain ⟨other, otherFound, waiting, _⟩ := (before.queued present dueAt).mp queued
    cases found.symm.trans otherFound
    rw [status] at waiting
    cases waiting
  have after := settle_eq found now
  have settled : (scheduler.settle execution now).timer? execution.timer =
      some (timer.afterRun now) := by
    rw [after]
    change (scheduler.modify execution.timer _).timer? execution.timer = _
    rw [timer?_modify, if_pos rfl, found]
    rfl
  have notRunning : (scheduler.settle execution now).status? execution.timer
      ≠ some .running := by
    rw [Ne, status?_eq_some_iff]
    rintro ⟨other, same, runs⟩
    cases settled.symm.trans same
    exact timer.status_afterRun_ne_running now runs
  have queue : (scheduler.settle execution now).queue =
      if (timer.afterRun now).status = .pending then
        QueueKey.insert ⟨(timer.afterRun now).fireAt, execution.timer⟩ scheduler.queue
      else scheduler.queue := by
    rw [after]
  refine coupled.of_one execution.timer ?_ ?_ ?_ ?_ ?_
  · intro other different
    exact sameAt_settle now different
  · rw [after]
    rfl
  · rw [queue]
    split
    · exact coupled.ordered.insert
    · exact coupled.ordered
  · intro closed
    rw [after] at closed
    exact absurd (present.symm.trans closed) (by decide)
  · constructor
    · intro _ dueAt
      rw [settled, queue]
      split
      · rename_i waiting
        simp [QueueKey.mem_insert, absent dueAt, waiting, eq_comm]
      · rename_i finished
        simp [absent dueAt, finished]
    · have erased : (scheduler.settle execution now).executionsOf execution.timer =
          (scheduler.executionsOf execution.timer).erase execution := by
        rw [after]
        exact List.erase_filter.symm
      rw [if_neg notRunning, erased, single]
      simp

theorem Coupled.modify {scheduler : Scheduler} (coupled : Coupled scheduler)
    (id : TimerId) {change : Timer → Timer}
    (same : ∀ timer, scheduler.timer? id = some timer →
      ((change timer).status = .pending ↔ timer.status = .pending) ∧
        ((change timer).status = .running ↔ timer.status = .running) ∧
        (change timer).fireAt = timer.fireAt) :
    Coupled (scheduler.modify id change) := by
  have before := coupled.timers id
  refine coupled.of_one id ?_ rfl coupled.ordered coupled.released ?_
  · intro other different
    refine ⟨?_, fun _ => Iff.rfl, rfl⟩
    rw [timer?_modify, if_neg (Ne.symm different)]
  · constructor
    · intro present dueAt
      change _ ∈ scheduler.queue ↔ _
      rw [before.queued present, timer?_modify, if_pos rfl]
      cases found : scheduler.timer? id with
      | none => simp
      | some timer =>
        obtain ⟨pending, _, fireAt⟩ := same timer found
        simp [pending, fireAt]
    · have runs : (scheduler.modify id change).status? id = some .running ↔
          scheduler.status? id = some .running := by
        simp only [status?, timer?_modify, if_pos]
        cases found : scheduler.timer? id with
        | none => rfl
        | some timer =>
          obtain ⟨_, running, _⟩ := same timer found
          simp [running]
      change (scheduler.executionsOf id).length = _
      rw [before.executing]
      simp only [runs]

theorem Coupled.cancel {scheduler : Scheduler} (coupled : Coupled scheduler)
    (present : scheduler.closed = false) (id : TimerId) :
    Coupled (scheduler.cancel id).2 := by
  cases found : scheduler.timer? id with
  | none =>
    rw [cancel_of_none found]
    exact coupled
  | some timer =>
    cases status : timer.status with
    | pending =>
      have before := coupled.timers id
      have cancelled : (scheduler.cancel id).2.timer? id =
          some { timer with status := .cancelled, cancelRequested := true } := by
        rw [cancel_of_pending found status]
        change (scheduler.modify id _).timer? id = _
        rw [timer?_modify, if_pos rfl, found]
        rfl
      refine coupled.of_one id ?_ ?_ ?_ ?_ ?_
      · intro other different
        rw [← cancelHandle_of_present present]
        exact sameAt_cancelHandle id different
      · rw [cancel_of_pending found status]
        rfl
      · rw [cancel_of_pending found status]
        exact coupled.ordered.remove _
      · rw [cancel_of_pending found status]
        intro closed
        exact absurd (present.symm.trans closed) (by decide)
      · constructor
        · intro _ dueAt
          rw [cancelled, cancel_of_pending found status]
          simp only [QueueKey.mem_remove, before.queued present, found]
          constructor
          · rintro ⟨⟨other, same, _, due⟩, different⟩
            cases same
            exact (different (by rw [due])).elim
          · rintro ⟨other, same, waiting, _⟩
            cases same
            cases waiting
        · have executions : (scheduler.cancel id).2.executionsOf id =
              scheduler.executionsOf id := by
            rw [cancel_of_pending found status]
            rfl
          rw [executions, before.executing]
          simp [status?, cancelled, found, status]
    | running =>
      rw [cancel_of_running found status]
      exact coupled.modify id fun _ _ => ⟨Iff.rfl, Iff.rfl, rfl⟩
    | cancelled =>
      rw [cancel_of_over found (.inl status)]
      exact coupled
    | completed =>
      rw [cancel_of_over found (.inr status)]
      exact coupled

theorem Coupled.cancelDetached {scheduler : Scheduler} (coupled : Coupled scheduler)
    (closed : scheduler.closed = true) (id : TimerId) :
    Coupled (scheduler.cancelDetached id).2 := by
  cases found : scheduler.timer? id with
  | none =>
    rw [cancelDetached_of_none found]
    exact coupled
  | some timer =>
    have after := timer?_cancelDetached found
    have fields : (scheduler.cancelDetached id).2.closed = scheduler.closed ∧
        (scheduler.cancelDetached id).2.queue = scheduler.queue ∧
        (scheduler.cancelDetached id).2.executions = scheduler.executions := by
      simp only [Scheduler.cancelDetached, found]
      exact ⟨rfl, rfl, rfl⟩
    obtain ⟨sameClosed, sameQueue, sameExecutions⟩ := fields
    refine coupled.of_one id ?_ sameClosed (sameQueue ▸ coupled.ordered) ?_ ?_
    · intro other different
      rw [← cancelHandle_of_closed closed]
      exact sameAt_cancelHandle id different
    · intro _
      rw [sameExecutions, sameQueue]
      exact coupled.released closed
    · constructor
      · intro present
        rw [sameClosed, closed] at present
        cases present
      · have notRunning : (scheduler.cancelDetached id).2.status? id ≠ some .running := by
          rw [Ne, status?_eq_some_iff]
          rintro ⟨other, same, running⟩
          cases after.symm.trans same
          dsimp only at running
          split at running
          · cases running
          · rename_i idle
            exact idle (.inr running)
        rw [if_neg notRunning, executionsOf, sameExecutions, (coupled.released closed).1]
        rfl

theorem Coupled.cancelHandle {scheduler : Scheduler} (coupled : Coupled scheduler)
    (id : TimerId) : Coupled (scheduler.cancelHandle id).2 := by
  cases closed : scheduler.closed with
  | false =>
    rw [cancelHandle_of_present closed]
    exact coupled.cancel closed id
  | true =>
    rw [cancelHandle_of_closed closed]
    exact coupled.cancelDetached closed id

theorem sameAt_of_timers {before after : Scheduler} {id : TimerId}
    (timers : after.timers = before.timers) (queue : after.queue = before.queue)
    (executions : after.executions = before.executions) : SameAt id before after := by
  refine ⟨?_, ?_, ?_⟩
  · unfold timer?
    rw [timers]
  · intro dueAt
    rw [queue]
  · unfold executionsOf
    rw [executions]

theorem Coupled.of_timers {before after : Scheduler} (coupled : Coupled before)
    (timers : after.timers = before.timers) (queue : after.queue = before.queue)
    (executions : after.executions = before.executions)
    (closed : after.closed = before.closed) : Coupled after := by
  refine ⟨queue ▸ coupled.ordered, ?_, ?_⟩
  · intro id
    exact (coupled.timers id).of_sameAt (sameAt_of_timers timers queue executions) closed
  · rw [closed, executions, queue]
    exact coupled.released

theorem Coupled.close {scheduler : Scheduler} (coupled : Coupled scheduler)
    (idle : scheduler.executions = []) : Coupled scheduler.close := by
  refine ⟨List.Pairwise.nil, ?_, fun _ => ⟨idle, rfl⟩⟩
  intro id
  constructor
  · intro present
    cases present
  · exact (coupled.timers id).executing

theorem timers_start (scheduler : Scheduler) (thread : ThreadId) (granted : Bool) :
    let after := (scheduler.start thread granted).2
    after.timers = scheduler.timers ∧ after.queue = scheduler.queue ∧
      after.executions = scheduler.executions ∧ after.closed = scheduler.closed := by
  unfold start
  split
  · split <;> exact ⟨rfl, rfl, rfl, rfl⟩
  · split
    · exact ⟨rfl, rfl, rfl, rfl⟩
    · split <;> exact ⟨rfl, rfl, rfl, rfl⟩

theorem timers_leave (scheduler : Scheduler) (worker : ThreadId) :
    let after := scheduler.leave worker
    after.timers = scheduler.timers ∧ after.queue = scheduler.queue ∧
      after.executions = scheduler.executions ∧ after.closed = scheduler.closed := by
  unfold leave
  split <;> exact ⟨rfl, rfl, rfl, rfl⟩

theorem effects_cancelHandle (scheduler : Scheduler) (id : TimerId) :
    let after := (scheduler.cancelHandle id).2
    after.executions = scheduler.executions ∧ after.closed = scheduler.closed ∧
      ∀ key ∈ after.queue, key ∈ scheduler.queue := by
  unfold cancelHandle cancelDetached cancel
  split <;> split
  · exact ⟨rfl, rfl, fun _ queued => queued⟩
  · exact ⟨rfl, rfl, fun _ queued => queued⟩
  · exact ⟨rfl, rfl, fun _ queued => queued⟩
  · split
    · exact ⟨rfl, rfl, fun _ queued => (QueueKey.mem_remove.mp queued).1⟩
    · exact ⟨rfl, rfl, fun _ queued => queued⟩
    · exact ⟨rfl, rfl, fun _ queued => queued⟩
    · exact ⟨rfl, rfl, fun _ queued => queued⟩

theorem Step.sameAt {before after : Scheduler} {event : Event} {id : TimerId}
    (step : Step before event after) (coupled : Coupled before)
    (other : event.timer? ≠ some id) (kept : event ≠ .closed) :
    SameAt id before after := by
  cases step with
  | register first period now =>
    exact sameAt_register first period now fun same => other (congrArg some same.symm)
  | take thread now present found =>
    have different : id ≠ _ := fun same => other (congrArg some same.symm)
    exact (coupled.takes present found).2.sameAt different
  | idle thread now present found =>
    rw [coupled.takeDue_eq_self present found]
    exact sameAt_of_timers rfl rfl rfl
  | settle ending now =>
    exact sameAt_settle now fun same => other (congrArg some same.symm)
  | cancel target =>
    exact sameAt_cancelHandle target fun same => other (congrArg some same.symm)
  | start thread granted =>
    obtain ⟨timers, queue, executions, _⟩ := timers_start before thread granted
    exact sameAt_of_timers timers queue executions
  | requestStop => exact sameAt_of_timers rfl rfl rfl
  | leave =>
    obtain ⟨timers, queue, executions, _⟩ := timers_leave before _
    exact sameAt_of_timers timers queue executions
  | close => exact (kept rfl).elim

theorem Takes.waiting {before after : Scheduler} {execution : Execution} {now : Instant}
    (takes : Takes before execution now after) (coupled : Coupled before)
    (present : before.closed = false) :
    before.status? execution.timer = some .pending := by
  obtain ⟨rest, queue, _⟩ := takes.queue
  have first : (⟨execution.dueAt, execution.timer⟩ : QueueKey) ∈ before.queue := by
    rw [queue]
    exact List.mem_cons_self
  exact coupled.status_of_mem present first

theorem Step.about {before after : Scheduler} {event : Event} {id : TimerId}
    (step : Step before event after) (coupled : Coupled before)
    (about : event.timer? = some id) :
    before.status? id = none ∨
    (before.status? id = some .pending ∧ event.Begins id) ∨
    (∃ execution ∈ before.executionsOf id, ∃ ending now,
      event = .settled execution ending now ∧ after = before.settle execution now) ∨
    (event = .cancelled id (before.cancelHandle id).1 ∧
      after = (before.cancelHandle id).2) := by
  cases step with
  | register first period now =>
    cases about
    left
    have unknown : before.timer? before.timers.length = none :=
      List.getElem?_eq_none (Nat.le_refl _)
    exact congrArg (Option.map Timer.status) unknown
  | take thread now present found =>
    cases about
    right; left
    exact ⟨(coupled.takes present found).2.waiting coupled present, _, now, rfl, rfl⟩
  | settle ending now innermost =>
    cases about
    right; right; left
    have member := (mem_executions_of_stack innermost).1
    exact ⟨_, mem_executionsOf_iff.mpr ⟨member, rfl⟩, ending, now, rfl, rfl⟩
  | cancel target =>
    cases about
    right; right; right
    exact ⟨rfl, rfl⟩
  | _ => cases about

theorem Step.coupled {before after : Scheduler} {event : Event}
    (step : Step before event after) (coupled : Coupled before) : Coupled after := by
  cases step with
  | register first period now present => exact coupled.register present first period now
  | take thread now present found => exact coupled.take present (coupled.takes present found).2
  | idle thread now present found =>
    rw [coupled.takeDue_eq_self present found]
    exact coupled
  | settle ending now innermost =>
    exact coupled.settle (mem_executions_of_stack innermost).1 now
  | cancel id => exact coupled.cancelHandle id
  | start thread granted present =>
    obtain ⟨timers, queue, executions, closed⟩ := timers_start before thread granted
    exact coupled.of_timers timers queue executions closed
  | requestStop present => exact coupled.of_timers rfl rfl rfl rfl
  | leave inLoop told =>
    obtain ⟨timers, queue, executions, closed⟩ := timers_leave before _
    exact coupled.of_timers timers queue executions closed
  | close present idle noWorker => exact coupled.close idle

theorem Run.coupled {first last : Scheduler} {events : List Event}
    (run : Run first events last) (coupled : Coupled first) : Coupled last := by
  induction run with
  | nil => exact coupled
  | cons step _ induction => exact induction (step.coupled coupled)

theorem Reachable.coupled {scheduler : Scheduler} (reachable : Reachable scheduler) :
    Coupled scheduler := by
  obtain ⟨events, run⟩ := reachable
  exact run.coupled Coupled.initial

end TimeSync.Scheduler
