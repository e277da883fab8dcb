import TimeSync.Proofs.Scheduler.Coupling

/-!
# The queue holds exactly the timers that wait

What the coupling of queue, status and executions means for a registered timer,
for the count of waiting timers and for the operations, in every state that a run
reaches.
-/

namespace TimeSync.Scheduler

def Event.registers : Event → Bool
  | registered _ _ => true
  | _ => false

theorem length_timers_cancelHandle (scheduler : Scheduler) (id : TimerId) :
    (scheduler.cancelHandle id).2.timers.length = scheduler.timers.length := by
  unfold cancelHandle cancelDetached cancel
  split
  · split
    · rfl
    · exact List.length_modify ..
  · split
    · rfl
    · split
      · exact List.length_modify ..
      · exact List.length_modify ..
      · rfl
      · rfl

theorem length_timers_settle (scheduler : Scheduler) (execution : Execution)
    (now : Instant) :
    (scheduler.settle execution now).timers.length = scheduler.timers.length := by
  unfold settle
  split
  · rfl
  · exact List.length_modify ..

theorem Takes.length_timers {before after : Scheduler} {execution : Execution}
    {now : Instant} (takes : Takes before execution now after) :
    after.timers.length = before.timers.length := by
  obtain ⟨rest, _, rfl⟩ := takes.queue
  exact List.length_modify ..

theorem Step.length_timers {before after : Scheduler} {event : Event}
    (step : Step before event after) (coupled : Coupled before) :
    after.timers.length = before.timers.length + if event.registers then 1 else 0 := by
  cases step with
  | register first period now present =>
    change (before.timers ++ [_]).length = before.timers.length + 1
    rw [List.length_append]
    rfl
  | take thread now present found => exact (coupled.takes present found).2.length_timers
  | idle thread now present found =>
    rw [coupled.takeDue_eq_self present found]
    rfl
  | settle ending now innermost => exact length_timers_settle before _ now
  | cancel id => exact length_timers_cancelHandle before id
  | start thread granted present =>
    obtain ⟨timers, _⟩ := timers_start before thread granted
    rw [timers]
    rfl
  | requestStop present => rfl
  | leave inLoop told =>
    obtain ⟨timers, _⟩ := timers_leave before _
    rw [timers]
    rfl
  | close present idle noWorker => rfl

theorem Run.length_timers {first last : Scheduler} {events : List Event}
    (run : Run first events last) (coupled : Coupled first) :
    last.timers.length = first.timers.length + events.countP Event.registers := by
  induction run with
  | nil => rfl
  | @cons first middle last event events step _ induction =>
    rw [induction (step.coupled coupled), step.length_timers coupled, List.countP_cons]
    omega

theorem Coupled.mem_queue_iff {scheduler : Scheduler} (coupled : Coupled scheduler)
    (present : scheduler.closed = false) {id : TimerId} {timer : Timer}
    (found : scheduler.timer? id = some timer) {dueAt : Instant} :
    ⟨dueAt, id⟩ ∈ scheduler.queue ↔ timer.status = .pending ∧ timer.fireAt = dueAt := by
  rw [(coupled.timers id).queued present, found]
  constructor
  · rintro ⟨other, same, waits⟩
    cases same
    exact waits
  · exact fun waits => ⟨timer, rfl, waits⟩

theorem Coupled.key_unique {scheduler : Scheduler} (coupled : Coupled scheduler)
    (present : scheduler.closed = false) {first second : QueueKey}
    (firstQueued : first ∈ scheduler.queue) (secondQueued : second ∈ scheduler.queue)
    (same : first.timer = second.timer) : first = second := by
  obtain ⟨timer, found, _, due⟩ :=
    ((coupled.timers first.timer).queued present first.dueAt).mp firstQueued
  obtain ⟨other, otherFound, _, otherDue⟩ :=
    ((coupled.timers second.timer).queued present second.dueAt).mp secondQueued
  rw [same] at found
  cases found.symm.trans otherFound
  exact QueueKey.ext (due.symm.trans otherDue) same

theorem Coupled.filter_queue {scheduler : Scheduler} (coupled : Coupled scheduler)
    (present : scheduler.closed = false) {id : TimerId} {timer : Timer}
    (found : scheduler.timer? id = some timer) (waiting : timer.status = .pending) :
    (scheduler.queue.filter fun key => key.timer = id) = [⟨timer.fireAt, id⟩] := by
  have queued : ⟨timer.fireAt, id⟩ ∈ scheduler.queue :=
    (coupled.mem_queue_iff present found).mpr ⟨waiting, rfl⟩
  have nodup : (scheduler.queue.filter fun key => key.timer = id).Nodup :=
    coupled.ordered.nodup.filter _
  apply List.Perm.eq_singleton
  refine (List.perm_ext_iff_of_nodup nodup (List.nodup_singleton _)).mpr ?_
  intro key
  simp only [List.mem_filter, decide_eq_true_eq, List.mem_singleton]
  constructor
  · rintro ⟨member, same⟩
    exact coupled.key_unique present member queued same
  · rintro rfl
    exact ⟨queued, rfl⟩

def waiting (scheduler : Scheduler) : List TimerId :=
  (scheduler.timers.zipIdx.filter fun entry => entry.1.status = .pending).map Prod.snd

theorem mem_waiting_iff {scheduler : Scheduler} {id : TimerId} :
    id ∈ scheduler.waiting ↔ scheduler.status? id = some .pending := by
  simp [waiting, status?_eq_some_iff, timer?, List.mem_zipIdx_iff_getElem?, and_comm]

theorem nodup_waiting (scheduler : Scheduler) : scheduler.waiting.Nodup := by
  have numbers : (scheduler.timers.zipIdx.map Prod.snd).Nodup := by
    rw [List.zipIdx_map_snd]
    exact List.nodup_range'
  exact numbers.sublist (List.filter_sublist.map Prod.snd)

theorem length_waiting (scheduler : Scheduler) :
    scheduler.waiting.length =
      scheduler.timers.countP fun timer => timer.status = .pending := by
  have split : scheduler.timers.countP (fun timer => timer.status = .pending) =
      (scheduler.timers.zipIdx.map Prod.fst).countP
        fun timer => timer.status = .pending := by
    rw [List.zipIdx_map_fst]
  rw [split, List.countP_map, waiting, List.length_map, List.countP_eq_length_filter]
  rfl

theorem Coupled.pendingCount_eq {scheduler : Scheduler} (coupled : Coupled scheduler)
    (present : scheduler.closed = false) :
    scheduler.pendingCount =
      scheduler.timers.countP fun timer => timer.status = .pending := by
  have nodup : (scheduler.queue.map QueueKey.timer).Nodup :=
    List.Nodup.map_on (fun _ first _ second => coupled.key_unique present first second)
      coupled.ordered.nodup
  have same : (scheduler.queue.map QueueKey.timer).Perm scheduler.waiting := by
    refine (List.perm_ext_iff_of_nodup nodup scheduler.nodup_waiting).mpr ?_
    intro id
    rw [mem_waiting_iff, List.mem_map]
    constructor
    · rintro ⟨key, member, rfl⟩
      exact coupled.status_of_mem present member
    · intro pending
      obtain ⟨timer, found, waits⟩ := status?_eq_some_iff.mp pending
      have queued := (coupled.mem_queue_iff present found).mpr ⟨waits, rfl⟩
      exact ⟨⟨timer.fireAt, id⟩, queued, rfl⟩
  calc
    scheduler.pendingCount = (scheduler.queue.map QueueKey.timer).length :=
      (List.length_map _).symm
    _ = scheduler.waiting.length := same.length_eq
    _ = _ := scheduler.length_waiting

theorem Coupled.queue_cancel_of_pending {scheduler : Scheduler}
    (coupled : Coupled scheduler) (present : scheduler.closed = false) {id : TimerId}
    {timer : Timer} (found : scheduler.timer? id = some timer)
    (waiting : timer.status = .pending) :
    (scheduler.cancelHandle id).2.queue =
      scheduler.queue.filter fun key => key.timer ≠ id := by
  rw [cancelHandle_of_present present, cancel_of_pending found waiting]
  apply List.filter_congr
  intro key member
  have queued : ⟨timer.fireAt, id⟩ ∈ scheduler.queue :=
    (coupled.mem_queue_iff present found).mpr ⟨waiting, rfl⟩
  by_cases same : key.timer = id
  · have equal : key = ⟨timer.fireAt, id⟩ := coupled.key_unique present member queued same
    simp [equal]
  · have different : key ≠ ⟨timer.fireAt, id⟩ := by
      rintro rfl
      exact same rfl
    simp [same, different]

theorem Coupled.pendingCount_cancel_of_pending {scheduler : Scheduler}
    (coupled : Coupled scheduler) (present : scheduler.closed = false) {id : TimerId}
    {timer : Timer} (found : scheduler.timer? id = some timer)
    (waiting : timer.status = .pending) :
    (scheduler.cancelHandle id).2.pendingCount + 1 = scheduler.pendingCount := by
  have others : (scheduler.cancelHandle id).2.pendingCount =
      scheduler.queue.countP fun key => key.timer ≠ id := by
    rw [pendingCount, coupled.queue_cancel_of_pending present found waiting,
      List.countP_eq_length_filter]
  have own : scheduler.queue.countP (fun key => key.timer = id) = 1 := by
    rw [List.countP_eq_length_filter, coupled.filter_queue present found waiting]
    rfl
  have all := scheduler.queue.length_eq_countP_add_countP fun key => key.timer = id
  simp only [decide_eq_true_eq] at all
  rw [others, pendingCount, all, own]
  exact Nat.add_comm _ 1

/-- A timer that waits goes on waiting until it is executed or cancelled. -/
theorem Step.status_of_pending {before after : Scheduler} {event : Event} {id : TimerId}
    (step : Step before event after) (coupled : Coupled before)
    (present : before.closed = false) (waiting : before.status? id = some .pending) :
    after.status? id = some .pending ∨ event.Begins id ∨ event = .cancelled id true := by
  by_cases about : event.timer? = some id
  · right
    rcases step.about coupled about with unknown | ⟨_, begins⟩ |
      ⟨execution, member, _⟩ | ⟨cancels, _⟩
    · cases unknown.symm.trans waiting
    · exact .inl begins
    · cases (coupled.status_of_mem_executionsOf member).symm.trans waiting
    · obtain ⟨timer, found, waits⟩ := status?_eq_some_iff.mp waiting
      rw [cancelHandle_of_present present, cancel_of_pending found waits] at cancels
      exact .inr cancels
  · left
    by_cases closing : event = .closed
    · subst closing
      cases step with
      | close => exact waiting
    · rw [(step.sameAt coupled about closing).status, waiting]

/-- In every state that a run reaches, callbacks in progress included, a registered
timer is in the queue exactly while it waits, then once and at its own deadline, and
it has exactly one execution while it is running and none otherwise.  The queue
holds nothing else, so the count of waiting timers is its length, nothing is ever
dropped from it, and cancelling a timer that waits takes it out.  There are as many
timers as were registered, and one that waits is lost to nothing but its execution or
its cancellation. -/
theorem queue_matches_status {scheduler : Scheduler} {events : List Event}
    (run : Run {} events scheduler) (present : scheduler.closed = false) :
    (∀ id timer, scheduler.timer? id = some timer →
      ((∃ key ∈ scheduler.queue, key.timer = id) ↔ timer.status = .pending) ∧
      (timer.status = .pending →
        (scheduler.queue.filter fun key => key.timer = id) = [⟨timer.fireAt, id⟩]) ∧
      (timer.status = .running → (scheduler.executionsOf id).length = 1) ∧
      (timer.status ≠ .running → scheduler.executionsOf id = [])) ∧
    (∀ key ∈ scheduler.queue, scheduler.status? key.timer = some .pending) ∧
    (∀ execution ∈ scheduler.executions,
      scheduler.status? execution.timer = some .running) ∧
    scheduler.pendingCount =
      (scheduler.timers.countP fun timer => timer.status = .pending) ∧
    (∀ thread now, (scheduler.takeDue thread now).dropped = []) ∧
    (∀ id timer, scheduler.timer? id = some timer → timer.status = .pending →
      ⟨timer.fireAt, id⟩ ∈ scheduler.queue ∧
      (scheduler.cancelHandle id).1 = true ∧
      (scheduler.cancelHandle id).2.queue =
        (scheduler.queue.filter fun key => key.timer ≠ id) ∧
      (scheduler.cancelHandle id).2.pendingCount + 1 = scheduler.pendingCount) ∧
    scheduler.timers.length = events.countP Event.registers ∧
    (∀ id event after, Step scheduler event after → scheduler.status? id = some .pending →
      after.status? id = some .pending ∨ event.Begins id ∨ event = .cancelled id true) := by
  have coupled := run.coupled Coupled.initial
  refine ⟨?_, ?_, ?_, coupled.pendingCount_eq present, coupled.dropped_eq_nil present,
    ?_, ?_, ?_⟩
  · intro id timer found
    refine ⟨?_, coupled.filter_queue present found, ?_, ?_⟩
    · constructor
      · rintro ⟨⟨dueAt, _⟩, member, rfl⟩
        exact ((coupled.mem_queue_iff present found).mp member).1
      · intro waits
        exact ⟨_, (coupled.mem_queue_iff present found).mpr ⟨waits, rfl⟩, rfl⟩
    · intro runs
      have one := (coupled.timers id).executing
      rwa [if_pos (status?_eq_some_iff.mpr ⟨timer, found, runs⟩)] at one
    · intro idle
      have none := (coupled.timers id).executing
      rw [if_neg (by simp [status?, found, idle])] at none
      exact List.length_eq_zero_iff.mp none
  · intro key member
    exact coupled.status_of_mem present member
  · intro execution inProgress
    exact coupled.status_of_executing inProgress
  · intro id timer found waits
    refine ⟨(coupled.mem_queue_iff present found).mpr ⟨waits, rfl⟩, ?_,
      coupled.queue_cancel_of_pending present found waits,
      coupled.pendingCount_cancel_of_pending present found waits⟩
    rw [cancelHandle_of_present present, cancel_of_pending found waits]
  · have count := run.length_timers Coupled.initial
    rwa [List.length_nil, Nat.zero_add] at count
  · intro id event after step waiting
    exact step.status_of_pending coupled present waiting

/-- The middle of a run of the first of two timers that are due at once. -/
theorem queue_matches_status_midway :
    let one := (Scheduler.register {} (.instant .origin) none .origin).2
    let both := (one.register (.instant .origin) (some .zero) .origin).2
    let midway := (both.takeDue 0 .origin).scheduler
    Run {} [.registered 0 .origin, .registered 1 .origin,
      .taken ⟨0, 0, .origin⟩ .origin] midway ∧
    midway.closed = false ∧
    (midway.executionsOf 0).length = 1 ∧
    (midway.queue.filter fun key => key.timer = 1) = [⟨.origin, 1⟩] ∧
    midway.pendingCount = 1 := by
  intro one both midway
  have run : Run {} [.registered 0 .origin, .registered 1 .origin,
      .taken ⟨0, 0, .origin⟩ .origin] midway :=
    .cons (.register (.instant .origin) none .origin rfl)
      (.cons (.register (.instant .origin) (some .zero) .origin rfl)
        (.cons (.take 0 .origin rfl (by decide)) .nil))
  have present : midway.closed = false := by decide
  obtain ⟨timers, _, _, count, _⟩ := queue_matches_status run present
  have running : ∃ timer, midway.timer? 0 = some timer ∧ timer.status = .running :=
    ⟨_, rfl, rfl⟩
  have waits : midway.timer? 1 =
      some (.waiting .origin (some Timer.leastPeriod)) := by decide
  obtain ⟨timer, found, runs⟩ := running
  refine ⟨run, present, (timers 0 timer found).2.2.1 runs, (timers 1 _ waits).2.1 rfl, ?_⟩
  rw [count]
  decide

end TimeSync.Scheduler
