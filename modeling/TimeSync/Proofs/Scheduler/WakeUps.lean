import TimeSync.Proofs.Scheduler.OneWorker
import TimeSync.Proofs.Scheduler.Timeline

/-!
# No wake-up is lost

A worker goes to sleep on what it has seen of the queue, and whoever changes the queue
afterwards calls it only once the lock is released.  `Alert` says that the calls that are
still on their way make up for the difference: a worker that sleeps while none is on its
way would find nothing else to do.  A step that gives it something to do sends a call, and
a call is used up only by waking the worker, or where nobody sleeps.
-/

namespace TimeSync

namespace Scheduler

/-- Whether a worker has nothing to do until an instant, or until it is called if none is
given. -/
structure QuietUntil (scheduler : Scheduler) (wakeAt : Option Instant) : Prop where
  kept : scheduler.shutdown = false
  later : ∀ key ∈ scheduler.queue, ∃ alarm, wakeAt = some alarm ∧ alarm ≤ key.dueAt

theorem QuietUntil.of_subset {before after : Scheduler} {wakeAt : Option Instant}
    (quiet : before.QuietUntil wakeAt) (shutdown : after.shutdown = before.shutdown)
    (fewer : ∀ key ∈ after.queue, key ∈ before.queue) : after.QuietUntil wakeAt :=
  ⟨shutdown.trans quiet.kept, fun key queued => quiet.later key (fewer key queued)⟩

theorem dueAt_le_of_ordered {first key : QueueKey} {rest : List QueueKey}
    (ordered : QueueKey.Ordered (first :: rest)) (queued : key ∈ first :: rest) :
    first.dueAt ≤ key.dueAt := by
  rw [Instant.le_def]
  rcases List.mem_cons.mp queued with rfl | later
  · exact Int.le_refl _
  · have earlier := (List.pairwise_cons.mp ordered).1 key later
    rw [QueueKey.before_iff] at earlier
    omega

/-- A turn of the worker's loop that ends in sleep has found nothing to do until then. -/
theorem Coupled.turn_sleep {scheduler : Scheduler} (coupled : scheduler.Coupled)
    (present : scheduler.closed = false) {worker : ThreadId} {now : Instant}
    {wakeAt : Option Instant} (sleeps : (scheduler.turn worker now).1 = .sleep wakeAt) :
    scheduler.QuietUntil wakeAt ∧ ∀ alarm, wakeAt = some alarm → now < alarm := by
  rcases scheduler.turn_cases worker now with
    ⟨-, leaves, -⟩ | ⟨kept, -, ⟨execution, -, runs⟩ | ⟨_, idle, -⟩⟩
  · cases leaves.symm.trans sleeps
  · cases runs.symm.trans sleeps
  unfold turn at sleeps
  rw [kept, if_neg Bool.false_ne_true] at sleeps
  dsimp only at sleeps
  rw [idle, coupled.takeDue_eq_self present idle] at sleeps
  rw [coupled.takeDue_eq present] at idle
  cases queue : scheduler.queue with
  | nil =>
    rw [queue] at sleeps
    cases sleeps
    refine ⟨⟨kept, ?_⟩, fun _ given => nomatch given⟩
    rw [queue]
    exact fun _ queued => nomatch queued
  | cons first rest =>
    rw [queue] at sleeps idle
    cases sleeps
    have early : now < first.dueAt := by
      by_contra due
      simp only [if_neg due] at idle
      cases idle
    refine ⟨⟨kept, ?_⟩, ?_⟩
    · intro key queued
      rw [queue] at queued
      exact ⟨first.dueAt, rfl, dueAt_le_of_ordered (queue ▸ coupled.ordered) queued⟩
    · rintro _ ⟨⟩
      exact early

theorem add?_since {now alarm : Instant} (ahead : now < alarm) :
    now.add? (alarm.since now) = some alarm := by
  rw [Instant.lt_def] at ahead
  rw [Instant.add?_eq_some_iff, Instant.nanos_since]
  omega

/-- Whoever puts a timer into the queue calls the worker. -/
theorem Step.mem_queue_of_silent {before after : Scheduler} {event : Event}
    (step : Step before event after) (coupled : before.Coupled)
    (silent : event.signals before after = 0) {key : QueueKey} (queued : key ∈ after.queue) :
    key ∈ before.queue := by
  rcases step.mem_queue coupled queued with earlier | rfl | ⟨execution, ending, now, rfl, -⟩
  · exact earlier
  · cases silent
  cases step with
  | settle ending now innermost =>
    have running := coupled.status_of_executing (mem_executions_of_stack innermost).1
    obtain ⟨timer, found, -⟩ := status?_eq_some_iff.mp running
    have ended : (timer.afterRun now).status ≠ .pending := by
      intro again
      have waits := status?_eq_some_iff.mpr ⟨_, timer?_settle found now, again⟩
      simp [Event.signals, waits] at silent
    rwa [settle_eq found, if_neg ended] at queued

end Scheduler

namespace Crew

/-- Whether a worker that sleeps while no call is on its way has nothing to do. -/
def Alert (crew : Crew) : Prop :=
  ∀ worker wakeAt, crew.stage worker = some (.asleep wakeAt) → crew.signals = 0 →
    crew.scheduler.QuietUntil wakeAt

/-- Whether no worker sleeps. -/
def Awake (crew : Crew) : Prop :=
  ∀ worker wakeAt, crew.stage worker ≠ some (.asleep wakeAt)

theorem Awake.alert {crew : Crew} (awake : crew.Awake) : crew.Alert :=
  fun worker wakeAt asleep => (awake worker wakeAt asleep).elim

theorem Orderly.awake_of_vacant {crew : Crew} (orderly : crew.Orderly)
    (vacant : crew.scheduler.worker = none) : crew.Awake :=
  fun worker _ asleep => orderly.not_working vacant worker ⟨_, asleep, nofun⟩

theorem Orderly.awake_update {crew : Crew} (orderly : crew.Orderly) {worker : ThreadId}
    (working : crew.Working worker) (next : Stage) (up : ∀ wakeAt, next ≠ .asleep wakeAt)
    (scheduler : Scheduler) (signals : Nat) :
    Awake { crew with
      scheduler
      stage := Function.update crew.stage worker (some next)
      signals } := by
  intro other wakeAt asleep
  rcases stage_update_cases asleep with ⟨-, sleeps⟩ | ⟨different, before⟩
  · exact up wakeAt sleeps.symm
  · exact different (orderly.unique ⟨_, before, nofun⟩ working)

theorem Alert.operate {crew : Crew} (alert : crew.Alert) (orderly : crew.Orderly)
    {thread : ThreadId} {event : Scheduler.Event} (made : event.MadeBy thread)
    {after : Scheduler} (step : Scheduler.Step crew.scheduler event after) :
    Alert { crew with
      scheduler := after
      signals := crew.signals + event.signals crew.scheduler after } := by
  intro worker wakeAt asleep silent
  obtain ⟨before, noneSent⟩ := Nat.add_eq_zero_iff.mp silent
  obtain ⟨same, -⟩ := step.of_madeBy orderly.coupled made
  exact (alert worker wakeAt asleep before).of_subset same.shutdown fun key queued =>
    step.mem_queue_of_silent orderly.coupled noneSent queued

theorem Alert.start {crew : Crew} (alert : crew.Alert) (orderly : crew.Orderly)
    (thread : ThreadId) (granted : Bool) : (crew.afterStart thread granted).Alert := by
  unfold afterStart
  rcases crew.scheduler.start_cases thread granted with
    ⟨vacant, -, answer⟩ | ⟨vacant, -, answer⟩ | ⟨-, -, answer⟩ | ⟨-, -, answer⟩ |
    ⟨_, -, -, -, answer⟩
  · rw [answer]
    apply Awake.alert
    intro worker wakeAt asleep
    rcases stage_update_cases asleep with ⟨-, sleeps⟩ | ⟨-, before⟩
    · cases sleeps
    · exact orderly.awake_of_vacant vacant worker wakeAt before
  · rw [answer]
    exact Awake.alert (orderly.awake_of_vacant vacant)
  all_goals
    rw [answer]
    exact alert

theorem Orderly.alert_turn {crew : Crew} (orderly : crew.Orderly) {worker : ThreadId}
    (looping : crew.stage worker = some .looping) (now : Instant) :
    (crew.afterTurn worker now).Alert := by
  have working : crew.Working worker := ⟨.looping, looping, nofun⟩
  unfold afterTurn
  dsimp only
  cases move : (crew.scheduler.turn worker now).1 with
  | run execution =>
    exact (orderly.awake_update working .looping (fun _ up => nomatch up) _ _).alert
  | leave => exact (orderly.awake_update working .leaving (fun _ up => nomatch up) _ _).alert
  | sleep wakeAt =>
    have same : (crew.scheduler.turn worker now).2.scheduler = crew.scheduler := by
      rcases crew.scheduler.turn_cases worker now with
        ⟨-, leaves, -⟩ | ⟨-, looked, ⟨_, -, runs⟩ | ⟨_, idle, -⟩⟩
      · cases leaves.symm.trans move
      · cases runs.symm.trans move
      · rw [looked, orderly.coupled.takeDue_eq_self orderly.present idle]
    intro other wakesAt asleep _
    rcases stage_update_cases asleep with ⟨-, sleeps⟩ | ⟨different, before⟩
    · cases sleeps
      rw [same]
      exact (orderly.coupled.turn_sleep orderly.present move).1
    · exact (different (orderly.unique ⟨_, before, nofun⟩ working)).elim

theorem Step.alert {before after : Crew} {act : Act} (step : Step before act after)
    (orderly : before.Orderly) (alert : before.Alert) : after.Alert := by
  cases step with
  | operate thread free made step => exact alert.operate orderly made step
  | start thread granted => exact alert.start orderly thread granted
  | stop thread => exact fun _ _ _ silent => nomatch silent
  | join => exact alert
  | turn worker now looping => exact orderly.alert_turn looping now
  | wake worker asleep | signal worker pending asleep =>
    exact (orderly.awake_update ⟨_, asleep, nofun⟩ .looping (fun _ up => nomatch up) _ _).alert
  | signalNobody pending awake => exact Awake.alert awake
  | leave worker leaving =>
    exact (orderly.awake_update ⟨_, leaving, nofun⟩ .gone (fun _ up => nomatch up) _ _).alert

theorem Run.alert {first last : Crew} {acts : List Act} (run : Run first acts last)
    (orderly : first.Orderly) (alert : first.Alert) : last.Alert := by
  induction run with
  | nil => exact alert
  | cons step _ induction =>
    exact induction (step.orderly orderly) (step.alert orderly alert)

/-- However the steps of all threads follow each other, and whichever calls arrive late or
find nobody asleep: a worker that sleeps while no call is on its way has not been told to
leave, no timer in the queue is due before the worker wakes by itself, and if it does not
wake by itself the queue is empty.  The worker sleeps for the time from the clock's reading
to that instant, so this is when its sleep ends. -/
theorem no_wakeup_lost {outsiders : Nat} {acts : List Act} {crew : Crew}
    (run : Run (.new outsiders) acts crew) :
    (∀ worker wakeAt, crew.stage worker = some (.asleep wakeAt) → crew.signals = 0 →
      crew.scheduler.shutdown = false ∧
      (∀ alarm, wakeAt = some alarm → ∀ key ∈ crew.scheduler.queue, ¬ key.dueAt < alarm) ∧
      (wakeAt = none → crew.scheduler.queue = [])) ∧
    (∀ worker now alarm, (crew.scheduler.turn worker now).1 = .sleep (some alarm) →
      now.add? (alarm.since now) = some alarm) := by
  have orderly := run.orderly (.initial outsiders)
  have alert := run.alert (.initial outsiders) (Awake.alert fun _ _ asleep => nomatch asleep)
  refine ⟨?_, ?_⟩
  · intro worker wakeAt asleep silent
    obtain ⟨kept, later⟩ := alert worker wakeAt asleep silent
    refine ⟨kept, ?_, ?_⟩
    · rintro alarm rfl key queued early
      obtain ⟨_, ⟨⟩, late⟩ := later key queued
      rw [Instant.lt_def] at early
      rw [Instant.le_def] at late
      omega
    · rintro rfl
      refine List.eq_nil_iff_forall_not_mem.mpr fun key queued => ?_
      obtain ⟨_, ⟨⟩, -⟩ := later key queued
  · intro worker now alarm sleeps
    exact Scheduler.add?_since
      ((orderly.coupled.turn_sleep orderly.present sleeps).2 alarm rfl)

/-- A worker sleeps while a thread queues a timer that is due after ten nanoseconds, and once
the call has arrived it sleeps until then; the call for a second timer, due after five, makes
it sleep until that one is due. -/
theorem no_wakeup_lost_earlier :
    let five : Instant := ⟨5, by decide, by decide⟩
    let ten : Instant := ⟨10, by decide, by decide⟩
    let queued := fun (crew : Crew) (first : Instant) =>
      { crew with
        scheduler := (crew.scheduler.register (.instant first) none .origin).2
        signals := crew.signals + 1 }
    let called := fun (crew : Crew) =>
      { crew with
        stage := Function.update crew.stage 2 (some .looping)
        signals := crew.signals - 1 }
    let idle := ((Crew.new 1).afterStart 0 true).afterTurn 2 .origin
    let waiting := (called (queued idle ten)).afterTurn 2 .origin
    let earlier := (called (queued waiting five)).afterTurn 2 .origin
    Run (.new 1) [.started 0 (.spawned 2), .turned 2 (.sleep none),
      .operated 0 (.registered 0 ten), .signalled (some 2), .turned 2 (.sleep (some ten)),
      .operated 1 (.registered 1 five), .signalled (some 2),
      .turned 2 (.sleep (some five))] earlier ∧
    earlier.stage 2 = some (.asleep (some five)) ∧ earlier.signals = 0 ∧
    earlier.scheduler.shutdown = false ∧
    earlier.scheduler.queue = [⟨five, 1⟩, ⟨ten, 0⟩] ∧
    (∀ key ∈ earlier.scheduler.queue, ¬ key.dueAt < five) ∧
    Instant.origin.add? (five.since .origin) = some five := by
  intro five ten queued called idle waiting earlier
  have starts : Step (.new 1) (.started 0 (.spawned 2)) ((Crew.new 1).afterStart 0 true) :=
    .start 0 true (.inl (.of_outside (by decide) (by decide) (fun _ => List.not_mem_nil) rfl))
  have rests : Step ((Crew.new 1).afterStart 0 true) (.turned 2 (.sleep none)) idle :=
    .turn 2 .origin rfl rfl
  have queues : Step idle (.operated 0 (.registered 0 ten)) (queued idle ten) :=
    .operate 0 (.of_outside (by decide) (by decide) (fun _ => List.not_mem_nil) rfl) trivial
      (.register (.instant ten) none .origin rfl)
  have calls : Step (queued idle ten) (.signalled (some 2)) (called (queued idle ten)) :=
    .signal 2 (by decide) rfl
  have waits :
      Step (called (queued idle ten)) (.turned 2 (.sleep (some ten))) waiting :=
    .turn 2 .origin rfl rfl
  have queuesEarlier :
      Step waiting (.operated 1 (.registered 1 five)) (queued waiting five) :=
    .operate 1 (.of_outside (by decide) (by decide) (fun _ => List.not_mem_nil) rfl) trivial
      (.register (.instant five) none .origin rfl)
  have callsAgain :
      Step (queued waiting five) (.signalled (some 2)) (called (queued waiting five)) :=
    .signal 2 (by decide) rfl
  have waitsLess :
      Step (called (queued waiting five)) (.turned 2 (.sleep (some five))) earlier :=
    .turn 2 .origin rfl rfl
  have whole : Run (.new 1) [.started 0 (.spawned 2), .turned 2 (.sleep none),
      .operated 0 (.registered 0 ten), .signalled (some 2), .turned 2 (.sleep (some ten)),
      .operated 1 (.registered 1 five), .signalled (some 2),
      .turned 2 (.sleep (some five))] earlier :=
    .cons starts (.cons rests (.cons queues (.cons calls (.cons waits
      (.cons queuesEarlier (.cons callsAgain (.cons waitsLess .nil)))))))
  obtain ⟨quiet, sleeps⟩ := no_wakeup_lost whole
  obtain ⟨kept, alarmed, -⟩ := quiet 2 (some five) rfl rfl
  exact ⟨whole, rfl, rfl, kept, by decide, alarmed five rfl, sleeps 2 .origin five rfl⟩

end Crew

end TimeSync
