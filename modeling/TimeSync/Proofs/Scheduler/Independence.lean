import TimeSync.Proofs.Scheduler.StandingClock

/-!
# Timers do not interfere

A call that runs what is due takes the timers in the order of their deadlines, and puts some
of them back between others.  Where callbacks leave the scheduler alone and take no time, none
of this shows in the record of a timer: how often it is run and what becomes of it follow from
its own record and the reading of the clock, as they do where it is the only timer.  And what
a timer has become in a scheduler with others it can become in one where it is alone.
-/

namespace TimeSync

namespace Timer

variable {timer : Timer} {now : Instant}

/-- How often a call that runs what is due runs a timer while the clock shows `now`. -/
def runsAt (now : Instant) (timer : Timer) : ℕ :=
  if timer.Due now then timer.repeatsAt now + 1 else 0

/-- What a call that runs what is due makes of a timer while the clock shows `now`. -/
def drained (now : Instant) (timer : Timer) : Timer :=
  timer.afterRuns (List.replicate (timer.runsAt now) now)

theorem runsAt_of_due (due : timer.Due now) : timer.runsAt now = timer.repeatsAt now + 1 :=
  if_pos due

theorem runsAt_of_not_due (notDue : ¬ timer.Due now) : timer.runsAt now = 0 := if_neg notDue

theorem drained_of_not_due (notDue : ¬ timer.Due now) : timer.drained now = timer := by
  rw [drained, runsAt_of_not_due notDue]
  rfl

theorem StaysOnScale.repeatsAt_eq (stays : timer.StaysOnScale now) (sound : timer.Sound)
    (due : timer.Due now) : timer.repeatsAt now = (timer.afterRun now).runsAt now := by
  by_cases again : (timer.afterRun now).Due now
  · have few := (stays.afterRun sound).2
    have once := timer.repeatsAt_le_one now
    rw [chances_of_due again] at few
    rw [runsAt_of_due again]
    omega
  · rw [runsAt_of_not_due again, repeatsAt]
    cases fits : timer.period.bind timer.phase.add? with
    | none => rfl
    | some next =>
      obtain ⟨period, repeating, reached⟩ := Option.bind_eq_some_iff.mp fits
      refine if_neg fun passed => again ((due_afterRun_iff (Int.le_refl _)).mpr
        ⟨rfl, sound.wanted due.1, period, repeating, fun other found => ?_⟩)
      cases found.symm.trans reached
      exact passed

/-- There is only one way to run a timer until it is not due any more, if the runs take no
time. -/
theorem Sound.ends_eq (sound : timer.Sound) (onScale : timer.Due now → timer.StaysOnScale now)
    {ends : List Instant} (drains : timer.Drains now ends)
    (still : ∀ ended ∈ ends, ended = now) : ends = List.replicate (timer.runsAt now) now := by
  induction ends generalizing timer with
  | nil =>
    rw [runsAt_of_not_due drains]
    rfl
  | cons ended ends induction =>
    obtain ⟨due, rest⟩ := drains
    obtain ⟨rfl, later⟩ := List.forall_mem_cons.mp still
    have stays := onScale due
    have left := induction (sound.afterRun ended) (stays.afterRun sound).1 rest later
    rw [runsAt_of_due due, stays.repeatsAt_eq sound due, List.replicate_succ, ← left]

end Timer

namespace Scheduler

/-- The scheduler of a timer that is the only one that was registered. -/
def solo (timer : Timer) : Scheduler where
  timers := [timer]
  queue := if timer.status = .pending then [⟨timer.fireAt, 0⟩] else []
  executions := if timer.status = .running then [⟨0, 0, timer.fireAt⟩] else []

variable {timer : Timer}

theorem step_solo_register (deadline : Instant) (given : Option Duration) :
    Step {} (.registered 0 deadline) (.solo (.waiting deadline (given.map Timer.clampPeriod))) :=
  .register (.instant deadline) given deadline rfl

theorem step_solo_take (pending : timer.status = .pending) :
    Step (.solo timer) (.taken ⟨0, 0, timer.fireAt⟩ timer.fireAt)
      (.solo { timer with status := .running }) := by
  have due : ¬ timer.fireAt < timer.fireAt := Int.lt_irrefl _
  have takes : takeDue (.solo timer) 0 timer.fireAt =
      ⟨[], some ⟨0, 0, timer.fireAt⟩, .solo { timer with status := .running }⟩ := by
    simp [takeDue, takeFrom, solo, pending, due, status?, timer?, enter, modify]
  have step := Step.take 0 timer.fireAt rfl (congrArg Taken.execution takes)
  rw [takes] at step
  exact step

theorem step_solo_settle (running : timer.status = .running) (ending : Ending) (now : Instant) :
    Step (.solo timer) (.settled ⟨0, 0, timer.fireAt⟩ ending now)
      (.solo (timer.afterRun now)) := by
  have innermost : stack (.solo timer) (⟨0, 0, timer.fireAt⟩ : Execution).thread =
      [⟨0, 0, timer.fireAt⟩] := by
    simp [stack, solo, running]
  have settled : settle (.solo timer) ⟨0, 0, timer.fireAt⟩ now = .solo (timer.afterRun now) := by
    rw [settle_eq rfl]
    simp [solo, running, modify, QueueKey.insert, timer.status_afterRun_ne_running now]
  have step := Step.settle ending now innermost
  rw [settled] at step
  exact step

theorem cancel_solo {scheduler : Scheduler} {id : TimerId}
    (found : scheduler.timer? id = some timer) :
    ∃ later, (scheduler.cancel id).2.timer? id = some later ∧
      (cancel (.solo timer) 0).2 = .solo later := by
  have own : timer? (.solo timer) 0 = some timer := rfl
  cases status : timer.status with
  | pending =>
    rw [cancel_of_pending found status, cancel_of_pending own status]
    refine ⟨_, (timer?_modify _ _ _ _).trans ((if_pos rfl).trans (congrArg _ found)), ?_⟩
    simp [solo, status, modify, QueueKey.remove]
  | running =>
    rw [cancel_of_running found status, cancel_of_running own status]
    refine ⟨_, (timer?_modify _ _ _ _).trans ((if_pos rfl).trans (congrArg _ found)), ?_⟩
    simp [solo, status, modify]
  | cancelled =>
    rw [cancel_of_over found (.inl status), cancel_of_over own (.inl status)]
    exact ⟨timer, found, rfl⟩
  | completed =>
    rw [cancel_of_over found (.inr status), cancel_of_over own (.inr status)]
    exact ⟨timer, found, rfl⟩

theorem Step.present_before {before after : Scheduler} {event : Event}
    (step : Step before event after) (present : after.closed = false) :
    before.closed = false := by
  cases step with
  | register _ _ _ first => exact first
  | take _ _ first _ => exact first
  | idle _ _ first _ => exact first
  | @settle execution _ _ now _ =>
    unfold Scheduler.settle at present
    split at present <;> exact present
  | cancel id => exact (before.effects_cancelHandle id).2.1 ▸ present
  | start _ _ first => exact first
  | requestStop first => exact first
  | @leave worker _ _ => exact (timers_leave before worker).2.2.2 ▸ present
  | close first _ _ => exact first

theorem Run.present_before {first last : Scheduler} {events : List Event}
    (run : Run first events last) (present : last.closed = false) : first.closed = false := by
  induction run with
  | nil => exact present
  | cons step _ induction => exact step.present_before (induction present)

/-- What a step makes of a timer, as long as the scheduler is there, a step or none makes of
it where it is alone. -/
theorem Step.run_solo {before after : Scheduler} {event : Event} {id : TimerId}
    (step : Step before event after) (coupled : Coupled before)
    (present : after.closed = false) (found : before.timer? id = some timer) :
    ∃ later, after.timer? id = some later ∧ ∃ events, Run (.solo timer) events (.solo later) := by
  by_cases about : event.timer? = some id
  · cases step with
    | register first period now =>
      cases about
      have unknown : before.timer? before.timers.length = none :=
        List.getElem?_eq_none (Nat.le_refl _)
      cases unknown.symm.trans found
    | take thread cutoff first taken =>
      cases about
      obtain ⟨-, takes⟩ := coupled.takes first taken
      obtain ⟨other, same, pending, -⟩ := takes.waits coupled first
      cases found.symm.trans same
      exact ⟨_, takes.timer? found, _, .single (step_solo_take pending)⟩
    | settle ending now innermost =>
      cases about
      have running := coupled.status_of_executing (mem_executions_of_stack innermost).1
      obtain ⟨other, same, runs⟩ := status?_eq_some_iff.mp running
      cases found.symm.trans same
      exact ⟨_, timer?_settle found now, _, .single (step_solo_settle runs ending now)⟩
    | cancel target =>
      cases about
      have first := (Step.cancel id).present_before present
      obtain ⟨later, same, alone⟩ := cancel_solo found
      have step : Step (.solo timer) _ _ := .cancel 0
      rw [cancelHandle_of_present rfl, alone] at step
      exact ⟨later, cancelHandle_of_present first id ▸ same, _, .single step⟩
    | _ => cases about
  · have kept : event ≠ .closed := by
      rintro rfl
      cases step with
      | close => cases present
    -- What happens to another timer is no step where this one is alone.
    exact ⟨timer, (step.sameAt coupled about kept).timer.trans found, [], .nil⟩

theorem Step.reachable_solo {before after : Scheduler} {event : Event} {id : TimerId}
    (step : Step before event after) (coupled : Coupled before)
    (alone : ∀ timer, before.timer? id = some timer → Reachable (.solo timer))
    (present : after.closed = false) (found : after.timer? id = some timer) :
    Reachable (.solo timer) := by
  cases known : before.timer? id with
  | none =>
    obtain ⟨first, rfl⟩ := step.registered_of_unknown coupled known found
    obtain ⟨-, given, waits⟩ := step.registered
    cases waits.symm.trans found
    exact ⟨_, .single (step_solo_register first given)⟩
  | some earlier =>
    obtain ⟨later, same, events, run⟩ := step.run_solo coupled present known
    cases same.symm.trans found
    exact (alone earlier known).run run

theorem Run.reachable_solo {first last : Scheduler} {events : List Event} {id : TimerId}
    (run : Run first events last) (coupled : Coupled first)
    (alone : ∀ timer, first.timer? id = some timer → Reachable (.solo timer))
    (present : last.closed = false) (found : last.timer? id = some timer) :
    Reachable (.solo timer) := by
  induction run with
  | nil => exact alone timer found
  | cons step rest induction =>
    have before := rest.present_before present
    exact induction (step.coupled coupled)
      (fun _ known => step.reachable_solo coupled alone before known) present found

theorem Reachable.solo {scheduler : Scheduler} (reachable : Reachable scheduler)
    (present : scheduler.closed = false) {id : TimerId}
    (found : scheduler.timer? id = some timer) : Reachable (.solo timer) := by
  obtain ⟨events, run⟩ := reachable
  exact run.reachable_solo Coupled.initial (fun _ unknown => nomatch unknown) present found

end Scheduler

theorem Ran.length_ends (ran : List Ran) (id : TimerId) :
    (Ran.ends ran id).length = (ran.map Ran.timer).count id := by
  rw [ends, List.length_map, List.count_eq_countP, List.countP_map,
    List.countP_eq_length_filter]
  rfl

theorem Ran.length_eq_sum {ran : List Ran} {timers : List Timer} (runs : Timer → ℕ)
    (known : ∀ one ∈ ran, one.timer < timers.length)
    (counted : ∀ id timer, timers[id]? = some timer → (Ran.ends ran id).length = runs timer) :
    ran.length = (timers.map runs).sum := by
  have within : ∀ id ∈ (ran.map Ran.timer : Multiset TimerId),
      id ∈ Finset.range timers.length := by
    intro id member
    obtain ⟨one, ran, rfl⟩ := List.mem_map.mp (Multiset.mem_coe.mp member)
    exact Finset.mem_range.mpr (known one ran)
  calc
    ran.length = ∑ id ∈ Finset.range timers.length, (ran.map Ran.timer).count id := by
      simpa using (Multiset.sum_count_eq_card within).symm
    _ = ∑ place : Fin timers.length, (ran.map Ran.timer).count place.val :=
      Finset.sum_range _
    _ = ∑ place : Fin timers.length, runs timers[place] := by
      refine Finset.sum_congr rfl fun place _ => ?_
      rw [← Ran.length_ends]
      exact counted place _ (List.getElem?_eq_getElem place.isLt)
    _ = (timers.map runs).sum := Fin.sum_univ_fun_getElem timers runs

namespace Engine

variable {ε : Type} {behaviour : Behaviour ε} {thread : ThreadId}

/-- A call that runs what is due makes of each timer what is to be made of it. -/
theorem InUse.runPending_eq (aloof : behaviour.Aloof) (prompt : behaviour.Prompt)
    {engine : Engine ε} (inUse : engine.InUse) (onScale : engine.DueOnScale)
    (thread : ThreadId) {bound : ℕ} (enough : 2 * engine.scheduler.timers.length < bound) :
    let now := engine.context.now
    ∃ after, engine.runPending behaviour bound thread =
        some ((engine.scheduler.timers.map (Timer.runsAt now)).sum, after) ∧
      after.scheduler.timers = engine.scheduler.timers.map (Timer.drained now) ∧
      ∀ id timer, engine.scheduler.timer? id = some timer →
        Ran.ends (engine.ranDue behaviour thread now bound) id =
          List.replicate (timer.runsAt now) now := by
  intro now
  obtain ⟨count, after, ran, -⟩ :=
    inUse.exists_runPending (prompt.still aloof) thread onScale enough
  obtain ⟨drains, length, -⟩ := drains_of_runDue ran
  have ends : ∀ id timer, engine.scheduler.timer? id = some timer →
      Ran.ends (engine.ranDue behaviour thread now bound) id =
        List.replicate (timer.runsAt now) now := by
    intro id timer present
    refine (inUse.reachable.sound present).ends_eq (onScale id timer present)
      (drains.timer aloof inUse present).1 fun ended member => ?_
    obtain ⟨one, own, rfl⟩ := List.mem_map.mp member
    exact drains.endedAt_eq prompt one (List.mem_filter.mp own).1
  obtain ⟨same, known⟩ := drains.known aloof inUse
  refine ⟨after, ?_, ?_, ends⟩
  · rw [ran, ← length, Ran.length_eq_sum (Timer.runsAt now) known fun id timer present => ?_]
    rw [ends id timer present, List.length_replicate]
  · refine List.ext_getElem? fun id => ?_
    rw [List.getElem?_map]
    cases present : engine.scheduler.timers[id]? with
    | none =>
      rw [List.getElem?_eq_none_iff] at present
      exact List.getElem?_eq_none (same ▸ present)
    | some timer =>
      have becomes := (drains.timer aloof inUse present).2
      rw [ends id timer present] at becomes
      exact becomes

/-- Timers do not interfere.  Where callbacks leave the scheduler alone and take no time, and
the grid of every timer that is due stays on the scale, a call that runs what is due returns.
How often it runs a timer and what it makes of it depend on nothing but the record of the
timer and the reading of the clock: not on the other timers, nor on the order in which they
were registered.  The call gives the sum of these numbers, and a timer that is not due stays
as it is.  There is a scheduler with this timer alone, and in any such scheduler a call runs
it as often and makes the same of it. -/
theorem timers_do_not_interfere (aloof : behaviour.Aloof) (prompt : behaviour.Prompt)
    {engine : Engine ε} (inUse : engine.InUse) (onScale : engine.DueOnScale)
    (thread : ThreadId) {bound : ℕ} (enough : 2 * engine.scheduler.timers.length < bound) :
    let now := engine.context.now
    let timers := engine.scheduler.timers
    ∃ after, engine.runPending behaviour bound thread =
        some ((timers.map (Timer.runsAt now)).sum, after) ∧
      after.scheduler.timers = timers.map (Timer.drained now) ∧
      ∀ id timer, engine.scheduler.timer? id = some timer →
        Ran.ends (engine.ranDue behaviour thread now bound) id =
          List.replicate (timer.runsAt now) now ∧
        (¬ timer.Due now → timer.runsAt now = 0 ∧ timer.drained now = timer) ∧
        (∃ scheduler, Scheduler.Reachable scheduler ∧ scheduler.closed = false ∧
          scheduler.timers = [timer]) ∧
        ∀ {δ : Type} (other : Behaviour δ) (alone : Engine δ), other.Aloof → other.Prompt →
          alone.InUse → alone.scheduler.timers = [timer] → alone.context.now = now →
          ∀ (worker : ThreadId) (limit : ℕ), 2 < limit →
            ∃ last, alone.runPending other limit worker = some (timer.runsAt now, last) ∧
              last.scheduler.timers = [timer.drained now] := by
  intro now timers
  obtain ⟨after, ran, becomes, ends⟩ := inUse.runPending_eq aloof prompt onScale thread enough
  refine ⟨after, ran, becomes, fun id timer present => ⟨ends id timer present, ?_, ?_, ?_⟩⟩
  · intro notDue
    exact ⟨Timer.runsAt_of_not_due notDue, Timer.drained_of_not_due notDue⟩
  · exact ⟨.solo timer, inUse.reachable.solo inUse.present present, rfl, rfl⟩
  · intro δ other alone otherAloof otherPrompt aloneInUse only shows worker limit few
    have aloneOnScale : alone.DueOnScale := by
      intro place single found
      rw [Scheduler.timer?, only, List.getElem?_singleton] at found
      obtain ⟨-, same⟩ := Option.ite_none_right_eq_some.mp found
      cases same
      rw [shows]
      exact onScale id timer present
    have enoughAlone : 2 * alone.scheduler.timers.length < limit := by
      rw [only]
      exact few
    obtain ⟨last, ranAlone, becomesAlone, -⟩ :=
      aloneInUse.runPending_eq otherAloof otherPrompt aloneOnScale worker enoughAlone
    rw [only, shows] at ranAlone becomesAlone
    exact ⟨last, ranAlone, becomesAlone⟩

/-- A late timer of one second beside one that is due just now and does not repeat: the call
runs the first twice, as it does where that is the only timer. -/
theorem timers_do_not_interfere_late :
    let both := (lateTimer.register (.instant lateTimer.context.now) none).2
    ∃ after last, both.runPending doNothing 5 0 = some (3, after) ∧
      after.scheduler.timers.map Timer.status = [.pending, .completed] ∧
      lateTimer.runPending doNothing 3 0 = some (2, last) ∧
      last.scheduler.timers = after.scheduler.timers.take 1 := by
  intro both
  have inUse : both.InUse :=
    (Operated.onTime steady_doNothing (.register (.register (.new _) _ _) _ _)).1
  have onScale : both.DueOnScale := by
    intro id timer found due
    refine Timer.staysOnScale_of_add? (Int.le_trans ?_ due.2) fun period repeating => ?_
    · exact (inUse.reachable.sound found).inOrder
    · match id with
      | 0 =>
        cases found
        cases repeating
        decide
      | 1 =>
        cases found
        cases repeating
      | _ + 2 => cases found
  obtain ⟨after, ran, becomes, each⟩ :=
    timers_do_not_interfere aloof_doNothing prompt_doNothing inUse onScale 0 (by decide : 4 < 5)
  obtain ⟨-, -, -, alone⟩ := each 0 _ rfl
  obtain ⟨last, ranAlone, becomesAlone⟩ :=
    alone doNothing lateTimer aloof_doNothing prompt_doNothing onTime_lateTimer.1 rfl rfl 0 3
      (by decide)
  refine ⟨after, last, ran.trans ?_, ?_, ranAlone.trans ?_, ?_⟩
  · exact congrArg (fun count => some (count, after)) (by decide +kernel)
  · rw [becomes]
    decide +kernel
  · exact congrArg (fun count => some (count, last)) (by decide +kernel)
  · rw [becomes, becomesAlone]
    rfl

end Engine

end TimeSync
