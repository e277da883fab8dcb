import TimeSync.Proofs.Scheduler.Drain

/-!
# Timers that wait again during a call

A call that runs what is due reads the clock once, when it begins, and takes every timer
whose deadline is not after that reading.  A timer that waits again never waits for an
instant before the end of its run, and the clock is not set back, so the call takes it once
more only if the clock still shows the same reading at the end of that run.
-/

namespace TimeSync

namespace Timer

theorem le_fireAt_afterRun {timer : Timer} {ended : Instant}
    (again : (timer.afterRun ended).status = .pending) :
    ended ≤ (timer.afterRun ended).fireAt := by
  obtain ⟨period, -, renewed⟩ := afterRun_of_pending again
  rw [renewed]
  exact le_nextDeadline timer.phase period ended

theorem nextDeadline_le_iff {phase cutoff ended : Instant} {period : Duration}
    (reached : cutoff ≤ ended) :
    (nextDeadline phase period ended).2 ≤ cutoff ↔
      ended = cutoff ∧ ∀ next, phase.add? period = some next → next ≤ cutoff := by
  have notLater := le_nextDeadline phase period ended
  unfold nextDeadline at notLater ⊢
  simp only [Instant.le_def, Instant.ext_iff] at reached notLater ⊢
  cases fits : phase.add? period with
  | none =>
    simp only [fits] at notLater ⊢
    constructor
    · intro early
      exact ⟨by omega, fun next found => nomatch found⟩
    · rintro ⟨still, -⟩
      omega
  | some next =>
    simp only [fits, Option.some.injEq, forall_eq'] at notLater ⊢
    split
    · rename_i inTime
      dsimp only at notLater ⊢
      omega
    · rename_i passed
      dsimp only at notLater ⊢
      omega

/-- A timer is due again at the reading by which it was taken if its run ended at this very
reading and the next point of its grid is not after it, or is off the scale. -/
theorem due_afterRun_iff {timer : Timer} {cutoff ended : Instant} (reached : cutoff ≤ ended) :
    (timer.afterRun ended).Due cutoff ↔
      ended = cutoff ∧ timer.cancelRequested = false ∧
        ∃ period, timer.period = some period ∧
          ∀ next, timer.phase.add? period = some next → next ≤ cutoff := by
  constructor
  · rintro ⟨again, due⟩
    have wanted : timer.cancelRequested = false := by
      rw [status_afterRun] at again
      cases asked : timer.cancelRequested with
      | false => rfl
      | true =>
        rw [asked, if_pos rfl] at again
        cases again
    obtain ⟨period, repeating, renewed⟩ := afterRun_of_pending again
    rw [renewed] at due
    obtain ⟨still, passed⟩ := (nextDeadline_le_iff reached).mp due
    exact ⟨still, wanted, period, repeating, passed⟩
  · rintro ⟨still, wanted, period, repeating, passed⟩
    have again : (timer.afterRun ended).status = .pending := by
      simp [status_afterRun, wanted, repeating]
    obtain ⟨same, found, renewed⟩ := afterRun_of_pending again
    cases found.symm.trans repeating
    refine ⟨again, ?_⟩
    rw [renewed]
    exact (nextDeadline_le_iff reached).mpr ⟨still, passed⟩

theorem Drains.two_le_length_iff {cutoff : Instant} {timer : Timer} {ends : List Instant}
    (drains : timer.Drains cutoff ends) (reached : ∀ ended ∈ ends, cutoff ≤ ended) :
    2 ≤ ends.length ↔
      ends.head? = some cutoff ∧ timer.cancelRequested = false ∧
        ∃ period, timer.period = some period ∧
          ∀ next, timer.phase.add? period = some next → next ≤ cutoff := by
  cases ends with
  | nil => simp
  | cons ended ends =>
    have again : (timer.afterRun ended).Due cutoff ↔ _ :=
      due_afterRun_iff (reached ended List.mem_cons_self)
    rw [List.head?_cons, Option.some.injEq, ← again]
    cases ends with
    | nil =>
      constructor
      · intro two
        cases Nat.le_of_succ_le_succ two
      · intro due
        exact (drains.2 due).elim
    | cons further ends =>
      exact iff_of_true (Nat.le_add_left 2 ends.length) drains.2.1

end Timer

namespace Scheduler

theorem Timeline.le_fireAt_of_settled {moments : List Moment} {scheduler : Scheduler}
    {clock : Instant} (timeline : Timeline moments scheduler clock) {moment : Moment}
    (member : moment ∈ moments) {execution : Execution} {ending : Ending} {ended : Instant}
    (settles : moment.event = .settled execution ending ended) :
    ∃ timer, scheduler.timer? execution.timer = some timer ∧
      (timer.status = .pending → ended ≤ timer.fireAt) := by
  induction timeline with
  | start clock => cases member
  | wait earlier _ induction => exact induction member
  | @step moments before after event clock earlier step read induction =>
    rcases List.mem_append.mp member with front | last
    · obtain ⟨timer, found, notBefore⟩ := induction front
      obtain ⟨-, -, readThen, past⟩ := earlier.of_mem front
      rw [settles] at readThen
      rcases step.timer_cases earlier.coupled found with
        ⟨-, -, status, asked, marked, -, kept⟩ | ⟨_, _, -, -, -, -, begun⟩ |
        ⟨_, _, now, rfl, -, -, renewed⟩
      · refine ⟨_, kept, fun waiting => notBefore ?_⟩
        rcases marked with same | cancelled
        · exact same.symm.trans waiting
        · cases cancelled.symm.trans waiting
      · exact ⟨_, begun, fun waiting => nomatch waiting⟩
      · refine ⟨_, renewed, fun again => ?_⟩
        obtain rfl : now = clock := read
        obtain rfl : ended = moment.clock := readThen
        exact Int.le_trans past (Timer.le_fireAt_afterRun again)
    · cases List.mem_singleton.mp last
      cases settles
      cases step with
      | settle _ _ innermost =>
        have running :=
          earlier.coupled.status_of_executing (mem_executions_of_stack innermost).1
        obtain ⟨timer, found, -⟩ := status?_eq_some_iff.mp running
        exact ⟨_, timer?_settle found ended, Timer.le_fireAt_afterRun⟩

end Scheduler

namespace Engine

open Scheduler (Moment Timeline)

variable {ε : Type} {behaviour : Behaviour ε} {thread : ThreadId} {cutoff : Instant}

/-- The executions that a call which runs what is due begins, not counting those that calls
inside its callbacks begin. -/
def begunDue (behaviour : Behaviour ε) (thread : ThreadId) (cutoff : Instant) :
    Nat → Engine ε → List Execution
  | 0, _ => []
  | bound + 1, engine =>
    match engine.takeDue thread cutoff with
    | (none, _) => []
    | (some execution, engine) =>
      execution :: match engine.fire behaviour execution with
        | none => []
        | some engine => begunDue behaviour thread cutoff bound engine

theorem begunDue_cases (behaviour : Behaviour ε) (thread : ThreadId) (cutoff : Instant)
    (bound : Nat) (engine : Engine ε) :
    (engine.begunDue behaviour thread cutoff (bound + 1) = [] ∧
      engine.ranDue behaviour thread cutoff (bound + 1) = []) ∨
    ∃ execution taken, engine.takeDue thread cutoff = (some execution, taken) ∧
      ((taken.fire behaviour execution = none ∧
          engine.begunDue behaviour thread cutoff (bound + 1) = [execution] ∧
          engine.ranDue behaviour thread cutoff (bound + 1) = []) ∨
        ∃ fired, taken.fire behaviour execution = some fired ∧
          engine.begunDue behaviour thread cutoff (bound + 1) =
            execution :: fired.begunDue behaviour thread cutoff bound ∧
          engine.ranDue behaviour thread cutoff (bound + 1) =
            ⟨execution.timer, fired.context.now⟩ ::
              fired.ranDue behaviour thread cutoff bound) := by
  cases found : engine.takeDue thread cutoff with
  | mk answer taken =>
    cases answer with
    | none => exact .inl ⟨by simp only [begunDue, found], by simp only [ranDue, found]⟩
    | some execution =>
      refine .inr ⟨execution, taken, rfl, ?_⟩
      cases firing : taken.fire behaviour execution with
      | none =>
        exact .inl ⟨rfl, by simp only [begunDue, found, firing],
          by simp only [ranDue, found, firing]⟩
      | some fired =>
        exact .inr ⟨fired, rfl, by simp only [begunDue, found, firing],
          by simp only [ranDue, found, firing]⟩

theorem begunDue_of_runDue {engine after : Engine ε} {bound count : Nat}
    (ran : engine.runDue behaviour thread cutoff bound = some (count, after)) :
    (engine.begunDue behaviour thread cutoff bound).map Execution.timer =
      (engine.ranDue behaviour thread cutoff bound).map Ran.timer := by
  induction bound generalizing engine count with
  | zero => rfl
  | succ bound induction =>
    rcases engine.begunDue_cases behaviour thread cutoff bound with ⟨begun, ended⟩ |
      ⟨execution, taken, found, ⟨firing, begun, ended⟩ | ⟨fired, firing, begun, ended⟩⟩
    · rw [begun, ended, List.map_nil, List.map_nil]
    · simp [runDue, found, firing] at ran
    · simp only [runDue, found, firing, Option.bind_eq_bind, Option.bind_some,
        Option.bind_eq_some_iff, Option.pure_def, Option.some.injEq] at ran
      obtain ⟨⟨further, last⟩, rest, same⟩ := ran
      cases same
      rw [begun, ended, List.map_cons, List.map_cons, induction rest]

theorem InUse.timeline_fire (steady : behaviour.Steady) {engine taken fired : Engine ε}
    (inUse : engine.InUse) {execution : Execution} (reached : cutoff ≤ engine.context.now)
    (found : engine.takeDue thread cutoff = (some execution, taken))
    (firing : taken.fire behaviour execution = some fired) {moments : List Moment}
    (timeline : Timeline moments engine.scheduler engine.context.now) :
    ∃ later, Timeline (moments ++ later) fired.scheduler fired.context.now ∧
      ∃ moment ∈ later, ∃ ending, moment.event = .settled execution ending fired.context.now := by
  obtain ⟨takenInUse, own, begins, pushed⟩ := inUse.takeDue_some found
  subst own
  obtain ⟨returned, ending, passes, settles, still⟩ :=
    fire_settles steady takenInUse pushed firing
  have begun : Timeline _ taken.scheduler taken.context.now :=
    now_takeDue found ▸ timeline.step begins reached
  obtain ⟨inside, returning⟩ := passes.continues _ begun
  have settled := returning.step settles still
  rw [← still, List.append_assoc, List.append_assoc] at settled
  let ends : Moment := ⟨returned.scheduler, .settled execution ending fired.context.now,
    fired.scheduler, fired.context.now⟩
  exact ⟨_, settled, ends, by simp [ends], ending, rfl⟩

/-- What a call begins is due at its cutoff, and was not due before the end of any run that
the timer has had. -/
theorem InUse.dueAt_of_mem_begunDue (steady : behaviour.Steady) {engine : Engine ε}
    (inUse : engine.InUse) (reached : cutoff ≤ engine.context.now) {moments : List Moment}
    (timeline : Timeline moments engine.scheduler engine.context.now) {bound : Nat}
    {begun : Execution} (member : begun ∈ engine.begunDue behaviour thread cutoff bound) :
    begun.dueAt ≤ cutoff ∧ ∀ moment ∈ moments, ∀ execution ending ended,
      moment.event = .settled execution ending ended → execution.timer = begun.timer →
      ended ≤ begun.dueAt := by
  have first : ∀ {engine taken : Engine ε} {moments : List Moment}, engine.InUse →
      Timeline moments engine.scheduler engine.context.now →
      engine.takeDue thread cutoff = (some begun, taken) →
      begun.dueAt ≤ cutoff ∧ ∀ moment ∈ moments, ∀ execution ending ended,
        moment.event = .settled execution ending ended → execution.timer = begun.timer →
        ended ≤ begun.dueAt := by
    intro engine taken moments inUse timeline found
    have takes := inUse.takes found
    refine ⟨Int.not_lt.mp takes.due, ?_⟩
    intro moment happened execution ending ended settles own
    obtain ⟨timer, present, pending, due⟩ := takes.waits inUse.coupled inUse.present
    obtain ⟨same, again, notBefore⟩ := timeline.le_fireAt_of_settled happened settles
    rw [own] at again
    cases present.symm.trans again
    exact due ▸ notBefore pending
  induction bound generalizing engine moments with
  | zero => cases member
  | succ bound induction =>
    rcases engine.begunDue_cases behaviour thread cutoff bound with ⟨begins, -⟩ |
      ⟨execution, taken, found, ⟨-, begins, -⟩ | ⟨fired, firing, begins, -⟩⟩
    · rw [begins] at member
      cases member
    · rw [begins] at member
      cases List.mem_singleton.mp member
      exact first inUse timeline found
    · rw [begins] at member
      rcases List.mem_cons.mp member with rfl | later
      · exact first inUse timeline found
      · have passes := inUse.passes_fire steady reached found firing
        obtain ⟨further, continued, -⟩ :=
          inUse.timeline_fire steady reached found firing timeline
        obtain ⟨due, notBefore⟩ := induction (passes.inUse inUse)
          (Int.le_trans reached passes.clock) continued later
        exact ⟨due, fun moment happened =>
          notBefore moment (List.mem_append_left further happened)⟩

theorem InUse.le_endedAt (steady : behaviour.Steady) {engine : Engine ε}
    (inUse : engine.InUse) (reached : cutoff ≤ engine.context.now) {bound : Nat} {one : Ran}
    (member : one ∈ engine.ranDue behaviour thread cutoff bound) : cutoff ≤ one.endedAt := by
  induction bound generalizing engine with
  | zero => cases member
  | succ bound induction =>
    rcases engine.begunDue_cases behaviour thread cutoff bound with ⟨-, ends⟩ |
      ⟨execution, taken, found, ⟨-, -, ends⟩ | ⟨fired, firing, -, ends⟩⟩
    · rw [ends] at member
      cases member
    · rw [ends] at member
      cases member
    · rw [ends] at member
      have passes := inUse.passes_fire steady reached found firing
      have later := Int.le_trans reached passes.clock
      rcases List.mem_cons.mp member with rfl | rest
      · exact later
      · exact induction (passes.inUse inUse) later rest

/-- A call begins a timer again only if an earlier run of it has ended while the clock still
showed the reading with which the call began. -/
theorem OnTime.pairwise_begunDue (steady : behaviour.Steady) {engine : Engine ε}
    (onTime : engine.OnTime) (reached : cutoff ≤ engine.context.now) (bound : Nat) :
    (engine.begunDue behaviour thread cutoff bound).Pairwise fun earlier later =>
      earlier.timer = later.timer →
        later.dueAt = cutoff ∧
          (⟨later.timer, cutoff⟩ : Ran) ∈ engine.ranDue behaviour thread cutoff bound := by
  induction bound generalizing engine with
  | zero => exact List.Pairwise.nil
  | succ bound induction =>
    obtain ⟨inUse, moments, timeline⟩ := onTime
    rcases engine.begunDue_cases behaviour thread cutoff bound with ⟨begins, -⟩ |
      ⟨execution, taken, found, ⟨-, begins, -⟩ | ⟨fired, firing, begins, ends⟩⟩
    · rw [begins]
      exact List.Pairwise.nil
    · rw [begins]
      exact List.pairwise_singleton _ _
    · rw [begins, ends]
      have passes := inUse.passes_fire steady reached found firing
      have firedInUse := passes.inUse inUse
      have firedReached := Int.le_trans reached passes.clock
      obtain ⟨further, continued, moment, happened, ending, settles⟩ :=
        inUse.timeline_fire steady reached found firing timeline
      refine List.pairwise_cons.mpr ⟨?_, ?_⟩
      · intro later member same
        obtain ⟨due, notBefore⟩ :=
          firedInUse.dueAt_of_mem_begunDue steady firedReached continued member
        have notEarlier := notBefore moment (List.mem_append_right moments happened)
          execution ending _ settles same
        -- The clock is squeezed between the cutoff and the deadline.
        have still : fired.context.now = cutoff :=
          Instant.ext (Int.le_antisymm (Int.le_trans notEarlier due) firedReached)
        rw [still] at notEarlier
        refine ⟨Instant.ext (Int.le_antisymm due notEarlier), ?_⟩
        rw [← same, ← still]
        exact List.mem_cons_self
      · refine (induction ⟨firedInUse, _, continued⟩ firedReached).imp ?_
        intro earlier later again same
        obtain ⟨due, ended⟩ := again same
        exact ⟨due, List.mem_cons_of_mem _ ended⟩

/-- A call that runs what is due begins a timer again only if a run of it has ended while
the clock still showed the reading with which the call began, so once at most where every
run takes time.  Where callbacks leave the scheduler alone, a timer is run again exactly if
its first run has ended at that reading, nobody has cancelled it, and it repeats with the
next point of its grid not after that reading, or off the scale. -/
theorem runs_once_unless_still (steady : behaviour.Steady) {engine : Engine ε}
    (onTime : engine.OnTime) (thread : ThreadId) (bound : Nat) :
    let cutoff := engine.context.now
    let begun := engine.begunDue behaviour thread cutoff bound
    let runs := engine.ranDue behaviour thread cutoff bound
    (begun.Pairwise fun earlier later => earlier.timer = later.timer →
      later.dueAt = cutoff ∧ (⟨later.timer, cutoff⟩ : Ran) ∈ runs) ∧
    ((∀ one ∈ runs, cutoff < one.endedAt) → (begun.map Execution.timer).Nodup) ∧
    ∀ count after, engine.runPending behaviour bound thread = some (count, after) →
      runs.length = count ∧ begun.map Execution.timer = runs.map Ran.timer ∧
      (behaviour.Aloof → ∀ id timer, engine.scheduler.timer? id = some timer →
        (2 ≤ (Ran.ends runs id).length ↔
          (Ran.ends runs id).head? = some cutoff ∧ timer.cancelRequested = false ∧
            ∃ period, timer.period = some period ∧
              ∀ next, timer.phase.add? period = some next → next ≤ cutoff)) := by
  intro cutoff begun runs
  have again : begun.Pairwise fun earlier later => earlier.timer = later.timer →
      later.dueAt = cutoff ∧ (⟨later.timer, cutoff⟩ : Ran) ∈ runs :=
    onTime.pairwise_begunDue steady (Int.le_refl _) bound
  refine ⟨again, ?_, ?_⟩
  · intro moving
    refine List.pairwise_map.mpr (again.imp ?_)
    intro earlier later repeated same
    exact Int.lt_irrefl _ (moving _ (repeated same).2)
  · intro count after ran
    obtain ⟨drains, length, -⟩ := drains_of_runDue ran
    refine ⟨length, begunDue_of_runDue ran, ?_⟩
    intro aloof id timer present
    refine ((drains.timer aloof onTime.1 present).1).two_le_length_iff ?_
    intro ended member
    obtain ⟨one, own, rfl⟩ := List.mem_map.mp member
    exact onTime.1.le_endedAt steady (Int.le_refl _) (List.mem_filter.mp own).1

/-- A timer of one second that is three and a half seconds late. -/
def lateTimer : Engine Unit :=
  let now : Instant := ⟨3500000000, by decide, by decide⟩
  let surroundings : Engine Unit := { context := ⟨now, 0, {}, #[], ()⟩ }
  (surroundings.register (.instant .origin) (some (.ofMillis 1000))).2

def doNothing : Behaviour Unit where
  call := fun _ _ engine => some (.done, engine)
  sink := Behaviour.logFailure

theorem steady_doNothing : doNothing.Steady where
  call := by
    intro thread id engine ending after inUse called
    cases called
    exact .of_clock inUse rfl (Int.le_refl _)
  sink := fun _ _ => Int.le_refl _

theorem aloof_doNothing : doNothing.Aloof := by
  intro thread id engine ending after called
  cases called
  rfl

theorem onTime_lateTimer : lateTimer.OnTime :=
  Operated.onTime steady_doNothing (.register (.new _) _ _)

/-- A late timer, whose callback takes no time, runs again during the call. -/
theorem runs_once_unless_still_late :
    let cutoff := lateTimer.context.now
    let runs := lateTimer.ranDue doNothing 0 cutoff 3
    ∃ after, lateTimer.runPending doNothing 3 0 = some (2, after) ∧ runs.length = 2 ∧
      2 ≤ (Ran.ends runs 0).length := by
  intro cutoff runs
  obtain ⟨-, -, returned⟩ := runs_once_unless_still steady_doNothing onTime_lateTimer 0 3
  have answer : (lateTimer.runPending doNothing 3 0).map Prod.fst = some 2 := by decide +kernel
  obtain ⟨⟨count, after⟩, ran, rfl⟩ := Option.map_eq_some_iff.mp answer
  obtain ⟨length, -, twice⟩ := returned _ after ran
  refine ⟨after, ran, length,
    (twice aloof_doNothing 0 _ rfl).mpr ⟨by decide +kernel, rfl, _, rfl, ?_⟩⟩
  intro next found
  cases found
  decide

theorem runs_twice_where_clock_stands_still :
    ¬ ∀ (behaviour : Behaviour Unit) (engine : Engine Unit) (thread : ThreadId) (bound : ℕ),
      behaviour.Steady → engine.OnTime →
      ((engine.begunDue behaviour thread engine.context.now bound).map
        Execution.timer).Nodup := by
  intro once
  have distinct := once doNothing lateTimer 0 3 steady_doNothing onTime_lateTimer
  have repeated : (lateTimer.begunDue doNothing 0 lateTimer.context.now 3).map
      Execution.timer = [0, 0] := by
    decide +kernel
  rw [repeated] at distinct
  exact absurd distinct (by decide)

end Engine

end TimeSync
