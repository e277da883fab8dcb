import TimeSync.Proofs.Scheduler.Coupling

/-!
# What an engine does is a run of its scheduler

Running timers, with callbacks that use the scheduler only through its operations,
makes nothing but steps of the scheduler.  So what holds of every run holds of an
engine, before and after each of its operations and inside callbacks at any depth.
-/

namespace TimeSync

open Scheduler (Reachable Run Step)

namespace Engine

variable {ε : Type}

/-- The scheduler of an engine can be used, and has been used by its operations
alone. -/
structure InUse (engine : Engine ε) : Prop where
  reachable : Reachable engine.scheduler
  present : engine.scheduler.closed = false

/-- One engine comes from another by steps that leave a thread the executions that it
had. -/
structure Advances (thread : ThreadId) (before after : Engine ε) : Prop where
  run : ∃ events, Run before.scheduler events after.scheduler
  stack : after.scheduler.stack thread = before.scheduler.stack thread
  present : after.scheduler.closed = false

theorem InUse.coupled {engine : Engine ε} (inUse : engine.InUse) :
    engine.scheduler.Coupled := inUse.reachable.coupled

theorem Advances.inUse {thread : ThreadId} {before after : Engine ε}
    (advances : Advances thread before after) (inUse : before.InUse) : after.InUse := by
  obtain ⟨events, run⟩ := advances.run
  exact ⟨inUse.reachable.run run, advances.present⟩

theorem Advances.trans {thread : ThreadId} {first middle last : Engine ε}
    (earlier : Advances thread first middle) (later : Advances thread middle last) :
    Advances thread first last := by
  obtain ⟨front, frontRun⟩ := earlier.run
  obtain ⟨back, backRun⟩ := later.run
  exact ⟨⟨front ++ back, frontRun.append backRun⟩, later.stack.trans earlier.stack,
    later.present⟩

theorem InUse.advances {thread : ThreadId} {before after : Engine ε}
    (inUse : before.InUse) (same : after.scheduler = before.scheduler) :
    Advances thread before after := by
  refine ⟨⟨[], ?_⟩, ?_, ?_⟩
  · rw [same]
    exact .nil
  · rw [same]
  · rw [same]
    exact inUse.present

theorem InUse.advances_step {thread : ThreadId} {before after : Engine ε}
    {event : Scheduler.Event} (inUse : before.InUse)
    (step : Step before.scheduler event after.scheduler)
    (executions : after.scheduler.executions = before.scheduler.executions)
    (closed : after.scheduler.closed = before.scheduler.closed) :
    Advances thread before after := by
  refine ⟨⟨[event], .single step⟩, ?_, closed.trans inUse.present⟩
  unfold Scheduler.stack
  rw [executions]

theorem InUse.advances_register {engine : Engine ε} (inUse : engine.InUse)
    (thread : ThreadId) (first : FirstFire) (period : Option Duration) :
    Advances thread engine (engine.register first period).2 := by
  have sameNow : ∃ now, (engine.register first period).2.scheduler =
      (engine.scheduler.register first period now).2 := ⟨_, rfl⟩
  obtain ⟨now, same⟩ := sameNow
  have step := Step.register first period now inUse.present
  exact inUse.advances_step (same ▸ step) (by rw [same]; rfl) (by rw [same]; rfl)

theorem InUse.advances_cancel {engine : Engine ε} (inUse : engine.InUse)
    (thread : ThreadId) (id : TimerId) :
    Advances thread engine (engine.cancel id).2 := by
  have same : (engine.cancel id).2.scheduler = (engine.scheduler.cancelHandle id).2 := rfl
  obtain ⟨executions, closed, -⟩ := engine.scheduler.effects_cancelHandle id
  exact inUse.advances_step (same ▸ Step.cancel id) executions closed

theorem InUse.takeDue_none {engine after : Engine ε} (inUse : engine.InUse)
    {thread : ThreadId} {now : Instant}
    (found : engine.takeDue thread now = (none, after)) :
    Advances thread engine after := by
  apply inUse.advances
  cases found' : (engine.scheduler.takeDue thread now).execution with
  | some execution =>
    have answer := congrArg Prod.fst found
    cases found'.symm.trans answer
  | none =>
    have result : after = engine.afterTaking (engine.scheduler.takeDue thread now) :=
      (congrArg Prod.snd found).symm
    rw [result]
    exact inUse.coupled.takeDue_eq_self inUse.present found'

theorem InUse.takeDue_some {engine after : Engine ε} (inUse : engine.InUse)
    {thread : ThreadId} {now : Instant} {execution : Execution}
    (found : engine.takeDue thread now = (some execution, after)) :
    after.InUse ∧ execution.thread = thread ∧
      Step engine.scheduler (.taken execution now) after.scheduler ∧
      after.scheduler.stack thread = execution :: engine.scheduler.stack thread := by
  have answer : (engine.scheduler.takeDue thread now).execution = some execution :=
    congrArg Prod.fst found
  have result : after.scheduler = (engine.scheduler.takeDue thread now).scheduler :=
    congrArg (fun taken => taken.2.scheduler) found.symm
  have step : Step engine.scheduler (.taken execution now) after.scheduler := by
    rw [result]
    exact .take thread now inUse.present answer
  obtain ⟨own, takes⟩ := inUse.coupled.takes inUse.present answer
  obtain ⟨rest, _, entered⟩ := takes.queue
  have shape := result.trans entered
  refine ⟨⟨inUse.reachable.run (.single step), ?_⟩, own, step, ?_⟩
  · rw [shape]
    exact inUse.present
  · rw [result]
    exact own ▸ takes.stack_self

/-- What is put on a stack and settled is off it again. -/
theorem InUse.settle {engine : Engine ε} (inUse : engine.InUse) {execution : Execution}
    {rest : List Execution}
    (innermost : engine.scheduler.stack execution.thread = execution :: rest)
    (ending : Ending) :
    Step engine.scheduler (.settled execution ending engine.context.now)
        (engine.settle execution).scheduler ∧
      (engine.settle execution).scheduler.stack execution.thread = rest ∧
      (engine.settle execution).scheduler.closed = false := by
  have shape : (engine.settle execution).scheduler =
      engine.scheduler.settle execution engine.context.now := by
    unfold Engine.settle
    dsimp only
    split
    · rfl
    · split <;> rfl
  have inProgress := (Scheduler.mem_executions_of_stack innermost).1
  obtain ⟨timer, found, _⟩ := Scheduler.status?_eq_some_iff.mp
    (inUse.coupled.status_of_executing inProgress)
  refine ⟨?_, ?_, ?_⟩
  · rw [shape]
    exact .settle ending engine.context.now innermost
  · rw [shape]
    exact Scheduler.stack_settle_self found innermost engine.context.now
  · rw [shape, Scheduler.settle_eq found]
    exact inUse.present

end Engine

/-- Callbacks that use the scheduler through its operations alone, and return only
after everything that they have run has ended. -/
def Behaviour.Lawful {ε : Type} (behaviour : Behaviour ε) : Prop :=
  ∀ thread id (engine : Engine ε) ending after, engine.InUse →
    behaviour.call thread id engine = some (ending, after) →
    Engine.Advances thread engine after

namespace Engine

variable {ε : Type} {behaviour : Behaviour ε}

/-- A timer that is fired has its callback run between two changes of the
surroundings, and is settled then.  No time passes before the callback, and none is
taken back after it where reports take none back. -/
theorem fire_eq_some {engine after : Engine ε} {execution : Execution}
    (fired : engine.fire behaviour execution = some after) :
    ∃ begun ending called closing,
      behaviour.call execution.thread execution.timer
          { engine with context := begun } = some (ending, called) ∧
        after = Engine.settle { called with context := closing } execution ∧
        begun.now = engine.context.now ∧
        ((∀ failure context, context.now ≤ (behaviour.sink failure context).now) →
          called.context.now ≤ closing.now) := by
  unfold fire at fired
  simp only [Option.bind_eq_bind, Option.bind_eq_some_iff, Option.pure_def,
    Option.some.injEq] at fired
  obtain ⟨⟨ending, called⟩, result, settled⟩ := fired
  refine ⟨_, ending, called, _, result, settled.symm, by simp, ?_⟩
  intro forward
  split
  · simp [Instant.le_def]
  · refine Int.le_trans ?_ (forward _ _)
    simp

theorem fire_run (lawful : behaviour.Lawful) {engine after : Engine ε}
    (inUse : engine.InUse) {execution : Execution} {rest : List Execution}
    (innermost : engine.scheduler.stack execution.thread = execution :: rest)
    (fired : engine.fire behaviour execution = some after) :
    (∃ events, Run engine.scheduler events after.scheduler) ∧
      after.scheduler.stack execution.thread = rest ∧
      after.scheduler.closed = false := by
  obtain ⟨begun, ending, called, closing, result, rfl, -, -⟩ := fire_eq_some fired
  have calling : Advances execution.thread engine { engine with context := begun } :=
    inUse.advances rfl
  have inside := lawful _ _ _ _ _ (calling.inUse inUse) result
  have returned : Advances execution.thread engine { called with context := closing } :=
    calling.trans (inside.trans ((inside.inUse (calling.inUse inUse)).advances rfl))
  obtain ⟨step, popped, present⟩ :=
    (returned.inUse inUse).settle (returned.stack.trans innermost) ending
  obtain ⟨events, run⟩ := returned.run
  exact ⟨⟨_, run.append (.single step)⟩, popped, present⟩

theorem InUse.advances_fire (lawful : behaviour.Lawful) {engine taken after : Engine ε}
    (inUse : engine.InUse) {thread : ThreadId} {now : Instant} {execution : Execution}
    (found : engine.takeDue thread now = (some execution, taken))
    (fired : taken.fire behaviour execution = some after) :
    Advances thread engine after := by
  obtain ⟨takenInUse, own, step, pushed⟩ := inUse.takeDue_some found
  subst own
  obtain ⟨⟨events, run⟩, popped, present⟩ := fire_run lawful takenInUse pushed fired
  exact ⟨⟨_, .cons step run⟩, popped, present⟩

theorem InUse.advances_runDue (lawful : behaviour.Lawful) {engine after : Engine ε}
    (inUse : engine.InUse) {thread : ThreadId} {cutoff : Instant} {bound count : Nat}
    (ran : engine.runDue behaviour thread cutoff bound = some (count, after)) :
    Advances thread engine after := by
  induction bound generalizing engine count with
  | zero => cases ran
  | succ bound induction =>
    unfold runDue at ran
    cases found : engine.takeDue thread cutoff with
    | mk answer taken =>
      rw [found] at ran
      cases answer with
      | none =>
        cases ran
        exact inUse.takeDue_none found
      | some execution =>
        simp only [Option.bind_eq_bind, Option.bind_eq_some_iff, Option.pure_def,
          Option.some.injEq] at ran
        obtain ⟨fired, firing, ⟨further, last⟩, rest, same⟩ := ran
        cases same
        have first := inUse.advances_fire lawful found firing
        exact first.trans (induction (first.inUse inUse) rest)

theorem InUse.advances_runPending (lawful : behaviour.Lawful) {engine after : Engine ε}
    (inUse : engine.InUse) {thread : ThreadId} {bound count : Nat}
    (ran : engine.runPending behaviour bound thread = some (count, after)) :
    Advances thread engine after :=
  inUse.advances_runDue lawful ran

theorem InUse.advances_leave {engine : Engine ε} (inUse : engine.InUse)
    (thread : ThreadId) {worker : ThreadId}
    (inLoop : engine.scheduler.worker = some worker)
    (told : engine.scheduler.shutdown = true) :
    Advances thread engine (engine.leave worker) := by
  obtain ⟨_, _, executions, closed⟩ := engine.scheduler.timers_leave worker
  exact inUse.advances_step (.leave inLoop told) executions closed

theorem InUse.runWorker_run (lawful : behaviour.Lawful) {engine after : Engine ε}
    (inUse : engine.InUse) {bound : Nat}
    (ran : engine.runWorker behaviour bound = some after) :
    (∃ events, Run engine.scheduler events after.scheduler) ∧
      after.scheduler.closed = false := by
  induction bound generalizing engine with
  | zero => cases ran
  | succ bound induction =>
    unfold runWorker at ran
    cases inLoop : engine.scheduler.worker with
    | none =>
      rw [inLoop] at ran
      cases ran
      exact ⟨⟨[], .nil⟩, inUse.present⟩
    | some worker =>
      rw [inLoop] at ran
      dsimp only [Scheduler.turn] at ran
      by_cases told : engine.scheduler.shutdown = true
      · rw [if_pos told] at ran
        cases ran
        have left := inUse.advances_leave worker inLoop told
        exact ⟨left.run, left.present⟩
      · rw [if_neg told] at ran
        cases found : (engine.scheduler.takeDue worker engine.context.now).execution with
        | none =>
          rw [found] at ran
          cases ran
          have nothing : engine.takeDue worker engine.context.now =
              (none, engine.afterTaking _) := Prod.ext found rfl
          have idle := inUse.takeDue_none nothing
          exact ⟨idle.run, idle.present⟩
        | some execution =>
          rw [found] at ran
          simp only [Option.bind_eq_bind, Option.bind_eq_some_iff] at ran
          obtain ⟨fired, firing, rest⟩ := ran
          have first := inUse.advances_fire lawful (Prod.ext found rfl) firing
          obtain ⟨events, run⟩ := first.run
          obtain ⟨⟨later, further⟩, present⟩ := induction (first.inUse inUse) rest
          exact ⟨⟨_, run.append further⟩, present⟩

end Engine

end TimeSync
