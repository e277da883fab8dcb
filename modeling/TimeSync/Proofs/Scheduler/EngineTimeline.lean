import TimeSync.Proofs.Scheduler.EngineRun
import TimeSync.Proofs.Scheduler.Timeline

/-!
# What an engine does is a timeline

Where neither callbacks nor reports set the clock back, all that an engine does continues
the timeline of its scheduler: a timer is taken with a cutoff that the clock has reached,
and settled by a reading of the clock at that moment.  So what holds of every timeline
holds of an engine, after each of its operations and inside callbacks at any depth.
-/

namespace TimeSync

open Scheduler (Moment Step Timeline)

namespace Engine

variable {ε : Type}

/-- One engine continues the timelines that lead to another. -/
def Continues (before after : Engine ε) : Prop :=
  ∀ moments, Timeline moments before.scheduler before.context.now →
    ∃ later, Timeline (moments ++ later) after.scheduler after.context.now

theorem Continues.trans {first middle last : Engine ε} (earlier : Continues first middle)
    (later : Continues middle last) : Continues first last := by
  intro moments timeline
  obtain ⟨front, reached⟩ := earlier moments timeline
  obtain ⟨back, ended⟩ := later _ reached
  rw [List.append_assoc] at ended
  exact ⟨front ++ back, ended⟩

theorem Continues.of_clock {before after : Engine ε}
    (same : after.scheduler = before.scheduler)
    (clock : before.context.now ≤ after.context.now) : Continues before after := by
  intro moments timeline
  refine ⟨[], ?_⟩
  rw [List.append_nil, same]
  exact .wait timeline clock

theorem Continues.of_step {before after : Engine ε} {event : Scheduler.Event}
    (step : Step before.scheduler event after.scheduler)
    (read : event.ReadBy before.context.now)
    (still : after.context.now = before.context.now) : Continues before after := by
  intro moments timeline
  rw [still]
  exact ⟨_, .step timeline step read⟩

/-- An engine that has advanced on a clock that was never set back. -/
structure Passes (thread : ThreadId) (before after : Engine ε) : Prop
    extends Advances thread before after where
  clock : before.context.now ≤ after.context.now
  continues : Continues before after

namespace Passes

variable {thread : ThreadId}

theorem trans {first middle last : Engine ε} (earlier : Passes thread first middle)
    (later : Passes thread middle last) : Passes thread first last :=
  { earlier.toAdvances.trans later.toAdvances with
    clock := Int.le_trans earlier.clock later.clock
    continues := earlier.continues.trans later.continues }

theorem of_clock {before after : Engine ε} (inUse : before.InUse)
    (same : after.scheduler = before.scheduler)
    (clock : before.context.now ≤ after.context.now) : Passes thread before after :=
  { inUse.advances same with
    clock
    continues := .of_clock same clock }

theorem of_step {before after : Engine ε} {event : Scheduler.Event}
    (advances : Advances thread before after)
    (step : Step before.scheduler event after.scheduler)
    (read : event.ReadBy before.context.now)
    (still : after.context.now = before.context.now) : Passes thread before after :=
  { advances with
    clock := Int.le_of_eq (congrArg Instant.nanos still.symm)
    continues := .of_step step read still }

end Passes

@[simp] theorem now_register (engine : Engine ε) (first : FirstFire)
    (period : Option Duration) :
    (engine.register first period).2.context.now = engine.context.now := by
  unfold register
  cases period with
  | none => rfl
  | some period =>
    dsimp only
    split <;> rfl

theorem InUse.passes_register {engine : Engine ε} (inUse : engine.InUse) (thread : ThreadId)
    (first : FirstFire) (period : Option Duration) :
    Passes thread engine (engine.register first period).2 := by
  have sameNow : ∃ now, (engine.register first period).2.scheduler =
      (engine.scheduler.register first period now).2 := ⟨_, rfl⟩
  obtain ⟨now, same⟩ := sameNow
  have step := Step.register first period now inUse.present
  rw [← same] at step
  exact .of_step (inUse.advances_register thread first period) step trivial
    (now_register engine first period)

theorem InUse.passes_cancel {engine : Engine ε} (inUse : engine.InUse) (thread : ThreadId)
    (id : TimerId) : Passes thread engine (engine.cancel id).2 :=
  .of_step (inUse.advances_cancel thread id) (.cancel id) trivial rfl

@[simp] theorem now_afterTaking (engine : Engine ε) (taken : Scheduler.Taken) :
    (engine.afterTaking taken).context.now = engine.context.now := by
  unfold afterTaking
  dsimp only
  generalize engine.context = context
  induction taken.dropped generalizing context with
  | nil => rfl
  | cons id dropped induction => exact induction _

@[simp] theorem now_settle (engine : Engine ε) (execution : Execution) :
    (engine.settle execution).context.now = engine.context.now := by
  unfold settle
  dsimp only
  split
  · rfl
  · split <;> rfl

end Engine

/-- Callbacks that use the scheduler through its operations alone, return only after
everything that they have run has ended, and never set the clock back, and reports that do
not set it back either. -/
structure Behaviour.Steady {ε : Type} (behaviour : Behaviour ε) : Prop where
  call : ∀ thread id (engine : Engine ε) ending after, engine.InUse →
    behaviour.call thread id engine = some (ending, after) →
    Engine.Passes thread engine after
  sink : ∀ failure (context : Context ε), context.now ≤ (behaviour.sink failure context).now

theorem Behaviour.Steady.lawful {ε : Type} {behaviour : Behaviour ε}
    (steady : behaviour.Steady) : behaviour.Lawful :=
  fun thread id engine ending after inUse called =>
    (steady.call thread id engine ending after inUse called).toAdvances

namespace Engine

variable {ε : Type} {behaviour : Behaviour ε}

/-- The callback of a timer that was taken is run, and the timer settled by the reading of
the clock at the end. -/
theorem fire_settles (steady : behaviour.Steady) {engine after : Engine ε}
    (inUse : engine.InUse) {execution : Execution} {rest : List Execution}
    (innermost : engine.scheduler.stack execution.thread = execution :: rest)
    (fired : engine.fire behaviour execution = some after) :
    ∃ (returned : Engine ε) (ending : Ending), Passes execution.thread engine returned ∧
      Step returned.scheduler (.settled execution ending after.context.now) after.scheduler ∧
      after.context.now = returned.context.now := by
  obtain ⟨begun, ending, called, closing, result, rfl, start, finish⟩ := fire_eq_some fired
  have beginning : Passes execution.thread engine { engine with context := begun } :=
    .of_clock inUse rfl (Int.le_of_eq (congrArg Instant.nanos start.symm))
  have inside := steady.call _ _ _ _ _ (beginning.inUse inUse) result
  have reporting : Passes execution.thread called { called with context := closing } :=
    .of_clock (inside.inUse (beginning.inUse inUse)) rfl (finish steady.sink)
  have returned := beginning.trans (inside.trans reporting)
  obtain ⟨step, -, -⟩ :=
    (returned.inUse inUse).settle (returned.stack.trans innermost) ending
  rw [now_settle]
  exact ⟨_, ending, returned, step, rfl⟩

theorem fire_continues (steady : behaviour.Steady) {engine after : Engine ε}
    (inUse : engine.InUse) {execution : Execution} {rest : List Execution}
    (innermost : engine.scheduler.stack execution.thread = execution :: rest)
    (fired : engine.fire behaviour execution = some after) :
    engine.context.now ≤ after.context.now ∧ Continues engine after := by
  obtain ⟨returned, ending, passes, step, still⟩ := fire_settles steady inUse innermost fired
  exact ⟨still ▸ passes.clock, passes.continues.trans (.of_step step still still)⟩

theorem InUse.passes_fire (steady : behaviour.Steady) {engine taken after : Engine ε}
    (inUse : engine.InUse) {thread : ThreadId} {cutoff : Instant} {execution : Execution}
    (reached : cutoff ≤ engine.context.now)
    (found : engine.takeDue thread cutoff = (some execution, taken))
    (fired : taken.fire behaviour execution = some after) :
    Passes thread engine after := by
  obtain ⟨takenInUse, own, step, pushed⟩ := inUse.takeDue_some found
  have still : taken.context.now = engine.context.now :=
    (congrArg (fun answer => answer.2.context.now) found).symm.trans (now_afterTaking engine _)
  subst own
  obtain ⟨clock, continues⟩ := fire_continues steady takenInUse pushed fired
  rw [still] at clock
  have begun : Continues engine taken := .of_step step reached still
  exact { inUse.advances_fire steady.lawful found fired with
    clock
    continues := begun.trans continues }

theorem InUse.passes_takeDue {engine after : Engine ε} (inUse : engine.InUse)
    {thread : ThreadId} {cutoff : Instant}
    (found : engine.takeDue thread cutoff = (none, after)) : Passes thread engine after := by
  have result : after = engine.afterTaking (engine.scheduler.takeDue thread cutoff) :=
    (congrArg Prod.snd found).symm
  have idle : (engine.scheduler.takeDue thread cutoff).execution = none :=
    congrArg Prod.fst found
  apply Passes.of_clock inUse
  · rw [result]
    exact inUse.coupled.takeDue_eq_self inUse.present idle
  · rw [result, now_afterTaking]
    exact Int.le_refl _

theorem InUse.passes_runDue (steady : behaviour.Steady) {engine after : Engine ε}
    (inUse : engine.InUse) {thread : ThreadId} {cutoff : Instant} {bound count : Nat}
    (reached : cutoff ≤ engine.context.now)
    (ran : engine.runDue behaviour thread cutoff bound = some (count, after)) :
    Passes thread engine after := by
  induction bound generalizing engine count with
  | zero => cases ran
  | succ bound induction =>
    unfold runDue at ran
    cases found : engine.takeDue thread cutoff with
    | mk answer taken =>
      rw [found] at ran
      cases answer with
      | none =>
        cases ran
        exact inUse.passes_takeDue found
      | some execution =>
        simp only [Option.bind_eq_bind, Option.bind_eq_some_iff, Option.pure_def,
          Option.some.injEq] at ran
        obtain ⟨fired, firing, ⟨further, last⟩, rest, same⟩ := ran
        cases same
        have first := inUse.passes_fire steady reached found firing
        exact first.trans
          (induction (first.inUse inUse) (Int.le_trans reached first.clock) rest)

theorem InUse.passes_runPending (steady : behaviour.Steady) {engine after : Engine ε}
    (inUse : engine.InUse) {thread : ThreadId} {bound count : Nat}
    (ran : engine.runPending behaviour bound thread = some (count, after)) :
    Passes thread engine after :=
  inUse.passes_runDue steady (Int.le_refl _) ran

theorem InUse.passes_leave {engine : Engine ε} (inUse : engine.InUse) (thread : ThreadId)
    {worker : ThreadId} (inLoop : engine.scheduler.worker = some worker)
    (told : engine.scheduler.shutdown = true) : Passes thread engine (engine.leave worker) :=
  .of_step (inUse.advances_leave thread inLoop told) (.leave inLoop told) trivial rfl

theorem InUse.runWorker_continues (steady : behaviour.Steady) {engine after : Engine ε}
    (inUse : engine.InUse) {bound : Nat}
    (ran : engine.runWorker behaviour bound = some after) : Continues engine after := by
  induction bound generalizing engine with
  | zero => cases ran
  | succ bound induction =>
    unfold runWorker at ran
    cases inLoop : engine.scheduler.worker with
    | none =>
      rw [inLoop] at ran
      cases ran
      exact .of_clock rfl (Int.le_refl _)
    | some worker =>
      rw [inLoop] at ran
      dsimp only [Scheduler.turn] at ran
      by_cases told : engine.scheduler.shutdown = true
      · rw [if_pos told] at ran
        cases ran
        exact (inUse.passes_leave worker inLoop told).continues
      · rw [if_neg told] at ran
        cases found : (engine.scheduler.takeDue worker engine.context.now).execution with
        | none =>
          rw [found] at ran
          cases ran
          have nothing : engine.takeDue worker engine.context.now =
              (none, engine.afterTaking _) := Prod.ext found rfl
          exact (inUse.passes_takeDue nothing).continues
        | some execution =>
          rw [found] at ran
          simp only [Option.bind_eq_bind, Option.bind_eq_some_iff] at ran
          obtain ⟨fired, firing, rest⟩ := ran
          have first :=
            inUse.passes_fire steady (Int.le_refl _) (Prod.ext found rfl) firing
          exact first.continues.trans (induction (first.inUse inUse) rest)

theorem shutdown_of_wait {scheduler after : Scheduler} {thread : ThreadId}
    {granted : Bool} (answer : scheduler.start thread granted = (.wait, after)) :
    scheduler.shutdown = true := by
  unfold Scheduler.start at answer
  split at answer
  · split at answer <;> cases answer
  · split at answer
    · cases answer
    · rename_i told
      simpa using told

theorem InUse.passes_awaitWorker {engine : Engine ε} (inUse : engine.InUse)
    (thread : ThreadId) (told : engine.scheduler.shutdown = true) :
    Passes thread engine engine.awaitWorker := by
  have noted : Passes thread engine (engine.note .debug
      "[Timer] waiting for the previous worker to exit") := .of_clock inUse rfl (Int.le_refl _)
  unfold awaitWorker
  dsimp only
  split
  · exact noted
  · rename_i inLoop
    exact noted.trans ((noted.inUse inUse).passes_leave thread inLoop told)

theorem InUse.passes_start {engine : Engine ε} (inUse : engine.InUse) (thread : ThreadId) :
    Passes thread engine (engine.start thread).2 := by
  have attempt : ∀ ready : Engine ε, ready.InUse →
      Passes thread ready
        { ready with scheduler := (ready.scheduler.start thread true).2 } := by
    intro ready readyInUse
    obtain ⟨_, _, executions, closed⟩ := ready.scheduler.timers_start thread true
    have step := Step.start thread true readyInUse.present
    exact .of_step (readyInUse.advances_step step executions closed) step trivial rfl
  unfold start
  extract_lets ready
  have prepared : Passes thread engine ready := by
    dsimp only [ready]
    split
    · rename_i answer
      exact inUse.passes_awaitWorker thread (shutdown_of_wait answer)
    · exact .of_clock inUse rfl (Int.le_refl _)
  have readyInUse := prepared.inUse inUse
  have attempted := attempt ready readyInUse
  refine prepared.trans ?_
  split
  · rename_i answer
    rw [answer] at attempted
    exact attempted.trans (.of_clock (attempted.inUse readyInUse) rfl (Int.le_refl _))
  · exact .of_clock readyInUse rfl (Int.le_refl _)
  · exact .of_clock readyInUse rfl (Int.le_refl _)
  · exact .of_clock readyInUse rfl (Int.le_refl _)
  · rename_i answer
    rw [answer] at attempted
    exact attempted

theorem InUse.passes_stop {engine : Engine ε} (inUse : engine.InUse) (thread : ThreadId) :
    Passes thread engine (engine.stop thread) := by
  have step := Step.requestStop inUse.present
  have stopped : Passes thread engine
      { engine with scheduler := engine.scheduler.requestStop.2 } :=
    .of_step (inUse.advances_step step rfl rfl) step trivial rfl
  unfold stop
  dsimp only
  split
  · exact stopped
  · split
    · exact stopped.trans (.of_clock (stopped.inUse inUse) rfl (Int.le_refl _))
    · split
      · rename_i inLoop
        exact stopped.trans ((stopped.inUse inUse).passes_leave thread inLoop rfl)
      · exact stopped

/-- A new engine on which operations were called, one after another, while time passed and
the rest of the surroundings changed. -/
inductive Operated (behaviour : Behaviour ε) : Engine ε → Prop where
  | new (context : Context ε) : Operated behaviour { context }
  | wait {engine later : Engine ε} (earlier : Operated behaviour engine) :
      later.scheduler = engine.scheduler → engine.context.now ≤ later.context.now →
      Operated behaviour later
  | register {engine : Engine ε} (earlier : Operated behaviour engine) (first : FirstFire)
      (period : Option Duration) : Operated behaviour (engine.register first period).2
  | cancel {engine : Engine ε} (earlier : Operated behaviour engine) (id : TimerId) :
      Operated behaviour (engine.cancel id).2
  | runPending {engine after : Engine ε} {bound count : Nat} {thread : ThreadId}
      (earlier : Operated behaviour engine) :
      engine.runPending behaviour bound thread = some (count, after) →
      Operated behaviour after
  | runWorker {engine after : Engine ε} {bound : Nat} (earlier : Operated behaviour engine) :
      engine.runWorker behaviour bound = some after → Operated behaviour after
  | start {engine : Engine ε} (earlier : Operated behaviour engine) (thread : ThreadId) :
      Operated behaviour (engine.start thread).2
  | stop {engine : Engine ε} (earlier : Operated behaviour engine) (thread : ThreadId) :
      Operated behaviour (engine.stop thread)

theorem Operated.note {engine : Engine ε} (operated : Operated behaviour engine) (level : Level)
    (text : String) : Operated behaviour (engine.note level text) :=
  .wait operated rfl (Int.le_refl _)

/-- An engine that can be used, with the timeline of its scheduler. -/
def OnTime (engine : Engine ε) : Prop :=
  engine.InUse ∧ ∃ moments, Timeline moments engine.scheduler engine.context.now

theorem OnTime.passes {thread : ThreadId} {before after : Engine ε} (onTime : before.OnTime)
    (passes : Passes thread before after) : after.OnTime := by
  obtain ⟨inUse, moments, timeline⟩ := onTime
  obtain ⟨later, continued⟩ := passes.continues moments timeline
  exact ⟨passes.inUse inUse, _, continued⟩

/-- Whatever an engine has been asked to do, its scheduler has a timeline up to now. -/
theorem Operated.onTime (steady : behaviour.Steady) {engine : Engine ε}
    (operated : Operated behaviour engine) : engine.OnTime := by
  induction operated with
  | new context => exact ⟨⟨⟨[], .nil⟩, rfl⟩, [], .start context.now⟩
  | wait earlier same clock induction =>
    have passed : Passes 0 _ _ := .of_clock induction.1 same clock
    exact induction.passes passed
  | register earlier first period induction =>
    exact induction.passes (induction.1.passes_register 0 first period)
  | cancel earlier id induction => exact induction.passes (induction.1.passes_cancel 0 id)
  | runPending earlier ran induction =>
    exact induction.passes (induction.1.passes_runPending steady ran)
  | runWorker earlier ran induction =>
    obtain ⟨inUse, moments, timeline⟩ := induction
    obtain ⟨⟨events, run⟩, present⟩ := inUse.runWorker_run steady.lawful ran
    obtain ⟨later, continued⟩ := inUse.runWorker_continues steady ran moments timeline
    exact ⟨⟨inUse.reachable.run run, present⟩, _, continued⟩
  | start earlier thread induction => exact induction.passes (induction.1.passes_start thread)
  | stop earlier thread induction => exact induction.passes (induction.1.passes_stop thread)

end Engine

end TimeSync
