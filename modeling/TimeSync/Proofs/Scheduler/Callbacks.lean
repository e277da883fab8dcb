import TimeSync.Proofs.Scheduler.EngineTimeline
import TimeSync.Simulation.Timers
import TimeSync.Sync.Service

/-!
# Lawful callbacks

The callbacks of scripted timers, which may register and cancel timers, run others
inside themselves and start and stop the worker, and those of the synchronisation
service use the scheduler through its operations alone.  Those of the service set the
clock back only where its source does.
-/

namespace TimeSync

open Engine (Advances)

namespace Simulation.Rehearsal

theorem advances_record {thread : ThreadId} {rehearsal : Rehearsal}
    (inUse : rehearsal.InUse) (event : Event) :
    Advances thread rehearsal (rehearsal.record event) :=
  inUse.advances rfl

theorem advances_schedule {rehearsal : Rehearsal} (inUse : rehearsal.InUse)
    (thread : ThreadId) (plan : Plan) :
    Advances thread rehearsal (rehearsal.schedule plan).2 := by
  have registered := inUse.advances_register thread plan.first plan.period
  exact registered.trans ((registered.inUse inUse).advances rfl)

theorem advances_cancel {rehearsal : Rehearsal} (inUse : rehearsal.InUse)
    (thread : ThreadId) (name : String) :
    Advances thread rehearsal (rehearsal.cancel name).2 := by
  unfold cancel
  split
  · exact inUse.advances rfl
  · exact inUse.advances_cancel thread _

/-- Actions make steps of the scheduler if running timers inside them does. -/
theorem advances_perform {thread : ThreadId}
    {runPending : Rehearsal → Option (Nat × Rehearsal)}
    (nested : ∀ inner count outer, Engine.InUse inner →
      runPending inner = some (count, outer) → Advances thread inner outer)
    {actions : List Action} {rehearsal after : Rehearsal} {ending : Ending}
    (inUse : rehearsal.InUse)
    (performed : perform runPending thread actions rehearsal = some (ending, after)) :
    Advances thread rehearsal after := by
  induction actions generalizing rehearsal with
  | nil =>
    cases performed
    exact inUse.advances rfl
  | cons action rest induction =>
    have continues : ∀ next, Advances thread rehearsal next →
        perform runPending thread rest next = some (ending, after) →
        Advances thread rehearsal after :=
      fun next advances performed => advances.trans (induction (advances.inUse inUse) performed)
    cases action with
    | clock step =>
      refine continues _ ?_ performed
      exact inUse.advances rfl
    | cancel name =>
      have cancelled := advances_cancel inUse thread name
      exact continues _
        (cancelled.trans (advances_record (cancelled.inUse inUse) _)) performed
    | status name =>
      refine continues _ ?_ performed
      split
      · exact inUse.advances rfl
      · exact advances_record inUse _
    | schedule name first period script =>
      have scheduled := advances_schedule inUse thread { name, first, period, script }
      exact continues _
        (scheduled.trans (advances_record (scheduled.inUse inUse) _)) performed
    | pending => exact continues _ (advances_record inUse _) performed
    | current => exact continues _ (advances_record inUse _) performed
    | runPending =>
      simp only [perform, Option.bind_eq_bind, Option.bind_eq_some_iff] at performed
      obtain ⟨⟨count, inner⟩, ran, performed⟩ := performed
      have ranInside := nested _ _ _ inUse ran
      exact continues _
        (ranInside.trans (advances_record (ranInside.inUse inUse) _)) performed
    | stop =>
      have stopped := (Engine.InUse.passes_stop inUse thread).toAdvances
      exact continues _
        (stopped.trans (advances_record (stopped.inUse inUse) _)) performed
    | start =>
      have started := (Engine.InUse.passes_start inUse thread).toAdvances
      exact continues _
        (started.trans (advances_record (started.inUse inUse) _)) performed
    | fail chain =>
      cases performed
      exact inUse.advances rfl
    | abort text =>
      cases performed
      exact inUse.advances rfl

theorem beginRun_scheduler (thread : ThreadId) (id : TimerId) (rehearsal : Rehearsal) :
    (beginRun thread id rehearsal).2.scheduler = rehearsal.scheduler := by
  unfold beginRun
  dsimp only
  split <;> rfl

theorem lawful_behaviour (sink : Failure → Context Stage → Context Stage)
    (bound depth : Nat) : (behaviour sink bound depth).Lawful := by
  induction depth with
  | zero =>
    intro thread id engine ending after inUse called
    cases called
  | succ depth induction =>
    intro thread id engine ending after inUse called
    have begun : Advances thread engine (beginRun thread id engine).2 :=
      inUse.advances (beginRun_scheduler thread id engine)
    have nested : ∀ inner count outer, Engine.InUse inner →
        Engine.runPending (behaviour sink bound depth) bound thread inner =
          some (count, outer) → Advances thread inner outer :=
      fun _ _ _ innerInUse ran => innerInUse.advances_runPending induction ran
    exact begun.trans (advances_perform nested (begun.inUse inUse) called)

end Simulation.Rehearsal

namespace Sync

/-- A source that takes its time, and never takes any back. -/
def Source.Forward {ε : Type} (source : Source ε) : Prop :=
  ∀ endpoint timeout context, context.now ≤ (source endpoint timeout context).2.now

namespace Trial

variable {ε : Type} {source : Source ε}

theorem le_now_ask (forward : source.Forward) (timeout : Duration) (index : Nat)
    (entry : Pool.Entry) (trial : Trial ε) :
    trial.context.now ≤ (trial.ask source timeout index entry).2.context.now := by
  have passed := forward entry.endpoint timeout trial.context
  unfold ask
  dsimp only
  split <;> simpa using passed

theorem le_now_askInTurn (forward : source.Forward) (timeout : Duration) (left : List Nat)
    (trial : Trial ε) :
    trial.context.now ≤ (askInTurn source timeout left trial).2.context.now := by
  induction left generalizing trial with
  | nil => exact Int.le_refl _
  | cons index left induction =>
    cases present : trial.pool.entries[index]? with
    | none =>
      simp only [askInTurn, present]
      exact induction trial
    | some entry =>
      have asked := le_now_ask forward timeout index entry trial
      simp only [askInTurn, present]
      split
      · exact asked
      · exact Int.le_trans asked (induction _)

end Trial

theorem Poller.le_now_runCycle {ε : Type} {source : Source ε} (forward : source.Forward)
    (poller : Poller) (context : Context ε) :
    context.now ≤ (poller.runCycle source context).2.2.now := by
  simp only [runCycle, now_report, attempts]
  refine Int.le_trans ?_ (Trial.le_now_askInTurn forward _ _ _)
  dsimp only
  split
  · rw [now_reportNoCandidates]
  · exact Int.le_refl _

namespace Service

theorem lawful_behaviour {ε : Type} (source : Sync.Source ε) :
    (behaviour source).Lawful := by
  intro thread id engine ending after inUse called
  cases called
  exact inUse.advances rfl

theorem steady_behaviour {ε : Type} {source : Source ε} (forward : source.Forward) :
    (behaviour source).Steady where
  call := by
    intro thread id engine ending after inUse called
    cases called
    exact .of_clock inUse rfl
      (Poller.le_now_runCycle forward engine.context.env.1
        (engine.context.withEnv engine.context.env.2))
  sink := fun _ _ => Int.le_refl _

theorem operated_start {ε : Type} {source : Source ε} {settings : Settings}
    {engine : Engine ε} (new : engine.scheduler = {}) {service : Service ε}
    (started : start settings engine = .ok service) :
    Engine.Operated (behaviour source) service.engine := by
  unfold start at started
  split at started
  · cases started
  · cases started
    have fresh : Engine.Operated (behaviour source)
        ⟨{}, engine.context.withEnv (Poller.ofSettings settings, engine.context.env)⟩ := .new _
    rw [← new] at fresh
    have registered := fresh.register
      (.after (if settings.measureImmediately then Duration.zero else settings.pollInterval))
      (some settings.pollInterval)
    exact registered.note _ _

end Service

end Sync

end TimeSync
