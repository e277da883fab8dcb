import TimeSync.Proofs.Scheduler.Crew
import TimeSync.Proofs.Scheduler.EngineRun
import TimeSync.Proofs.Scheduler.Workshop

/-!
# Executions inside executions

The executions of a thread form a stack: a timer that is taken goes on top of it, and only
the execution on top ends.  A timer is on no more than one stack and there at most once, so
it is never begun while it is being executed.

`Marks` is another account of the timer that a thread is running.  Each thread has a cell,
which an execution overwrites when it begins; it keeps what was there before, and puts it
back at its end.  What the cell shows is the top of the stack at every moment of a run.
-/

namespace TimeSync

namespace Scheduler

/-- A timer goes onto the stack of the thread that takes it, if it is on none, and comes off
it at its end; nothing else changes a stack. -/
def Event.MovesStacks (event : Event) (before after : Scheduler) : Prop :=
  match event with
  | .taken execution _ =>
    before.status? execution.timer = some .pending ∧ before.executionsOf execution.timer = [] ∧
    after.stack execution.thread = execution :: before.stack execution.thread ∧
      ∀ other, other ≠ execution.thread → after.stack other = before.stack other
  | .settled execution _ _ =>
    before.stack execution.thread = execution :: after.stack execution.thread ∧
      ∀ other, other ≠ execution.thread → after.stack other = before.stack other
  | _ => ∀ thread, after.stack thread = before.stack thread

theorem Coupled.executionsOf_eq_nil {scheduler : Scheduler} (coupled : Coupled scheduler)
    {id : TimerId} (idle : scheduler.status? id ≠ some .running) :
    scheduler.executionsOf id = [] := by
  have none := (coupled.timers id).executing
  rwa [if_neg idle, List.length_eq_zero_iff] at none

theorem Step.movesStacks {before after : Scheduler} {event : Event} (step : Step before event after)
    (coupled : Coupled before) : event.MovesStacks before after := by
  cases step with
  | register first period now present => exact fun _ => rfl
  | take thread now present found =>
    have takes := (coupled.takes present found).2
    have pending := takes.waiting coupled present
    refine ⟨pending, coupled.executionsOf_eq_nil (by simp [pending]), takes.stack_self,
      fun other different => takes.stack different⟩
  | idle thread now present found =>
    rw [coupled.takeDue_eq_self present found]
    exact fun _ => rfl
  | settle ending now innermost =>
    obtain ⟨timer, found, -⟩ := status?_eq_some_iff.mp
      (coupled.status_of_executing (mem_executions_of_stack innermost).1)
    rw [Event.MovesStacks, stack_settle_self found innermost]
    exact ⟨innermost, fun other different => before.stack_settle now different⟩
  | cancel id =>
    intro thread
    unfold stack
    rw [(before.effects_cancelHandle id).1]
  | start thread granted present =>
    intro thread
    unfold stack
    rw [(timers_start before _ granted).2.2.1]
  | requestStop present => exact fun _ => rfl
  | leave inLoop told =>
    intro thread
    unfold stack
    rw [(timers_leave before _).2.2.1]
  | close present idle noWorker => exact fun _ => rfl

theorem mem_stack_iff {scheduler : Scheduler} {thread : ThreadId} {execution : Execution} :
    execution ∈ scheduler.stack thread ↔
      execution ∈ scheduler.executions ∧ execution.thread = thread := by
  simp [stack]

theorem Coupled.running_iff {scheduler : Scheduler} (coupled : Coupled scheduler)
    {id : TimerId} :
    scheduler.status? id = some .running ↔
      ∃ thread, ∃ execution ∈ scheduler.stack thread, execution.timer = id := by
  constructor
  · intro running
    have one := (coupled.timers id).executing
    rw [if_pos running, List.length_eq_one_iff] at one
    obtain ⟨execution, only⟩ := one
    have member : execution ∈ scheduler.executionsOf id := only ▸ List.mem_singleton_self _
    obtain ⟨inProgress, own⟩ := mem_executionsOf_iff.mp member
    exact ⟨execution.thread, execution, mem_stack_iff.mpr ⟨inProgress, rfl⟩, own⟩
  · rintro ⟨thread, execution, member, rfl⟩
    exact coupled.status_of_executing (mem_stack_iff.mp member).1

theorem Coupled.nodup_executing {scheduler : Scheduler} (coupled : Coupled scheduler) :
    (scheduler.executions.map Execution.timer).Nodup := by
  rw [List.nodup_iff_count_le_one]
  intro id
  have atMost : (scheduler.executionsOf id).length ≤ 1 := by
    rw [(coupled.timers id).executing]
    split <;> decide
  calc
    (scheduler.executions.map Execution.timer).count id =
        (scheduler.executionsOf id).length := by
      rw [List.count_eq_countP, List.countP_map, List.countP_eq_length_filter]
      rfl
    _ ≤ 1 := atMost

theorem current_eq_head? (scheduler : Scheduler) (thread : ThreadId) :
    scheduler.current thread = (scheduler.stack thread).head?.map Execution.timer := by
  rw [current, stack, List.head?_filter]

/-- What the cell of each thread shows, and what each execution in progress has found there
when it began. -/
structure Marks where
  shown : ThreadId → Option TimerId := fun _ => none
  previous : Execution → Option TimerId := fun _ => none

namespace Marks

/-- An execution begins: it keeps what the cell of its thread shows, and overwrites it. -/
def enter (marks : Marks) (execution : Execution) : Marks where
  shown := Function.update marks.shown execution.thread (some execution.timer)
  previous := Function.update marks.previous execution (marks.shown execution.thread)

/-- An execution ends: it puts back what it has kept. -/
def leave (marks : Marks) (execution : Execution) : Marks :=
  { marks with
    shown := Function.update marks.shown execution.thread (marks.previous execution) }

def after (marks : Marks) : Event → Marks
  | .taken execution _ => marks.enter execution
  | .settled execution _ _ => marks.leave execution
  | _ => marks

/-- Whether a cell shows the execution on top of a stack, and will show each that is below
it in turn as those above it put back what they have kept. -/
def Tracks (marks : Marks) : List Execution → Option TimerId → Prop
  | [], shown => shown = none
  | execution :: rest, shown =>
    shown = some execution.timer ∧ marks.Tracks rest (marks.previous execution)

theorem Tracks.eq_head? {marks : Marks} {stack : List Execution} {shown : Option TimerId}
    (tracks : marks.Tracks stack shown) : shown = stack.head?.map Execution.timer := by
  cases stack with
  | nil => exact tracks
  | cons execution rest => exact tracks.1

theorem Tracks.of_previous {marks other : Marks} {stack : List Execution}
    {shown : Option TimerId} (tracks : marks.Tracks stack shown)
    (same : ∀ execution ∈ stack, other.previous execution = marks.previous execution) :
    other.Tracks stack shown := by
  induction stack generalizing shown with
  | nil => exact tracks
  | cons execution rest induction =>
    obtain ⟨own, others⟩ := List.forall_mem_cons.mp same
    refine ⟨tracks.1, ?_⟩
    rw [own]
    exact induction tracks.2 others

/-- Whether the cell of every thread follows the thread's stack. -/
def Faithful (marks : Marks) (scheduler : Scheduler) : Prop :=
  ∀ thread, marks.Tracks (scheduler.stack thread) (marks.shown thread)

variable {marks : Marks} {before after : Scheduler} {execution : Execution}

theorem Faithful.of_stacks (faithful : marks.Faithful before)
    (same : ∀ thread, after.stack thread = before.stack thread) : marks.Faithful after := by
  intro thread
  rw [same]
  exact faithful thread

/-- An execution that begins has no part in what those below it have kept, because it is
not one of them. -/
theorem Faithful.enter (faithful : marks.Faithful before)
    (absent : before.executionsOf execution.timer = [])
    (pushed : after.stack execution.thread = execution :: before.stack execution.thread)
    (others : ∀ other, other ≠ execution.thread → after.stack other = before.stack other) :
    (marks.enter execution).Faithful after := by
  have kept : ∀ thread shown, marks.Tracks (before.stack thread) shown →
      (marks.enter execution).Tracks (before.stack thread) shown := by
    intro thread shown tracks
    refine tracks.of_previous fun other member => Function.update_of_ne ?_ _ _
    rintro rfl
    have executing := mem_executionsOf_iff.mpr ⟨(mem_stack_iff.mp member).1, rfl⟩
    rw [absent] at executing
    cases executing
  intro thread
  by_cases own : thread = execution.thread
  · subst own
    rw [pushed]
    refine ⟨Function.update_self .., ?_⟩
    rw [show (marks.enter execution).previous execution = _ from Function.update_self ..]
    exact kept _ _ (faithful execution.thread)
  · rw [others thread own,
      show (marks.enter execution).shown thread = _ from Function.update_of_ne own ..]
    exact kept _ _ (faithful thread)

theorem Faithful.leave (faithful : marks.Faithful before)
    (popped : before.stack execution.thread = execution :: after.stack execution.thread)
    (others : ∀ other, other ≠ execution.thread → after.stack other = before.stack other) :
    (marks.leave execution).Faithful after := by
  intro thread
  by_cases own : thread = execution.thread
  · subst own
    have tracks := faithful execution.thread
    rw [popped] at tracks
    rw [show (marks.leave execution).shown execution.thread = _ from Function.update_self ..]
    exact tracks.2.of_previous fun _ _ => rfl
  · rw [others thread own,
      show (marks.leave execution).shown thread = _ from Function.update_of_ne own ..]
    exact (faithful thread).of_previous fun _ _ => rfl

theorem Faithful.step {event : Event} (faithful : marks.Faithful before)
    (step : Step before event after) (coupled : Coupled before) :
    (marks.after event).Faithful after := by
  have moves := step.movesStacks coupled
  cases event with
  | taken execution now =>
    obtain ⟨-, absent, pushed, others⟩ := moves
    exact faithful.enter absent pushed others
  | settled execution ending now =>
    obtain ⟨popped, others⟩ := moves
    exact faithful.leave popped others
  | _ => exact faithful.of_stacks moves

end Marks

def marks (events : List Event) : Marks := events.foldl Marks.after {}

theorem Run.faithful {first last : Scheduler} {events : List Event} {marks : Marks}
    (run : Run first events last) (coupled : Coupled first) (faithful : marks.Faithful first) :
    (events.foldl Marks.after marks).Faithful last := by
  induction run generalizing marks with
  | nil => exact faithful
  | cons step _ induction => exact induction (step.coupled coupled) (faithful.step step coupled)

theorem Run.shown_eq {scheduler : Scheduler} {events : List Event}
    (run : Run {} events scheduler) (thread : ThreadId) :
    (marks events).shown thread = scheduler.current thread := by
  have faithful : (marks events).Faithful scheduler :=
    run.faithful Coupled.initial fun _ => rfl
  rw [current_eq_head?]
  exact (faithful thread).eq_head?

end Scheduler

namespace Engine

variable {ε : Type} {behaviour : Behaviour ε}

/-- The execution of a callback stays on top of its thread's stack until it is settled,
whatever the callback does meanwhile and however it ends; then what was there before it
is on top again. -/
theorem InUse.fire_current (lawful : behaviour.Lawful) {engine called : Engine ε}
    (inUse : engine.InUse) {execution : Execution} {rest : List Execution}
    (innermost : engine.scheduler.stack execution.thread = execution :: rest)
    {ending : Ending}
    (returned : behaviour.call execution.thread execution.timer
      (engine.announce execution).2 = some (ending, called)) :
    (engine.announce execution).2.scheduler.current execution.thread = some execution.timer ∧
    called.scheduler.current execution.thread = some execution.timer ∧
    (called.report behaviour.sink execution (engine.announce execution).1
      ending).scheduler.current execution.thread = some execution.timer ∧
    ∃ after, engine.fire behaviour execution = some after ∧
      after.scheduler.current execution.thread = rest.head?.map Execution.timer := by
  have onTop : ∀ scheduler : Scheduler, scheduler.stack execution.thread = execution :: rest →
      scheduler.current execution.thread = some execution.timer := by
    intro scheduler top
    rw [Scheduler.current_eq_head?, top]
    rfl
  have begun : Advances execution.thread engine (engine.announce execution).2 :=
    inUse.advances rfl
  have inside := lawful _ _ _ _ _ (begun.inUse inUse) returned
  have still : called.scheduler.stack execution.thread = execution :: rest :=
    inside.stack.trans innermost
  refine ⟨onTop _ innermost, onTop _ still, onTop _ still, ?_⟩
  have fired := fire_of_call returned
  obtain ⟨-, popped, -⟩ := fire_run lawful inUse innermost fired
  exact ⟨_, fired, by rw [Scheduler.current_eq_head?, popped]⟩

end Engine

namespace Scheduler

/-- How the executions in progress lie on the stacks of their threads, and what the cells
of the threads show. -/
structure Nested (scheduler : Scheduler) (marks : Marks) : Prop where
  distinct : (scheduler.executions.map Execution.timer).Nodup
  running : ∀ id, scheduler.status? id = some .running ↔
    ∃ thread, ∃ execution ∈ scheduler.stack thread, execution.timer = id
  shown : ∀ thread, marks.shown thread = (scheduler.stack thread).head?.map Execution.timer
  current : ∀ thread, scheduler.current thread = marks.shown thread

theorem Run.nested {scheduler : Scheduler} {events : List Event}
    (run : Run {} events scheduler) : Nested scheduler (marks events) := by
  have coupled := run.coupled Coupled.initial
  exact {
    distinct := coupled.nodup_executing
    running := fun _ => coupled.running_iff
    shown := fun thread => (run.shown_eq thread).trans (current_eq_head? scheduler thread)
    current := fun thread => (run.shown_eq thread).symm }

/-- After any steps of any threads, on no two places of all stacks is the same timer, a
timer is on some stack exactly while it is running, and the cell of each thread shows the
timer on top of its stack.  No further step begins a timer that is on a stack.  A call that
runs what is due leaves the stack and the cell of its thread as they were; while it fires a
timer, the cell shows that timer to the callback, after whatever the callback has done, and
to whom its failure is reported. -/
theorem executions_nest {ε : Type} {behaviour : Behaviour ε} (lawful : behaviour.Lawful)
    {scheduler : Scheduler} {events : List Event} (run : Run {} events scheduler) :
    Nested scheduler (marks events) ∧
    (∀ event after, Step scheduler event after → event.MovesStacks scheduler after) ∧
    ∀ engine : Engine ε, engine.scheduler = scheduler → scheduler.closed = false →
      (∀ bound thread count after,
        engine.runPending behaviour bound thread = some (count, after) →
        ∃ further, Run scheduler further after.scheduler ∧
          Nested after.scheduler (marks (events ++ further)) ∧
          after.scheduler.stack thread = scheduler.stack thread ∧
          after.scheduler.current thread = scheduler.current thread) ∧
      ∀ execution rest, scheduler.stack execution.thread = execution :: rest →
        ∀ ending called, behaviour.call execution.thread execution.timer
            (engine.announce execution).2 = some (ending, called) →
          (engine.announce execution).2.scheduler.current execution.thread =
            some execution.timer ∧
          called.scheduler.current execution.thread = some execution.timer ∧
          (called.report behaviour.sink execution (engine.announce execution).1
            ending).scheduler.current execution.thread = some execution.timer ∧
          ∃ after, engine.fire behaviour execution = some after ∧
            after.scheduler.current execution.thread = rest.head?.map Execution.timer := by
  refine ⟨run.nested, fun event after step => step.movesStacks (run.coupled Coupled.initial), ?_⟩
  rintro engine rfl present
  have inUse : engine.InUse := ⟨⟨events, run⟩, present⟩
  refine ⟨?_, fun execution rest innermost ending called returned =>
    inUse.fire_current lawful innermost returned⟩
  intro bound thread count after ran
  have advances := inUse.advances_runPending lawful ran
  obtain ⟨further, later⟩ := advances.run
  refine ⟨further, later, (run.append later).nested, advances.stack, ?_⟩
  rw [current_eq_head?, current_eq_head?, advances.stack]

/-- A callback that has cancelled its own timer runs what is due: the callback of another
timer, which breaks off. -/
theorem executions_nest_cancelled :
    let behaviour : Behaviour Unit :=
      { call := fun _ _ engine => some (.aborted none, (engine.cancel 0).2)
        sink := Behaviour.logFailure }
    let one := (Scheduler.register {} (.instant .origin) (some .zero) .origin).2
    let both := (one.register (.instant .origin) none .origin).2
    let outer := (both.takeDue 0 .origin).scheduler
    let cancelled := (outer.cancelHandle 0).2
    let engine : Engine Unit := ⟨cancelled, ⟨.origin, 0, {}, #[], ()⟩⟩
    cancelled.current 0 = some 0 ∧ cancelled.status? 0 = some .running ∧
      ∃ after, engine.runPending behaviour 2 0 = some (1, after) ∧
        after.scheduler.status? 1 = some .completed ∧
        after.scheduler.current 0 = some 0 ∧
        ∃ events, Nested after.scheduler (marks events) := by
  intro behaviour one both outer cancelled engine
  have lawful : behaviour.Lawful := by
    intro thread id engine ending after inUse returned
    cases returned
    exact inUse.advances_cancel thread 0
  have first : (both.takeDue 0 .origin).execution = some ⟨0, 0, .origin⟩ := by decide
  have run : Run {} _ cancelled :=
    .cons (.register (.instant .origin) (some .zero) .origin rfl)
      (.cons (.register (.instant .origin) none .origin rfl)
        (.cons (.take 0 .origin rfl first) (.single (.cancel 0))))
  obtain ⟨nested, -, calls⟩ := executions_nest lawful run
  obtain ⟨pending, -⟩ := calls engine rfl rfl
  have top : cancelled.current 0 = some 0 := by decide
  have answer : (engine.runPending behaviour 2 0).map
      (fun result => (result.1, result.2.scheduler.status? 1)) = some (1, some .completed) := by
    decide +kernel
  obtain ⟨⟨count, after⟩, ran, same⟩ := Option.map_eq_some_iff.mp answer
  obtain ⟨rfl, completed⟩ := Prod.mk.inj same
  obtain ⟨further, later, afterNested, stack, current⟩ := pending 2 0 _ after ran
  exact ⟨top, by decide, after, ran, completed, current.trans top, _, afterNested⟩

end Scheduler

end TimeSync
