import TimeSync.Proofs.Scheduler.Crew
import TimeSync.Proofs.Scheduler.Workshop

/-!
# What an engine does is made of calls

Running what is due, running the worker, starting and stopping it are sequences of calls in
a workshop, if all that callbacks do is made of calls too.  For callbacks inside callbacks
this goes from the innermost outward: a callback that runs timers makes the calls of those
timers' callbacks between its own.
-/

namespace TimeSync

open Scheduler (SameWorker)

theorem Scheduler.takeFrom_thread (scheduler : Scheduler) (thread : ThreadId) (now : Instant)
    (queue : List QueueKey) :
    SameWorker scheduler (scheduler.takeFrom thread now queue).scheduler ∧
      ∀ execution, (scheduler.takeFrom thread now queue).execution = some execution →
        execution.thread = thread := by
  induction queue with
  | nil => exact ⟨⟨rfl, rfl, rfl, rfl, rfl⟩, fun _ found => by cases found⟩
  | cons key rest induction =>
    unfold takeFrom
    split
    · exact ⟨⟨rfl, rfl, rfl, rfl, rfl⟩, fun _ found => by cases found⟩
    · split
      · refine ⟨⟨rfl, rfl, rfl, rfl, rfl⟩, fun execution found => ?_⟩
        cases found
        rfl
      · exact induction

namespace Workshop

variable {ε : Type} {sink : Sink ε}

/-- Calls lead from one workshop to another, and have left a trace. -/
def Reaches (sink : Sink ε) (shop : Workshop ε) (trace : List (Answer × Scheduler))
    (last : Workshop ε) : Prop :=
  ∃ calls : List (Call sink), run calls shop = some (trace, last)

theorem Reaches.refl (shop : Workshop ε) : Reaches sink shop [] shop := ⟨[], rfl⟩

theorem run_append {first second : List (Call sink)} {shop middle last : Workshop ε}
    {front back : List (Answer × Scheduler)} (earlier : run first shop = some (front, middle))
    (later : run second middle = some (back, last)) :
    run (first ++ second) shop = some (front ++ back, last) := by
  induction first generalizing shop front with
  | nil =>
    cases earlier
    exact later
  | cons call first induction =>
    simp only [run, Option.bind_eq_bind, Option.bind_eq_some_iff, Option.pure_def,
      Option.some.injEq] at earlier
    obtain ⟨⟨answer, next⟩, made, ⟨trace, _⟩, rest, same⟩ := earlier
    cases same
    simp only [List.cons_append, run, made, induction rest, Option.bind_eq_bind,
      Option.bind_some, Option.pure_def]

theorem Reaches.trans {shop middle last : Workshop ε} {front back : List (Answer × Scheduler)}
    (earlier : Reaches sink shop front middle) (later : Reaches sink middle back last) :
    Reaches sink shop (front ++ back) last := by
  obtain ⟨first, made⟩ := earlier
  obtain ⟨second, further⟩ := later
  exact ⟨first ++ second, run_append made further⟩

theorem Reaches.single {shop last : Workshop ε} {answer : Answer} (call : Call sink)
    (made : shop.step call = some (answer, last)) :
    Reaches sink shop [(answer, last.engine.scheduler)] last := by
  refine ⟨[call], ?_⟩
  simp only [run, made, Option.bind_eq_bind, Option.bind_some, Option.pure_def]

/-- A thread and the worker have been made, and the worker is at the head of its loop unless
it is that thread. -/
structure Quiet (shop : Workshop ε) (thread : ThreadId) : Prop where
  made : thread ≤ shop.engine.scheduler.lastThread
  worker : ∀ worker, shop.engine.scheduler.worker = some worker →
    worker ≤ shop.engine.scheduler.lastThread ∧
      (worker ≠ thread → shop.tasks worker = [.loop])

theorem Quiet.of_sameWorker {shop after : Workshop ε} {thread : ThreadId}
    (quiet : shop.Quiet thread)
    (same : SameWorker shop.engine.scheduler after.engine.scheduler)
    (tasks : ∀ other, other ≠ thread → after.tasks other = shop.tasks other) :
    after.Quiet thread := by
  refine ⟨same.lastThread ▸ quiet.made, fun other works => ?_⟩
  obtain ⟨made, loops⟩ := quiet.worker other (same.worker ▸ works)
  refine ⟨same.lastThread ▸ made, fun different => ?_⟩
  rw [tasks other different]
  exact loops different

theorem tasks_withTasks_self (shop : Workshop ε) (thread : ThreadId) (tasks : List Task) :
    (shop.withTasks thread tasks).tasks thread = tasks :=
  Function.update_self ..

theorem tasks_withTasks_of_ne (shop : Workshop ε) {thread other : ThreadId}
    (different : other ≠ thread) (tasks : List Task) :
    (shop.withTasks thread tasks).tasks other = shop.tasks other :=
  Function.update_of_ne different ..

theorem free_of_tasks {shop last : Workshop ε} {thread : ThreadId}
    (same : last.tasks thread = shop.tasks thread) (free : shop.free thread = true) :
    last.free thread = true := by
  unfold Workshop.free at free ⊢
  rw [same]
  exact free

/-- Calls of a thread, after which the engine and the tasks of the thread are known. -/
structure Leads (sink : Sink ε) (thread : ThreadId) (shop : Workshop ε)
    (trace : List (Answer × Scheduler)) (engine : Engine ε) (tasks : List Task)
    (last : Workshop ε) : Prop where
  reaches : Reaches sink shop trace last
  engine : last.engine = engine
  tasks : last.tasks thread = tasks
  quiet : last.Quiet thread

variable {thread : ThreadId}

theorem Leads.trans {shop middle last : Workshop ε} {front back : List (Answer × Scheduler)}
    {engine after : Engine ε} {tasks further : List Task}
    (earlier : Leads sink thread shop front engine tasks middle)
    (later : Leads sink thread middle back after further last) :
    Leads sink thread shop (front ++ back) after further last :=
  { later with reaches := earlier.reaches.trans later.reaches }

theorem Quiet.leads {shop last : Workshop ε} (quiet : shop.Quiet thread) {answer : Answer}
    (call : Call sink) (made : shop.step call = some (answer, last))
    (same : SameWorker shop.engine.scheduler last.engine.scheduler)
    (others : ∀ other, other ≠ thread → last.tasks other = shop.tasks other) :
    Leads sink thread shop [(answer, last.engine.scheduler)] last.engine (last.tasks thread)
      last :=
  ⟨.single call made, rfl, rfl, quiet.of_sameWorker same others⟩

end Workshop

open Workshop (Call Leads)

/-- What a thread does with an engine, while it is free to use it, is made of calls. -/
def Engine.ByCalls {ε : Type} (sink : Sink ε) (thread : ThreadId) (engine after : Engine ε) :
    Prop :=
  ∀ shop : Workshop ε, shop.engine = engine → shop.free thread = true → shop.Quiet thread →
    ∃ trace last, Leads sink thread shop trace after (shop.tasks thread) last

/-- Callbacks that are made of calls, and report their failures to a sink. -/
structure Behaviour.ByCalls {ε : Type} (behaviour : Behaviour ε) (sink : Sink ε) : Prop where
  reports : behaviour.sink = sink.tell
  call : ∀ thread id engine ending after,
    behaviour.call thread id engine = some (ending, after) →
      engine.ByCalls sink thread after

namespace Engine

variable {ε : Type} {sink : Sink ε} {thread : ThreadId}

theorem ByCalls.trans {first middle last : Engine ε} (earlier : first.ByCalls sink thread middle)
    (later : middle.ByCalls sink thread last) : first.ByCalls sink thread last := by
  intro shop own free quiet
  obtain ⟨front, half, reached⟩ := earlier shop own free quiet
  obtain ⟨back, last, further⟩ := later half reached.engine
    (Workshop.free_of_tasks reached.tasks free) reached.quiet
  refine ⟨front ++ back, last, reached.trans ?_⟩
  rw [← reached.tasks]
  exact further

theorem byCalls_call {engine after : Engine ε} (call : Call sink)
    (made : ∀ shop : Workshop ε, shop.engine = engine →
      ∃ answer, shop.step call = some (answer, { shop with engine := after }))
    (same : SameWorker engine.scheduler after.scheduler) :
    engine.ByCalls sink thread after := by
  intro shop own free quiet
  obtain ⟨answer, made⟩ := made shop own
  exact ⟨_, _, quiet.leads call made (by rw [own]; exact same) (fun _ _ => rfl)⟩

theorem byCalls_register (engine : Engine ε) (first : FirstFire) (period : Option Duration) :
    engine.ByCalls sink thread (engine.register first period).2 := by
  refine byCalls_call (.register first period) ?_
    (by rw [scheduler_register]; exact ⟨rfl, rfl, rfl, rfl, rfl⟩)
  rintro shop rfl
  exact ⟨_, rfl⟩

theorem byCalls_cancel (engine : Engine ε) (id : TimerId) :
    engine.ByCalls sink thread (engine.cancel id).2 := by
  refine byCalls_call (.cancel id) ?_ (engine.scheduler.sameWorker_cancelHandle id)
  rintro shop rfl
  exact ⟨_, rfl⟩

theorem byCalls_of_context {engine after : Engine ε}
    (scheduler : after.scheduler = engine.scheduler)
    (told : sink.told after.context.env = sink.told engine.context.env) :
    engine.ByCalls sink thread after := by
  classical
  let change (context : Context ε) : Context ε :=
    if sink.told after.context.env = sink.told context.env then after.context else context
  have quiet : ∀ context, sink.told (change context).env = sink.told context.env := by
    intro context
    unfold change
    split
    next same => exact same
    next => rfl
  refine byCalls_call (.other change quiet) ?_ (by rw [scheduler]; exact .refl _)
  rintro shop rfl
  refine ⟨.done, ?_⟩
  have changed : change shop.engine.context = after.context := if_pos told
  simp only [Workshop.step, changed, ← scheduler]

end Engine

namespace Workshop

variable {ε : Type} {sink : Sink ε} {thread : ThreadId} {behaviour : Behaviour ε}

theorem free_begin (shop : Workshop ε) (thread : ThreadId) (execution : Execution)
    (tasks : List Task) : (shop.begin thread execution tasks).free thread = true := by
  unfold Workshop.free Workshop.begin
  dsimp only
  rw [tasks_withTasks_self]

theorem step_finish (sink : Sink ε) {shop : Workshop ε} {execution : Execution}
    {watch : ProcessorWatch} {rest : List Task}
    (doing : shop.tasks thread = .callback execution watch :: rest)
    (ending : Ending) :
    shop.step (.finish thread ending : Call sink) = some (.done,
      { shop with
        engine := shop.engine.report sink.tell execution watch ending
        ended := shop.ended ++ [(execution, ending)] }.withTasks thread
          (.returned execution :: rest)) := by
  simp only [Workshop.step, doing]

theorem step_settle (sink : Sink ε) {shop : Workshop ε} {execution : Execution} {rest : List Task}
    (doing : shop.tasks thread = .returned execution :: rest) :
    shop.step (.settle thread : Call sink) = some (.done,
      { shop with engine := shop.engine.settle execution }.withTasks thread rest) := by
  simp only [Workshop.step, doing]

/-- From the beginning of a callback to the end of its execution. -/
theorem leads_fire (byCalls : behaviour.ByCalls sink) {shop : Workshop ε} {fired : Engine ε}
    {execution : Execution} (quiet : shop.Quiet execution.thread)
    (firing : shop.engine.fire behaviour execution = some fired) (tasks : List Task) :
    ∃ trace last, Leads sink execution.thread (shop.begin execution.thread execution tasks)
      trace fired tasks last := by
  rw [Engine.fire_eq] at firing
  simp only [Option.bind_eq_bind, Option.bind_eq_some_iff, Option.pure_def,
    Option.some.injEq] at firing
  obtain ⟨⟨ending, called⟩, calling, settled⟩ := firing
  have begunQuiet : (shop.begin execution.thread execution tasks).Quiet execution.thread :=
    quiet.of_sameWorker (.refl _) (fun other different => tasks_withTasks_of_ne _ different _)
  obtain ⟨trace, inside, led⟩ := byCalls.call _ _ _ _ _ calling _ rfl
    (free_begin shop execution.thread execution tasks) begunQuiet
  have doing : inside.tasks execution.thread =
      .callback execution (shop.engine.announce execution).1 :: tasks :=
    led.tasks.trans (tasks_withTasks_self ..)
  have finish := led.quiet.leads _ (step_finish sink doing ending) (.refl _)
    (fun other different => tasks_withTasks_of_ne _ different _)
  have settle := finish.quiet.leads _ (step_settle sink (tasks_withTasks_self ..))
    (by
      dsimp only [Workshop.withTasks]
      rw [Engine.scheduler_settle]
      exact Scheduler.sameWorker_settle ..)
    (fun other different => tasks_withTasks_of_ne _ different _)
  have whole := (led.trans finish).trans settle
  refine ⟨_, _, whole.reaches, ?_, tasks_withTasks_self .., whole.quiet⟩
  rw [← settled, byCalls.reports, ← led.engine]
  rfl

theorem step_next_none (sink : Sink ε) {shop : Workshop ε} {cutoff : Instant} {count : Nat}
    {rest : List Task} (doing : shop.tasks thread = .pending cutoff count :: rest)
    (found : (shop.engine.scheduler.takeDue thread cutoff).execution = none) :
    shop.step (.next thread : Call sink) = some (.ran count,
      { shop with
        engine := shop.engine.afterTaking (shop.engine.scheduler.takeDue thread cutoff)
      }.withTasks thread rest) := by
  simp only [Workshop.step, Workshop.next, doing, Engine.takeDue, found]

theorem step_next_some (sink : Sink ε) {shop : Workshop ε} {cutoff : Instant} {count : Nat}
    {rest : List Task} {execution : Execution}
    (doing : shop.tasks thread = .pending cutoff count :: rest)
    (found : (shop.engine.scheduler.takeDue thread cutoff).execution = some execution) :
    shop.step (.next thread : Call sink) = some (.began execution,
      { shop with
        engine := shop.engine.afterTaking (shop.engine.scheduler.takeDue thread cutoff)
      }.begin thread execution (.pending cutoff (count + 1) :: rest)) := by
  simp only [Workshop.step, Workshop.next, doing, Engine.takeDue, found]

theorem leads_runDue (byCalls : behaviour.ByCalls sink) {cutoff : Instant} {bound : Nat}
    {shop : Workshop ε} {before count : Nat} {rest : List Task} {after : Engine ε}
    (doing : shop.tasks thread = .pending cutoff before :: rest) (quiet : shop.Quiet thread)
    (ran : shop.engine.runDue behaviour thread cutoff bound = some (count, after)) :
    ∃ trace last, Leads sink thread shop
      (trace ++ [(.ran (before + count), after.scheduler)]) after rest last := by
  induction bound generalizing shop before count with
  | zero => cases ran
  | succ bound induction =>
    obtain ⟨sameWorker, own⟩ :=
      shop.engine.scheduler.takeFrom_thread thread cutoff shop.engine.scheduler.queue
    unfold Engine.runDue at ran
    cases found : (shop.engine.scheduler.takeDue thread cutoff).execution with
    | none =>
      simp only [Engine.takeDue, found] at ran
      cases ran
      have next := quiet.leads _ (step_next_none sink doing found) sameWorker
        (fun other different => tasks_withTasks_of_ne _ different _)
      exact ⟨[], _, next.reaches, rfl, tasks_withTasks_self .., next.quiet⟩
    | some execution =>
      simp only [Engine.takeDue, found, Option.bind_eq_bind, Option.bind_eq_some_iff,
        Option.pure_def, Option.some.injEq] at ran
      obtain ⟨fired, firing, ⟨further, last⟩, ranRest, same⟩ := ran
      cases same
      obtain rfl := own execution found
      have next := quiet.leads _ (step_next_some sink doing found) sameWorker
        (fun other different => tasks_withTasks_of_ne _ different _)
      have takenQuiet : Quiet { shop with
          engine := shop.engine.afterTaking (shop.engine.scheduler.takeDue _ cutoff) } _ :=
        quiet.of_sameWorker sameWorker (fun _ _ => rfl)
      obtain ⟨inside, settled, fires⟩ := leads_fire byCalls takenQuiet firing
        (.pending cutoff (before + 1) :: rest)
      rw [← fires.engine] at ranRest
      obtain ⟨trace, last, counts⟩ := induction fires.tasks fires.quiet ranRest
      have whole := (next.trans fires).trans counts
      rw [← List.append_assoc, Nat.add_assoc, Nat.add_comm 1] at whole
      exact ⟨_, last, whole⟩

/-- Running what is due answers the number of timers that were run, at the end of calls that
bring the thread back to where it was. -/
theorem leads_runPending (byCalls : behaviour.ByCalls sink) {bound count : Nat}
    {shop : Workshop ε} {after : Engine ε} (free : shop.free thread = true)
    (quiet : shop.Quiet thread)
    (ran : shop.engine.runPending behaviour bound thread = some (count, after)) :
    ∃ trace last, Leads sink thread shop (trace ++ [(.ran count, after.scheduler)]) after
      (shop.tasks thread) last := by
  have begins : shop.step (.runPending thread : Call sink) = some (.done,
      shop.withTasks thread (.pending shop.engine.context.now 0 :: shop.tasks thread)) := by
    simp only [Workshop.step, free, if_true]
  have begun := quiet.leads _ begins (.refl _)
    (fun other different => tasks_withTasks_of_ne _ different _)
  obtain ⟨trace, last, runs⟩ := leads_runDue byCalls (tasks_withTasks_self ..) begun.quiet ran
  have whole := begun.trans runs
  rw [← List.append_assoc, Nat.zero_add] at whole
  exact ⟨_, last, whole⟩

theorem leads_start {shop : Workshop ε} (sink : Sink ε) (free : shop.free thread = true)
    (quiet : shop.Quiet thread) :
    ∃ trace last, Leads sink thread shop trace (shop.start thread true).2.engine
      (shop.tasks thread) last := by
  have made : shop.step (.start thread true : Call sink) =
      some ((shop.start thread true).1, (shop.start thread true).2) := by
    simp only [Workshop.step, free, if_true]
  suffices kept : (shop.start thread true).2.tasks thread = shop.tasks thread ∧
      (shop.start thread true).2.Quiet thread from
    ⟨_, _, .single _ made, rfl, kept.1, kept.2⟩
  unfold Workshop.start
  rcases shop.engine.scheduler.start_cases thread true with
    ⟨vacant, -, answer⟩ | ⟨-, ⟨⟩, -⟩ | ⟨-, -, answer⟩ | ⟨-, -, answer⟩ |
    ⟨worker, works, different, told, answer⟩
  · rw [answer]
    have older : thread ≠ shop.engine.scheduler.lastThread + 1 :=
      Nat.ne_of_lt (Nat.lt_succ_of_le quiet.made)
    refine ⟨tasks_withTasks_of_ne _ older _, Nat.le_succ_of_le quiet.made, ?_⟩
    intro worker works
    obtain rfl := Option.some.inj works
    exact ⟨Nat.le_refl _, fun _ => tasks_withTasks_self ..⟩
  all_goals
    rw [answer]
    exact ⟨rfl, quiet.of_sameWorker (.refl _) (fun _ _ => rfl)⟩

theorem reaches_leave {shop : Workshop ε} (sink : Sink ε) {worker : ThreadId}
    (doing : shop.tasks worker = [.loop])
    (works : shop.engine.scheduler.worker = some worker)
    (told : shop.engine.scheduler.shutdown = true) :
    ∃ trace last, Reaches sink shop trace last ∧ last.engine = shop.engine.leave worker ∧
      last.engine.scheduler = { shop.engine.scheduler with worker := none } ∧
      ∀ other, other ≠ worker → last.tasks other = shop.tasks other := by
  have turned : shop.engine.scheduler.turn worker shop.engine.context.now =
      (.leave, ⟨[], none, shop.engine.scheduler⟩) := if_pos told
  have next : shop.step (.next worker : Call sink) =
      some (.moved .leave, shop.withTasks worker [.leaving]) := by
    simp only [Workshop.step, Workshop.next, doing, turned]
    rfl
  have leave : (shop.withTasks worker [.leaving]).step (.leave worker : Call sink) =
      some (.done, { shop.withTasks worker [.leaving] with
        engine := shop.engine.leave worker }.withTasks worker []) := by
    simp only [Workshop.step, tasks_withTasks_self]
    rfl
  refine ⟨_, _, (Reaches.single _ next).trans (Reaches.single _ leave), rfl, ?_, ?_⟩
  · exact if_pos works
  · intro other different
    exact (tasks_withTasks_of_ne _ different _).trans (tasks_withTasks_of_ne _ different _)

theorem leads_leave {shop : Workshop ε} (sink : Sink ε) (quiet : shop.Quiet thread)
    {worker : ThreadId} (works : shop.engine.scheduler.worker = some worker)
    (different : worker ≠ thread) (told : shop.engine.scheduler.shutdown = true) :
    ∃ trace last, Leads sink thread shop trace (shop.engine.leave worker)
      (shop.tasks thread) last := by
  have doing := (quiet.worker worker works).2 different
  obtain ⟨trace, last, reaches, engine, vacant, others⟩ := reaches_leave sink doing works told
  refine ⟨trace, last, reaches, engine, others thread different.symm, ?_, ?_⟩
  · rw [vacant]
    exact quiet.made
  · intro other still
    rw [vacant] at still
    cases still

end Workshop

namespace Engine

variable {ε : Type} {sink : Sink ε} {thread : ThreadId} {behaviour : Behaviour ε}

theorem byCalls_runPending (byCalls : behaviour.ByCalls sink) {engine after : Engine ε}
    {bound count : Nat}
    (ran : engine.runPending behaviour bound thread = some (count, after)) :
    engine.ByCalls sink thread after := by
  rintro shop rfl free quiet
  obtain ⟨trace, last, runs⟩ := Workshop.leads_runPending byCalls free quiet ran
  exact ⟨_, last, runs⟩

theorem byCalls_start (engine : Engine ε) (thread : ThreadId) :
    engine.ByCalls sink thread (engine.start thread).2 := by
  rintro shop rfl free quiet
  obtain ⟨trace, last, first⟩ := Workshop.leads_start sink free quiet
  unfold Engine.start
  unfold Workshop.start at first
  rcases shop.engine.scheduler.start_cases thread true with
    ⟨vacant, -, answer⟩ | ⟨-, ⟨⟩, -⟩ | ⟨-, -, answer⟩ | ⟨-, -, answer⟩ |
    ⟨worker, works, different, told, answer⟩
  · simp only [answer] at first ⊢
    exact ⟨trace, last, first⟩
  · simp only [answer] at first ⊢
    exact ⟨trace, last, first⟩
  · simp only [answer] at first ⊢
    exact ⟨trace, last, first⟩
  · -- The worker has to leave first, and then there is a place for the new one.
    simp only [answer] at first
    have stillWorks : last.engine.scheduler.worker = some worker := by
      rw [first.engine]
      exact works
    obtain ⟨departure, left, leaves⟩ := Workshop.leads_leave sink first.quiet stillWorks
      different (by rw [first.engine]; exact told)
    have free : left.free thread = true :=
      Workshop.free_of_tasks (leaves.tasks.trans first.tasks) free
    obtain ⟨arrival, restarted, starts⟩ := Workshop.leads_start sink free leaves.quiet
    have whole := (first.trans leaves).trans starts
    have awaited : shop.engine.awaitWorker = left.engine := by
      rw [leaves.engine, first.engine]
      unfold awaitWorker
      rw [works]
    have vacant : left.engine.scheduler.worker = none := by
      rw [leaves.engine]
      change (last.engine.scheduler.leave worker).worker = none
      rw [Scheduler.leave, if_pos stillWorks]
    obtain ⟨scheduler, spawns⟩ : ∃ scheduler, left.engine.scheduler.start thread true =
        (.spawned (left.engine.scheduler.lastThread + 1), scheduler) :=
      ⟨_, by rw [Scheduler.start, vacant]; rfl⟩
    simp only [answer, awaited, spawns, Workshop.start] at whole ⊢
    rw [leaves.tasks, first.tasks] at whole
    exact ⟨_, restarted, whole⟩

theorem byCalls_stop (engine : Engine ε) (thread : ThreadId) :
    engine.ByCalls sink thread (engine.stop thread) := by
  rintro shop rfl free quiet
  have made : shop.step (.stop thread : Call sink) =
      some ((shop.stop thread).1, (shop.stop thread).2) := by
    simp only [Workshop.step, free, if_true]
  have stays : (shop.stop thread).2.tasks = shop.tasks := rfl
  have told : (shop.stop thread).2.engine.scheduler = shop.engine.scheduler.requestStop.2 := by
    unfold Workshop.stop
    dsimp only
    split <;> rfl
  have stoppedQuiet : (shop.stop thread).2.Quiet thread := by
    refine ⟨?_, fun worker works => ?_⟩
    · rw [told]
      exact quiet.made
    · rw [told] at works ⊢
      exact quiet.worker worker works
  have first : Leads sink thread shop _ (shop.stop thread).2.engine (shop.tasks thread) _ :=
    ⟨.single _ made, rfl, congrFun stays thread, stoppedQuiet⟩
  unfold Engine.stop
  unfold Workshop.stop at first
  dsimp only [Scheduler.requestStop] at first ⊢
  cases joinable : shop.engine.scheduler.joinable with
  | none =>
    simp only [joinable] at first
    exact ⟨_, _, first⟩
  | some worker =>
    by_cases own : worker = thread
    · subst own
      simp only [joinable, if_true] at first ⊢
      exact ⟨_, _, first⟩
    · simp only [joinable, Option.some.injEq, own, if_false] at first ⊢
      split
      next works =>
        obtain ⟨departure, left, leaves⟩ := Workshop.leads_leave sink first.quiet
          (by rw [first.engine]; exact works) own (by rw [first.engine])
        rw [first.engine, first.tasks] at leaves
        exact ⟨_, left, first.trans leaves⟩
      next => exact ⟨_, _, first⟩

end Engine

namespace Workshop

variable {ε : Type} {sink : Sink ε} {behaviour : Behaviour ε}

/-- The worker has been made, and is at the head of its loop. -/
def Idle (shop : Workshop ε) : Prop :=
  ∀ worker, shop.engine.scheduler.worker = some worker →
    worker ≤ shop.engine.scheduler.lastThread ∧ shop.tasks worker = [.loop]

theorem Idle.quiet {shop : Workshop ε} (idle : shop.Idle) {thread : ThreadId}
    (made : thread ≤ shop.engine.scheduler.lastThread) : shop.Quiet thread :=
  ⟨made, fun worker works => ⟨(idle worker works).1, fun _ => (idle worker works).2⟩⟩

theorem Quiet.idle {shop : Workshop ε} {worker : ThreadId} (quiet : shop.Quiet worker)
    (doing : shop.tasks worker = [.loop]) : shop.Idle := by
  intro other works
  obtain ⟨made, loops⟩ := quiet.worker other works
  refine ⟨made, ?_⟩
  by_cases own : other = worker
  · exact own ▸ doing
  · exact loops own

theorem step_next_worker (sink : Sink ε) {shop : Workshop ε} {worker : ThreadId}
    {rest : List Task} {move : Scheduler.WorkerMove} {taken : Scheduler.Taken}
    (doing : shop.tasks worker = .loop :: rest)
    (turned : shop.engine.scheduler.turn worker shop.engine.context.now = (move, taken)) :
    shop.step (.next worker : Call sink) = some (.moved move,
      { shop with engine := shop.engine.afterTaking taken }.move worker rest move) := by
  simp only [Workshop.step, Workshop.next, doing, turned]

/-- Running the worker is made of calls of the worker, after which it is at the head of its
loop or has left it. -/
theorem reaches_runWorker (byCalls : behaviour.ByCalls sink) {bound : Nat}
    {shop : Workshop ε} {after : Engine ε} (idle : shop.Idle)
    (ran : shop.engine.runWorker behaviour bound = some after) :
    ∃ trace last, Reaches sink shop trace last ∧ last.engine = after ∧ last.Idle := by
  induction bound generalizing shop with
  | zero => cases ran
  | succ bound induction =>
    unfold Engine.runWorker at ran
    cases works : shop.engine.scheduler.worker with
    | none =>
      rw [works] at ran
      cases ran
      exact ⟨[], shop, .refl shop, rfl, idle⟩
    | some worker =>
      rw [works] at ran
      dsimp only at ran
      obtain ⟨made, doing⟩ := idle worker works
      have quiet := idle.quiet made
      cases turned : shop.engine.scheduler.turn worker shop.engine.context.now with
      | mk move taken =>
        rw [turned] at ran
        have next := step_next_worker sink doing turned
        by_cases told : shop.engine.scheduler.shutdown = true
        · rw [Scheduler.turn, if_pos told] at turned
          cases turned
          cases ran
          obtain ⟨trace, last, reaches, engine, vacant, -⟩ :=
            reaches_leave sink doing works told
          refine ⟨trace, last, reaches, engine, fun other still => ?_⟩
          rw [vacant] at still
          cases still
        · rw [Scheduler.turn, if_neg told] at turned
          obtain ⟨sameWorker, own⟩ := shop.engine.scheduler.takeFrom_thread worker
            shop.engine.context.now shop.engine.scheduler.queue
          cases found :
              (shop.engine.scheduler.takeDue worker shop.engine.context.now).execution with
          | none =>
            simp only [found] at turned
            cases turned
            cases ran
            have stays := quiet.leads _ next sameWorker (fun _ _ => rfl)
            exact ⟨_, _, stays.reaches, rfl, stays.quiet.idle doing⟩
          | some execution =>
            simp only [found] at turned
            cases turned
            simp only [Option.bind_eq_bind, Option.bind_eq_some_iff] at ran
            obtain ⟨fired, firing, ranRest⟩ := ran
            obtain rfl := own execution found
            have begins := quiet.leads _ next sameWorker
              (fun other different => tasks_withTasks_of_ne _ different _)
            have takenQuiet : Quiet { shop with
                engine := shop.engine.afterTaking
                  (shop.engine.scheduler.takeDue _ shop.engine.context.now) } _ :=
              quiet.of_sameWorker sameWorker (fun _ _ => rfl)
            obtain ⟨trace, settled, fires⟩ := leads_fire byCalls takenQuiet firing [.loop]
            rw [← fires.engine] at ranRest
            obtain ⟨further, last, reaches, result⟩ :=
              induction (fires.quiet.idle fires.tasks) ranRest
            exact ⟨_, last, (begins.trans fires).reaches.trans reaches, result⟩

end Workshop

namespace Simulation

def Event.failure? : Event → Option Failure
  | failed failure => some failure
  | _ => none

namespace Rehearsal

def sink : Sink Stage where
  tell := recordFailure
  told stage := stage.events.toList.filterMap Event.failure?
  clocksTell _ _ := rfl
  toldTell failure context := by simp [recordFailure, Event.failure?]

variable {thread : ThreadId}

theorem byCalls_record (rehearsal : Rehearsal) {event : Event} (quiet : event.failure? = none) :
    Engine.ByCalls sink thread rehearsal (rehearsal.record event) :=
  Engine.byCalls_of_context rfl (by simp [sink, record, quiet])

theorem byCalls_schedule (rehearsal : Rehearsal) (plan : Plan) :
    Engine.ByCalls sink thread rehearsal (rehearsal.schedule plan).2 :=
  (Engine.byCalls_register rehearsal plan.first plan.period).trans
    (Engine.byCalls_of_context rfl rfl)

theorem byCalls_cancel (rehearsal : Rehearsal) (name : String) :
    Engine.ByCalls sink thread rehearsal (rehearsal.cancel name).2 := by
  unfold cancel
  split
  · exact Engine.byCalls_of_context rfl rfl
  · exact Engine.byCalls_cancel rehearsal _

theorem byCalls_beginRun (thread : ThreadId) (id : TimerId) (rehearsal : Rehearsal) :
    Engine.ByCalls sink thread rehearsal (beginRun thread id rehearsal).2 := by
  unfold beginRun
  dsimp only
  split
  · exact Engine.byCalls_of_context rfl rfl
  · exact Engine.byCalls_of_context rfl (by simp [sink, record, Event.failure?])

theorem byCalls_perform {runPending : Rehearsal → Option (Nat × Rehearsal)}
    (nested : ∀ inner count outer, runPending inner = some (count, outer) →
      Engine.ByCalls sink thread inner outer)
    {actions : List Action} {rehearsal after : Rehearsal} {ending : Ending}
    (performed : perform runPending thread actions rehearsal = some (ending, after)) :
    Engine.ByCalls sink thread rehearsal after := by
  induction actions generalizing rehearsal with
  | nil =>
    cases performed
    exact Engine.byCalls_of_context rfl rfl
  | cons action rest induction =>
    cases action with
    | clock step =>
      refine (Engine.byCalls_of_context ?_ ?_).trans (induction performed)
      · rfl
      · cases step <;> rfl
    | cancel name =>
      exact (byCalls_cancel rehearsal name).trans
        ((byCalls_record _ rfl).trans (induction performed))
    | status name =>
      refine .trans ?_ (induction performed)
      split
      · exact Engine.byCalls_of_context rfl rfl
      · exact byCalls_record _ rfl
    | schedule name first period script =>
      exact (byCalls_schedule rehearsal _).trans
        ((byCalls_record _ rfl).trans (induction performed))
    | pending => exact (byCalls_record _ rfl).trans (induction performed)
    | current => exact (byCalls_record _ rfl).trans (induction performed)
    | runPending =>
      simp only [perform, Option.bind_eq_bind, Option.bind_eq_some_iff] at performed
      obtain ⟨⟨count, inner⟩, ran, performed⟩ := performed
      exact (nested _ _ _ ran).trans ((byCalls_record _ rfl).trans (induction performed))
    | stop =>
      exact (Engine.byCalls_stop rehearsal thread).trans
        ((byCalls_record _ rfl).trans (induction performed))
    | start =>
      exact (Engine.byCalls_start rehearsal thread).trans
        ((byCalls_record _ rfl).trans (induction performed))
    | fail | abort =>
      cases performed
      exact Engine.byCalls_of_context rfl rfl

/-- Scripted callbacks are made of calls at every depth of callbacks inside callbacks. -/
theorem byCalls_behaviour (bound depth : Nat) :
    (behaviour recordFailure bound depth).ByCalls sink := by
  induction depth with
  | zero => exact ⟨rfl, fun _ _ _ _ _ called => by cases called⟩
  | succ depth induction =>
    refine ⟨rfl, fun thread id engine ending after called => ?_⟩
    refine (byCalls_beginRun thread id engine).trans (byCalls_perform ?_ called)
    intro inner count outer ran
    exact Engine.byCalls_runPending induction ran

/-- So what a thread runs of scripted timers is a run in a workshop that ends with the number
of timers that it has run. -/
theorem reaches_runPending {bound depth count : Nat} {shop : Workshop Stage}
    {after : Rehearsal} (idle : shop.Idle) (thread : ThreadId)
    (made : thread ≤ shop.engine.scheduler.lastThread) (free : shop.free thread = true)
    (ran : Engine.runPending (behaviour recordFailure bound depth) bound thread shop.engine =
      some (count, after)) :
    ∃ trace last, Workshop.Reaches sink shop (trace ++ [(.ran count, after.scheduler)]) last ∧
      last.engine = after ∧ last.tasks thread = shop.tasks thread := by
  obtain ⟨trace, last, runs⟩ := Workshop.leads_runPending
    (byCalls_behaviour bound depth) free (idle.quiet made) ran
  exact ⟨trace, last, runs.reaches, runs.engine, runs.tasks⟩

end Rehearsal

end Simulation

end TimeSync
