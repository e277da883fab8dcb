import TimeSync.Proofs.Scheduler.OneWorker

/-!
# Waiting for the worker to end

Who stops the worker waits for its end if there is a thread to wait for.  A thread can be
waited for once: the call that takes it, be it one from a callback of the worker, which
cannot wait for itself, leaves nothing to the calls after it.  So a call from outside that
waits returns when no worker is left, and one that does not wait may find the worker still
in a callback, but only if another call waits for it already or its own callback has told it
to leave.  Dropping the scheduler makes such a call.
-/

namespace TimeSync.Crew

/-- Whether a step is a call that starts the worker and succeeds. -/
def Act.Succeeds : Act → Prop
  | .started _ answer => answer.succeeds = true
  | _ => False

/-- Whether the thread that can be waited for is the worker's, and whoever has taken it from
there waits for it or is the worker, given what has been done. -/
structure Tracked (crew : Crew) (done : List Act) : Prop where
  made : ∀ thread, crew.scheduler.joinable = some thread → crew.stage thread ≠ none
  own : ∀ thread worker, crew.scheduler.joinable = some thread →
    crew.scheduler.worker = some worker → worker = thread
  taken : ∀ worker, crew.scheduler.worker = some worker →
    crew.scheduler.joinable = some worker ∨ (∃ other, (other, worker) ∈ crew.stoppers) ∨
      Act.stopped worker none ∈ done

theorem Tracked.initial (outsiders : Nat) : (Crew.new outsiders).Tracked [] :=
  ⟨nofun, nofun, nofun⟩

theorem Tracked.of_same {before after : Crew} {done more : List Act}
    (tracked : before.Tracked done)
    (same : Scheduler.SameWorker before.scheduler after.scheduler)
    (stages : ∀ thread, before.stage thread ≠ none → after.stage thread ≠ none)
    (waits : ∀ other worker, before.scheduler.worker = some worker →
      (other, worker) ∈ before.stoppers → (other, worker) ∈ after.stoppers)
    (kept : ∀ act ∈ done, act ∈ more) : after.Tracked more where
  made := by
    rw [same.joinable]
    exact fun thread joinable => stages thread (tracked.made thread joinable)
  own := by
    rw [same.joinable, same.worker]
    exact tracked.own
  taken := by
    rw [same.joinable, same.worker]
    intro worker entered
    rcases tracked.taken worker entered with joinable | ⟨other, waiting⟩ | asked
    · exact .inl joinable
    · exact .inr (.inl ⟨other, waits other worker entered waiting⟩)
    · exact .inr (.inr (kept _ asked))

theorem Tracked.start {crew : Crew} {done : List Act} (tracked : crew.Tracked done)
    (thread : ThreadId) (granted : Bool) : (crew.afterStart thread granted).Tracked done := by
  unfold afterStart
  rcases crew.scheduler.start_cases thread granted with
    ⟨-, -, answer⟩ | ⟨-, -, answer⟩ | ⟨-, -, answer⟩ | ⟨-, -, answer⟩ |
    ⟨_, -, -, -, answer⟩
  · rw [answer]
    refine ⟨?_, ?_, fun worker entered => .inl entered⟩
    · rintro _ ⟨⟩
      exact ne_of_eq_of_ne (Function.update_self ..) nofun
    · rintro _ _ ⟨⟩ ⟨⟩
      rfl
  all_goals
    rw [answer]
    exact ⟨tracked.made, tracked.own, tracked.taken⟩

/-- What the thread that could be waited for becomes of a call that stops the worker: the
caller waits for it, or is the worker itself. -/
theorem Tracked.stop {crew : Crew} {done : List Act} (tracked : crew.Tracked done)
    (thread : ThreadId) :
    (crew.afterStop thread).Tracked (done ++ [.stopped thread (crew.awaited thread)]) := by
  refine ⟨nofun, nofun, ?_⟩
  intro worker entered
  rcases tracked.taken worker entered with joinable | ⟨other, waiting⟩ | asked
  · by_cases own : worker = thread
    · subst own
      have nothing : crew.awaited worker = none := by
        simp [awaited, Scheduler.requestStop, joinable]
      exact .inr (.inr (by simp [nothing]))
    · have awaits : crew.awaited thread = some worker := by
        simp [awaited, Scheduler.requestStop, joinable, own]
      exact .inr (.inl ⟨thread, by simp [afterStop, awaits]⟩)
  · exact .inr (.inl ⟨other, List.mem_append_right _ waiting⟩)
  · exact .inr (.inr (List.mem_append_left _ asked))

theorem Step.tracked {before after : Crew} {act : Act} {done : List Act}
    (step : Step before act after) (orderly : before.Orderly) (tracked : before.Tracked done) :
    after.Tracked (done ++ [act]) := by
  have longer : ∀ earlier ∈ done, earlier ∈ done ++ [act] :=
    fun _ => List.mem_append_left _
  cases step with
  | operate thread free made step =>
    exact tracked.of_same (step.of_madeBy orderly.coupled made).1 (fun _ made => made)
      (fun _ _ _ waiting => waiting) longer
  | start thread granted =>
    exact (tracked.start thread granted).of_same (.refl _) (fun _ made => made)
      (fun _ _ _ waiting => waiting) longer
  | stop thread => exact tracked.stop thread
  | turn worker now looping between =>
    exact tracked.of_same (orderly.coupled.sameWorker_turn orderly.present worker now)
      (fun _ made => update_ne_none made _ _) (fun _ _ _ waiting => waiting) longer
  | wake | signal =>
    exact tracked.of_same (.refl _) (fun _ made => update_ne_none made _ _)
      (fun _ _ _ waiting => waiting) longer
  | leave worker leaving =>
    have entered := (orderly.entry worker).mpr ⟨.leaving, leaving, nofun⟩
    have cleared : before.scheduler.leave worker = { before.scheduler with worker := none } :=
      if_pos entered
    rw [cleared]
    exact ⟨fun thread joinable => update_ne_none (tracked.made thread joinable) _ _,
      nofun, nofun⟩
  | join thread ended waiting gone =>
    refine tracked.of_same (.refl _) (fun _ made => made) ?_ longer
    intro other worker entered waits
    refine (List.mem_erase_of_ne ?_).mpr waits
    -- The thread that has ended is not the one that the entry names.
    rintro ⟨⟩
    exact ((orderly.entry ended).mp entered).stage_ne_gone gone
  | signalNobody =>
    exact tracked.of_same (.refl _) (fun _ made => made) (fun _ _ _ waiting => waiting) longer

theorem Run.tracked {first last : Crew} {acts done : List Act} (run : Run first acts last)
    (orderly : first.Orderly) (tracked : first.Tracked done) :
    last.Tracked (done ++ acts) := by
  induction run generalizing done with
  | nil => rwa [List.append_nil]
  | @cons _ _ _ act acts step _ induction =>
    have whole := induction (step.orderly orderly) (step.tracked orderly tracked)
    rwa [List.append_assoc, List.singleton_append] at whole

/-- Whether a thread waits for the end of a worker that has been made, or can see it. -/
structure Awaits (crew : Crew) (thread worker : ThreadId) : Prop where
  made : crew.stage worker ≠ none
  waits : (thread, worker) ∈ crew.stoppers ∨ crew.stage worker = some .gone

theorem Awaits.proceed {crew : Crew} {thread worker : ThreadId}
    (awaits : crew.Awaits thread worker) {other : ThreadId} (working : crew.Working other)
    (next : Stage) {after : Scheduler} (signals : Nat) :
    Awaits { crew with
      scheduler := after
      stage := Function.update crew.stage other (some next)
      signals } thread worker := by
  refine ⟨update_ne_none awaits.made _ _, awaits.waits.imp_right fun gone => ?_⟩
  have different : worker ≠ other := by
    rintro rfl
    exact working.stage_ne_gone gone
  exact (Function.update_of_ne different ..).trans gone

theorem Awaits.start {crew : Crew} (orderly : crew.Orderly) {thread worker : ThreadId}
    (awaits : crew.Awaits thread worker) (other : ThreadId) (granted : Bool) :
    (crew.afterStart other granted).Awaits thread worker := by
  unfold afterStart
  rcases crew.scheduler.start_cases other granted with
    ⟨-, -, answer⟩ | ⟨-, -, answer⟩ | ⟨-, -, answer⟩ | ⟨-, -, answer⟩ |
    ⟨_, -, -, -, answer⟩
  · rw [answer]
    have older := orderly.ne_next awaits.made
    exact ⟨update_ne_none awaits.made _ _,
      awaits.waits.imp_right (Function.update_of_ne older ..).trans⟩
  all_goals
    rw [answer]
    exact ⟨awaits.made, awaits.waits⟩

theorem Step.awaits {before after : Crew} {act : Act} {thread worker : ThreadId}
    (step : Step before act after) (orderly : before.Orderly)
    (awaits : before.Awaits thread worker) : after.Awaits thread worker := by
  cases step with
  | operate | signalNobody => exact ⟨awaits.made, awaits.waits⟩
  | start other granted => exact awaits.start orderly other granted
  | stop other =>
    exact ⟨awaits.made, awaits.waits.imp_left (List.mem_append_right _)⟩
  | join other ended waiting gone =>
    refine ⟨awaits.made, awaits.waits.elim (fun waits => ?_) .inr⟩
    by_cases same : ended = worker
    · exact .inr (same ▸ gone)
    · refine .inl ((List.mem_erase_of_ne ?_).mpr waits)
      rintro ⟨⟩
      exact same rfl
  | turn other now looping between => exact awaits.proceed ⟨_, looping, nofun⟩ _ _
  | wake other asleep => exact awaits.proceed ⟨_, asleep, nofun⟩ _ _
  | signal other pending asleep => exact awaits.proceed ⟨_, asleep, nofun⟩ _ _
  | leave other leaving => exact awaits.proceed ⟨_, leaving, nofun⟩ _ _

theorem Run.awaits {first last : Crew} {acts : List Act} {thread worker : ThreadId}
    (run : Run first acts last) (orderly : first.Orderly) (awaits : first.Awaits thread worker) :
    last.Awaits thread worker := by
  induction run with
  | nil => exact awaits
  | cons step _ induction =>
    exact induction (step.orderly orderly) (step.awaits orderly awaits)

/-- Whether whoever works is one of some threads, and has been told to leave. -/
def Winding (crew : Crew) (among : ThreadId → Prop) : Prop :=
  ∀ thread, crew.Working thread → among thread ∧ crew.scheduler.shutdown = true

theorem Winding.of_fewer {before after : Crew} {among : ThreadId → Prop}
    (winding : before.Winding among)
    (shutdown : after.scheduler.shutdown = before.scheduler.shutdown)
    (fewer : ∀ thread, after.Working thread → before.Working thread) :
    after.Winding among := by
  intro thread working
  rw [shutdown]
  exact winding thread (fewer thread working)

theorem Winding.start {crew : Crew} (orderly : crew.Orderly) {among : ThreadId → Prop}
    (winding : crew.Winding among) (thread : ThreadId) (granted : Bool)
    (fails : (crew.scheduler.start thread granted).1.succeeds = false) :
    (crew.afterStart thread granted).Winding among := by
  unfold afterStart
  rcases crew.scheduler.start_cases thread granted with
    ⟨-, -, answer⟩ | ⟨vacant, -, answer⟩ | ⟨-, -, answer⟩ | ⟨-, -, answer⟩ |
    ⟨_, -, -, -, answer⟩
  · rw [answer] at fails
    cases fails
  · rw [answer]
    exact fun other working => (orderly.not_working vacant other working).elim
  · rw [answer] at fails
    cases fails
  all_goals
    rw [answer]
    exact winding

theorem Step.winding {before after : Crew} {act : Act} {among : ThreadId → Prop}
    (step : Step before act after) (orderly : before.Orderly) (winding : before.Winding among)
    (fails : ¬ act.Succeeds) : after.Winding among := by
  have awake : ∀ {other wakeAt} signals, before.stage other = some (.asleep wakeAt) →
      Winding { before with
        stage := Function.update before.stage other (some .looping), signals } among :=
    fun signals asleep => winding.of_fewer rfl fun thread =>
      (exists_stage_update_iff ⟨_, asleep, nofun⟩
        (show Stage.looping ≠ .gone from nofun) thread).mp
  cases step with
  | operate thread free made step =>
    exact winding.of_fewer (step.of_madeBy orderly.coupled made).1.shutdown fun _ works => works
  | start thread granted =>
    exact winding.start orderly thread granted (Bool.eq_false_iff.mpr fails)
  | stop thread => exact fun other working => ⟨(winding other working).1, rfl⟩
  | turn other now looping between =>
    have goesOn : (before.scheduler.turn other now).1.stage ≠ .gone := by
      cases (before.scheduler.turn other now).1 <;> exact nofun
    exact winding.of_fewer
      (orderly.coupled.sameWorker_turn orderly.present other now).shutdown fun thread =>
        (exists_stage_update_iff ⟨.looping, looping, nofun⟩ goesOn thread).mp
  | wake other asleep => exact awake _ asleep
  | signal other pending asleep => exact awake _ asleep
  | leave other leaving =>
    refine winding.of_fewer ?_ ?_
    · exact (apply_ite Scheduler.shutdown _ _ _).trans (ite_self _)
    · rintro thread ⟨stage, is, stays⟩
      rcases stage_update_cases is with ⟨-, ended⟩ | ⟨-, before⟩
      · exact (stays ended).elim
      · exact ⟨stage, before, stays⟩
  | join | signalNobody => exact winding

theorem Run.winding {first last : Crew} {acts : List Act} {among : ThreadId → Prop}
    (run : Run first acts last) (orderly : first.Orderly) (winding : first.Winding among)
    (fail : ∀ act ∈ acts, ¬ act.Succeeds) : last.Winding among := by
  induction run with
  | nil => exact winding
  | cons step _ induction =>
    obtain ⟨fails, others⟩ := List.forall_mem_cons.mp fail
    exact induction (step.orderly orderly) (step.winding orderly winding fails) others

/-- A worker that has been told to leave takes no timer any more. -/
theorem Winding.turned {crew after : Crew} {among : ThreadId → Prop}
    (winding : crew.Winding among) {worker : ThreadId} {move : Scheduler.WorkerMove}
    (step : Step crew (.turned worker move) after) : move = .leave := by
  generalize shown : Act.turned worker move = act at step
  cases step with
  | turn worker now looping =>
    cases shown
    have told := (winding worker ⟨.looping, looping, nofun⟩).2
    simp [Scheduler.turn, told]
  | _ => cases shown

/-- What a call that stops the worker finds: the thread that it waits for is the only one
that can still work, and if it waits for none, the one that works is taken care of by others. -/
theorem Step.stopped {before after : Crew} {done : List Act} {caller : ThreadId}
    {awaited : Option ThreadId} (step : Step before (.stopped caller awaited) after)
    (orderly : before.Orderly) (tracked : before.Tracked done)
    (outside : before.stage caller = none) :
    after.Winding after.Working ∧
    (∀ worker, awaited = some worker → after.Awaits caller worker ∧
      ∀ thread, after.Working thread → thread = worker) ∧
    (awaited = none → ∀ worker, after.Working worker →
      (∃ other, (other, worker) ∈ after.stoppers) ∨ Act.stopped worker none ∈ done) := by
  generalize shown : Act.stopped caller awaited = act at step
  cases step with
  | stop thread free =>
    cases shown
    refine ⟨fun _ working => ⟨working, rfl⟩, ?_, ?_⟩
    · intro worker awaits
      have joinable : before.scheduler.joinable = some worker :=
        (Option.filter_eq_some_iff.mp awaits).1
      refine ⟨⟨tracked.made worker joinable, .inl ?_⟩, ?_⟩
      · simp [afterStop, awaits]
      · intro other working
        exact tracked.own worker other joinable ((orderly.entry other).mpr working)
    · intro none worker working
      rcases tracked.taken worker ((orderly.entry worker).mpr working) with
        joinable | ⟨other, waiting⟩ | asked
      · -- The caller, who is not the worker, would wait for it.
        have different : worker ≠ caller := by
          rintro rfl
          exact working.stage_ne_none outside
        simp [awaited, Scheduler.requestStop, joinable, different] at none
      · exact .inl ⟨other, List.mem_append_right _ waiting⟩
      · exact .inr asked
  | _ => cases shown

/-- A thread that was not made for the worker's loop tells the worker to leave, and has
returned from that call, while no call that starts the worker has succeeded since.  If there
was a thread to wait for, nobody works any more, so that no callback is in progress but those
that other threads run.  If there was none, whoever works has been told to leave and takes no
timer any more; another call waits for it, or its own callback has told it to leave before. -/
theorem stop_waits_unless_taken {outsiders : Nat} {acts later : List Act}
    {crew told last : Crew} {caller : ThreadId} {awaited : Option ThreadId}
    (run : Run (.new outsiders) acts crew) (outside : crew.stage caller = none)
    (stop : Step crew (.stopped caller awaited) told) (further : Run told later last)
    (fail : ∀ act ∈ later, ¬ act.Succeeds) (returned : last.Free caller) :
    (awaited.isSome → ∀ thread, ¬ last.Working thread) ∧
    (awaited = none → ∀ thread, last.Working thread →
      last.scheduler.shutdown = true ∧ told.Working thread ∧
        ((∃ other, (other, thread) ∈ told.stoppers) ∨ Act.stopped thread none ∈ acts)) ∧
    (∀ execution ∈ last.scheduler.executions,
      last.stage execution.thread = none ∨ last.Working execution.thread) ∧
    (∀ worker move after, Step last (.turned worker move) after → move = .leave) := by
  have orderly := run.orderly (.initial outsiders)
  have tracked := run.tracked (.initial outsiders) (.initial outsiders)
  obtain ⟨winding, waits, spared⟩ := stop.stopped orderly tracked outside
  have toldOrderly := stop.orderly orderly
  have lastOrderly := further.orderly toldOrderly
  have lastWinding := further.winding toldOrderly winding fail
  refine ⟨?_, ?_, ?_, fun worker move after step => lastWinding.turned step⟩
  · intro waited thread working
    obtain ⟨worker, rfl⟩ := Option.isSome_iff_exists.mp waited
    obtain ⟨awaits, only⟩ := waits worker rfl
    obtain rfl := only thread (lastWinding thread working).1
    rcases (further.awaits toldOrderly awaits).waits with waiting | gone
    · exact returned.notStopping thread waiting
    · exact working.stage_ne_gone gone
  · intro none thread working
    obtain ⟨before, shutdown⟩ := lastWinding thread working
    exact ⟨shutdown, before, spared none thread before⟩
  · intro execution inProgress
    exact or_iff_not_imp_left.mpr fun made => lastOrderly.working_of_executing inProgress made

/-- A scheduler whose worker is in the callback of its first timer. -/
def calledBack : Crew :=
  let registered : Crew := { Crew.new 1 with
    scheduler := ((Crew.new 1).scheduler.register (.instant .origin) none .origin).2
    signals := 1 }
  (registered.afterStart 0 true).afterTurn 2 .origin

theorem run_calledBack :
    Run (.new 1) [.operated 0 (.registered 0 .origin), .started 0 (.spawned 2),
      .turned 2 (.run ⟨2, 0, .origin⟩)] calledBack := by
  refine .cons (.operate 0 ?_ trivial (.register (.instant .origin) none .origin rfl))
    (.cons (.start 0 true (.inl ?_)) (.cons (.turn 2 .origin rfl (by decide)) .nil))
  all_goals exact .of_outside (by decide) (by decide) (fun _ => List.not_mem_nil) rfl

/-- A thread from outside tells the worker to leave while a callback is in progress: it waits
until the callback has ended and the worker is gone. -/
theorem stop_waits_unless_taken_waited :
    let execution : Execution := ⟨2, 0, .origin⟩
    let stopped := calledBack.afterStop 1
    let settled : Crew := { stopped with
      scheduler := stopped.scheduler.settle execution .origin }
    let leaving := settled.afterTurn 2 .origin
    let left : Crew := { leaving with
      scheduler := leaving.scheduler.leave 2
      stage := Function.update leaving.stage 2 (some .gone) }
    let joined : Crew := { left with stoppers := left.stoppers.erase (1, 2) }
    Step calledBack (.stopped 1 (some 2)) stopped ∧ stopped.Working 2 ∧
    Run stopped [.operated 2 (.settled execution .done .origin), .turned 2 .leave, .left 2,
      .joined 1 2] joined ∧
    joined.Free 1 ∧ ∀ thread, ¬ joined.Working thread := by
  intro execution stopped settled leaving left joined
  have stops : Step calledBack (.stopped 1 (some 2)) stopped :=
    .stop 1 (.of_outside (by decide) (by decide) (fun _ => List.not_mem_nil) rfl)
  have innermost : stopped.scheduler.stack 2 = [execution] := by decide
  have settles : Step stopped (.operated 2 (.settled execution .done .origin)) settled :=
    .operate 2 (.of_callback (by decide) (by decide) (by decide) rfl (by decide)) rfl
      (.settle .done .origin innermost)
  have turns : Step settled (.turned 2 .leave) leaving := .turn 2 .origin rfl (by decide)
  have leaves : Step leaving (.left 2) left := .leave 2 rfl
  have joins : Step left (.joined 1 2) joined := .join 1 2 (by decide) rfl
  have further : Run stopped [.operated 2 (.settled execution .done .origin),
      .turned 2 .leave, .left 2, .joined 1 2] joined :=
    .cons settles (.cons turns (.cons leaves (.cons joins .nil)))
  have free : joined.Free 1 :=
    .of_outside (by decide) (by decide) (fun _ => List.not_mem_nil) rfl
  have nobody := (stop_waits_unless_taken run_calledBack rfl stops further
    (by simp [Act.Succeeds]) free).1 rfl
  exact ⟨stops, ⟨.looping, rfl, nofun⟩, further, free, nobody⟩

/-- The callback of a timer tells the worker to leave, and goes on.  A thread from outside
does the same and returns at once, while the callback is still in progress. -/
theorem stop_returns_during_callback :
    let execution : Execution := ⟨2, 0, .origin⟩
    let asked := calledBack.afterStop 2
    let returned := asked.afterStop 1
    Run (.new 1) [.operated 0 (.registered 0 .origin), .started 0 (.spawned 2),
      .turned 2 (.run execution)] calledBack ∧
    Step calledBack (.stopped 2 none) asked ∧ asked.stage 1 = none ∧
    Step asked (.stopped 1 none) returned ∧ returned.Free 1 ∧
    returned.Working 2 ∧ execution ∈ returned.scheduler.executions := by
  intro execution asked returned
  have asks : Step calledBack (.stopped 2 none) asked :=
    .stop 2 (.of_callback (by decide) (by decide) (by decide) rfl (by decide))
  have stops : Step asked (.stopped 1 none) returned :=
    .stop 1 (.of_outside (by decide) (by decide) (fun _ => List.not_mem_nil) rfl)
  have free : returned.Free 1 :=
    .of_outside (by decide) (by decide) (fun _ => List.not_mem_nil) rfl
  exact ⟨run_calledBack, asks, rfl, stops, free, ⟨.looping, rfl, nofun⟩, by decide⟩

end TimeSync.Crew
