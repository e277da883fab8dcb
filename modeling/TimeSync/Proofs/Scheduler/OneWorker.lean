import TimeSync.Proofs.Scheduler.Crew

/-!
# There is one worker at most

The entry of the worker in the scheduler's books is written by the thread that makes the
worker, and cleared by the worker itself, some time after it has seen that it has to leave.
`Orderly` says that between any two steps the entry names the one thread that works, if
there is one.  What carries it is that nobody takes back the order to leave as long as
the entry stands.
-/

namespace TimeSync

open Scheduler (StartAnswer)

/-- Whether a call that starts the worker returns, and without an error. -/
def Scheduler.StartAnswer.succeeds : StartAnswer → Bool
  | spawned _ | alreadyRunning => true
  | refused | ownWorker | wait => false

namespace Crew

/-- What holds of a scheduler and its threads between any two steps. -/
structure Orderly (crew : Crew) : Prop where
  coupled : crew.scheduler.Coupled
  present : crew.scheduler.closed = false
  numbered : ∀ thread, crew.stage thread ≠ none → thread ≤ crew.scheduler.lastThread
  entry : ∀ thread, crew.scheduler.worker = some thread ↔ crew.Working thread
  told : ∀ thread, crew.stage thread = some .leaving → crew.scheduler.shutdown = true
  idle : ∀ thread stage, crew.stage thread = some stage → stage ≠ .looping →
    crew.scheduler.stack thread = []
  /-- Only threads from outside wait for a worker to leave. -/
  outside : ∀ thread ∈ crew.starters,
    thread ≤ crew.scheduler.lastThread ∧ crew.stage thread = none

theorem Working.stage_ne_none {crew : Crew} {thread : ThreadId}
    (working : crew.Working thread) : crew.stage thread ≠ none := by
  obtain ⟨stage, is, -⟩ := working
  simp [is]

theorem Orderly.not_working {crew : Crew} (orderly : crew.Orderly)
    (vacant : crew.scheduler.worker = none) (thread : ThreadId) : ¬ crew.Working thread := by
  rw [← orderly.entry, vacant]
  exact nofun

theorem Orderly.unique {crew : Crew} (orderly : crew.Orderly) {first second : ThreadId}
    (firstWorks : crew.Working first) (secondWorks : crew.Working second) :
    first = second := by
  have firstEntry := (orderly.entry first).mpr firstWorks
  have secondEntry := (orderly.entry second).mpr secondWorks
  exact Option.some.inj (firstEntry.symm.trans secondEntry)

theorem Working.stage_ne_gone {crew : Crew} {thread : ThreadId}
    (working : crew.Working thread) : crew.stage thread ≠ some .gone := by
  obtain ⟨stage, is, stays⟩ := working
  exact fun gone => stays (Option.some.inj (is.symm.trans gone))

theorem Orderly.ne_next {crew : Crew} (orderly : crew.Orderly) {thread : ThreadId}
    (made : crew.stage thread ≠ none) : thread ≠ crew.scheduler.lastThread + 1 :=
  Nat.ne_of_lt (Nat.lt_succ_of_le (orderly.numbered thread made))

theorem update_ne_none {stage : ThreadId → Option Stage} {thread : ThreadId}
    (made : stage thread ≠ none) (worker : ThreadId) (next : Stage) :
    Function.update stage worker (some next) thread ≠ none := by
  by_cases same : thread = worker
  · subst same
    exact ne_of_eq_of_ne (Function.update_self ..) nofun
  · exact ne_of_eq_of_ne (Function.update_of_ne same ..) made

theorem stage_update_cases {stage : ThreadId → Option Stage} {worker thread : ThreadId}
    {next stands : Stage}
    (is : Function.update stage worker (some next) thread = some stands) :
    (thread = worker ∧ stands = next) ∨ (thread ≠ worker ∧ stage thread = some stands) := by
  by_cases own : thread = worker
  · subst own
    rw [Function.update_self, Option.some.injEq] at is
    exact .inl ⟨rfl, is.symm⟩
  · rw [Function.update_of_ne own] at is
    exact .inr ⟨own, is⟩

theorem Orderly.numbered_update {crew : Crew} (orderly : crew.Orderly) {worker : ThreadId}
    (working : crew.Working worker) (next : Stage) {thread : ThreadId}
    (made : Function.update crew.stage worker (some next) thread ≠ none) :
    thread ≤ crew.scheduler.lastThread := by
  obtain ⟨stands, is⟩ := Option.ne_none_iff_exists'.mp made
  rcases stage_update_cases is with ⟨rfl, -⟩ | ⟨-, before⟩
  · exact orderly.numbered thread working.stage_ne_none
  · exact orderly.numbered thread (by simp [before])

theorem exists_stage_update_iff {crew : Crew} {worker : ThreadId}
    (working : crew.Working worker) {next : Stage} (goesOn : next ≠ .gone)
    (thread : ThreadId) :
    (∃ stage, Function.update crew.stage worker (some next) thread = some stage ∧
      stage ≠ .gone) ↔ crew.Working thread := by
  by_cases own : thread = worker
  · subst own
    simp only [Function.update_self, Option.some.injEq, exists_eq_left']
    exact ⟨fun _ => working, fun _ => goesOn⟩
  · simp only [Function.update_of_ne own]
    exact Iff.rfl

theorem Orderly.initial (outsiders : Nat) : (Crew.new outsiders).Orderly where
  coupled := Scheduler.Coupled.initial.of_timers rfl rfl rfl rfl
  present := rfl
  numbered := fun _ made => (made rfl).elim
  entry := fun _ => ⟨nofun, fun ⟨_, made, _⟩ => nomatch made⟩
  told := fun _ made => nomatch made
  idle := fun _ _ made => nomatch made
  outside := nofun

theorem Orderly.operate {crew : Crew} (orderly : crew.Orderly) {thread : ThreadId}
    (free : crew.Free thread) {event : Scheduler.Event} (made : event.MadeBy thread)
    {after : Scheduler} (step : Scheduler.Step crew.scheduler event after) (signals : Nat) :
    Orderly { crew with scheduler := after, signals } := by
  obtain ⟨same, others⟩ := step.of_madeBy orderly.coupled made
  refine ⟨step.coupled orderly.coupled, same.closed.trans orderly.present, ?_, ?_, ?_, ?_,
    ?_⟩
  · intro other existsIt
    exact same.lastThread ▸ orderly.numbered other existsIt
  · intro other
    exact same.worker ▸ orderly.entry other
  · intro other leaving
    exact same.shutdown.trans (orderly.told other leaving)
  · intro other stage is notLooping
    have different : other ≠ thread := by
      rintro rfl
      exact notLooping (free.inCallback stage is).1
    exact (others other different).trans (orderly.idle other stage is notLooping)
  · intro other waiting
    exact same.lastThread ▸ orderly.outside other waiting

theorem Orderly.spawn {crew : Crew} (orderly : crew.Orderly)
    (vacant : crew.scheduler.worker = none) {starters : List ThreadId}
    (fewer : ∀ thread ∈ starters, thread ∈ crew.starters) :
    Orderly { crew with
      scheduler :=
        { crew.scheduler with
          shutdown := false
          worker := some (crew.scheduler.lastThread + 1)
          joinable := some (crew.scheduler.lastThread + 1)
          lastThread := crew.scheduler.lastThread + 1 }
      stage := Function.update crew.stage (crew.scheduler.lastThread + 1) (some .looping)
      starters } := by
  refine ⟨orderly.coupled.of_timers rfl rfl rfl rfl, orderly.present, ?_, ?_, ?_, ?_, ?_⟩
  · intro thread made
    obtain ⟨stands, is⟩ := Option.ne_none_iff_exists'.mp made
    rcases stage_update_cases is with ⟨rfl, -⟩ | ⟨-, before⟩
    · exact Nat.le_refl _
    · exact Nat.le_succ_of_le (orderly.numbered thread (by simp [before]))
  · intro thread
    constructor
    · intro entered
      obtain rfl := Option.some.inj entered
      exact ⟨.looping, Function.update_self .., nofun⟩
    · rintro ⟨stands, is, stays⟩
      rcases stage_update_cases is with ⟨rfl, -⟩ | ⟨-, before⟩
      · rfl
      · exact (orderly.not_working vacant thread ⟨stands, before, stays⟩).elim
  · intro thread leaving
    rcases stage_update_cases leaving with ⟨-, stands⟩ | ⟨-, before⟩
    · cases stands
    · exact (orderly.not_working vacant thread ⟨_, before, nofun⟩).elim
  · intro thread stage is notLooping
    rcases stage_update_cases is with ⟨-, stands⟩ | ⟨-, before⟩
    · exact (notLooping stands).elim
    · exact orderly.idle thread stage before notLooping
  · intro thread waiting
    obtain ⟨made, outsider⟩ := orderly.outside thread (fewer thread waiting)
    have older : thread ≠ crew.scheduler.lastThread + 1 :=
      Nat.ne_of_lt (Nat.lt_succ_of_le made)
    exact ⟨Nat.le_succ_of_le made, (Function.update_of_ne older ..).trans outsider⟩

/-- Only the order to leave changes, and no worker has acted on it. -/
theorem Orderly.of_shutdown {crew : Crew} (orderly : crew.Orderly) {shutdown : Bool}
    (joinable : Option ThreadId)
    (heeded : shutdown = true ∨ crew.scheduler.worker = none) {starters : List ThreadId}
    (fewer : ∀ thread ∈ starters, thread ∈ crew.starters)
    (stoppers : List (ThreadId × ThreadId)) (signals : Nat) :
    Orderly ⟨{ crew.scheduler with shutdown, joinable }, crew.stage, starters, stoppers,
      signals⟩ := by
  refine ⟨orderly.coupled.of_timers rfl rfl rfl rfl, orderly.present, orderly.numbered,
    orderly.entry, ?_, orderly.idle, fun thread waiting =>
      orderly.outside thread (fewer thread waiting)⟩
  intro thread leaving
  rcases heeded with asked | vacant
  · exact asked
  · exact (orderly.not_working vacant thread ⟨_, leaving, nofun⟩).elim

theorem Orderly.working_of_made {crew : Crew} (orderly : crew.Orderly) {thread : ThreadId}
    (tries : crew.Free thread ∨ thread ∈ crew.starters) (made : crew.stage thread ≠ none) :
    crew.Working thread := by
  obtain ⟨stage, is⟩ := Option.ne_none_iff_exists'.mp made
  rcases tries with free | waiting
  · exact ⟨stage, is, by simp [(free.inCallback stage is).1]⟩
  · exact (made (orderly.outside thread waiting).2).elim

theorem Orderly.le_lastThread {crew : Crew} (orderly : crew.Orderly) {thread : ThreadId}
    (tries : crew.Free thread ∨ thread ∈ crew.starters) :
    thread ≤ crew.scheduler.lastThread := by
  rcases tries with free | waiting
  · exact free.made
  · exact (orderly.outside thread waiting).1

theorem Orderly.start {crew : Crew} (orderly : crew.Orderly) {thread : ThreadId}
    (tries : crew.Free thread ∨ thread ∈ crew.starters) (granted : Bool) :
    (crew.afterStart thread granted).Orderly := by
  have fewer : ∀ other ∈ crew.starters.filter (· ≠ thread), other ∈ crew.starters :=
    fun _ waiting => (List.mem_filter.mp waiting).1
  unfold afterStart
  rcases crew.scheduler.start_cases thread granted with
    ⟨vacant, -, answer⟩ | ⟨vacant, -, answer⟩ | ⟨-, -, answer⟩ | ⟨-, -, answer⟩ |
    ⟨worker, entered, different, -, answer⟩
  · rw [answer]
    exact orderly.spawn vacant fewer
  · rw [answer]
    exact orderly.of_shutdown _ (.inr vacant) fewer _ _
  · rw [answer]
    exact { orderly with
      outside := fun other waiting => orderly.outside other (fewer other waiting) }
  · rw [answer]
    exact { orderly with
      outside := fun other waiting => orderly.outside other (fewer other waiting) }
  · rw [answer]
    refine { orderly with outside := ?_ }
    intro other waiting
    rcases List.mem_cons.mp waiting with rfl | earlier
    · refine ⟨orderly.le_lastThread tries, ?_⟩
      by_contra made
      have own := (orderly.entry other).mpr (orderly.working_of_made tries made)
      exact different (Option.some.inj (entered.symm.trans own))
    · exact orderly.outside other (fewer other earlier)

theorem Orderly.outside_update {crew : Crew} (orderly : crew.Orderly) {worker : ThreadId}
    (working : crew.Working worker) (next : Stage) {thread : ThreadId}
    (waiting : thread ∈ crew.starters) :
    thread ≤ crew.scheduler.lastThread ∧
      Function.update crew.stage worker (some next) thread = none := by
  obtain ⟨made, outsider⟩ := orderly.outside thread waiting
  have other : thread ≠ worker := by
    rintro rfl
    exact working.stage_ne_none outsider
  exact ⟨made, (Function.update_of_ne other ..).trans outsider⟩

theorem Orderly.proceed {crew : Crew} (orderly : crew.Orderly) {worker : ThreadId}
    (working : crew.Working worker) (stage : Stage) (goesOn : stage ≠ .gone)
    {after : Scheduler} (coupled : after.Coupled)
    (same : Scheduler.SameWorker crew.scheduler after)
    (others : ∀ thread, thread ≠ worker → after.stack thread = crew.scheduler.stack thread)
    (told : stage = .leaving → crew.scheduler.shutdown = true)
    (idle : stage ≠ .looping → after.stack worker = []) (signals : Nat) :
    Orderly { crew with
      scheduler := after
      stage := Function.update crew.stage worker (some stage)
      signals } := by
  refine ⟨coupled, same.closed.trans orderly.present, ?_, ?_, ?_, ?_, ?_⟩
  · intro thread made
    rw [same.lastThread]
    exact orderly.numbered_update working stage made
  · intro thread
    refine Iff.trans ?_ (exists_stage_update_iff working goesOn thread).symm
    rw [← orderly.entry, same.worker]
  · intro thread leaving
    rw [same.shutdown]
    rcases stage_update_cases leaving with ⟨-, stands⟩ | ⟨-, before⟩
    · exact told stands.symm
    · exact orderly.told thread before
  · intro thread stands is notLooping
    rcases stage_update_cases is with ⟨rfl, rfl⟩ | ⟨other, before⟩
    · exact idle notLooping
    · exact (others thread other).trans (orderly.idle thread stands before notLooping)
  · intro thread waiting
    rw [same.lastThread]
    exact orderly.outside_update working stage waiting

theorem Orderly.turn {crew : Crew} (orderly : crew.Orderly) {worker : ThreadId}
    (looping : crew.stage worker = some .looping)
    (between : crew.scheduler.stack worker = []) (now : Instant) :
    (crew.afterTurn worker now).Orderly := by
  have working : crew.Working worker := ⟨.looping, looping, nofun⟩
  unfold afterTurn
  dsimp only
  rcases crew.scheduler.turn_cases worker now with
    ⟨told, move, same⟩ | ⟨-, scheduler, ⟨execution, found, move⟩ | ⟨wakeAt, none, move⟩⟩
  · rw [same, move]
    exact orderly.proceed working .leaving nofun orderly.coupled (.refl _) (fun _ _ => rfl)
      (fun _ => told) (fun _ => between) _
  · obtain ⟨own, takes⟩ := orderly.coupled.takes orderly.present found
    rw [scheduler, move]
    exact orderly.proceed working .looping nofun (orderly.coupled.take orderly.present takes)
      takes.sameWorker (fun thread other => takes.stack (own ▸ other)) nofun
      (fun notLooping => (notLooping rfl).elim) _
  · rw [scheduler, move, orderly.coupled.takeDue_eq_self orderly.present none]
    exact orderly.proceed working (.asleep wakeAt) nofun orderly.coupled (.refl _)
      (fun _ _ => rfl) nofun (fun _ => between) _

theorem Orderly.leave {crew : Crew} (orderly : crew.Orderly) {worker : ThreadId}
    (leaving : crew.stage worker = some .leaving) :
    Orderly { crew with
      scheduler := crew.scheduler.leave worker
      stage := Function.update crew.stage worker (some .gone) } := by
  have working : crew.Working worker := ⟨.leaving, leaving, nofun⟩
  have entered := (orderly.entry worker).mpr working
  have cleared : crew.scheduler.leave worker = { crew.scheduler with worker := none } :=
    if_pos entered
  rw [cleared]
  refine ⟨orderly.coupled.of_timers rfl rfl rfl rfl, orderly.present, ?_, ?_, ?_, ?_,
    fun thread waiting => orderly.outside_update working .gone waiting⟩
  · intro thread made
    exact orderly.numbered_update working .gone made
  · intro thread
    refine ⟨nofun, ?_⟩
    rintro ⟨stands, is, stays⟩
    rcases stage_update_cases is with ⟨-, ended⟩ | ⟨other, before⟩
    · exact (stays ended).elim
    · exact (other (orderly.unique ⟨stands, before, stays⟩ working)).elim
  · intro thread stillLeaving
    rcases stage_update_cases stillLeaving with ⟨-, ended⟩ | ⟨-, before⟩
    · cases ended
    · exact orderly.told thread before
  · intro thread stands is notLooping
    rcases stage_update_cases is with ⟨rfl, -⟩ | ⟨-, before⟩
    · exact orderly.idle thread .leaving leaving nofun
    · exact orderly.idle thread stands before notLooping

theorem Step.orderly {before after : Crew} {act : Act} (step : Step before act after)
    (orderly : before.Orderly) : after.Orderly := by
  have awake : ∀ {worker wakeAt} signals, before.stage worker = some (.asleep wakeAt) →
      Orderly { before with
        stage := Function.update before.stage worker (some .looping), signals } :=
    fun signals asleep => orderly.proceed ⟨_, asleep, nofun⟩ .looping nofun orderly.coupled
      (.refl _) (fun _ _ => rfl) nofun (fun notLooping => (notLooping rfl).elim) signals
  cases step with
  | operate thread free made step => exact orderly.operate free made step _
  | start thread granted tries => exact orderly.start tries granted
  | stop thread => exact orderly.of_shutdown _ (.inl rfl) (fun _ waiting => waiting) _ _
  | turn worker now looping between => exact orderly.turn looping between now
  | wake worker asleep => exact awake _ asleep
  | signal worker pending asleep => exact awake _ asleep
  | leave worker leaving => exact orderly.leave leaving
  | join | signalNobody => exact { orderly with }

theorem Run.orderly {first last : Crew} {acts : List Act} (run : Run first acts last)
    (orderly : first.Orderly) : last.Orderly := by
  induction run with
  | nil => exact orderly
  | cons step _ induction => exact induction (step.orderly orderly)

/-- Whether a thread that was made for the worker's loop has been told to leave, in case that
it still works. -/
structure Told (crew : Crew) (worker : ThreadId) : Prop where
  made : crew.stage worker ≠ none
  leave : crew.Working worker → crew.scheduler.shutdown = true

theorem Told.proceed {crew : Crew} {thread : ThreadId} (told : crew.Told thread)
    {worker : ThreadId} (working : crew.Working worker) (next : Stage) {after : Scheduler}
    (shutdown : after.shutdown = crew.scheduler.shutdown) (signals : Nat) :
    Told { crew with
      scheduler := after
      stage := Function.update crew.stage worker (some next)
      signals } thread := by
  refine ⟨update_ne_none told.made _ _, ?_⟩
  rintro ⟨stage, is, stays⟩
  refine shutdown.trans (told.leave ?_)
  rcases stage_update_cases is with ⟨rfl, -⟩ | ⟨-, before⟩
  · exact working
  · exact ⟨stage, before, stays⟩

theorem Told.start {crew : Crew} (orderly : crew.Orderly) {worker : ThreadId}
    (told : crew.Told worker) (thread : ThreadId) (granted : Bool) :
    (crew.afterStart thread granted).Told worker := by
  unfold afterStart
  rcases crew.scheduler.start_cases thread granted with
    ⟨vacant, -, answer⟩ | ⟨vacant, -, answer⟩ | ⟨-, -, answer⟩ | ⟨-, -, answer⟩ |
    ⟨_, -, -, -, answer⟩
  · rw [answer]
    have older := orderly.ne_next told.made
    refine ⟨ne_of_eq_of_ne (Function.update_of_ne older ..) told.made, ?_⟩
    rintro ⟨stage, is, stays⟩
    have before := (Function.update_of_ne older ..).symm.trans is
    exact (orderly.not_working vacant worker ⟨stage, before, stays⟩).elim
  · rw [answer]
    exact ⟨told.made, fun works => (orderly.not_working vacant worker works).elim⟩
  all_goals
    rw [answer]
    exact ⟨told.made, told.leave⟩

/-- Nobody takes back the order to leave while the worker still works. -/
theorem Step.told {before after : Crew} {act : Act} {worker : ThreadId}
    (step : Step before act after) (orderly : before.Orderly) (told : before.Told worker) :
    after.Told worker := by
  cases step with
  | operate thread free made step =>
    obtain ⟨same, -⟩ := step.of_madeBy orderly.coupled made
    exact ⟨told.made, fun works => same.shutdown.trans (told.leave works)⟩
  | start thread granted => exact told.start orderly thread granted
  | stop thread => exact ⟨told.made, fun _ => rfl⟩
  | turn other now looping between =>
    have same := orderly.coupled.sameWorker_turn orderly.present other now
    exact told.proceed ⟨.looping, looping, nofun⟩ _ same.shutdown _
  | wake other asleep => exact told.proceed ⟨_, asleep, nofun⟩ _ rfl _
  | signal other pending asleep => exact told.proceed ⟨_, asleep, nofun⟩ _ rfl _
  | leave other leaving =>
    refine told.proceed ⟨_, leaving, nofun⟩ _ ?_ _
    unfold Scheduler.leave
    split <;> rfl
  | join | signalNobody => exact ⟨told.made, told.leave⟩

theorem Run.told {first last : Crew} {acts : List Act} {worker : ThreadId}
    (run : Run first acts last) (orderly : first.Orderly) (told : first.Told worker) :
    last.Told worker := by
  induction run with
  | nil => exact told
  | cons step _ induction => exact induction (step.orderly orderly) (step.told orderly told)

theorem Step.started_of_succeeds {before after : Crew} {thread : ThreadId}
    {answer : StartAnswer} (step : Step before (.started thread answer) after)
    (succeeds : answer.succeeds = true) :
    after.scheduler.shutdown = false ∧ after.scheduler.worker.isSome := by
  generalize shown : Act.started thread answer = act at step
  cases step with
  | start caller granted =>
    cases shown
    unfold afterStart
    rcases before.scheduler.start_cases thread granted with
      ⟨-, -, found⟩ | ⟨-, -, found⟩ | ⟨works, kept, found⟩ | ⟨-, -, found⟩ |
      ⟨_, -, -, -, found⟩
    · rw [found]
      exact ⟨rfl, rfl⟩
    · rw [found] at succeeds
      cases succeeds
    · rw [found]
      exact ⟨kept, works⟩
    · rw [found] at succeeds
      cases succeeds
    · rw [found] at succeeds
      cases succeeds
  | _ => cases shown

/-- A worker that has been told to leave cannot start another one, nor does it wait for its
own end. -/
theorem Step.started_of_told {before after : Crew} {worker : ThreadId} {answer : StartAnswer}
    (step : Step before (.started worker answer) after) (orderly : before.Orderly)
    (told : before.Told worker) : answer = .ownWorker := by
  generalize shown : Act.started worker answer = act at step
  cases step with
  | start caller granted tries =>
    cases shown
    have works := orderly.working_of_made tries told.made
    have entered := (orderly.entry worker).mpr works
    have leaving := told.leave works
    rcases before.scheduler.start_cases worker granted with
      ⟨vacant, -, -⟩ | ⟨vacant, -, -⟩ | ⟨-, kept, -⟩ | ⟨-, -, found⟩ |
      ⟨other, otherEntered, different, -, -⟩
    · cases vacant.symm.trans entered
    · cases vacant.symm.trans entered
    · cases kept.symm.trans leaving
    · rw [found]
    · exact (different (Option.some.inj (otherEntered.symm.trans entered))).elim
  | _ => cases shown

theorem Orderly.told_of_stopped {before after : Crew} {caller worker : ThreadId}
    {awaited : Option ThreadId} (step : Step before (.stopped caller awaited) after)
    (works : before.Working worker) : after.Told worker := by
  generalize shown : Act.stopped caller awaited = act at step
  cases step with
  | stop thread => exact ⟨works.stage_ne_none, fun _ => rfl⟩
  | _ => cases shown

theorem Orderly.working_of_executing {crew : Crew} (orderly : crew.Orderly)
    {execution : Execution} (inProgress : execution ∈ crew.scheduler.executions)
    (made : crew.stage execution.thread ≠ none) : crew.Working execution.thread := by
  obtain ⟨stage, is⟩ := Option.ne_none_iff_exists'.mp made
  refine ⟨stage, is, ?_⟩
  rintro rfl
  have nothing := orderly.idle execution.thread .gone is nofun
  have member : execution ∈ crew.scheduler.stack execution.thread := by
    simp [Scheduler.stack, inProgress]
  rw [nothing] at member
  cases member

/-- However the steps of all threads follow each other, at most one thread that was made for
the worker's loop has not yet cleared its entry in the scheduler's books, and the entry
names that very thread; so callbacks are never run by two workers at a time.  A call that
starts the worker succeeds only at a moment at which one works that has not been told to
leave.  A worker that tries to start the worker from its own callback, after somebody has
told it to leave, is refused and does not wait. -/
theorem one_worker_at_most {outsiders : Nat} {acts : List Act} {crew : Crew}
    (run : Run (.new outsiders) acts crew) :
    (∀ first second, crew.Working first → crew.Working second → first = second) ∧
    (∀ thread, crew.scheduler.worker = some thread ↔ crew.Working thread) ∧
    (∀ first ∈ crew.scheduler.executions, ∀ second ∈ crew.scheduler.executions,
      crew.stage first.thread ≠ none → crew.stage second.thread ≠ none →
        crew.Working first.thread ∧ first.thread = second.thread) ∧
    (∀ thread answer after, Step crew (.started thread answer) after →
      answer.succeeds = true →
        after.scheduler.shutdown = false ∧ ∃ worker, after.Working worker) ∧
    (∀ worker caller awaited told later last answer after,
      crew.Working worker → Step crew (.stopped caller awaited) told →
      Run told later last → Step last (.started worker answer) after →
        answer = .ownWorker ∧ worker ∉ after.starters) := by
  have orderly := run.orderly (.initial outsiders)
  refine ⟨?_, orderly.entry, ?_, ?_, ?_⟩
  · intro first second firstWorks secondWorks
    exact orderly.unique firstWorks secondWorks
  · intro first firstRuns second secondRuns firstMade secondMade
    have firstWorks := orderly.working_of_executing firstRuns firstMade
    have secondWorks := orderly.working_of_executing secondRuns secondMade
    exact ⟨firstWorks, orderly.unique firstWorks secondWorks⟩
  · intro thread answer after step succeeds
    obtain ⟨kept, works⟩ := step.started_of_succeeds succeeds
    obtain ⟨worker, entered⟩ := Option.isSome_iff_exists.mp works
    exact ⟨kept, worker, ((step.orderly orderly).entry worker).mp entered⟩
  · intro worker caller awaited told later last answer after works stop further step
    have toldOrderly := stop.orderly orderly
    have lastOrderly := further.orderly toldOrderly
    have lastTold := further.told toldOrderly (Orderly.told_of_stopped stop works)
    refine ⟨step.started_of_told lastOrderly lastTold, ?_⟩
    intro waits
    exact (step.told lastOrderly lastTold).made
      ((step.orderly lastOrderly).outside worker waits).2

/-- The callback of a timer tells the worker that runs it to leave.  While it goes on, a
thread from outside waits to start the next worker, and the callback tries to do the same. -/
theorem one_worker_at_most_restarted :
    let execution : Execution := ⟨2, 0, .origin⟩
    let registered : Crew := { Crew.new 1 with
      scheduler := ((Crew.new 1).scheduler.register (.instant .origin) none .origin).2
      signals := 1 }
    let started := registered.afterStart 0 true
    let running := started.afterTurn 2 .origin
    let stopped := running.afterStop 2
    let waiting := stopped.afterStart 1 true
    let refused := waiting.afterStart 2 true
    let settled : Crew := { refused with
      scheduler := refused.scheduler.settle execution .origin }
    let leaving := settled.afterTurn 2 .origin
    let left : Crew := { leaving with
      scheduler := leaving.scheduler.leave 2
      stage := Function.update leaving.stage 2 (some .gone) }
    let restarted := left.afterStart 1 true
    Run (.new 1) [.operated 0 (.registered 0 .origin), .started 0 (.spawned 2),
      .turned 2 (.run execution)] running ∧
    Step running (.stopped 2 none) stopped ∧
    Run stopped [.started 1 .wait] waiting ∧
    Step waiting (.started 2 .ownWorker) refused ∧ 2 ∉ refused.starters ∧
    Run (.new 1) [.operated 0 (.registered 0 .origin), .started 0 (.spawned 2),
      .turned 2 (.run execution), .stopped 2 none, .started 1 .wait,
      .started 2 .ownWorker, .operated 2 (.settled execution .done .origin),
      .turned 2 .leave, .left 2] left ∧
    Step left (.started 1 (.spawned 3)) restarted ∧
    (∃ worker, restarted.Working worker) ∧ ¬ left.Working 2 := by
  intro execution registered started running stopped waiting refused settled leaving left
    restarted
  have outsider : ∀ {crew : Crew} {thread : ThreadId}, thread ≤ crew.scheduler.lastThread →
      crew.starters = [] → crew.stoppers = [] → crew.stage thread = none →
      crew.Free thread := by
    intro crew thread made starters stoppers outside
    exact ⟨made, by simp [starters], by simp [stoppers], by simp [outside]⟩
  have registers : Step (.new 1) (.operated 0 (.registered 0 .origin)) registered :=
    .operate 0 (outsider (by decide) rfl rfl rfl) trivial
      (.register (.instant .origin) none .origin rfl)
  have starts : Step registered (.started 0 (.spawned 2)) started :=
    .start 0 true (.inl (outsider (by decide) rfl rfl rfl))
  have runs : Step started (.turned 2 (.run execution)) running :=
    .turn 2 .origin rfl (by decide)
  have inCallback : ∀ {crew : Crew}, 2 ≤ crew.scheduler.lastThread → 2 ∉ crew.starters →
      crew.stoppers = [] → crew.stage 2 = some .looping →
      crew.scheduler.stack 2 ≠ [] → crew.Free 2 := by
    intro crew made starters stoppers looping executing
    refine ⟨made, starters, by simp [stoppers], fun stage is => ⟨?_, executing⟩⟩
    exact Option.some.inj (is.symm.trans looping)
  have stops : Step running (.stopped 2 none) stopped :=
    .stop 2 (inCallback (by decide) (by decide) rfl rfl (by decide))
  have waits : Step stopped (.started 1 .wait) waiting :=
    .start 1 true (.inl (outsider (by decide) rfl rfl rfl))
  have refuses : Step waiting (.started 2 .ownWorker) refused :=
    .start 2 true (.inl (inCallback (by decide) (by decide) rfl rfl (by decide)))
  have innermost : refused.scheduler.stack 2 = [execution] := by decide
  have settles :
      Step refused (.operated 2 (.settled execution .done .origin)) settled :=
    .operate 2 (inCallback (by decide) (by decide) rfl rfl (by decide)) rfl
      (.settle .done .origin innermost)
  have turns : Step settled (.turned 2 .leave) leaving := .turn 2 .origin rfl (by decide)
  have leaves : Step leaving (.left 2) left := .leave 2 rfl
  have restarts : Step left (.started 1 (.spawned 3)) restarted :=
    .start 1 true (.inr (by decide))
  have midway : Run (.new 1) [.operated 0 (.registered 0 .origin), .started 0 (.spawned 2),
      .turned 2 (.run execution)] running :=
    .cons registers (.cons starts (.cons runs .nil))
  have whole : Run (.new 1) [.operated 0 (.registered 0 .origin), .started 0 (.spawned 2),
      .turned 2 (.run execution), .stopped 2 none, .started 1 .wait,
      .started 2 .ownWorker, .operated 2 (.settled execution .done .origin),
      .turned 2 .leave, .left 2] left :=
    .cons registers (.cons starts (.cons runs (.cons stops (.cons waits (.cons refuses
      (.cons settles (.cons turns (.cons leaves .nil))))))))
  have meanwhile : Run stopped [.started 1 .wait] waiting := .cons waits .nil
  have works : running.Working 2 := ⟨.looping, rfl, nofun⟩
  obtain ⟨-, -, -, -, told⟩ := one_worker_at_most midway
  obtain ⟨-, entry, -, succeeds, -⟩ := one_worker_at_most whole
  refine ⟨midway, stops, meanwhile, refuses, ?_, whole, restarts, ?_, ?_⟩
  · exact (told 2 2 none stopped _ waiting .ownWorker refused works stops meanwhile
      refuses).2
  · exact (succeeds 1 (.spawned 3) restarted restarts rfl).2
  · rw [← entry]
    decide

end Crew

end TimeSync
