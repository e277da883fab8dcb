import Mathlib.Data.List.Forall2
import TimeSync.Proofs.Scheduler.EngineCalls

/-!
# How a callback ends has no influence on timers

Two workshops in which the same calls are made are compared, where callbacks that return in
one may fail or break off in the other.  The two agree on everything but the ways in which
callbacks have ended, the messages, and what is kept where failures are reported; each call
keeps them in agreement and answers the same in both.
-/

namespace TimeSync

/-- Two calls that do the same, except that a callback may end in another way. -/
inductive Workshop.Call.Alike {ε δ : Type} {sink : Sink ε} {second : Sink δ} :
    Call sink → Call second → Prop where
  | register (first : FirstFire) (period : Option Duration) :
      Alike (.register first period) (.register first period)
  | cancel (timer : TimerId) : Alike (.cancel timer) (.cancel timer)
  | inspect (timer : TimerId) : Alike (.inspect timer) (.inspect timer)
  | pendingCount : Alike .pendingCount .pendingCount
  | current (thread : ThreadId) : Alike (.current thread) (.current thread)
  | other {change : Context ε → Context ε} {other : Context δ → Context δ} (quiet otherQuiet) :
      (∀ context otherContext, context.clocks = otherContext.clocks →
        (change context).clocks = (other otherContext).clocks) →
      Alike (.other change quiet) (.other other otherQuiet)
  | runPending (thread : ThreadId) : Alike (.runPending thread) (.runPending thread)
  | next (thread : ThreadId) : Alike (.next thread) (.next thread)
  | finish (thread : ThreadId) (ending other : Ending) :
      Alike (.finish thread ending) (.finish thread other)
  | settle (thread : ThreadId) : Alike (.settle thread) (.settle thread)
  | start (thread : ThreadId) (granted : Bool) :
      Alike (.start thread granted) (.start thread granted)
  | stop (thread : ThreadId) : Alike (.stop thread) (.stop thread)
  | leave (worker : ThreadId) : Alike (.leave worker) (.leave worker)
  | close : Alike .close .close

namespace Workshop

variable {ε δ : Type} {sink : Sink ε} {second : Sink δ}

structure Agrees (shop : Workshop ε) (other : Workshop δ) : Prop where
  scheduler : shop.engine.scheduler = other.engine.scheduler
  clocks : shop.engine.context.clocks = other.engine.context.clocks
  tasks : shop.tasks = other.tasks
  begun : shop.begun = other.begun
  ended : shop.ended.map Prod.fst = other.ended.map Prod.fst

variable {shop : Workshop ε} {other : Workshop δ}

theorem Agrees.tasks_apply (agrees : shop.Agrees other) (thread : ThreadId) :
    other.tasks thread = shop.tasks thread := by
  rw [agrees.tasks]

theorem Agrees.withTasks (agrees : shop.Agrees other) (thread : ThreadId)
    (tasks : List Task) : (shop.withTasks thread tasks).Agrees (other.withTasks thread tasks) :=
  { agrees with tasks := by simp only [Workshop.withTasks, agrees.tasks] }

theorem Agrees.withEngine (agrees : shop.Agrees other) {engine : Engine ε}
    {otherEngine : Engine δ} (scheduler : engine.scheduler = otherEngine.scheduler)
    (clocks : engine.context.clocks = otherEngine.context.clocks) :
    Agrees { shop with engine } { other with engine := otherEngine } :=
  { agrees with scheduler, clocks }

theorem Agrees.begin (agrees : shop.Agrees other) (thread : ThreadId)
    (execution : Execution) (tasks : List Task) :
    (shop.begin thread execution tasks).Agrees (other.begin thread execution tasks) := by
  have watch : (shop.engine.announce execution).1 = (other.engine.announce execution).1 :=
    ProcessorWatch.begin_of_clocks {} agrees.clocks
  have announced : Agrees
      { shop with
        engine := (shop.engine.announce execution).2
        begun := shop.begun ++ [execution] }
      { other with
        engine := (other.engine.announce execution).2
        begun := other.begun ++ [execution] } :=
    { agrees with
      clocks := (Engine.noted_announce ..).clocks_eq (Engine.noted_announce ..) agrees.clocks
      begun := by rw [agrees.begun] }
  unfold Workshop.begin
  dsimp only
  rw [watch]
  exact announced.withTasks thread _

/-- The same answer, and workshops that agree; or no answer in both. -/
inductive Same {α : Type} : Option (α × Workshop ε) → Option (α × Workshop δ) → Prop where
  | none : Same none none
  | some (answer : α) {shop : Workshop ε} {other : Workshop δ} :
      shop.Agrees other → Same (some (answer, shop)) (some (answer, other))

theorem Same.bind {α β : Type} {result : Option (α × Workshop ε)}
    {otherResult : Option (α × Workshop δ)} (same : Same result otherResult)
    {further : α × Workshop ε → Option (β × Workshop ε)}
    {otherFurther : α × Workshop δ → Option (β × Workshop δ)}
    (continues : ∀ answer (shop : Workshop ε) (other : Workshop δ), shop.Agrees other →
      Same (further (answer, shop)) (otherFurther (answer, other))) :
    Same (result.bind further) (otherResult.bind otherFurther) := by
  cases same with
  | none => exact .none
  | some answer agrees => exact continues answer _ _ agrees

theorem Agrees.next (agrees : shop.Agrees other) (thread : ThreadId) :
    Same (shop.next thread) (other.next thread) := by
  have looked : ∀ taken, Agrees { shop with engine := shop.engine.afterTaking taken }
      { other with engine := other.engine.afterTaking taken } :=
    fun taken => agrees.withEngine rfl
      ((Engine.noted_afterTaking ..).clocks_eq (Engine.noted_afterTaking ..) agrees.clocks)
  unfold Workshop.next
  rw [agrees.tasks_apply]
  split
  next cutoff count rest doing =>
    simp only [Engine.takeDue, ← agrees.scheduler]
    cases (shop.engine.scheduler.takeDue thread cutoff).execution with
    | none => exact .some _ ((looked _).withTasks thread rest)
    | some execution => exact .some _ ((looked _).begin thread execution _)
  next rest doing =>
    rw [← agrees.scheduler, ← Context.now_of_clocks agrees.clocks]
    cases shop.engine.scheduler.turn thread shop.engine.context.now with
    | mk move taken =>
      refine .some _ ?_
      cases move with
      | run execution => exact (looked taken).begin thread execution _
      | sleep => exact looked taken
      | leave => exact (looked taken).withTasks thread _
  next => exact .none

theorem Agrees.free (agrees : shop.Agrees other) (thread : ThreadId) :
    shop.free thread = other.free thread := by
  unfold Workshop.free
  rw [agrees.tasks]

theorem Agrees.start (agrees : shop.Agrees other) (thread : ThreadId) (granted : Bool) :
    Same (some (shop.start thread granted)) (some (other.start thread granted)) := by
  unfold Workshop.start
  rw [← agrees.scheduler]
  cases shop.engine.scheduler.start thread granted with
  | mk answer scheduler =>
    refine .some _ ?_
    cases answer with
    | spawned worker =>
      refine Agrees.withTasks ?_ worker _
      exact { agrees with scheduler := rfl }
    | _ => exact { agrees with scheduler := rfl }

theorem Agrees.stop (agrees : shop.Agrees other) (thread : ThreadId) :
    Same (some (shop.stop thread)) (some (other.stop thread)) := by
  unfold Workshop.stop
  rw [← agrees.scheduler]
  refine .some _ ?_
  dsimp only
  split <;> exact { agrees with scheduler := rfl }

/-- Calls that are alike have the same answer, and keep workshops in agreement. -/
theorem Agrees.step (agrees : shop.Agrees other) {call : Call sink} {otherCall : Call second}
    (alike : call.Alike otherCall) : Same (shop.step call) (other.step otherCall) := by
  cases alike with
  | register first period =>
    have timer : (shop.engine.register first period).1 =
        (other.engine.register first period).1 :=
      congrArg (fun scheduler => scheduler.timers.length) agrees.scheduler
    simp only [Workshop.step, timer]
    refine .some _ (agrees.withEngine ?_
      ((Engine.noted_register ..).clocks_eq (Engine.noted_register ..) agrees.clocks))
    rw [Engine.scheduler_register, Engine.scheduler_register, agrees.scheduler,
      Context.now_of_clocks agrees.clocks]
  | cancel timer =>
    simp only [Workshop.step, Engine.cancel, ← agrees.scheduler]
    exact .some _ { agrees with scheduler := rfl }
  | inspect timer =>
    simp only [Workshop.step, ← agrees.scheduler]
    exact .some _ agrees
  | pendingCount =>
    simp only [Workshop.step, ← agrees.scheduler]
    exact .some _ agrees
  | current thread =>
    simp only [Workshop.step, ← agrees.scheduler]
    exact .some _ agrees
  | other quiet otherQuiet clocks =>
    exact .some _ (agrees.withEngine agrees.scheduler (clocks _ _ agrees.clocks))
  | runPending thread =>
    simp only [Workshop.step, ← agrees.free, agrees.tasks_apply,
      ← Context.now_of_clocks agrees.clocks]
    split
    · exact .some _ (agrees.withTasks thread _)
    · exact .none
  | next thread => exact agrees.next thread
  | finish thread ending otherEnding =>
    simp only [Workshop.step, agrees.tasks_apply]
    split
    next execution watch rest doing =>
      have reported : Agrees
          { shop with
            engine := shop.engine.report sink.tell execution watch ending
            ended := shop.ended ++ [(execution, ending)] }
          { other with
            engine := other.engine.report second.tell execution watch otherEnding
            ended := other.ended ++ [(execution, otherEnding)] } :=
        { agrees with
          clocks := by
            rw [Engine.clocks_report, Engine.clocks_report]
            exact agrees.clocks
          ended := by rw [List.map_append, List.map_append, agrees.ended]; rfl }
      exact .some _ (reported.withTasks thread _)
    next => exact .none
  | settle thread =>
    simp only [Workshop.step, agrees.tasks_apply]
    split
    next execution rest doing =>
      refine .some _ (Agrees.withTasks (agrees.withEngine ?_ ?_) thread rest)
      · rw [Engine.scheduler_settle, Engine.scheduler_settle, agrees.scheduler,
          Context.now_of_clocks agrees.clocks]
      · exact (Engine.noted_settle ..).clocks_eq (Engine.noted_settle ..) agrees.clocks
    next => exact .none
  | start thread granted =>
    simp only [Workshop.step, ← agrees.free]
    split
    · exact agrees.start thread granted
    · exact .none
  | stop thread =>
    simp only [Workshop.step, ← agrees.free]
    split
    · exact agrees.stop thread
    · exact .none
  | leave worker =>
    simp only [Workshop.step, agrees.tasks_apply]
    split
    next rest doing =>
      have left : (shop.engine.leave worker).scheduler = (other.engine.leave worker).scheduler :=
        congrArg (fun scheduler => scheduler.leave worker) agrees.scheduler
      exact .some _ (Agrees.withTasks (agrees.withEngine left agrees.clocks) worker rest)
    next => exact .none
  | close =>
    simp only [Workshop.step, ← agrees.scheduler]
    split
    · exact .some _ { agrees with scheduler := rfl }
    · exact .none

theorem Agrees.run (agrees : shop.Agrees other) {calls : List (Call sink)}
    {others : List (Call second)} (alike : List.Forall₂ Call.Alike calls others) :
    Same (Workshop.run calls shop) (Workshop.run others other) := by
  induction alike generalizing shop other with
  | nil => exact .some [] agrees
  | cons first _ induction =>
    refine (agrees.step first).bind fun answer shop other agrees => ?_
    refine (induction agrees).bind fun trace last otherLast lastAgrees => ?_
    dsimp only
    rw [← agrees.scheduler]
    exact .some _ lastAgrees

/-- What has been told of the callbacks that have ended so far. -/
def Reported (sink : Sink ε) (before : List Failure) (shop : Workshop ε) : Prop :=
  sink.told shop.engine.context.env =
    before ++ shop.ended.filterMap fun ended => ended.2.failure? ended.1.timer

theorem Reported.of_env {before : List Failure} {shop after : Workshop ε}
    (reported : shop.Reported sink before)
    (env : sink.told after.engine.context.env = sink.told shop.engine.context.env)
    (ended : after.ended = shop.ended) : after.Reported sink before := by
  unfold Reported
  rw [env, ended]
  exact reported

theorem env_begin (shop : Workshop ε) (thread : ThreadId) (execution : Execution)
    (tasks : List Task) :
    (shop.begin thread execution tasks).engine.context.env = shop.engine.context.env :=
  (shop.engine.noted_announce execution).env

theorem silent_next {shop after : Workshop ε} {thread : ThreadId} {answer : Answer}
    (made : shop.next thread = some (answer, after)) :
    after.engine.context.env = shop.engine.context.env ∧ after.ended = shop.ended := by
  have looked := fun taken => (shop.engine.noted_afterTaking taken).env
  unfold Workshop.next at made
  split at made
  next cutoff count rest doing =>
    simp only [Engine.takeDue] at made
    cases found : (shop.engine.scheduler.takeDue thread cutoff).execution with
    | none =>
      rw [found] at made
      cases made
      exact ⟨looked _, rfl⟩
    | some execution =>
      rw [found] at made
      cases made
      exact ⟨(env_begin ..).trans (looked _), rfl⟩
  next rest doing =>
    cases turned : shop.engine.scheduler.turn thread shop.engine.context.now with
    | mk move taken =>
      rw [turned] at made
      cases made
      cases move with
      | run execution => exact ⟨(env_begin ..).trans (looked taken), rfl⟩
      | sleep | leave => exact ⟨looked taken, rfl⟩
  next => cases made

theorem silent_start (shop : Workshop ε) (thread : ThreadId) (granted : Bool) :
    (shop.start thread granted).2.engine.context.env = shop.engine.context.env ∧
      (shop.start thread granted).2.ended = shop.ended := by
  unfold Workshop.start
  dsimp only
  split <;> exact ⟨rfl, rfl⟩

theorem silent_stop (shop : Workshop ε) (thread : ThreadId) :
    (shop.stop thread).2.engine.context.env = shop.engine.context.env ∧
      (shop.stop thread).2.ended = shop.ended := by
  unfold Workshop.stop
  dsimp only
  split <;> exact ⟨rfl, rfl⟩

theorem Reported.step {before : List Failure} {shop after : Workshop ε} {answer : Answer}
    (reported : shop.Reported sink before) {call : Call sink}
    (made : shop.step call = some (answer, after)) : after.Reported sink before := by
  cases call with
  | register first period =>
    cases made
    exact reported.of_env (congrArg sink.told (Engine.noted_register ..).env) rfl
  | other change quiet =>
    cases made
    exact reported.of_env (quiet _) rfl
  | next thread =>
    obtain ⟨env, ended⟩ := silent_next made
    exact reported.of_env (congrArg sink.told env) ended
  | finish thread ending =>
    simp only [Workshop.step] at made
    split at made
    next execution watch rest doing =>
      cases made
      unfold Reported at reported ⊢
      dsimp only [withTasks]
      rw [Engine.told_report, reported, List.filterMap_append, List.append_assoc]
      rfl
    next => cases made
  | settle thread =>
    simp only [Workshop.step] at made
    split at made
    · cases made
      exact reported.of_env (congrArg sink.told (Engine.noted_settle ..).env) rfl
    · cases made
  | start thread granted =>
    simp only [Workshop.step] at made
    split at made
    · cases made
      obtain ⟨env, ended⟩ := shop.silent_start thread granted
      exact reported.of_env (congrArg sink.told env) ended
    · cases made
  | stop thread =>
    simp only [Workshop.step] at made
    split at made
    · cases made
      obtain ⟨env, ended⟩ := shop.silent_stop thread
      exact reported.of_env (congrArg sink.told env) ended
    · cases made
  | leave worker =>
    simp only [Workshop.step] at made
    split at made
    · cases made
      exact reported.of_env rfl rfl
    · cases made
  | runPending | close =>
    simp only [Workshop.step] at made
    split at made
    · cases made
      exact reported.of_env rfl rfl
    · cases made
  | _ =>
    cases made
    exact reported.of_env rfl rfl

theorem Reported.run {before : List Failure} {shop last : Workshop ε}
    {trace : List (Answer × Scheduler)} (reported : shop.Reported sink before)
    {calls : List (Call sink)} (made : Workshop.run calls shop = some (trace, last)) :
    last.Reported sink before := by
  induction calls generalizing shop trace with
  | nil =>
    cases made
    exact reported
  | cons call calls induction =>
    simp only [Workshop.run, Option.bind_eq_bind, Option.bind_eq_some_iff, Option.pure_def,
      Option.some.injEq] at made
    obtain ⟨⟨answer, next⟩, first, ⟨further, _⟩, rest, same⟩ := made
    cases same
    exact induction (reported.step first) rest

/-- Whether a report is the one that belongs to a callback that has failed. -/
structure Tells (ended : Execution × Ending) (failure : Failure) : Prop where
  timer : failure.timer = ended.1.timer
  aborted : failure.aborted = true ↔ ∃ text, ended.2 = .aborted text

theorem failure?_cases (execution : Execution) (ending : Ending) :
    (ending = .done ∧ ending.failure? execution.timer = none) ∨
    (ending ≠ .done ∧ ∃ failure, ending.failure? execution.timer = some failure ∧
      Tells (execution, ending) failure) := by
  cases ending with
  | done => exact .inl ⟨rfl, rfl⟩
  | failed chain => exact .inr ⟨nofun, _, rfl, rfl, by simp⟩
  | aborted text =>
    cases text with
    | none => exact .inr ⟨nofun, _, rfl, rfl, by simp⟩
    | some text => exact .inr ⟨nofun, _, rfl, rfl, by simp⟩

/-- Every failure has one report, in the same order. -/
theorem tells_failures (ended : List (Execution × Ending)) :
    List.Forall₂ Tells (ended.filter fun one => one.2 ≠ .done)
      (ended.filterMap fun one => one.2.failure? one.1.timer) := by
  induction ended with
  | nil => exact .nil
  | cons one ended induction =>
    obtain ⟨execution, ending⟩ := one
    rcases failure?_cases execution ending with ⟨done, none⟩ | ⟨failed, failure, found, tells⟩
    · rw [List.filter_cons_of_neg (by simp [done])]
      simp only [List.filterMap_cons, none]
      exact induction
    · rw [List.filter_cons_of_pos (by simp [failed])]
      simp only [List.filterMap_cons, found]
      exact .cons tells induction

/-- Where the same calls are made in the same order, and callbacks do the same but may end
in different ways, everything but the reports is the same: after each call the whole
scheduler, all that was answered, what has been executed, and in what order.  In each of the
two, one report has been made for each callback that has failed or was broken off, in the
order in which they ended, with the timer's number and the way it ended; where callbacks
nest, that is not the order in which they began, since the inner one ends first.  What an
engine runs for a thread is such a sequence of calls, which answers the number of timers at
its end. -/
theorem endings_leave_timers_alone (outsiders : Nat) {context : Context ε}
    {otherContext : Context δ} (clocks : context.clocks = otherContext.clocks)
    {calls : List (Call sink)} {others : List (Call second)}
    (alike : List.Forall₂ Call.Alike calls others) :
    Same (run calls (new outsiders context)) (run others (new outsiders otherContext)) ∧
    (∀ trace last, run calls (new outsiders context) = some (trace, last) →
      ∃ reports, sink.told last.engine.context.env = sink.told context.env ++ reports ∧
        List.Forall₂ Tells (last.ended.filter fun one => one.2 ≠ .done) reports) ∧
    (∀ trace last, run others (new outsiders otherContext) = some (trace, last) →
      ∃ reports, second.told last.engine.context.env =
          second.told otherContext.env ++ reports ∧
        List.Forall₂ Tells (last.ended.filter fun one => one.2 ≠ .done) reports) ∧
    (∀ (behaviour : Behaviour ε) (shop : Workshop ε) thread bound count after,
      behaviour.ByCalls sink → shop.free thread = true → shop.Quiet thread →
      shop.engine.runPending behaviour bound thread = some (count, after) →
      ∃ (inside : List (Call sink)) (trace : List (Answer × Scheduler)) (last : Workshop ε),
        run inside shop = some (trace ++ [(.ran count, after.scheduler)], last) ∧
          last.engine = after) := by
  have agrees : (new outsiders context).Agrees (new outsiders otherContext) :=
    ⟨rfl, clocks, rfl, rfl, rfl⟩
  have start : ∀ {ε : Type} (sink : Sink ε) (context : Context ε),
      (new outsiders context).Reported sink (sink.told context.env) :=
    fun sink context => (List.append_nil _).symm
  refine ⟨agrees.run alike, ?_, ?_, ?_⟩
  · intro trace last made
    exact ⟨_, (start sink context).run made, tells_failures last.ended⟩
  · intro trace last made
    exact ⟨_, (start second otherContext).run made, tells_failures last.ended⟩
  · intro behaviour shop thread bound count after byCalls free quiet ran
    obtain ⟨trace, last, leads⟩ := leads_runPending byCalls free quiet ran
    obtain ⟨inside, made⟩ := leads.reaches
    exact ⟨inside, trace, last, made, leads.engine⟩

def listed : Sink (List Failure) where
  tell failure context := context.withEnv (context.env ++ [failure])
  told := id
  clocksTell _ _ := rfl
  toldTell _ _ := rfl

/-- A callback cancels its own timer, which does not repeat, and runs another one inside
itself.  The inner callback is broken off and the outer one fails, or both return. -/
theorem endings_leave_timers_alone_nested :
    let context : Context (List Failure) := ⟨.origin, 0, {}, #[], []⟩
    let calls (inner outer : Ending) : List (Call listed) :=
      [.register (.instant .origin) none, .register (.instant .origin) (some .zero),
        .runPending 0, .next 0, .cancel 0, .runPending 0, .next 0, .finish 0 inner,
        .settle 0, .next 0, .finish 0 outer, .settle 0, .next 0, .pendingCount]
    let failing := calls (.aborted none) (.failed ["no reply"])
    let returning := calls .done .done
    List.Forall₂ Call.Alike failing returning ∧
    ∃ trace last otherLast, run failing (new 0 context) = some (trace, last) ∧
      run returning (new 0 context) = some (trace, otherLast) ∧
      last.engine.scheduler = otherLast.engine.scheduler ∧
      last.engine.scheduler.status? 0 = some .cancelled ∧
      last.engine.scheduler.status? 1 = some .pending ∧
      ∃ inner outer : Failure, last.engine.context.env = [inner, outer] ∧
        inner.timer = 1 ∧ inner.aborted = true ∧
        outer.timer = 0 ∧ outer.aborted = false := by
  intro context calls failing returning
  have alike : List.Forall₂ Call.Alike failing returning :=
    .cons (.register ..) <| .cons (.register ..) <| .cons (.runPending 0) <|
      .cons (.next 0) <| .cons (.cancel 0) <| .cons (.runPending 0) <| .cons (.next 0) <|
      .cons (.finish ..) <| .cons (.settle 0) <| .cons (.next 0) <| .cons (.finish ..) <|
      .cons (.settle 0) <| .cons (.next 0) <| .cons .pendingCount .nil
  obtain ⟨same, reported, -, -⟩ := endings_leave_timers_alone 0 rfl alike
  have seen : (run failing (new 0 context)).map (fun result =>
      (result.2.ended, result.2.engine.scheduler.status? 0,
        result.2.engine.scheduler.status? 1)) =
      some ([(⟨0, 1, .origin⟩, .aborted none), (⟨0, 0, .origin⟩, .failed ["no reply"])],
        some .cancelled, some .pending) := by
    decide +kernel
  obtain ⟨⟨trace, last⟩, made, shown⟩ := Option.map_eq_some_iff.mp seen
  simp only [Prod.mk.injEq] at shown
  obtain ⟨ended, cancelled, pending⟩ := shown
  obtain ⟨reports, told, tells⟩ := reported trace last made
  rw [made] at same
  have failed : last.ended.filter (fun one => one.2 ≠ .done) = last.ended := by
    rw [ended]
    decide
  rw [failed, ended] at tells
  obtain - | ⟨innerTells, - | ⟨outerTells, ⟨⟩⟩⟩ := tells
  generalize otherMade : run returning (new 0 context) = result at same
  obtain - | ⟨_, agrees⟩ := same
  refine ⟨alike, trace, last, _, made, rfl, agrees.scheduler, cancelled, pending, _, _, told,
    innerTells.timer, innerTells.aborted.mpr ⟨none, rfl⟩, outerTells.timer, ?_⟩
  rw [Bool.eq_false_iff, ne_eq, outerTells.aborted]
  exact nofun

end Workshop

end TimeSync
