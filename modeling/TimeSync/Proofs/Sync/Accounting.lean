import TimeSync.Proofs.Sync.Session

/-!
# The account of a session

Where cycles take no time, a session is `Alongside` another one in which nothing is asked
of the service but the end of its cycles: step by step, the service's own timer shows the
same in both.  This and the account of `Session` are put together for a service that was
started on a scheduler without timers.
-/

namespace TimeSync.Sync

open Scheduler (SameAt)
open Simulation (ClockStep)

theorem Poller.now_replaceServers {ε : Type} (poller : Poller) (servers : List Endpoint)
    (context : Context ε) :
    (poller.replaceServers servers context).2.2.now = context.now := by
  unfold replaceServers
  dsimp only
  split <;> rfl

namespace Session

variable {ε : Type} {settings : Settings} {first : Timer} {session alone : Session ε}
  {source : Source ε}

theorem now_apply (instantly : source.Instantaneous) (session : Session ε) (how : Use) :
    (session.apply source how).now = session.now := by
  cases how with
  | forceMeasure =>
    exact Poller.now_runCycle instantly session.service.poller
      (session.service.context.withEnv session.service.context.env.2)
  | measureNow => exact Engine.now_register session.engine (.after .zero) none
  | setServers servers =>
    exact Poller.now_replaceServers session.service.poller servers
      (session.service.context.withEnv session.service.context.env.2)
  | shutdown | release => rfl

theorem now_clock {first second : Context (Poller × ε)} (same : first.now = second.now)
    (step : ClockStep) : (step.apply first).now = (step.apply second).now := by
  cases step with
  | advance duration => simp only [ClockStep.apply, same]
  | setNow instant => rfl
  | setWall | setCpu | refuseCpu => exact same

/-- A session, and one on the same clocks in which nothing further is asked of the service. -/
structure Alongside (session alone : Session ε) : Prop where
  now : alone.now = session.now
  ran : alone.ran = session.ran.filter fun one => one.timer = session.service.timer
  measured : alone.measured = []
  stopped : alone.stopped = session.stopped
  released : alone.released = session.released

theorem Alongside.timer? (alongside : Alongside session alone)
    (accounted : session.Accounted settings first)
    (aloneAccounted : alone.Accounted settings first) :
    alone.timer? session.service.timer = session.timer? session.service.timer := by
  have own : alone.service.timer = session.service.timer :=
    aloneAccounted.own.trans accounted.own.symm
  have ends : Ran.ends alone.ran session.service.timer =
      Ran.ends session.ran session.service.timer := by
    simp [Ran.ends, alongside.ran]
  rw [accounted.polling, ← own, aloneAccounted.polling, Session.polling, Session.polling,
    own, ends, alongside.stopped]

theorem Alongside.beside (alongside : Alongside session alone)
    (accounted : session.Accounted settings first)
    (aloneAccounted : alone.Accounted settings first) :
    Engine.Beside session.service.timer session.engine alone.engine where
  inUse := accounted.inUse
  aloneInUse := aloneAccounted.inUse
  only := by
    intro id other
    have single := aloneAccounted.registered
    rw [alongside.measured] at single
    rw [accounted.own] at other
    exact List.getElem?_eq_none (single ▸ Nat.pos_of_ne_zero other)
  timer := alongside.timer? accounted aloneAccounted
  now := alongside.now

theorem Alongside.extra (instantly : source.Instantaneous) (alongside : Alongside session alone)
    {how : Use} (extra : how.extra = true) : Alongside (session.apply source how) alone := by
  have now := alongside.now.trans (now_apply instantly session how).symm
  cases how with
  | forceMeasure | measureNow | setServers =>
    exact ⟨now, alongside.ran, alongside.measured, alongside.stopped, alongside.released⟩
  | shutdown | release => cases extra

theorem Alongside.drain (instantly : source.Instantaneous) (alongside : Alongside session alone)
    (accounted : session.Accounted settings first)
    (aloneAccounted : alone.Accounted settings first) {bound : Nat} {next : Session ε}
    (drained : session.drain source bound = some next) :
    ∃ aloneNext, alone.drain source bound = some aloneNext ∧ Alongside next aloneNext := by
  obtain ⟨last, ran, drains, few, rfl⟩ := drain_eq_some drained
  obtain ⟨lastAlone, drainsAlone, beside⟩ :=
    drains.beside (Service.aloof_behaviour source) (Service.prompt_behaviour instantly)
      (alongside.beside accounted aloneAccounted)
  have fewer : (ran.filter fun one => one.timer = session.service.timer).length < bound :=
    Nat.lt_of_le_of_lt (List.length_filter_le ..) few
  rw [← alongside.now] at drainsAlone
  refine ⟨_, drain_of_drains drainsAlone fewer, ?_⟩
  exact {
    now := beside.now
    ran := by
      change alone.ran ++ _ = List.filter _ (session.ran ++ ran)
      rw [List.filter_append, alongside.ran]
    measured := alongside.measured
    stopped := alongside.stopped
    released := alongside.released }

theorem Alongside.step (instantly : source.Instantaneous) (alongside : Alongside session alone)
    (accounted : session.Accounted settings first)
    (aloneAccounted : alone.Accounted settings first) {act : Act} {next : Session ε}
    (own : act.extra = false) (stepped : session.step source act = some next) :
    ∃ aloneNext, alone.step source act = some aloneNext ∧ Alongside next aloneNext := by
  cases act with
  | runPending bound => exact alongside.drain instantly accounted aloneAccounted stepped
  | clock step =>
    cases stepped
    exact ⟨_, rfl, now_clock alongside.now step, alongside.ran, alongside.measured,
      alongside.stopped, alongside.released⟩
  | use how =>
    obtain ⟨held, rfl⟩ := use_eq_some stepped
    refine ⟨alone.apply source how, ?_, ?_⟩
    · rw [Session.step, alongside.released, held, if_neg Bool.false_ne_true]
    · cases how with
      | forceMeasure | measureNow | setServers => cases own
      | shutdown =>
        exact ⟨alongside.now, alongside.ran, alongside.measured, rfl, alongside.released⟩
      | release => exact ⟨alongside.now, alongside.ran, alongside.measured, rfl, rfl⟩

/-- Without all that was further asked of the service, the same session is possible. -/
theorem Alongside.run (instantly : source.Instantaneous) (repeats : first.Repeats)
    (alongside : Alongside session alone) (accounted : session.Accounted settings first)
    (aloneAccounted : alone.Accounted settings first) {acts : List Act} {last : Session ε}
    (made : session.run source acts = some last) :
    ∃ aloneLast, alone.run source (acts.filter fun act => !act.extra) = some aloneLast ∧
      Alongside last aloneLast := by
  induction acts generalizing session alone with
  | nil =>
    cases made
    exact ⟨alone, rfl, alongside⟩
  | cons act acts induction =>
    obtain ⟨next, stepped, rest⟩ := run_cons_eq_some made
    have nextAccounted := accounted.step repeats stepped
    cases kind : act.extra with
    | true =>
      rw [List.filter_cons_of_neg (by simp [kind])]
      cases act with
      | use how =>
        obtain ⟨-, rfl⟩ := use_eq_some stepped
        exact induction (alongside.extra instantly kind) nextAccounted aloneAccounted rest
      | runPending | clock => cases kind
    | false =>
      rw [List.filter_cons_of_pos (by simp [kind])]
      obtain ⟨aloneNext, aloneStepped, nextAlongside⟩ :=
        alongside.step instantly accounted aloneAccounted kind stepped
      obtain ⟨aloneLast, aloneRest, lastAlongside⟩ :=
        induction nextAlongside nextAccounted (aloneAccounted.step repeats aloneStepped) rest
      refine ⟨aloneLast, ?_, lastAlongside⟩
      rw [Session.run, List.foldlM_cons, aloneStepped]
      exact aloneRest

theorem accounted_start {engine : Engine ε} (inUse : engine.InUse)
    (unused : engine.scheduler.timers = []) {service : Service ε}
    (started : Service.start settings engine = .ok service) :
    Accounted settings (Service.firstPoll settings engine.context.now) { service } := by
  obtain ⟨own, timers, poller, stillInUse⟩ := Service.start_eq_ok started
  rw [unused] at own timers
  exact {
    inUse := stillInUse inUse
    own
    numbered := rfl
    registered := congrArg List.length timers
    known := fun one member => nomatch member
    polling := by
      change service.engine.scheduler.timers[service.timer]? = _
      rw [own, timers]
      rfl
    measured := fun id member => nomatch member
    cycles := poller ▸ .refl _ }

theorem Accounted.sameAt_apply (accounted : session.Accounted settings first) {how : Use}
    (extra : how.extra = true) :
    SameAt session.service.timer session.engine.scheduler
      (session.apply source how).engine.scheduler := by
  cases how with
  | forceMeasure | setServers => exact Scheduler.sameAt_of_timers rfl rfl rfl
  | measureNow =>
    have different : session.service.timer ≠ session.engine.scheduler.timers.length := by
      rw [accounted.own, accounted.registered]
      exact (Nat.succ_ne_zero _).symm
    exact Scheduler.sameAt_register (.after .zero) none session.now different
  | shutdown | release => cases extra

/-- A call that runs what is due is an act of the session.  Its answer is the number of runs,
and each timer runs as long as it is due, and only then. -/
theorem Accounted.step_of_runPending (accounted : session.Accounted settings first)
    {bound count : Nat} {after : Service ε}
    (made : session.service.runPending source bound = some (count, after)) :
    ∃ newly, session.step source (.runPending bound) =
        some { session with service := after, ran := session.ran ++ newly } ∧
      newly.length = count ∧
      ∀ id timer, session.timer? id = some timer →
        timer.Drains session.now (Ran.ends newly id) := by
  simp only [Service.runPending, Option.bind_eq_bind, Option.bind_eq_some_iff, Option.pure_def,
    Option.some.injEq] at made
  obtain ⟨⟨runs, engine⟩, made, same⟩ := made
  cases same
  obtain ⟨drains, length, enough⟩ := Engine.drains_of_runDue made
  refine ⟨_, drain_of_drains drains (length ▸ enough), length, fun id timer present => ?_⟩
  exact (drains.timer (Service.aloof_behaviour source) accounted.inUse present).1

theorem Accounted.finished_of_stopped (accounted : session.Accounted settings first)
    (stopped : session.stopped = true) :
    session.engine.scheduler.Finished session.service.timer .cancelled := by
  refine ⟨Scheduler.status?_eq_some_iff.mpr ⟨_, accounted.polling, ?_⟩, .inl rfl⟩
  rw [polling_of_stopped first stopped]

/-- A service counts every cycle once.  Settings with a fault start nothing; otherwise one
repeating timer is registered, and no other.  Where it is the first, what is due is run,
further cycles are forced or put on timers, servers are replaced, the clocks move and the
service is shut down or given up, in any order and however long cycles take.  The account of
all this is balanced.  What is further asked of the service leaves its own timer in its
place, and shutting it down leaves what it has published.  A call that runs what is due makes
as many runs as it says, and runs each timer as long as that one is due.  What is finished is
never run again, so neither is the own timer of a service that was stopped; and the reading
of the time stays as it was until a cycle succeeds.  If cycles take no time, the own timer
and its runs are those of the same session without anything further. -/
theorem cycles_accounted (settings : Settings) (source : Source ε) (engine : Engine ε) :
    let first := Service.firstPoll settings engine.context.now
    (∀ fault, Service.start settings engine = .error fault ↔ settings.fault? = some fault) ∧
    ∀ service, Service.start settings engine = .ok service →
      service.engine.scheduler.timers = engine.scheduler.timers ++ [first] ∧
      (engine.InUse → engine.scheduler.timers = [] →
        ∀ acts session, Session.run source acts { service } = some session →
          session.Balanced first ∧
          (∀ how : Use, how.extra = true →
            SameAt session.service.timer session.engine.scheduler
              (session.apply source how).engine.scheduler) ∧
          (∀ how : Use, how.extra = false →
            (session.apply source how).stopped = true ∧
              (session.apply source how).state = session.state) ∧
          (∀ bound count after,
            session.service.runPending source bound = some (count, after) →
            ∃ newly, session.step source (.runPending bound) =
                some { session with service := after, ran := session.ran ++ newly } ∧
              newly.length = count ∧
              ∀ id timer, session.timer? id = some timer →
                timer.Drains session.now (Ran.ends newly id)) ∧
          (∀ more later, session.run source more = some later →
            (∃ newly, later.ran = session.ran ++ newly ∧
              (∀ one ∈ newly, ∀ status,
                ¬ session.engine.scheduler.Finished one.timer status) ∧
              (session.stopped = true → ∀ one ∈ newly, one.timer ≠ session.service.timer)) ∧
            (later.state.successes = session.state.successes →
              later.state.SameReading session.state)) ∧
          (source.Instantaneous → ∃ alone : Session ε,
            Session.run source (acts.filter fun act => !act.extra) { service } = some alone ∧
              alone.timer? session.service.timer = session.timer? session.service.timer ∧
              alone.ran =
                session.ran.filter fun one => one.timer = session.service.timer)) := by
  intro first
  refine ⟨fun fault => Service.start_eq_error_iff, fun service started => ?_⟩
  refine ⟨(Service.start_eq_ok started).2.1, fun inUse unused acts session made => ?_⟩
  have opened := accounted_start inUse unused started
  have repeats : first.Repeats := ⟨rfl, rfl, Option.some_ne_none _⟩
  have accounted := opened.run repeats made
  refine ⟨accounted.balanced, fun how extra => accounted.sameAt_apply extra, ?_,
    fun bound count after ran => accounted.step_of_runPending ran, ?_, ?_⟩
  · intro how final
    cases how with
    | forceMeasure | measureNow | setServers => cases final
    | shutdown | release => exact ⟨rfl, rfl⟩
  · intro more later continued
    have continues := continues_run accounted.inUse continued
    obtain ⟨newly, ran, never⟩ := continues.ran
    obtain ⟨cycles, reaches⟩ := continues.reaches
    refine ⟨⟨newly, ran, never, ?_⟩, accounted.cycles.sameReading reaches⟩
    intro stopped one member own
    exact never one member .cancelled (own ▸ accounted.finished_of_stopped stopped)
  · intro instantly
    have begun : Alongside { service } { service } := ⟨rfl, rfl, rfl, rfl, rfl⟩
    obtain ⟨alone, aloneMade, alongside⟩ :=
      begun.run instantly repeats opened opened made
    exact ⟨alone, aloneMade, alongside.timer? accounted (opened.run repeats aloneMade),
      alongside.ran⟩

/-- Of three cycles one is run by the service's own timer, one is forced, and one is run by
a further timer when the service has been shut down and given up long ago. -/
theorem cycles_accounted_released :
    let settings : Settings := { servers := [{ host := "time" }] }
    let source : Source Unit := fun _ _ context => (.ok ⟨25, 10, 2, 0⟩, context)
    let engine : Engine Unit := { context := ⟨.origin, 0, {}, #[], ()⟩ }
    let acts : List Act :=
      [.runPending 3, .use .forceMeasure, .use .measureNow, .use .shutdown, .use .release,
        .clock (.advance (.ofMillis 90000)), .runPending 3]
    ∃ service session alone, Service.start settings engine = .ok service ∧
      Session.run source acts { service } = some session ∧
      session.ran.map Ran.timer = [0, 1] ∧ session.state.cycles = 3 ∧
      session.service.status = some .cancelled ∧
      Session.run source (acts.filter fun act => !act.extra) { service } = some alone ∧
      alone.ran.map Ran.timer = [0] ∧
      alone.timer? session.service.timer = session.timer? session.service.timer := by
  intro settings source engine acts
  have inUse : engine.InUse := ⟨⟨[], .nil⟩, rfl⟩
  obtain ⟨-, account⟩ := cycles_accounted settings source engine
  have seen : (match Service.start settings engine with
      | .ok service => (Session.run source acts { service }).map fun session =>
          (session.service.timer, session.ran.map Ran.timer, session.measured,
            session.forced, session.stopped)
      | .error _ => none) = some (0, [0, 1], [1], 1, true) := by
    decide +kernel
  cases started : Service.start settings engine with
  | error fault =>
    rw [started] at seen
    cases seen
  | ok service =>
    simp only [started, Option.map_eq_some_iff, Prod.mk.injEq] at seen
    obtain ⟨session, made, own, ran, measured, forced, stopped⟩ := seen
    obtain ⟨-, sessions⟩ := account service started
    obtain ⟨balanced, -, -, -, -, apart⟩ := sessions inUse rfl acts session made
    obtain ⟨alone, aloneMade, timer, aloneRan⟩ := apart fun _ _ _ => rfl
    have counted : ∀ test : TimerId → Bool,
        (session.ran.countP fun one => test one.timer) = [0, 1].countP test :=
      fun test => ran ▸ List.countP_map.symm
    have cycles := balanced.cycles
    rw [own, measured, forced, counted fun id => id = 0, counted fun id => id ∈ [1]] at cycles
    refine ⟨service, session, alone, rfl, made, ran, cycles, ?_, aloneMade, ?_, timer⟩
    · have shown : session.service.status = _ :=
        congrArg (Option.map Timer.status) balanced.polling
      rw [shown, polling_of_stopped _ stopped]
      rfl
    · rw [aloneRan, own]
      exact List.filter_map.symm.trans (congrArg (List.filter fun id => id = 0) ran)

end Session

end TimeSync.Sync
