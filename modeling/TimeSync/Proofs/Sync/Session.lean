import TimeSync.Proofs.Sync.ServiceRun
import TimeSync.Simulation.Clock

/-!
# Sessions of a service

A `Session` is a service with an account of what was done with it: the runs of its timers,
the further timers that it was asked for, the cycles that were forced, and whether it was
shut down or given up.  Whatever is done, in any order, the account is `Balanced`: the
published counter is the number of runs and forced cycles, the service's own timer is what
its own runs have made of it, and each further timer has run once or still waits.
-/

namespace TimeSync.Sync

open Scheduler (SameAt)
open Simulation (ClockStep)

structure Session (ε : Type) where
  service : Service ε
  /-- All runs of timers, in the order in which they ended. -/
  ran : List Ran := []
  /-- The timers that run one further cycle. -/
  measured : List TimerId := []
  /-- How many cycles were forced. -/
  forced : Nat := 0
  /-- Whether the cycles were stopped, by a shutdown or with the service itself. -/
  stopped : Bool := false
  /-- Whether the service was given up. -/
  released : Bool := false

/-- What a service can be used for, as long as it is not given up. -/
inductive Session.Use where
  | forceMeasure
  | measureNow
  | setServers (servers : List Endpoint)
  | shutdown
  | release

inductive Session.Act where
  | use (how : Use)
  /-- What is due is run, at most `bound - 1` timers. -/
  | runPending (bound : Nat)
  | clock (step : ClockStep)

namespace Session

variable {ε : Type}

def engine (session : Session ε) : Engine (Poller × ε) := session.service.engine

def timer? (session : Session ε) (id : TimerId) : Option Timer :=
  session.service.engine.scheduler.timer? id

def state (session : Session ε) : State := session.service.state

def now (session : Session ε) : Instant := session.service.context.now

/-- Whether a use concerns further cycles or servers, and not the service's own cycles. -/
def Use.extra : Use → Bool
  | forceMeasure | measureNow | setServers _ => true
  | shutdown | release => false

def Act.extra : Act → Bool
  | use how => how.extra
  | runPending _ | clock _ => false

def apply (source : Source ε) (session : Session ε) : Use → Session ε
  | .forceMeasure =>
    { session with
      service := (session.service.forceMeasure source).2
      forced := session.forced + 1 }
  | .measureNow =>
    { session with
      service := session.service.measureNow.2
      measured := session.measured ++ [session.service.measureNow.1] }
  | .setServers servers => { session with service := (session.service.setServers servers).2 }
  | .shutdown => { session with service := session.service.shutdown.2, stopped := true }
  | .release =>
    { session with service := session.service.release, stopped := true, released := true }

def drain (source : Source ε) (bound : Nat) (session : Session ε) : Option (Session ε) := do
  let (_, service) ← session.service.runPending source bound
  return { session with
    service
    ran := session.ran ++
      session.engine.ranDue (Service.behaviour source) 0 session.now bound }

def step (source : Source ε) (session : Session ε) : Act → Option (Session ε)
  | .use how => if session.released then none else some (session.apply source how)
  | .runPending bound => session.drain source bound
  | .clock step => some { session with service := session.service.mapContext step.apply }

def run (source : Source ε) (acts : List Act) (session : Session ε) : Option (Session ε) :=
  acts.foldlM (step source) session

/-- The service's own timer, as its own runs have left it. -/
def polling (first : Timer) (session : Session ε) : Timer :=
  let timer := first.afterRuns (Ran.ends session.ran session.service.timer)
  if session.stopped then
    { timer with status := .cancelled, cancelRequested := true }
  else
    timer

theorem polling_of_stopped (first : Timer) {session : Session ε}
    (stopped : session.stopped = true) :
    session.polling first =
      { first.afterRuns (Ran.ends session.ran session.service.timer) with
        status := .cancelled, cancelRequested := true } := by
  rw [polling, if_pos stopped]

theorem polling_of_running (first : Timer) {session : Session ε}
    (running : session.stopped = false) :
    session.polling first =
      first.afterRuns (Ran.ends session.ran session.service.timer) := by
  rw [polling, running, if_neg Bool.false_ne_true]

structure Balanced (first : Timer) (session : Session ε) : Prop where
  /-- Each cycle is a run of the service's own timer, one of a further timer or forced. -/
  cycles : session.state.cycles =
    (session.ran.countP fun one => one.timer = session.service.timer) +
      (session.ran.countP fun one => one.timer ∈ session.measured) + session.forced
  /-- No timers are there but the service's own one and the further ones. -/
  registered : session.engine.scheduler.timers.length = session.measured.length + 1
  distinct : (session.service.timer :: session.measured).Nodup
  polling : session.timer? session.service.timer = some (session.polling first)
  /-- A further timer waits, or has run once and for all. -/
  measured : ∀ id ∈ session.measured, ∃ timer, session.timer? id = some timer ∧
    ((Ran.ends session.ran id = [] ∧ timer.status = .pending) ∨
      ∃ ended, Ran.ends session.ran id = [ended] ∧ timer.status = .completed)

/-- What is kept of a session while it lasts. -/
structure Accounted (settings : Settings) (first : Timer) (session : Session ε) : Prop where
  inUse : session.engine.InUse
  own : session.service.timer = 0
  numbered : session.measured = List.range' 1 session.measured.length
  registered : session.engine.scheduler.timers.length = session.measured.length + 1
  known : ∀ one ∈ session.ran, one.timer < session.engine.scheduler.timers.length
  polling : session.timer? session.service.timer = some (session.polling first)
  measured : ∀ id ∈ session.measured, ∃ deadline,
    session.timer? id =
        some ((Timer.waiting deadline none).afterRuns (Ran.ends session.ran id)) ∧
      (Ran.ends session.ran id).length ≤ 1
  cycles : Poller.Reaches ε (session.ran.length + session.forced) (.ofSettings settings)
    session.service.poller

variable {settings : Settings} {first : Timer} {session : Session ε} {source : Source ε}

/-- The cycles that a use makes at once. -/
def Use.cycles : Use → Nat
  | forceMeasure => 1
  | measureNow | setServers _ | shutdown | release => 0

theorem advances_apply (source : Source ε) (inUse : session.engine.InUse) (how : Use) :
    Engine.Advances 0 session.engine (session.apply source how).engine := by
  cases how with
  | forceMeasure | setServers => exact inUse.advances rfl
  | measureNow => exact inUse.advances_register 0 (.after .zero) none
  | shutdown | release => exact inUse.advances_cancel 0 session.service.timer

theorem reaches_apply (source : Source ε) (session : Session ε) (how : Use) :
    Poller.Reaches ε how.cycles session.service.poller
      (session.apply source how).service.poller := by
  cases how with
  | forceMeasure => exact Service.reaches_cycle source session.service.context
  | setServers servers => exact .replacement session.service.poller servers _
  | measureNow =>
    have env := (session.engine.noted_register (.after .zero) none).env
    have same : (session.apply source .measureNow).service.poller = session.service.poller :=
      congrArg Prod.fst env
    rw [same]
    exact .refl session.service.poller
  | shutdown | release => exact .refl session.service.poller

theorem poller_clock (session : Session ε) (step : ClockStep) :
    (session.service.mapContext step.apply).poller = session.service.poller := by
  cases step <;> rfl

theorem use_eq_some {how : Use} {next : Session ε}
    (used : session.step source (.use how) = some next) :
    session.released = false ∧ next = session.apply source how := by
  cases released : session.released with
  | false =>
    simp only [Session.step, released, Bool.false_eq_true, if_false, Option.some.injEq] at used
    exact ⟨rfl, used.symm⟩
  | true =>
    simp only [Session.step, released, if_true, reduceCtorEq] at used

/-- A drain is that of the engine, with the timers that it has run. -/
theorem drain_eq_some {bound : Nat} {next : Session ε}
    (drained : session.drain source bound = some next) :
    ∃ last ran, Engine.Drains (Service.behaviour source) 0 session.now session.engine ran last ∧
      ran.length < bound ∧
      next = { session with
        service := { session.service with engine := last }
        ran := session.ran ++ ran } := by
  simp only [Session.drain, Service.runPending, Option.bind_eq_bind, Option.bind_eq_some_iff,
    Option.pure_def, Option.some.injEq] at drained
  obtain ⟨⟨_, _⟩, ⟨⟨count, last⟩, made, same⟩, rfl⟩ := drained
  cases same
  obtain ⟨drains, length, enough⟩ := Engine.drains_of_runDue made
  exact ⟨last, _, drains, length ▸ enough, rfl⟩

theorem drain_of_drains {last : Engine (Poller × ε)} {ran : List Ran} {bound : Nat}
    (drains : Engine.Drains (Service.behaviour source) 0 session.now session.engine ran last)
    (enough : ran.length < bound) :
    session.drain source bound = some { session with
      service := { session.service with engine := last }
      ran := session.ran ++ ran } := by
  obtain ⟨runs, same⟩ := Engine.runDue_of_drains drains enough
  have made : session.service.engine.runPending (Service.behaviour source) bound 0 =
      some (ran.length, last) := runs
  simp only [Session.drain, Service.runPending, made, same, Option.bind_eq_bind,
    Option.bind_some, Option.pure_def]

theorem run_cons_eq_some {act : Act} {acts : List Act} {last : Session ε}
    (made : session.run source (act :: acts) = some last) :
    ∃ next, session.step source act = some next ∧ next.run source acts = some last := by
  simpa only [run, List.foldlM_cons, Option.bind_eq_bind, Option.bind_eq_some_iff] using made

theorem Accounted.withContext (accounted : session.Accounted settings first)
    {context : Context (Poller × ε)} {cycles : Nat}
    (reaches : Poller.Reaches ε cycles session.service.poller context.env.1) :
    Accounted settings first { session with
      service := { session.service with engine := { session.engine with context } }
      forced := session.forced + cycles } where
  inUse := ⟨accounted.inUse.reachable, accounted.inUse.present⟩
  own := accounted.own
  numbered := accounted.numbered
  registered := accounted.registered
  known := accounted.known
  polling := accounted.polling
  measured := accounted.measured
  cycles := Nat.add_assoc .. ▸ accounted.cycles.trans reaches

theorem Accounted.ends_eq_nil (accounted : session.Accounted settings first) {id : TimerId}
    (unknown : session.engine.scheduler.timers.length ≤ id) :
    Ran.ends session.ran id = [] := by
  rw [Ran.ends, List.map_eq_nil_iff, List.filter_eq_nil_iff]
  intro one member same
  have known := accounted.known one member
  rw [of_decide_eq_true same] at known
  exact Nat.not_lt.mpr unknown known

theorem Accounted.known_of_mem (accounted : session.Accounted settings first) {id : TimerId}
    (member : id ∈ session.measured) :
    id ≠ session.service.timer ∧ id < session.engine.scheduler.timers.length := by
  rw [accounted.numbered, List.mem_range'_1] at member
  rw [accounted.own, accounted.registered, Nat.add_comm]
  exact ⟨Nat.ne_of_gt member.1, member.2⟩

theorem scheduler_measureNow (source : Source ε) (session : Session ε) :
    (session.apply source .measureNow).engine.scheduler =
      (session.engine.scheduler.register (.after .zero) none session.now).2 :=
  session.engine.scheduler_register (.after .zero) none

theorem timer?_measureNow (source : Source ε) (session : Session ε) :
    (session.apply source .measureNow).timer? session.engine.scheduler.timers.length =
      some (.waiting ((FirstFire.after .zero).resolve session.now) none) := by
  change Scheduler.timer? (session.apply source .measureNow).engine.scheduler _ = _
  rw [scheduler_measureNow, Scheduler.timer?_register]
  rfl

theorem timer?_measureNow_of_ne (source : Source ε) (session : Session ε) {id : TimerId}
    (different : id ≠ session.engine.scheduler.timers.length) :
    (session.apply source .measureNow).timer? id = session.timer? id := by
  change Scheduler.timer? (session.apply source .measureNow).engine.scheduler _ = _
  rw [scheduler_measureNow]
  exact (Scheduler.sameAt_register _ _ _ different).timer

theorem Accounted.measureNow (accounted : session.Accounted settings first) :
    (session.apply source .measureNow).Accounted settings first := by
  let next := session.engine.scheduler.timers.length
  have number : next = session.measured.length + 1 := accounted.registered
  have more : (session.apply source .measureNow).engine.scheduler.timers.length = next + 1 := by
    rw [scheduler_measureNow]
    exact List.length_append
  have count : (session.measured ++ [next]).length = session.measured.length + 1 :=
    List.length_append
  exact {
    inUse := (advances_apply source accounted.inUse .measureNow).inUse accounted.inUse
    own := accounted.own
    numbered := by
      change session.measured ++ [next] = List.range' 1 (session.measured ++ [next]).length
      rw [count, List.range'_1_concat, ← accounted.numbered, Nat.add_comm 1, ← number]
    registered := by
      change _ = (session.measured ++ [next]).length + 1
      rw [more, count, number]
    known := fun one member => more ▸ Nat.lt_succ_of_lt (accounted.known one member)
    polling := by
      have own : session.service.timer ≠ next := by
        rw [accounted.own, number]
        exact (Nat.succ_ne_zero _).symm
      exact (timer?_measureNow_of_ne source session own).trans accounted.polling
    measured := by
      intro id member
      rcases List.mem_append.mp member with before | new
      · rw [timer?_measureNow_of_ne source session
          (Nat.ne_of_lt (accounted.known_of_mem before).2)]
        exact accounted.measured id before
      · obtain rfl : id = next := List.mem_singleton.mp new
        have idle : Ran.ends (session.apply source .measureNow).ran next = [] :=
          accounted.ends_eq_nil (Nat.le_refl _)
        rw [timer?_measureNow, idle]
        exact ⟨_, rfl, Nat.zero_le 1⟩
    cycles := accounted.cycles.trans (reaches_apply source session .measureNow) }

theorem Accounted.timer?_shutdown (accounted : session.Accounted settings first)
    (repeats : first.Repeats) :
    session.service.shutdown.2.engine.scheduler.timer? session.service.timer =
      some { first.afterRuns (Ran.ends session.ran session.service.timer) with
        status := .cancelled, cancelRequested := true } := by
  have before : session.engine.scheduler.timer? session.service.timer =
    some (session.polling first) := accounted.polling
  change (session.engine.scheduler.cancelHandle session.service.timer).2.timer? _ = _
  rw [Scheduler.cancelHandle_of_present accounted.inUse.present]
  cases already : session.stopped with
  | true =>
    have same := polling_of_stopped first already
    have cancelled : (session.polling first).status = .cancelled := same ▸ rfl
    rw [Scheduler.cancel_of_over before (.inl cancelled), before, same]
  | false =>
    have same := polling_of_running first already
    have pending : (session.polling first).status = .pending :=
      same ▸ (repeats.afterRuns _).pending
    rw [Scheduler.cancel_of_pending before pending]
    change Scheduler.timer? (Scheduler.modify ..) _ = _
    rw [Scheduler.timer?_modify, if_pos rfl, before, same]
    rfl

theorem Accounted.stop (accounted : session.Accounted settings first) (repeats : first.Repeats)
    (released : Bool) :
    Accounted settings first
      { session with service := session.service.shutdown.2, stopped := true, released } where
  inUse := (accounted.inUse.advances_cancel 0 session.service.timer).inUse accounted.inUse
  own := accounted.own
  numbered := accounted.numbered
  registered := (Scheduler.length_timers_cancelHandle ..).trans accounted.registered
  known := by
    intro one member
    exact Nat.lt_of_lt_of_eq (accounted.known one member)
      (Scheduler.length_timers_cancelHandle ..).symm
  polling := accounted.timer?_shutdown repeats
  measured := by
    intro id member
    have same : session.service.shutdown.2.engine.scheduler.timer? id = session.timer? id :=
      (Scheduler.sameAt_cancelHandle _ (accounted.known_of_mem member).1).timer
    obtain ⟨deadline, present, once⟩ := accounted.measured id member
    exact ⟨deadline, same.trans present, once⟩
  cycles := accounted.cycles

theorem Accounted.drain (accounted : session.Accounted settings first)
    {bound : Nat} {next : Session ε} (drained : session.drain source bound = some next) :
    next.Accounted settings first := by
  obtain ⟨last, ran, drains, -, same⟩ := drain_eq_some drained
  have engine : next.engine = last := by rw [same]; rfl
  have nextRan : next.ran = session.ran ++ ran := by rw [same]
  have measured : next.measured = session.measured := by rw [same]
  have timer : next.service.timer = session.service.timer := by rw [same]
  have forced : next.forced = session.forced := by rw [same]
  have stopped : next.stopped = session.stopped := by rw [same]
  have aloof := Service.aloof_behaviour source
  obtain ⟨length, known⟩ := drains.known aloof accounted.inUse
  subst engine
  exact {
    inUse := (drains.advances aloof accounted.inUse).inUse accounted.inUse
    own := timer.trans accounted.own
    numbered := measured ▸ accounted.numbered
    registered := measured ▸ length.trans accounted.registered
    known := by
      rw [length, nextRan]
      exact List.forall_mem_append.mpr ⟨accounted.known, known⟩
    polling := by
      obtain ⟨own, after⟩ := drains.timer aloof accounted.inUse accounted.polling
      rw [timer]
      refine after.trans (congrArg some ?_)
      cases already : session.stopped with
      | true =>
        have before := polling_of_stopped first already
        have cancelled : (session.polling first).status ≠ .pending := by
          rw [before]
          exact nofun
        rw [own.eq_nil cancelled, polling_of_stopped first (stopped.trans already), before,
          nextRan, timer, Ran.ends_append, own.eq_nil cancelled, List.append_nil]
        rfl
      | false =>
        rw [polling_of_running first already, polling_of_running first (stopped.trans already),
          nextRan, timer, Ran.ends_append, Timer.afterRuns_append]
    measured := by
      intro id member
      obtain ⟨deadline, present, once⟩ := accounted.measured id (measured ▸ member)
      obtain ⟨further, after⟩ := drains.timer aloof accounted.inUse present
      refine ⟨deadline, ?_, ?_⟩
      · rw [nextRan, Ran.ends_append, Timer.afterRuns_append]
        exact after
      · rw [nextRan, Ran.ends_append]
        exact further.once once
    cycles := by
      have reaches := accounted.cycles.trans (Service.reaches_drains drains)
      rw [Nat.add_right_comm, ← List.length_append] at reaches
      rw [nextRan, forced]
      exact reaches }

theorem Accounted.step (accounted : session.Accounted settings first) (repeats : first.Repeats)
    {act : Act} {next : Session ε} (stepped : session.step source act = some next) :
    next.Accounted settings first := by
  cases act with
  | runPending bound => exact accounted.drain stepped
  | clock step =>
    cases stepped
    have reaches : Poller.Reaches ε 0 session.service.poller
        (session.service.mapContext step.apply).poller := by
      rw [poller_clock]
      exact .refl session.service.poller
    exact accounted.withContext reaches
  | use how =>
    obtain ⟨-, rfl⟩ := use_eq_some stepped
    cases how with
    | forceMeasure => exact accounted.withContext (reaches_apply source session .forceMeasure)
    | measureNow => exact accounted.measureNow
    | setServers servers =>
      exact accounted.withContext (reaches_apply source session (.setServers servers))
    | shutdown => exact accounted.stop repeats session.released
    | release => exact accounted.stop repeats true

theorem Accounted.run (accounted : session.Accounted settings first) (repeats : first.Repeats)
    {acts : List Act} {last : Session ε} (made : session.run source acts = some last) :
    last.Accounted settings first := by
  induction acts generalizing session with
  | nil =>
    cases made
    exact accounted
  | cons act acts induction =>
    obtain ⟨next, stepped, rest⟩ := run_cons_eq_some made
    exact induction (accounted.step repeats stepped) rest

theorem Accounted.own_or_measured (accounted : session.Accounted settings first) {one : Ran}
    (member : one ∈ session.ran) :
    one.timer ≠ session.service.timer ↔ one.timer ∈ session.measured := by
  have known := accounted.known one member
  rw [accounted.registered, Nat.add_comm] at known
  rw [accounted.own, accounted.numbered, List.mem_range'_1]
  exact ⟨fun other => ⟨Nat.pos_of_ne_zero other, known⟩, fun further => Nat.ne_of_gt further.1⟩

theorem Accounted.balanced (accounted : session.Accounted settings first) :
    session.Balanced first where
  cycles := by
    have others : (session.ran.countP fun one => ¬ one.timer = session.service.timer) =
        session.ran.countP fun one => one.timer ∈ session.measured := by
      apply List.countP_congr
      intro one member
      simpa using accounted.own_or_measured member
    have cycles : session.state.cycles = session.ran.length + session.forced :=
      accounted.cycles.cycles_eq
    rw [cycles, List.length_eq_countP_add_countP fun one => one.timer = session.service.timer,
      ← others]
    simp
  registered := accounted.registered
  distinct := by
    rw [accounted.own, accounted.numbered]
    change (List.range' 0 (session.measured.length + 1)).Nodup
    exact List.nodup_range'
  polling := accounted.polling
  measured := by
    intro id member
    obtain ⟨deadline, present, once⟩ := accounted.measured id member
    refine ⟨_, present, ?_⟩
    cases ends : Ran.ends session.ran id with
    | nil => exact .inl ⟨rfl, rfl⟩
    | cons ended rest =>
      rw [ends] at once
      obtain rfl : rest = [] :=
        List.length_eq_zero_iff.mp (Nat.le_zero.mp (Nat.le_of_succ_le_succ once))
      exact .inr ⟨ended, rfl, rfl⟩

/-- What is kept from a session to what becomes of it. -/
structure Continues (session later : Session ε) : Prop where
  advances : Engine.Advances 0 session.engine later.engine
  /-- What is finished is never run again. -/
  ran : ∃ newly, later.ran = session.ran ++ newly ∧
    ∀ one ∈ newly, ∀ status, ¬ session.engine.scheduler.Finished one.timer status
  reaches : ∃ cycles, Poller.Reaches ε cycles session.service.poller later.service.poller

theorem Continues.trans {first middle last : Session ε} (inUse : first.engine.InUse)
    (earlier : Continues first middle) (later : Continues middle last) :
    Continues first last := by
  obtain ⟨events, run⟩ := earlier.advances.run
  obtain ⟨newly, firstRan, idle⟩ := earlier.ran
  obtain ⟨newer, middleRan, idleLater⟩ := later.ran
  obtain ⟨cycles, reaches⟩ := earlier.reaches
  obtain ⟨more, further⟩ := later.reaches
  have ran : last.ran = first.ran ++ (newly ++ newer) := by
    rw [middleRan, firstRan, List.append_assoc]
  refine ⟨earlier.advances.trans later.advances, ⟨_, ran, ?_⟩, ⟨_, reaches.trans further⟩⟩
  refine List.forall_mem_append.mpr ⟨idle, fun one member status finished => ?_⟩
  exact idleLater one member status (run.finished inUse.coupled finished).1

theorem continues_drain (inUse : session.engine.InUse) {bound : Nat} {next : Session ε}
    (drained : session.drain source bound = some next) : session.Continues next := by
  obtain ⟨last, ran, drains, -, rfl⟩ := drain_eq_some drained
  refine ⟨?_, ⟨ran, rfl, ?_⟩, ⟨_, Service.reaches_drains drains⟩⟩
  · exact drains.advances (Service.aloof_behaviour source) inUse
  · intro one member status finished
    have pending := drains.pending (Service.aloof_behaviour source) inUse member
    rcases finished.2 with rfl | rfl <;> cases pending.symm.trans finished.1

theorem continues_step (inUse : session.engine.InUse) {act : Act} {next : Session ε}
    (stepped : session.step source act = some next) : session.Continues next := by
  cases act with
  | runPending bound => exact continues_drain inUse stepped
  | clock step =>
    cases stepped
    refine ⟨inUse.advances rfl, ⟨[], (List.append_nil _).symm, by simp⟩, ⟨0, ?_⟩⟩
    rw [poller_clock]
    exact .refl session.service.poller
  | use how =>
    obtain ⟨-, rfl⟩ := use_eq_some stepped
    refine ⟨advances_apply source inUse how, ⟨[], ?_, by simp⟩,
      ⟨_, reaches_apply source session how⟩⟩
    rw [List.append_nil]
    cases how <;> rfl

theorem Continues.refl (inUse : session.engine.InUse) : session.Continues session :=
  ⟨inUse.advances rfl, ⟨[], (List.append_nil _).symm, by simp⟩, ⟨0, .refl _⟩⟩

theorem continues_run (inUse : session.engine.InUse) {acts : List Act} {last : Session ε}
    (made : session.run source acts = some last) : session.Continues last := by
  induction acts generalizing session with
  | nil =>
    cases made
    exact .refl inUse
  | cons act acts induction =>
    obtain ⟨next, stepped, rest⟩ := run_cons_eq_some made
    have continued := continues_step inUse stepped
    exact continued.trans inUse (induction (continued.advances.inUse inUse) rest)

end Session

end TimeSync.Sync
