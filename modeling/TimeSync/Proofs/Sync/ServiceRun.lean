import TimeSync.Proofs.Scheduler.Drain
import TimeSync.Proofs.Sync.Published
import TimeSync.Sync.Service

/-!
# What a service does to its poller and its timers

Each run of a timer is one cycle of the poller, and so is each cycle that is forced.
Nothing else but a replacement of the servers reaches the poller, so its published state
counts the runs.  A cycle leaves the timers alone, and takes as long as its source does.
-/

namespace TimeSync.Sync

open Ntp (Outcome)

def Call.isCycle {ε : Type} : Call ε → Bool
  | cycle _ _ => true
  | replacement _ _ => false

namespace Poller

theorem length_outcomes {ε : Type} (poller : Poller) (calls : List (Call ε)) :
    (poller.outcomes calls).length = calls.countP Call.isCycle := by
  induction calls generalizing poller with
  | nil => rfl
  | cons call calls induction =>
    rw [outcomes, List.length_append, induction, List.countP_cons, Nat.add_comm]
    cases call <;> rfl

/-- So many cycles, and any replacements of the servers, lead from one poller to the
other. -/
def Reaches (ε : Type) (cycles : Nat) (before after : Poller) : Prop :=
  ∃ calls : List (Call ε), after = before.replay calls ∧ calls.countP Call.isCycle = cycles

variable {ε : Type}

theorem Reaches.refl (poller : Poller) : Reaches ε 0 poller poller := ⟨[], rfl, rfl⟩

theorem Reaches.cycle (poller : Poller) (source : Source ε) (context : Context ε) :
    Reaches ε 1 poller (poller.after (.cycle source context)) :=
  ⟨[.cycle source context], rfl, rfl⟩

theorem Reaches.replacement (poller : Poller) (servers : List Endpoint)
    (context : Context ε) :
    Reaches ε 0 poller (poller.after (.replacement servers context)) :=
  ⟨[.replacement servers context], rfl, rfl⟩

theorem Reaches.trans {first middle last : Poller} {earlier later : Nat}
    (front : Reaches ε earlier first middle) (back : Reaches ε later middle last) :
    Reaches ε (earlier + later) first last := by
  obtain ⟨calls, rfl, rfl⟩ := front
  obtain ⟨more, rfl, rfl⟩ := back
  exact ⟨calls ++ more, List.foldl_append.symm, List.countP_append⟩

theorem Reaches.cycles_eq {settings : Settings} {poller : Poller} {cycles : Nat}
    (reaches : Reaches ε cycles (ofSettings settings) poller) :
    poller.state.cycles = cycles := by
  obtain ⟨calls, rfl, rfl⟩ := reaches
  rw [(published_replay settings calls).cycles, length_outcomes]

end Poller

def State.successes (state : State) : Nat := state.cycles - state.failedCycles

namespace Poller

variable {ε : Type}

theorem successes_replay (settings : Settings) (calls : List (Call ε)) :
    ((ofSettings settings).replay calls).state.successes =
      ((ofSettings settings).outcomes calls).countP Except.isOk := by
  have published := published_replay settings calls
  have either : ∀ outcomes : List Outcome, outcomes.length =
      outcomes.countP Except.isOk + outcomes.countP fun outcome => !outcome.isOk := by
    intro outcomes
    simpa using List.length_eq_countP_add_countP Except.isOk
  rw [State.successes, published.cycles, published.failedCycles, either,
    Nat.add_sub_cancel]

theorem sameReading_replay {poller : Poller} (follows : poller.pool.Follows poller.settings)
    {calls : List (Call ε)} (without : ∀ sample, .ok sample ∉ poller.outcomes calls) :
    (poller.replay calls).state.SameReading poller.state := by
  induction calls generalizing poller with
  | nil => constructor <;> rfl
  | cons call calls induction =>
    have later : ∀ sample, .ok sample ∉ (poller.after call).outcomes calls :=
      fun sample member => without sample (List.mem_append_right _ member)
    have first : ∀ sample, poller.outcome? call ≠ some (.ok sample) :=
      fun sample succeeds => without sample
        (List.mem_append_left _ (Option.mem_toList.mpr succeeds))
    exact (induction (follows_after follows call) later).trans
      (sameReading_after follows first)

theorem Reaches.sameReading {settings : Settings} {first last : Poller} {earlier later : Nat}
    (begun : Reaches ε earlier (ofSettings settings) first)
    (continued : Reaches ε later first last)
    (same : last.state.successes = first.state.successes) :
    last.state.SameReading first.state := by
  obtain ⟨calls, rfl, -⟩ := begun
  obtain ⟨more, rfl, -⟩ := continued
  apply sameReading_replay (follows_replay settings calls)
  have joined : ((ofSettings settings).replay calls).replay more =
      (ofSettings settings).replay (calls ++ more) := List.foldl_append.symm
  rw [joined, successes_replay, successes_replay, outcomes_append, List.countP_append,
    Nat.add_eq_left, List.countP_eq_zero] at same
  exact fun sample member => same _ member rfl

end Poller

def Source.Instantaneous {ε : Type} (source : Source ε) : Prop :=
  ∀ endpoint timeout context, (source endpoint timeout context).2.now = context.now

section Instantaneous

variable {ε : Type} {source : Source ε}

theorem Trial.now_ask (instantly : source.Instantaneous) (timeout : Duration) (index : Nat)
    (entry : Pool.Entry) (trial : Trial ε) :
    (trial.ask source timeout index entry).2.context.now = trial.context.now := by
  have asked := instantly entry.endpoint timeout trial.context
  unfold ask
  dsimp only
  split <;> simpa using asked

theorem Trial.now_askInTurn (instantly : source.Instantaneous) (timeout : Duration)
    (left : List Nat) (trial : Trial ε) :
    (askInTurn source timeout left trial).2.context.now = trial.context.now := by
  induction left generalizing trial with
  | nil => rfl
  | cons index left induction =>
    cases present : trial.pool.entries[index]? with
    | none =>
      simp only [askInTurn, present]
      exact induction trial
    | some entry =>
      have asked := now_ask instantly timeout index entry trial
      simp only [askInTurn, present]
      split
      · exact asked
      · exact (induction _).trans asked

theorem Poller.now_runCycle (instantly : source.Instantaneous) (poller : Poller)
    (context : Context ε) : (poller.runCycle source context).2.2.now = context.now := by
  simp only [runCycle, now_report, attempts]
  refine (Trial.now_askInTurn instantly _ _ _).trans ?_
  dsimp only
  split
  · rw [now_reportNoCandidates]
  · rfl

end Instantaneous

namespace Service

variable {ε : Type} {source : Source ε} {thread : ThreadId} {cutoff : Instant}

/-- A cycle leaves the timers alone. -/
theorem aloof_behaviour (source : Source ε) : (behaviour source).Aloof := by
  intro thread id engine ending after called
  cases called
  rfl

theorem prompt_behaviour (instantly : source.Instantaneous) : (behaviour source).Prompt where
  returns _ _ engine :=
    ⟨.done, _, rfl, Poller.now_runCycle instantly engine.context.env.1
      (engine.context.withEnv engine.context.env.2)⟩
  sink _ _ := rfl

theorem reaches_cycle (source : Source ε) (context : Context (Poller × ε)) :
    Poller.Reaches ε 1 context.env.1 (cycle source context).2.env.1 :=
  .cycle context.env.1 source (context.withEnv context.env.2)

/-- The run of a timer is one cycle. -/
theorem reaches_fire {engine fired : Engine (Poller × ε)} {execution : Execution}
    (firing : engine.fire (behaviour source) execution = some fired) :
    Poller.Reaches ε 1 engine.context.env.1 fired.context.env.1 := by
  rw [Engine.fire_eq] at firing
  obtain rfl := Option.some.inj firing
  have begun := (Engine.noted_announce execution engine).env
  have settled := (Engine.noted_settle
    (Engine.report Behaviour.logFailure execution (engine.announce execution).1 .done
      { (engine.announce execution).2 with
        context := (cycle source (engine.announce execution).2.context).2 }) execution).env
  have reported := (Engine.noted_afterCallback execution (engine.announce execution).1
    (cycle source (engine.announce execution).2.context).2).env
  have cycle := reaches_cycle source (engine.announce execution).2.context
  rw [begun] at cycle
  rw [← reported] at cycle
  exact settled ▸ cycle

theorem reaches_drains {engine last : Engine (Poller × ε)} {ran : List Ran}
    (drains : Engine.Drains (behaviour source) thread cutoff engine ran last) :
    Poller.Reaches ε ran.length engine.context.env.1 last.context.env.1 := by
  induction drains with
  | @rest engine last found =>
    obtain rfl : engine.afterTaking _ = last := congrArg Prod.snd found
    rw [(engine.noted_afterTaking _).env]
    exact .refl _
  | @fire engine taken fired last execution ran found firing _ induction =>
    obtain rfl : engine.afterTaking _ = taken := congrArg Prod.snd found
    have first := reaches_fire firing
    rw [(engine.noted_afterTaking _).env] at first
    rw [List.length_cons, Nat.add_comm]
    exact first.trans induction

def firstDelay (settings : Settings) : Duration :=
  if settings.measureImmediately then Duration.zero else settings.pollInterval

/-- The timer of a service that is started at `now`. -/
def firstPoll (settings : Settings) (now : Instant) : Timer :=
  .waiting ((FirstFire.after (firstDelay settings)).resolve now) (some settings.pollInterval)

theorem clampPeriod_pollInterval {settings : Settings} (valid : settings.fault? = none) :
    Timer.clampPeriod settings.pollInterval = settings.pollInterval := by
  have positive : settings.pollIntervalMs ≠ 0 := by
    intro zero
    unfold Settings.fault? at valid
    split at valid
    · cases valid
    · split at valid <;> cases valid
  have long : ¬ settings.pollInterval < Timer.leastPeriod := by
    have nonzero : settings.pollIntervalMs.toNat ≠ 0 :=
      fun none => positive (UInt64.toNat_inj.mp none)
    rw [Duration.lt_def]
    simpa [Settings.pollInterval, Timer.leastPeriod, Duration.ofMillis] using nonzero
  rw [Timer.clampPeriod, if_neg long]

theorem start_eq_error_iff {settings : Settings} {engine : Engine ε} {fault : SettingsFault} :
    start settings engine = .error fault ↔ settings.fault? = some fault := by
  unfold start
  split
  · rename_i found
    rw [found]
    simp
  · rename_i valid
    rw [valid]
    simp

def furnished (settings : Settings) (engine : Engine ε) : Engine (Poller × ε) where
  scheduler := engine.scheduler
  context := engine.context.withEnv (Poller.ofSettings settings, engine.context.env)

def opened (settings : Settings) (engine : Engine ε) : TimerId × Engine (Poller × ε) :=
  (furnished settings engine).register (.after (firstDelay settings))
    (some settings.pollInterval)

theorem eq_of_start {settings : Settings} {engine : Engine ε} {service : Service ε}
    (started : start settings engine = .ok service) :
    settings.fault? = none ∧ service.timer = (opened settings engine).1 ∧
      ∃ text, service.engine = (opened settings engine).2.note .info text := by
  unfold start at started
  split at started
  · cases started
  · rename_i valid
    obtain rfl := Except.ok.inj started
    exact ⟨valid, rfl, _, rfl⟩

theorem start_eq_ok {settings : Settings} {engine : Engine ε} {service : Service ε}
    (started : start settings engine = .ok service) :
    service.timer = engine.scheduler.timers.length ∧
      service.engine.scheduler.timers =
        engine.scheduler.timers ++ [firstPoll settings engine.context.now] ∧
      service.poller = .ofSettings settings ∧
      (engine.InUse → service.engine.InUse) := by
  obtain ⟨valid, timer, text, noted⟩ := eq_of_start started
  have scheduler : service.engine.scheduler =
      (engine.scheduler.register (.after (firstDelay settings)) (some settings.pollInterval)
        engine.context.now).2 := by
    rw [noted]
    exact (furnished settings engine).scheduler_register _ _
  have env : service.engine.context.env = (Poller.ofSettings settings, engine.context.env) := by
    have registered := (furnished settings engine).noted_register
      (.after (firstDelay settings)) (some settings.pollInterval)
    rw [noted]
    exact ((opened settings engine).2.context.noted_note .info text).env.trans registered.env
  refine ⟨timer, ?_, congrArg Prod.fst env, fun inUse => ?_⟩
  · rw [scheduler]
    change engine.scheduler.timers ++ [_] = _
    rw [Option.map_some, clampPeriod_pollInterval valid]
    rfl
  · have before : (furnished settings engine).InUse := ⟨inUse.reachable, inUse.present⟩
    have after := (before.advances_register 0 (.after (firstDelay settings))
      (some settings.pollInterval)).inUse before
    rw [noted]
    exact ⟨after.reachable, after.present⟩

end Service

end TimeSync.Sync
