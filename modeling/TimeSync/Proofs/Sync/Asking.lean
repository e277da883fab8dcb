import TimeSync.Proofs.Sync.Calls

/-!
# What a cycle asks

A cycle asks the servers that its search has found in turn, each once, until a reply is
accepted.  What came of each attempt is recorded once, in the entry of the server that was
asked; the other entries stay as they were.
-/

namespace TimeSync

namespace Pool

section Reports

variable {ε δ : Type} (pool : Pool) (index : Nat) (fault : Ntp.Fault) (context : Context ε)

theorem reportSuccess_withEnv (env : δ) :
    pool.reportSuccess index (context.withEnv env) =
      (pool.reportSuccess index context).withEnv env := by
  unfold reportSuccess
  split
  · rfl
  · split <;> rfl

theorem reportFailure_withEnv (env : δ) :
    pool.reportFailure index fault (context.withEnv env) =
      (pool.reportFailure index fault context).withEnv env := by
  unfold reportFailure
  split
  · rfl
  · dsimp only
    split <;> rfl

theorem env_reportSuccess : (pool.reportSuccess index context).env = context.env := by
  unfold reportSuccess
  split
  · rfl
  · split <;> rfl

theorem env_reportFailure : (pool.reportFailure index fault context).env = context.env := by
  unfold reportFailure
  split
  · rfl
  · dsimp only
    split <;> rfl

end Reports

/-- Whether a published record shows an entry as it is at some time. -/
structure Health.Shows (health : Health) (entry : Entry) (now : Instant) : Prop where
  server : health.server = entry.endpoint.text
  failuresInARow : health.failuresInARow = entry.failuresInARow
  successes : health.successes = entry.successes
  failures : health.failures = entry.failures
  coolingDown : health.coolingDown = true ↔
    ∃ last, entry.cooldownUntil = some last ∧ now.nanos < last.nanos
  remaining : ∀ last, entry.cooldownUntil = some last →
    health.remainingMs = (last.nanos - now.nanos).toNat / 1000000 % UInt64.size
  noneRemaining : entry.cooldownUntil = none → health.remainingMs = 0
  faultCode : ∀ fault, entry.lastFault = some fault → health.lastFaultCode = fault.code
  faultless : entry.lastFault = none → health.lastFaultCode = 0

theorem Entry.shows_health (entry : Entry) (now : Instant) :
    (entry.health now).Shows entry now where
  server := rfl
  failuresInARow := rfl
  successes := rfl
  failures := rfl
  coolingDown := by
    cases cooling : entry.cooldownUntil with
    | none => simp [health, inCooldown, cooling]
    | some last => simp [health, inCooldown, cooling, Instant.lt_def]
  remaining := by
    intro last cooling
    simp only [health, cooling]
    rfl
  noneRemaining := by
    intro free
    simp only [health, free]
  faultCode := by
    intro fault failed
    simp only [health, failed]
    rfl
  faultless := by
    intro well
    simp only [health, well]
    rfl

theorem shows_health (pool : Pool) (now : Instant) :
    List.Forall₂ (fun entry health => health.Shows entry now) pool.entries (pool.health now) :=
  List.forall₂_map_right_iff.mpr (List.forall₂_same.mpr fun entry _ => entry.shows_health now)

end Pool

namespace Sync

open Ntp (Fault Sample Outcome)

/-- A limit on the delay of replies, in microseconds as far as 64 bits hold them. -/
def limitMicros (limit : Duration) : Int := min limit.micros Int64.maxValue.toInt

/-- What a cycle makes of a reply: it is accepted unless it is too slow. -/
inductive Judged (limit : Option Duration) : Outcome → Outcome → Prop where
  | unanswered (fault : Fault) : Judged limit (.error fault) (.error fault)
  | accepted (sample : Sample)
      (quick : ∀ most, limit = some most → sample.delay ≤ limitMicros most) :
      Judged limit (.ok sample) (.ok sample)
  | slow (sample : Sample) (most : Duration) (limited : limit = some most)
      (late : limitMicros most < sample.delay) :
      Judged limit (.ok sample) (.error (.delayTooHigh sample.delay (limitMicros most)))

theorem judged_withinLimit (limit : Option Duration) (reply : Outcome) :
    Judged limit reply (reply >>= withinLimit limit) := by
  cases reply with
  | error fault => exact .unanswered fault
  | ok sample =>
    change Judged limit (.ok sample) (withinLimit limit sample)
    cases limit with
    | none => exact .accepted sample fun _ noneGiven => nomatch noneGiven
    | some most =>
      simp only [withinLimit]
      split
      · rename_i late
        exact .slow sample most rfl late
      · rename_i quick
        refine .accepted sample fun other given => ?_
        cases given
        exact Int.not_lt.mp quick

/-- Whether an attempt is what came of asking the server of an entry. -/
structure Attempt.Answers {ε : Type} (source : Source ε) (timeout : Duration)
    (entry : Pool.Entry) (attempt : Attempt) : Prop where
  endpoint : attempt.endpoint = entry.endpoint
  reply : ∃ asked reply answered, source entry.endpoint timeout asked = (reply, answered) ∧
    attempt.known = answered.now ∧ Judged entry.maxDelay reply attempt.outcome

/-- Whether servers of a pool were asked in turn until one was accepted: those that were
asked are the first of those that were left, all but the last were refused, and if none
was accepted then all of them were asked. -/
structure Asks {ε : Type} (source : Source ε) (timeout : Duration) (pool : Pool)
    (left : List Nat) (attempts : List Attempt) : Prop where
  inTurn : attempts.map Attempt.index <+: left
  refused : ∀ attempt ∈ attempts.dropLast, attempt.outcome.isOk = false
  exhausted : (∀ attempt ∈ attempts, attempt.outcome.isOk = false) →
    attempts.map Attempt.index = left
  answers : ∀ attempt ∈ attempts, ∃ entry,
    pool.entries[attempt.index]? = some entry ∧ attempt.Answers source timeout entry

namespace Asks

variable {ε : Type} {source : Source ε} {timeout : Duration} {pool : Pool} {left : List Nat}
  {attempt : Attempt} {attempts : List Attempt} {entry : Pool.Entry}

theorem none_left : Asks source timeout pool [] [] where
  inTurn := List.prefix_rfl
  refused := fun _ noneAsked => nomatch noneAsked
  exhausted := fun _ => rfl
  answers := fun _ noneAsked => nomatch noneAsked

theorem accepted (present : pool.entries[attempt.index]? = some entry)
    (answers : attempt.Answers source timeout entry) (ok : attempt.outcome.isOk = true) :
    Asks source timeout pool (attempt.index :: left) [attempt] where
  inTurn := List.prefix_append [attempt.index] left
  refused := fun _ noneBefore => nomatch noneBefore
  exhausted := fun refused => nomatch ok.symm.trans (refused attempt List.mem_cons_self)
  answers := by
    intro other member
    rw [List.mem_singleton.mp member]
    exact ⟨entry, present, answers⟩

theorem refuse (present : pool.entries[attempt.index]? = some entry)
    (answers : attempt.Answers source timeout entry) (refused : attempt.outcome.isOk = false)
    (once : attempt.index ∉ left)
    (rest : Asks source timeout (pool.after attempt.event) left attempts) :
    Asks source timeout pool (attempt.index :: left) (attempt :: attempts) where
  inTurn := (List.prefix_cons_inj attempt.index).mpr rest.inTurn
  refused := by
    intro other member
    cases attempts with
    | nil => cases member
    | cons next later =>
      rcases List.mem_cons.mp member with rfl | member
      · exact refused
      · exact rest.refused other member
  exhausted := by
    intro noneAccepted
    rw [List.map_cons, rest.exhausted (List.forall_mem_cons.mp noneAccepted).2]
  answers := by
    intro other member
    rcases List.mem_cons.mp member with rfl | member
    · exact ⟨entry, present, answers⟩
    · obtain ⟨entry, found, answers⟩ := rest.answers other member
      have elsewhere : attempt.event.asked? ≠ some other.index := by
        rw [Trial.asked?_event]
        intro same
        refine once (Option.some.inj same ▸ rest.inTurn.subset ?_)
        exact List.mem_map_of_mem member
      exact ⟨entry, Pool.entries_after_of_ne elsewhere ▸ found, answers⟩

theorem nodup (asks : Asks source timeout pool left attempts) (distinct : left.Nodup) :
    (attempts.map Attempt.index).Nodup :=
  distinct.sublist asks.inTurn.sublist

theorem eq_nil_iff (asks : Asks source timeout pool left attempts) :
    attempts = [] ↔ left = [] := by
  constructor
  · rintro rfl
    exact (asks.exhausted fun _ noneAsked => nomatch noneAsked).symm
  · rintro rfl
    exact List.map_eq_nil_iff.mp (List.prefix_nil.mp asks.inTurn)

end Asks

namespace Trial

variable {ε : Type} (source : Source ε) (timeout : Duration)

theorem answers_ask (index : Nat) (entry : Pool.Entry) (trial : Trial ε) :
    (trial.ask source timeout index entry).1.Answers source timeout entry :=
  ⟨rfl, trial.context, _, _, rfl, rfl, judged_withinLimit _ _⟩

theorem asks_askInTurn {left : List Nat} {trial : Trial ε} (distinct : left.Nodup)
    (present : ∀ index ∈ left, index < trial.pool.size) :
    Asks source timeout trial.pool left (askInTurn source timeout left trial).1 := by
  induction left generalizing trial with
  | nil => exact .none_left
  | cons index left induction =>
    obtain ⟨once, distinct⟩ := List.nodup_cons.mp distinct
    obtain ⟨first, others⟩ := List.forall_mem_cons.mp present
    have found : trial.pool.entries[index]? = some trial.pool.entries[index] :=
      List.getElem?_eq_getElem first
    have answers := answers_ask source timeout index trial.pool.entries[index] trial
    have pool := pool_ask source timeout index trial.pool.entries[index] trial
    simp only [askInTurn, found]
    split
    · rename_i sample accepted
      exact .accepted found answers (congrArg Except.isOk accepted)
    · rename_i fault refused
      refine .refuse found answers (congrArg Except.isOk refused) once ?_
      rw [← pool]
      refine induction distinct fun other member => ?_
      rw [pool, Pool.size_after]
      exact others other member

end Trial

/-- A source that also writes down what it is asked, with the timeout. -/
def Source.recorded {ε : Type} (source : Source ε) : Source (ε × List (Endpoint × Duration)) :=
  fun endpoint timeout context =>
    let (reply, answered) := source endpoint timeout (context.withEnv context.env.1)
    (reply, answered.withEnv (answered.env, context.env.2 ++ [(endpoint, timeout)]))

def requests (timeout : Duration) (attempts : List Attempt) : List (Endpoint × Duration) :=
  attempts.map fun attempt => (attempt.endpoint, timeout)

section Requests

variable {ε δ : Type}

theorem Poller.reportNoCandidates_withEnv (pool : Pool) (context : Context ε) (env : δ) :
    reportNoCandidates pool (context.withEnv env) =
      (reportNoCandidates pool context).withEnv env := by
  unfold reportNoCandidates
  rw [Context.now_withEnv]
  split <;> rfl

theorem Poller.report_withEnv (before after : State) (context : Context ε) (env : δ) :
    report before after (context.withEnv env) = (report before after context).withEnv env := by
  unfold report
  dsimp only
  split
  · rfl
  · split <;> rfl

theorem Poller.env_reportNoCandidates (pool : Pool) (context : Context ε) :
    (reportNoCandidates pool context).env = context.env := by
  unfold reportNoCandidates
  split <;> rfl

theorem Poller.env_report (before after : State) (context : Context ε) :
    (report before after context).env = context.env := by
  unfold report
  dsimp only
  split
  · rfl
  · split <;> rfl

namespace Trial

def noting (trial : Trial ε) (made : List (Endpoint × Duration)) :
    Trial (ε × List (Endpoint × Duration)) :=
  { pool := trial.pool, context := trial.context.withEnv (trial.context.env, made) }

variable (source : Source ε) (timeout : Duration)

theorem ask_recorded (index : Nat) (entry : Pool.Entry) (trial : Trial ε)
    (made : List (Endpoint × Duration)) :
    (trial.noting made).ask source.recorded timeout index entry =
      ((trial.ask source timeout index entry).1,
        (trial.ask source timeout index entry).2.noting (made ++ [(entry.endpoint, timeout)])) := by
  have asked : source.recorded entry.endpoint timeout (trial.noting made).context =
      ((source entry.endpoint timeout trial.context).1,
        (source entry.endpoint timeout trial.context).2.withEnv
          ((source entry.endpoint timeout trial.context).2.env,
            made ++ [(entry.endpoint, timeout)])) := rfl
  unfold ask
  rw [asked]
  dsimp only
  split <;> rename_i outcome <;> simp only [outcome, noting, Context.now_withEnv,
    Pool.reportSuccess_withEnv, Pool.reportFailure_withEnv, Pool.env_reportSuccess,
    Pool.env_reportFailure]

theorem askInTurn_recorded (left : List Nat) (trial : Trial ε)
    (made : List (Endpoint × Duration)) :
    askInTurn source.recorded timeout left (trial.noting made) =
      ((askInTurn source timeout left trial).1,
        (askInTurn source timeout left trial).2.noting
          (made ++ requests timeout (askInTurn source timeout left trial).1)) := by
  induction left generalizing trial made with
  | nil => simp [askInTurn, requests]
  | cons index left induction =>
    have same : (trial.noting made).pool.entries = trial.pool.entries := rfl
    cases present : trial.pool.entries[index]? with
    | none => simpa only [askInTurn, same, present] using induction trial made
    | some entry =>
      have endpoint : (trial.ask source timeout index entry).1.endpoint = entry.endpoint := rfl
      simp only [askInTurn, same, present, ask_recorded]
      split
      · simp [requests, endpoint]
      · simp [requests, endpoint, induction]

end Trial

/-- A cycle makes just the requests of its attempts: one that also writes down what it asks
is the same otherwise. -/
theorem Poller.runCycle_recorded (source : Source ε) (poller : Poller) (context : Context ε) :
    poller.runCycle source.recorded (context.withEnv (context.env, [])) =
      ((poller.runCycle source context).1, (poller.runCycle source context).2.1,
        (poller.runCycle source context).2.2.withEnv
          ((poller.runCycle source context).2.2.env,
            requests poller.settings.queryTimeout (poller.attempts source context).1)) := by
  have attempted : poller.attempts source.recorded (context.withEnv (context.env, [])) =
      ((poller.attempts source context).1, (poller.attempts source context).2.noting
        (requests poller.settings.queryTimeout (poller.attempts source context).1)) := by
    unfold attempts
    cases found : poller.pool.search context.now with
    | mk candidates pool =>
      have sameStart : (⟨pool, if candidates = [] then
            reportNoCandidates pool (context.withEnv (context.env, []))
          else context.withEnv (context.env, [])⟩ :
            Trial (ε × List (Endpoint × Duration))) =
          Trial.noting ⟨pool, if candidates = [] then reportNoCandidates pool context
            else context⟩ [] := by
        unfold Trial.noting
        split
        · rw [reportNoCandidates_withEnv, env_reportNoCandidates]
        · rfl
      simp only [Context.now_withEnv, found]
      rw [sameStart, Trial.askInTurn_recorded, List.nil_append]
  unfold runCycle
  rw [attempted]
  simp only [Trial.noting, Context.now_withEnv, report_withEnv, env_report]

end Requests

def Attempt.record (pool : Pool) (attempt : Attempt) (entry : Pool.Entry) : Pool.Entry :=
  match attempt.outcome with
  | .ok _ => entry.succeed pool.cooldownInitial attempt.known
  | .error fault => entry.fail pool.threshold pool.cooldownMax fault attempt.known

theorem Attempt.record_congr {first second : Pool} (rules : first.SameRules second)
    (attempt : Attempt) : attempt.record second = attempt.record first := by
  obtain ⟨threshold, initial, most⟩ := rules
  unfold record
  rw [threshold, initial, most]

theorem entries_after_event (pool : Pool) (attempt : Attempt) :
    (pool.after attempt.event).entries[attempt.index]? =
      pool.entries[attempt.index]?.map (attempt.record pool) := by
  obtain ⟨index, endpoint, outcome, known⟩ := attempt
  cases outcome with
  | ok sample => exact Pool.entries_recordSuccess pool index known
  | error fault => exact Pool.entries_recordFailure pool index fault known

theorem entries_replay_of_mem {pool : Pool} {attempts : List Attempt} {attempt : Attempt}
    (distinct : (attempts.map Attempt.index).Nodup) (made : attempt ∈ attempts) :
    (pool.replay (attempts.map Attempt.event)).entries[attempt.index]? =
      pool.entries[attempt.index]?.map (attempt.record pool) := by
  induction attempts generalizing pool with
  | nil => cases made
  | cons first later induction =>
    obtain ⟨once, distinct⟩ := List.nodup_cons.mp distinct
    rw [List.map_cons, Pool.replay_cons]
    rcases List.mem_cons.mp made with rfl | made
    · rw [Pool.entries_replay_of_ne, entries_after_event]
      intro event recorded
      obtain ⟨other, member, rfl⟩ := List.mem_map.mp recorded
      rw [Trial.asked?_event, ne_eq, Option.some.injEq]
      exact fun same => once (List.mem_map.mpr ⟨other, member, same⟩)
    · rw [induction distinct made,
        Attempt.record_congr (Pool.sameRules_after pool first.event), Pool.entries_after_of_ne]
      rw [Trial.asked?_event, ne_eq, Option.some.injEq]
      exact fun same => once (List.mem_map.mpr ⟨attempt, made, same.symm⟩)

theorem entries_replay_of_not_asked {pool : Pool} {attempts : List Attempt} {index : Nat}
    (notAsked : index ∉ attempts.map Attempt.index) :
    (pool.replay (attempts.map Attempt.event)).entries[index]? = pool.entries[index]? := by
  refine Pool.entries_replay_of_ne fun event recorded => ?_
  obtain ⟨attempt, member, rfl⟩ := List.mem_map.mp recorded
  rw [Trial.asked?_event, ne_eq, Option.some.injEq]
  exact fun same => notAsked (List.mem_map.mpr ⟨attempt, member, same⟩)

/-- What a cycle does from its start to its end: whom it asks, what it records of them,
what it gives and what it publishes about the servers. -/
structure Poller.EndToEnd {ε : Type} (source : Source ε) (poller : Poller)
    (context : Context ε) : Prop where
  asks : Asks source poller.settings.queryTimeout poller.pool
    (poller.pool.search context.now).1 (poller.attempts source context).1
  once : ((poller.attempts source context).1.map Attempt.index).Nodup
  requests : poller.runCycle source.recorded (context.withEnv (context.env, [])) =
    ((poller.runCycle source context).1, (poller.runCycle source context).2.1,
      (poller.runCycle source context).2.2.withEnv
        ((poller.runCycle source context).2.2.env,
          requests poller.settings.queryTimeout (poller.attempts source context).1))
  history : (poller.runCycle source context).2.1.pool =
    (poller.pool.search context.now).2.replay
      ((poller.attempts source context).1.map Attempt.event)
  recorded : ∀ attempt ∈ (poller.attempts source context).1,
    (poller.runCycle source context).2.1.pool.entries[attempt.index]? =
      poller.pool.entries[attempt.index]?.map (attempt.record poller.pool)
  unchanged : ∀ index, index ∉ (poller.attempts source context).1.map Attempt.index →
    (poller.runCycle source context).2.1.pool.entries[index]? = poller.pool.entries[index]?
  noneLeft : (poller.pool.search context.now).1 = [] →
    (poller.runCycle source context).1 = .error .noServersAvailable
  outcome : ∀ attempt, (poller.attempts source context).1.getLast? = some attempt →
    (poller.runCycle source context).1 = attempt.outcome
  someLeft : (poller.pool.search context.now).1 ≠ [] → (poller.attempts source context).1 ≠ []
  health : List.Forall₂
    (fun entry health => health.Shows entry (poller.runCycle source context).2.2.now)
    (poller.runCycle source context).2.1.pool.entries
    (poller.runCycle source context).2.1.state.servers

namespace Poller

variable {ε : Type}

theorem asks_attempts (source : Source ε) (poller : Poller) (context : Context ε) :
    Asks source poller.settings.queryTimeout poller.pool
      (poller.pool.search context.now).1 (poller.attempts source context).1 := by
  have entries := Pool.entries_search poller.pool context.now
  have present : ∀ index ∈ (poller.pool.search context.now).1,
      index < (poller.pool.search context.now).2.size := by
    intro index listed
    obtain ⟨entry, found, -⟩ := Pool.mem_search_iff.mp listed
    rw [← entries] at found
    exact (List.getElem?_eq_some_iff.mp found).1
  let start : Trial ε :=
    { pool := (poller.pool.search context.now).2
      context := if (poller.pool.search context.now).1 = [] then
        reportNoCandidates (poller.pool.search context.now).2 context else context }
  have asks : Asks source poller.settings.queryTimeout start.pool _ _ :=
    Trial.asks_askInTurn source _ (Pool.nodup_search poller.pool context.now) present
  obtain ⟨inTurn, refused, exhausted, answers⟩ := asks
  exact ⟨inTurn, refused, exhausted, entries ▸ answers⟩

theorem servers_publish (poller : Poller) (attempts : List Attempt) (now : Instant) :
    (poller.publish attempts now).servers = poller.pool.health now := by
  unfold publish
  dsimp only
  split <;> rfl

theorem endToEnd (source : Source ε) (poller : Poller) (context : Context ε) :
    EndToEnd source poller context := by
  have asks := asks_attempts source poller context
  have once := asks.nodup (Pool.nodup_search poller.pool context.now)
  have rules := Pool.sameRules_after poller.pool (.searched context.now)
  have history := pool_runCycle source poller context
  have entries := Pool.entries_search poller.pool context.now
  rw [events, Pool.replay_cons] at history
  refine ⟨asks, once, runCycle_recorded source poller context, history, ?_, ?_, ?_, ?_, ?_, ?_⟩
  · intro attempt made
    rw [history, entries_replay_of_mem once made, Attempt.record_congr rules]
    exact congrArg (fun entries => entries[attempt.index]?.map (attempt.record poller.pool))
      entries
  · intro index notAsked
    rw [history, entries_replay_of_not_asked notAsked]
    exact congrArg (fun entries => entries[index]?) entries
  · intro noneLeft
    change conclusion (poller.attempts source context).1 = _
    rw [asks.eq_nil_iff.mpr noneLeft]
    rfl
  · intro attempt last
    change conclusion (poller.attempts source context).1 = _
    rw [conclusion, last]
  · intro someLeft noneAsked
    exact someLeft (asks.eq_nil_iff.mp noneAsked)
  · have published : (poller.runCycle source context).2.1.state.servers =
        (poller.runCycle source context).2.1.pool.health
          (poller.runCycle source context).2.2.now := by
      change (Poller.publish _ _ _).servers = Pool.health _ (report _ _ _).now
      rw [servers_publish, now_report]
      rfl
    rw [published]
    exact Pool.shows_health _ _

end Poller

end Sync

end TimeSync
