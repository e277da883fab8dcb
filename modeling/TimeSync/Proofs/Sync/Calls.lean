import Mathlib
import TimeSync.Proofs.Pool.History

/-!
# Calls of a poller

A poller is asked to run cycles and to replace its servers, in any order.  Its pool
always follows its settings: each entry is for one of the servers, with the limit that
the settings have for the delay of its replies.  So what a cycle accepts is the reply of
one of the present servers, within the present limit.
-/

namespace TimeSync

namespace Pool

/-- Whether the entries are for servers of the settings, with the limits that hold there. -/
def Follows (pool : Pool) (settings : Settings) : Prop :=
  ∀ (index : Nat) (entry : Entry), pool.entries[index]? = some entry →
    entry.endpoint ∈ settings.servers ∧
      entry.maxDelay = settings.maxDelayFor entry.endpoint

theorem follows_ofSettings (settings : Settings) :
    (Pool.ofSettings settings).Follows settings := by
  intro index entry present
  simp only [ofSettings, List.getElem?_map, Option.map_eq_some_iff] at present
  obtain ⟨endpoint, listed, rfl⟩ := present
  exact ⟨List.mem_of_getElem? listed, rfl⟩

theorem Entry.server_fail (threshold : Nat) (most : Duration) (fault : Ntp.Fault)
    (now : Instant) (entry : Entry) :
    (entry.fail threshold most fault now).endpoint = entry.endpoint ∧
      (entry.fail threshold most fault now).maxDelay = entry.maxDelay := by
  unfold Entry.fail
  dsimp only
  split <;> exact ⟨rfl, rfl⟩

theorem Follows.after {pool : Pool} {settings : Settings} (follows : pool.Follows settings)
    (event : Event) : (pool.after event).Follows settings := by
  intro index entry present
  by_cases elsewhere : event.asked? = some index
  case neg =>
    rw [entries_after_of_ne elsewhere] at present
    exact follows index entry present
  cases event with
  | searched now => cases elsewhere
  | succeeded asked now =>
    cases elsewhere
    simp only [Pool.after, entries_recordSuccess, Option.map_eq_some_iff] at present
    obtain ⟨earlier, found, rfl⟩ := present
    exact follows index earlier found
  | failed asked fault now =>
    cases elsewhere
    simp only [Pool.after, entries_recordFailure, Option.map_eq_some_iff] at present
    obtain ⟨earlier, found, rfl⟩ := present
    obtain ⟨endpoint, maxDelay⟩ :=
      Entry.server_fail pool.threshold pool.cooldownMax fault now earlier
    rw [endpoint, maxDelay]
    exact follows index earlier found

theorem Follows.replay {pool : Pool} {settings : Settings} (follows : pool.Follows settings)
    (events : List Event) : (pool.replay events).Follows settings := by
  induction events generalizing pool with
  | nil => exact follows
  | cons event events induction => exact induction (follows.after event)

end Pool

namespace Sync

open Ntp (Fault Sample Outcome)

theorem withinLimit_eq_ok_iff {limit : Option Duration} {sample accepted : Sample} :
    withinLimit limit sample = .ok accepted ↔
      sample = accepted ∧ ∀ most, limit = some most →
        sample.delay ≤ min (most.micros : Int) Int64.maxValue.toInt := by
  cases limit with
  | none => simp [withinLimit]
  | some most =>
    simp only [withinLimit, Option.some.injEq, forall_eq']
    split
    · rename_i slow
      simp only [reduceCtorEq, false_iff, not_and, not_le]
      exact fun _ => slow
    · rename_i quick
      simp only [Except.ok.injEq, iff_self_and]
      exact fun _ => not_lt.mp quick

theorem conclusion_cons_of_error {attempt : Attempt} {attempts : List Attempt} {fault : Fault}
    {sample : Sample} (refused : attempt.outcome = .error fault)
    (accepted : conclusion (attempt :: attempts) = .ok sample) :
    conclusion attempts = .ok sample := by
  cases attempts with
  | nil => cases refused.symm.trans accepted
  | cons next later => exact accepted

/-- What is known of the reply that a cycle has accepted: which attempt it was, the last one;
that it came from the source, at `known`; and that its server was one of those in the
settings, which had no lower limit on its delay. -/
structure Accepts {ε : Type} (source : Source ε) (settings : Settings)
    (attempts : List Attempt) (endpoint : Endpoint) (sample : Sample) (known : Instant) :
    Prop where
  last : ∃ index, attempts.getLast? = some ⟨index, endpoint, .ok sample, known⟩
  reply : ∃ asked answered,
    source endpoint settings.queryTimeout asked = (.ok sample, answered) ∧ answered.now = known
  server : endpoint ∈ settings.servers
  quick : ∀ limit, settings.maxDelayFor endpoint = some limit → sample.delay ≤ limit.micros

theorem Accepts.later {ε : Type} {source : Source ε} {settings : Settings}
    {attempts : List Attempt} {endpoint : Endpoint} {sample : Sample} {known : Instant}
    (accepts : Accepts source settings attempts endpoint sample known) (attempt : Attempt) :
    Accepts source settings (attempt :: attempts) endpoint sample known := by
  obtain ⟨⟨index, last⟩, reply, server, quick⟩ := accepts
  refine ⟨⟨index, ?_⟩, reply, server, quick⟩
  rw [List.getLast?_cons, last]
  rfl

namespace Trial

variable {ε : Type} {source : Source ε} {settings : Settings}

theorem accepts_ask {trial : Trial ε} (follows : trial.pool.Follows settings) {index : Nat}
    {entry : Pool.Entry} (present : trial.pool.entries[index]? = some entry)
    {sample : Sample}
    (accepted : (trial.ask source settings.queryTimeout index entry).1.outcome = .ok sample) :
    ∃ known,
      Accepts source settings [(trial.ask source settings.queryTimeout index entry).1]
        entry.endpoint sample known ∧
      (trial.ask source settings.queryTimeout index entry).2.context.now = known := by
  obtain ⟨server, limit⟩ := follows index entry present
  unfold ask at accepted ⊢
  cases asked : source entry.endpoint settings.queryTimeout trial.context with
  | mk reply answered =>
    simp only [asked] at accepted ⊢
    cases reply with
    | error fault => cases accepted
    | ok received =>
      obtain ⟨rfl, quick⟩ := withinLimit_eq_ok_iff.mp accepted
      have judged : (Except.ok received >>= withinLimit entry.maxDelay : Outcome) =
        .ok received := accepted
      rw [judged]
      refine ⟨answered.now, ⟨⟨index, rfl⟩, ⟨_, answered, asked, rfl⟩, server, ?_⟩,
        Pool.now_reportSuccess trial.pool index answered⟩
      intro most limited
      rw [← limit] at limited
      exact (quick most limited).trans (min_le_left _ _)

theorem accepts_askInTurn {trial : Trial ε} (follows : trial.pool.Follows settings)
    (left : List Nat) {sample : Sample}
    (accepted : conclusion (askInTurn source settings.queryTimeout left trial).1 = .ok sample) :
    ∃ endpoint known,
      Accepts source settings (askInTurn source settings.queryTimeout left trial).1
        endpoint sample known ∧
      (askInTurn source settings.queryTimeout left trial).2.context.now = known := by
  induction left generalizing trial with
  | nil => cases accepted
  | cons index left induction =>
    cases present : trial.pool.entries[index]? with
    | none =>
      simp only [askInTurn, present] at accepted ⊢
      exact induction follows accepted
    | some entry =>
      have pool := pool_ask source settings.queryTimeout index entry trial
      simp only [askInTurn, present] at accepted ⊢
      split at accepted
      · obtain ⟨known, accepts, now⟩ := accepts_ask follows present accepted
        exact ⟨entry.endpoint, known, accepts, now⟩
      · rename_i fault refused
        have later : (trial.ask source settings.queryTimeout index entry).2.pool.Follows
            settings := by
          rw [pool]
          exact follows.after _
        obtain ⟨endpoint, known, accepts, now⟩ :=
          induction later (conclusion_cons_of_error refused accepted)
        exact ⟨endpoint, known, accepts.later _, now⟩

end Trial

theorem Poller.accepts_runCycle {ε : Type} {source : Source ε} {poller : Poller}
    (follows : poller.pool.Follows poller.settings) {context : Context ε} {sample : Sample}
    (succeeds : (poller.runCycle source context).1 = .ok sample) :
    ∃ endpoint known,
      Accepts source poller.settings (poller.attempts source context).1 endpoint sample known ∧
      (poller.attempts source context).2.context.now = known := by
  have searched : (poller.pool.search context.now).2.Follows poller.settings :=
    follows.after (.searched context.now)
  exact Trial.accepts_askInTurn searched (poller.pool.search context.now).1 succeeds

inductive Call (ε : Type) where
  | cycle (source : Source ε) (context : Context ε)
  | replacement (servers : List Endpoint) (context : Context ε)

namespace Poller

variable {ε : Type}

def after (poller : Poller) : Call ε → Poller
  | .cycle source context => (poller.runCycle source context).2.1
  | .replacement servers context => (poller.replaceServers servers context).2.1

def outcome? (poller : Poller) : Call ε → Option Outcome
  | .cycle source context => some (poller.runCycle source context).1
  | .replacement _ _ => none

def replay (poller : Poller) (calls : List (Call ε)) : Poller := calls.foldl after poller

/-- What the cycles among the calls give, one after another. -/
def outcomes : Poller → List (Call ε) → List Outcome
  | _, [] => []
  | poller, call :: calls => (poller.outcome? call).toList ++ outcomes (poller.after call) calls

theorem replay_concat (poller : Poller) (calls : List (Call ε)) (call : Call ε) :
    poller.replay (calls ++ [call]) = (poller.replay calls).after call :=
  List.foldl_append

theorem outcomes_append (poller : Poller) (first second : List (Call ε)) :
    poller.outcomes (first ++ second) =
      poller.outcomes first ++ (poller.replay first).outcomes second := by
  induction first generalizing poller with
  | nil => rfl
  | cons call calls induction =>
    have rest := induction (poller.after call)
    simp only [List.cons_append, outcomes, rest, List.append_assoc]
    rfl

theorem outcomes_concat (poller : Poller) (calls : List (Call ε)) (call : Call ε) :
    poller.outcomes (calls ++ [call]) =
      poller.outcomes calls ++ ((poller.replay calls).outcome? call).toList := by
  rw [outcomes_append, outcomes, outcomes, List.append_nil]

/-- A replacement that does not pass the checks changes nothing; one that does builds a new
pool. -/
theorem replaceServers_cases (poller : Poller) (servers : List Endpoint) (context : Context ε) :
    let settings : Settings := { poller.settings with servers }
    (∃ fault, settings.fault? = some fault ∧
      poller.replaceServers servers context = (.error fault, poller, context)) ∨
    settings.fault? = none ∧ ∃ later, poller.replaceServers servers context =
      (.ok (),
        { pool := .ofSettings settings, settings
          state :=
            { poller.state with servers := (Pool.ofSettings settings).health context.now } },
        later) := by
  intro settings
  unfold replaceServers
  dsimp only
  split
  · rename_i fault found
    exact .inl ⟨fault, found, rfl⟩
  · rename_i valid
    exact .inr ⟨valid, _, rfl⟩

theorem settings_after (poller : Poller) (call : Call ε) :
    ∃ servers, (poller.after call).settings = { poller.settings with servers } := by
  cases call with
  | cycle source context => exact ⟨poller.settings.servers, rfl⟩
  | replacement servers context =>
    rcases poller.replaceServers_cases servers context with ⟨_, _, refused⟩ | ⟨_, _, replaced⟩
    · rw [after, refused]
      exact ⟨poller.settings.servers, rfl⟩
    · rw [after, replaced]
      exact ⟨servers, rfl⟩

theorem smoothingAlpha_replay (poller : Poller) (calls : List (Call ε)) :
    (poller.replay calls).settings.smoothingAlpha = poller.settings.smoothingAlpha := by
  induction calls using List.reverseRecOn with
  | nil => rfl
  | append_singleton calls call induction =>
    obtain ⟨servers, settings⟩ := (poller.replay calls).settings_after call
    rw [replay_concat, settings, ← induction]

theorem follows_after {poller : Poller} (follows : poller.pool.Follows poller.settings)
    (call : Call ε) : (poller.after call).pool.Follows (poller.after call).settings := by
  cases call with
  | cycle source context =>
    change Pool.Follows (poller.runCycle source context).2.1.pool poller.settings
    rw [pool_runCycle]
    exact follows.replay _
  | replacement servers context =>
    rcases poller.replaceServers_cases servers context with ⟨_, _, refused⟩ | ⟨_, _, replaced⟩
    · rw [after, refused]
      exact follows
    · rw [after, replaced]
      exact Pool.follows_ofSettings _

theorem follows_calls {poller : Poller} (follows : poller.pool.Follows poller.settings)
    (calls : List (Call ε)) :
    (poller.replay calls).pool.Follows (poller.replay calls).settings := by
  induction calls generalizing poller with
  | nil => exact follows
  | cons call calls induction => exact induction (follows_after follows call)

/-- A pool always follows the settings of its poller. -/
theorem follows_replay (settings : Settings) (calls : List (Call ε)) :
    ((ofSettings settings).replay calls).pool.Follows
      ((ofSettings settings).replay calls).settings :=
  follows_calls (Pool.follows_ofSettings settings) calls

end Poller

end Sync

end TimeSync
