import TimeSync.Proofs.Sync.Asking

/-!
# What the pool counts

The counters of the entries are those of the cycles since the pool was built.  An entry
counts the attempts at its server; together the entries count the cycles that were
successful, since no cycle goes on after an accepted reply.
-/

namespace TimeSync

namespace Pool

/-- How often the server of an entry was asked. -/
def Entry.attempts (entry : Entry) : Nat := entry.successes + entry.failures

def successes (pool : Pool) : Nat := (pool.entries.map Entry.successes).sum

def Event.success : Event → Bool
  | .succeeded _ _ => true
  | .searched _ | .failed _ _ _ => false

theorem attempts_succeed (initial : Duration) (now : Instant) (entry : Entry) :
    (entry.succeed initial now).attempts = entry.attempts + 1 := by
  simp only [Entry.attempts, Entry.succeed]
  omega

theorem Entry.counters_fail (threshold : Nat) (most : Duration) (fault : Ntp.Fault)
    (now : Instant) (entry : Entry) :
    (entry.fail threshold most fault now).successes = entry.successes ∧
      (entry.fail threshold most fault now).failures = entry.failures + 1 := by
  unfold fail
  dsimp only
  split <;> exact ⟨rfl, rfl⟩

theorem attempts_fail (threshold : Nat) (most : Duration) (fault : Ntp.Fault) (now : Instant)
    (entry : Entry) : (entry.fail threshold most fault now).attempts = entry.attempts + 1 := by
  obtain ⟨successes, failures⟩ := entry.counters_fail threshold most fault now
  simp only [Entry.attempts, successes, failures]
  omega

theorem attempts_after (pool : Pool) (event : Event) (index : Nat) :
    (pool.after event).entries[index]?.map Entry.attempts =
      pool.entries[index]?.map fun entry =>
        entry.attempts + if event.asked? = some index then 1 else 0 := by
  by_cases elsewhere : event.asked? = some index
  case neg => simp only [entries_after_of_ne elsewhere, elsewhere, if_false]; rfl
  cases event with
  | searched now => cases elsewhere
  | succeeded asked now =>
    cases elsewhere
    rw [after, entries_recordSuccess, Option.map_map]
    refine congrArg (fun count => pool.entries[index]?.map count) (funext fun entry => ?_)
    simp only [Function.comp_apply, attempts_succeed, Event.asked?, if_true]
  | failed asked fault now =>
    cases elsewhere
    rw [after, entries_recordFailure, Option.map_map]
    refine congrArg (fun count => pool.entries[index]?.map count) (funext fun entry => ?_)
    simp only [Function.comp_apply, attempts_fail, Event.asked?, if_true]

theorem sum_map_modify {α : Type} (count : α → Nat) (change : α → α) (more : Nat)
    (changed : ∀ item, count (change item) = count item + more) (items : List α) (index : Nat)
    (within : index < items.length) :
    ((items.modify index change).map count).sum = (items.map count).sum + more := by
  induction items generalizing index with
  | nil => cases within
  | cons item items induction =>
    cases index with
    | zero => simp only [List.modify_zero_cons, List.map_cons, List.sum_cons, changed]; omega
    | succ index =>
      have rest := induction index (Nat.lt_of_succ_lt_succ within)
      simp only [List.modify_succ_cons, List.map_cons, List.sum_cons, rest]
      omega

theorem successes_after {pool : Pool} {event : Event}
    (known : ∀ index, event.asked? = some index → index < pool.size) :
    (pool.after event).successes = pool.successes + if event.success then 1 else 0 := by
  cases event with
  | searched now =>
    exact congrArg (fun entries => (entries.map Entry.successes).sum) (entries_search pool now)
  | succeeded index now =>
    exact sum_map_modify Entry.successes _ 1 (fun entry => rfl) pool.entries index
      (known index rfl)
  | failed index fault now =>
    exact sum_map_modify Entry.successes _ 0
      (fun entry => (entry.counters_fail _ _ fault now).1) pool.entries index (known index rfl)

theorem attempts_replay (pool : Pool) (events : List Event) (index : Nat) :
    (pool.replay events).entries[index]?.map Entry.attempts =
      pool.entries[index]?.map fun entry =>
        entry.attempts + events.countP fun event => event.asked? = some index := by
  induction events generalizing pool with
  | nil => rfl
  | cons event events induction =>
    have first := attempts_after pool event index
    have rest := induction (pool.after event)
    rw [replay_cons, rest]
    cases before : pool.entries[index]? with
    | none =>
      rw [before, Option.map_none, Option.map_eq_none_iff] at first
      rw [first]
      rfl
    | some entry =>
      rw [before, Option.map_some, Option.map_eq_some_iff] at first
      obtain ⟨later, found, counted⟩ := first
      rw [found, Option.map_some, Option.map_some, counted, List.countP_cons]
      simp only [decide_eq_true_eq]
      congr 1
      omega

theorem successes_replay {pool : Pool} {events : List Event}
    (known : ∀ event ∈ events, ∀ index, event.asked? = some index → index < pool.size) :
    (pool.replay events).successes = pool.successes + events.countP Event.success := by
  induction events generalizing pool with
  | nil => rfl
  | cons event events induction =>
    obtain ⟨first, later⟩ := List.forall_mem_cons.mp known
    have rest : ∀ event' ∈ events, ∀ index, event'.asked? = some index →
        index < (pool.after event).size := by
      rw [size_after]
      exact later
    rw [replay_cons, induction rest, successes_after first, List.countP_cons]
    omega

end Pool

namespace Sync

open Ntp (Fault Sample Outcome)

namespace Poller

variable {ε : Type}

theorem attempts_runCycle (source : Source ε) (poller : Poller) (context : Context ε)
    (index : Nat) :
    (poller.runCycle source context).2.1.pool.entries[index]?.map Pool.Entry.attempts =
      poller.pool.entries[index]?.map fun entry =>
        entry.attempts + ((poller.attempts source context).1.map Attempt.index).count index := by
  have asked : (poller.events source context).countP (fun event => event.asked? = some index) =
      ((poller.attempts source context).1.map Attempt.index).count index := by
    rw [events, List.countP_cons_of_neg (by simp [Pool.Event.asked?]), List.countP_map,
      List.count_eq_countP, List.countP_map]
    refine List.countP_congr fun attempt _ => ?_
    simp [Trial.asked?_event]
  rw [pool_runCycle, Pool.attempts_replay, asked]

/-- All attempts but the last were refused, so the outcome of a cycle is its one success. -/
theorem countP_success {source : Source ε} {timeout : Duration} {pool : Pool}
    {left : List Nat} {attempts : List Attempt}
    (asks : Asks source timeout pool left attempts) :
    (attempts.map Attempt.event).countP Pool.Event.success =
      if (conclusion attempts).isOk then 1 else 0 := by
  have success (attempt : Attempt) : attempt.event.success = attempt.outcome.isOk := by
    obtain ⟨index, endpoint, outcome, known⟩ := attempt
    cases outcome <;> rfl
  cases last : attempts.getLast? with
  | none =>
    rw [List.getLast?_eq_none_iff] at last
    subst last
    rfl
  | some attempt =>
    obtain ⟨before, rfl⟩ := List.getLast?_eq_some_iff.mp last
    have refused := asks.refused
    rw [List.dropLast_concat] at refused
    have noneBefore : (before.map Attempt.event).countP Pool.Event.success = 0 := by
      rw [List.countP_map, List.countP_eq_zero]
      intro earlier member
      rw [Function.comp_apply, success, refused earlier member]
      exact Bool.false_ne_true
    rw [conclusion, last, List.map_append, List.countP_append, noneBefore]
    simp [success]

theorem successes_runCycle (source : Source ε) (poller : Poller) (context : Context ε) :
    (poller.runCycle source context).2.1.pool.successes =
      poller.pool.successes + if (poller.runCycle source context).1.isOk then 1 else 0 := by
  have cycle := endToEnd source poller context
  have known : ∀ event ∈ poller.events source context, ∀ index,
      event.asked? = some index → index < poller.pool.size := by
    intro event member index asked
    rcases List.mem_cons.mp member with rfl | member
    · cases asked
    · obtain ⟨attempt, made, rfl⟩ := List.mem_map.mp member
      rw [Trial.asked?_event] at asked
      cases asked
      obtain ⟨entry, found, -⟩ := cycle.asks.answers attempt made
      exact (List.getElem?_eq_some_iff.mp found).1
  rw [pool_runCycle, Pool.successes_replay known, events, List.countP_cons,
    countP_success cycle.asks]
  rfl

/-- The servers asked and the outcomes of the cycles since a pool was built. -/
structure Tally where
  asked : List Nat := []
  outcomes : List Outcome := []

/-- The tally after a call: a replacement that is carried out starts a new one. -/
def tallyAfter (poller : Poller) (tally : Tally) : Call ε → Tally
  | .cycle source context =>
    { asked := tally.asked ++ (poller.attempts source context).1.map Attempt.index
      outcomes := tally.outcomes ++ [(poller.runCycle source context).1] }
  | .replacement servers context =>
    match (poller.replaceServers servers context).1 with
    | .ok () => {}
    | .error _ => tally

def tally : Poller → Tally → List (Call ε) → Tally
  | _, tallied, [] => tallied
  | poller, tallied, call :: calls =>
    tally (poller.after call) (poller.tallyAfter tallied call) calls

/-- Whether the counters of a pool are those of a tally. -/
structure Tally.Counts (tally : Tally) (pool : Pool) : Prop where
  entries : ∀ index entry, pool.entries[index]? = some entry →
    entry.successes + entry.failures = tally.asked.count index
  total : (pool.entries.map Pool.Entry.successes).sum =
    tally.outcomes.countP fun outcome => outcome.isOk

theorem counts_ofSettings (settings : Settings) : Tally.Counts {} (.ofSettings settings) where
  entries := by
    intro index entry present
    simp only [Pool.ofSettings, List.getElem?_map, Option.map_eq_some_iff] at present
    obtain ⟨endpoint, -, rfl⟩ := present
    rfl
  total := by
    have noneYet : Pool.Entry.successes ∘ Pool.Entry.fresh settings = fun _ => 0 := rfl
    simp [Pool.ofSettings, noneYet]

theorem Tally.Counts.cycle {poller : Poller} {tally : Tally} (counts : tally.Counts poller.pool)
    (source : Source ε) (context : Context ε) :
    (poller.tallyAfter tally (.cycle source context)).Counts
      (poller.runCycle source context).2.1.pool where
  entries := by
    intro index entry present
    have counted := attempts_runCycle source poller context index
    rw [present, Option.map_some, eq_comm, Option.map_eq_some_iff] at counted
    obtain ⟨earlier, found, counted⟩ := counted
    change entry.attempts = _
    rw [← counted, tallyAfter, List.count_append, ← counts.entries index earlier found]
    rfl
  total := by
    have counted := successes_runCycle source poller context
    change Pool.successes _ = _
    rw [counted, tallyAfter, List.countP_append, ← counts.total]
    simp [Pool.successes]

theorem Tally.Counts.after {poller : Poller} {tally : Tally} (counts : tally.Counts poller.pool)
    (call : Call ε) : (poller.tallyAfter tally call).Counts (poller.after call).pool := by
  cases call with
  | cycle source context => exact counts.cycle source context
  | replacement servers context =>
    simp only [tallyAfter, Poller.after]
    rcases poller.replaceServers_cases servers context with ⟨_, _, refused⟩ | ⟨_, _, replaced⟩
    · rw [refused]
      exact counts
    · rw [replaced]
      exact counts_ofSettings _

theorem Tally.Counts.replay {poller : Poller} {tally : Tally} (counts : tally.Counts poller.pool)
    (calls : List (Call ε)) : (poller.tally tally calls).Counts (poller.replay calls).pool := by
  induction calls generalizing poller tally with
  | nil => exact counts
  | cons call calls induction => exact induction (counts.after call)

end Poller

/-- A cycle from its start to its end, for every source and every state of the poller, and
the counters of the pool over any calls.  In a cycle the servers that the search has found
are asked in turn, each once and with the timeout of the settings, up to the first reply
that is accepted or until there are no more.  What came of each is recorded in its entry
once; no other entry changes.  The cycle gives the outcome of the last server asked, and
publishes of every entry, in their order, what it counts then, how long it has to cool down
and the code of its last fault.  So since the pool was built, the successes and failures of
an entry are as many as the attempts at its server, and all successes together as many as
the cycles that were successful. -/
theorem cycle_from_start_to_end {ε : Type} :
    (∀ (source : Source ε) (poller : Poller) (context : Context ε),
      Poller.EndToEnd source poller context) ∧
    ∀ (settings : Settings) (state : State) (calls : List (Call ε)),
      let first : Poller := { pool := .ofSettings settings, settings, state }
      Poller.Tally.Counts (first.tally {} calls) (first.replay calls).pool :=
  ⟨Poller.endToEnd, fun settings _ calls => (Poller.counts_ofSettings settings).replay calls⟩

end Sync

end TimeSync
