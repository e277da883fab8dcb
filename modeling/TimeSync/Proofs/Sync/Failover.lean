import TimeSync.Proofs.Sync.Asking

/-!
# Staying with the last good server

A pool that stays with the last server that answered keeps a cursor on it.  The cursor
follows a success wherever it happens, and leaves a server only when that server fails.
Failures of other servers, servers that are passed over while they cool down and servers
that are tried after they have recovered leave it alone.  So the server that a cycle has
succeeded with is the first that the next cycle asks.
-/

namespace TimeSync

namespace Pool

/-- A pool that stays with the last good server. -/
structure Sticky (pool : Pool) : Prop where
  selection : pool.selection = .failover
  threshold : 1 ≤ pool.threshold

theorem sticky_ofSettings {settings : Settings} (chosen : settings.selection = .failover) :
    (Pool.ofSettings settings).Sticky where
  selection := chosen
  threshold := Nat.le_max_right _ _

variable {pool : Pool} {index : Nat}

theorem Sticky.replay (sticky : pool.Sticky) (events : List Event) :
    (pool.replay events).Sticky where
  selection := (selection_replay pool events).trans sticky.selection
  threshold := (sameRules_replay pool events).1 ▸ sticky.threshold

/-- Whether an event takes the cursor off the server at `index`. -/
def Event.Displaces (event : Event) (index : Nat) : Prop :=
  (∃ other known, event = .succeeded other known) ∨ ∃ fault known, event = .failed index fault known

theorem Sticky.cursor_recordSuccess (sticky : pool.Sticky) (index : Nat) (known : Instant) :
    (pool.recordSuccess index known).cursor = index := if_pos sticky.selection

/-- The cursor stays where it is, follows a success, or goes on from a server that fails. -/
theorem Sticky.cursor_after_cases (sticky : pool.Sticky) (event : Event) :
    (pool.after event).cursor = pool.cursor ∨
    (∃ index known, event = .succeeded index known ∧ (pool.after event).cursor = index) ∨
    ∃ fault known, event = .failed pool.cursor fault known ∧
      (pool.after event).cursor = (pool.cursor + 1) % pool.size := by
  cases event with
  | searched now =>
    left
    simp only [Pool.after, search, advance, sticky.selection]
    split <;> rfl
  | succeeded index known => exact .inr (.inl ⟨index, known, rfl, sticky.cursor_recordSuccess _ _⟩)
  | failed index fault known =>
    simp only [Pool.after, recordFailure]
    split
    · rename_i under
      obtain ⟨-, rfl, -⟩ := under
      exact .inr (.inr ⟨fault, known, rfl, rfl⟩)
    · exact .inl rfl

theorem Sticky.cursor_after (sticky : pool.Sticky) {event : Event}
    (stays : ¬ event.Displaces pool.cursor) : (pool.after event).cursor = pool.cursor := by
  rcases sticky.cursor_after_cases event with same | ⟨index, known, succeeds, -⟩ |
    ⟨fault, known, fails, -⟩
  · exact same
  · exact (stays (.inl ⟨index, known, succeeds⟩)).elim
  · exact (stays (.inr ⟨fault, known, fails⟩)).elim

theorem Sticky.cursor_replay (sticky : pool.Sticky) {events : List Event}
    (stays : ∀ event ∈ events, ¬ event.Displaces pool.cursor) :
    (pool.replay events).cursor = pool.cursor := by
  induction events generalizing pool with
  | nil => rfl
  | cons event events induction =>
    obtain ⟨first, rest⟩ := List.forall_mem_cons.mp stays
    have same := sticky.cursor_after first
    have later : (pool.after event).Sticky := sticky.replay [event]
    rw [replay_cons, induction later (same ▸ rest), same]

/-- The cursor is on the server of the last success until that server fails. -/
theorem Sticky.cursor_replay_succeeded (sticky : pool.Sticky) (before : List Event)
    (index : Nat) (known : Instant) {after : List Event}
    (stays : ∀ event ∈ after, ¬ event.Displaces index) :
    (pool.replay (before ++ .succeeded index known :: after)).cursor = index := by
  have there : ((pool.replay before).after (.succeeded index known)).cursor = index :=
    (sticky.replay before).cursor_recordSuccess index known
  have succeeded : ((pool.replay before).after (.succeeded index known)).Sticky :=
    (sticky.replay before).replay [.succeeded index known]
  rw [replay_append, replay_cons, succeeded.cursor_replay (there.symm ▸ stays), there]

theorem circle_eq_cons (within : pool.start < pool.size) :
    ∃ rest, pool.circle = pool.start :: rest := by
  obtain ⟨others, size⟩ := Nat.exists_eq_add_one_of_ne_zero (Nat.ne_zero_of_lt within)
  refine ⟨(List.range others).map fun step => (pool.start + (step + 1)) % pool.size, ?_⟩
  rw [circle, size, List.range_succ_eq_map, List.map_cons, List.map_map, Nat.add_zero,
    Nat.mod_eq_of_lt (size ▸ within)]
  rfl

theorem candidates_eq_cons {now : Instant} (within : pool.start < pool.size)
    (able : pool.eligible now pool.start = true) (well : pool.healthy pool.start = true) :
    ∃ rest, pool.candidates now = pool.start :: rest := by
  obtain ⟨rest, circle⟩ := circle_eq_cons within
  unfold candidates
  rw [circle, List.filter_cons_of_pos able]
  dsimp only
  rw [List.filter_cons_of_pos well]
  exact ⟨_, rfl⟩

theorem Sticky.search_eq_cons (sticky : pool.Sticky) (within : index < pool.size)
    (cursor : pool.cursor = index) {entry : Entry} {initial : Duration} {known : Instant}
    (succeeded : pool.entries[index]? = some (entry.succeed initial known)) (now : Instant) :
    ∃ rest, (pool.search now).1 = index :: rest := by
  have start : pool.start = index := by
    simp only [Pool.start, sticky.selection, cursor, Nat.mod_eq_of_lt within]
  have able : pool.eligible now pool.start = true :=
    eligible_iff.mpr ⟨_, start ▸ succeeded, rfl⟩
  have well : pool.healthy pool.start = true := by
    simp only [healthy, failuresInARow, start, succeeded, Entry.succeed, decide_eq_true_eq]
    exact sticky.threshold
  obtain ⟨rest, found⟩ := candidates_eq_cons (start ▸ within) able well
  have someThere : pool.entries ≠ [] := List.ne_nil_of_length_pos (Nat.zero_lt_of_lt within)
  refine ⟨rest, ?_⟩
  rw [search, if_neg someThere, found, start]

end Pool

namespace Sync

open Ntp (Fault Sample Outcome)

namespace Poller

variable {ε : Type}

theorem sticky_replay {poller : Poller} (sticky : poller.pool.Sticky)
    (chosen : poller.settings.selection = .failover) (calls : List (Call ε)) :
    (poller.replay calls).pool.Sticky := by
  induction calls generalizing poller with
  | nil => exact sticky
  | cons call calls induction =>
    refine induction ?_ ?_
    · cases call with
      | cycle source context =>
        change (poller.runCycle source context).2.1.pool.Sticky
        rw [pool_runCycle]
        exact sticky.replay _
      | replacement servers context =>
        rcases poller.replaceServers_cases servers context with ⟨_, _, refused⟩ | ⟨_, _, replaced⟩
        · rw [after, refused]
          exact sticky
        · rw [after, replaced]
          exact Pool.sticky_ofSettings chosen
    · obtain ⟨servers, settings⟩ := poller.settings_after call
      rw [settings]
      exact chosen

theorem asks_last_first {poller : Poller} (sticky : poller.pool.Sticky) {source : Source ε}
    {context : Context ε} {attempt : Attempt}
    (last : (poller.attempts source context).1.getLast? = some attempt) {sample : Sample}
    (accepted : attempt.outcome = .ok sample) (next : Source ε) (later : Context ε) :
    ∃ first rest, ((poller.runCycle source context).2.1.attempts next later).1 = first :: rest ∧
      first.index = attempt.index ∧ first.endpoint = attempt.endpoint := by
  have cycle := endToEnd source poller context
  have made := List.mem_of_getLast? last
  obtain ⟨entry, present, answers⟩ := cycle.asks.answers attempt made
  obtain ⟨before, attempts⟩ := List.getLast?_eq_some_iff.mp last
  have event : attempt.event = .succeeded attempt.index attempt.known := by
    obtain ⟨index, endpoint, outcome, known⟩ := attempt
    cases accepted
    rfl
  have history := pool_runCycle source poller context
  have recorded := cycle.recorded attempt made
  simp only [present, Option.map_some, Attempt.record, accepted] at recorded
  generalize (poller.runCycle source context).2.1 = reached at history recorded ⊢
  rw [events, attempts, List.map_append, List.map_cons, List.map_nil, event, ← List.cons_append]
    at history
  have cursor : reached.pool.cursor = attempt.index := by
    rw [history]
    exact sticky.cursor_replay_succeeded _ _ _ (List.forall_mem_nil _)
  have still : reached.pool.Sticky := history ▸ sticky.replay _
  have within : attempt.index < reached.pool.size := (List.getElem?_eq_some_iff.mp recorded).1
  obtain ⟨rest, found⟩ := still.search_eq_cons within cursor recorded later.now
  have asks := asks_attempts next reached later
  cases asked : (reached.attempts next later).1 with
  | nil => exact (List.cons_ne_nil _ _ (found.symm.trans (asks.eq_nil_iff.mp asked))).elim
  | cons first others =>
    have inTurn := asks.inTurn
    rw [asked, found, List.map_cons, List.cons_prefix_cons] at inTurn
    obtain ⟨other, same, answered⟩ := asks.answers first (asked ▸ List.mem_cons_self)
    rw [inTurn.1, recorded] at same
    cases same
    exact ⟨first, others, rfl, inTurn.1, answered.endpoint.trans answers.endpoint.symm⟩

end Poller

/-- A poller that stays with the last good server, over any cycles since its servers were
last replaced; its pool is what its history makes of the pool before.  The server that a
cycle has succeeded with is the first that the next cycle asks, whenever that is.  Between
any two events of the history the cursor is on the server of the last success, as long as
that server has not failed since.  It moves only to a server that succeeds, or from a server
that fails to the one after it. -/
theorem failover_sticks {ε : Type} {settings : Settings}
    (chosen : settings.selection = .failover) (state : State) (calls : List (Call ε))
    {events : List Pool.Event} {poller : Poller} :
    let first : Poller :=
      ({ pool := .ofSettings settings, settings, state } : Poller).replay calls
    Poller.Cycles ε first events poller →
    poller.pool = first.pool.replay events ∧
    (∀ (source : Source ε) (context : Context ε) (attempt : Attempt) (sample : Sample),
      (poller.attempts source context).1.getLast? = some attempt →
      attempt.outcome = .ok sample →
      ∀ (next : Source ε) (later : Context ε), ∃ asked rest,
        ((poller.runCycle source context).2.1.attempts next later).1 = asked :: rest ∧
        asked.index = attempt.index ∧ asked.endpoint = attempt.endpoint) ∧
    (∀ before index known after rest,
      events = before ++ .succeeded index known :: after ++ rest →
      (∀ event ∈ after, ∀ other time, event ≠ .succeeded other time) →
      (∀ event ∈ after, ∀ fault time, event ≠ .failed index fault time) →
      (first.pool.replay (before ++ .succeeded index known :: after)).cursor = index) ∧
    ∀ before event after, events = before ++ event :: after →
      let pool := first.pool.replay before
      (pool.after event).cursor = pool.cursor ∨
      (∃ index known, event = .succeeded index known ∧ (pool.after event).cursor = index) ∨
      ∃ fault known, event = .failed pool.cursor fault known ∧
        (pool.after event).cursor = (pool.cursor + 1) % pool.size := by
  intro first cycles
  have sticky : first.pool.Sticky :=
    Poller.sticky_replay (Pool.sticky_ofSettings chosen) chosen calls
  refine ⟨cycles.pool_eq, ?_, ?_, ?_⟩
  · intro source context attempt sample last accepted next later
    have reached : poller.pool.Sticky := cycles.pool_eq ▸ sticky.replay events
    exact Poller.asks_last_first reached last accepted next later
  · intro before index known after rest _ noneSucceeded notFailed
    refine sticky.cursor_replay_succeeded before index known fun event member => ?_
    rintro (⟨other, time, same⟩ | ⟨fault, time, same⟩)
    · exact noneSucceeded event member other time same
    · exact notFailed event member fault time same
  · intro before event after _
    exact (sticky.replay before).cursor_after_cases event

/-- The first of three servers never answers, the second one always does.  The first cycle
asks both and leaves the cursor on the second, and the next cycle asks that one first. -/
theorem failover_sticks_second :
    let settings : Settings := { servers := [{ host := "a" }, { host := "b" }, { host := "c" }] }
    let sample : Sample := ⟨0, 0, 1, 0⟩
    let source : Source Unit := fun endpoint _ context =>
      (if endpoint.host = "a" then .error .timeout else .ok sample, context)
    let first : Instant := ⟨0, by decide, by decide⟩
    let second : Instant := ⟨1000000000, by decide, by decide⟩
    let clock (now : Instant) : Context Unit :=
      { now, wall := 0, cpu := {}, log := #[], env := () }
    let events : List Pool.Event :=
      [.searched first, .failed 0 .timeout first, .succeeded 1 first]
    let start : Poller := .ofSettings settings
    let reached := (start.runCycle source (clock first)).2.1
    settings.selection = .failover ∧ Poller.Cycles Unit start events reached ∧
    reached.pool.cursor = 1 ∧
    ∃ asked rest, (reached.attempts source (clock second)).1 = asked :: rest ∧
      asked.index = 1 := by
  intro settings sample source first second clock events start reached
  have idle : Poller.Cycles Unit start [] start := .none
  have history : [] ++ start.events source (clock first) = events := by decide +kernel
  have cycles : Poller.Cycles Unit start events reached :=
    history ▸ idle.next source (clock first)
  have made : (start.attempts source (clock first)).1.map
      (fun attempt => (attempt.index, attempt.outcome.toOption)) =
        [(0, none), (1, some sample)] := by
    decide +kernel
  obtain ⟨⟨index, endpoint, outcome, known⟩, last, answered⟩ : ∃ attempt,
      (start.attempts source (clock first)).1.getLast? = some attempt ∧
        (attempt.index, attempt.outcome.toOption) = (1, some sample) := by
    have final := congrArg List.getLast? made
    rw [List.getLast?_map] at final
    exact Option.map_eq_some_iff.mp final
  obtain ⟨rfl, given⟩ := Prod.mk.inj answered
  have accepted : outcome = .ok sample := by
    cases outcome with
    | error fault => cases given
    | ok other => exact congrArg Except.ok (Option.some.inj given)
  obtain ⟨-, next, -⟩ := failover_sticks rfl {} [] idle
  obtain ⟨pool, -, cursor, -⟩ := failover_sticks rfl {} [] cycles
  obtain ⟨asked, rest, asks, same, -⟩ :=
    next source (clock first) _ sample last accepted source (clock second)
  have there := cursor [.searched first, .failed 0 .timeout first] 1 first [] [] rfl
    (fun _ noneAfter => nomatch noneAfter) (fun _ noneAfter => nomatch noneAfter)
  exact ⟨rfl, cycles, (congrArg Pool.cursor pool).trans there, asked, rest, asks, same⟩

end Sync

end TimeSync
