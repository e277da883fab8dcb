import Mathlib
import TimeSync.Sync.Cycle
import TimeSync.Proofs.Pool.Candidates

/-!
# What a pool goes through

The history of a pool is a list of events: a search for candidates, a success or a
failure of a server.  The history of a cycle is read off its attempts, and
replaying it gives the pool that the cycle leaves.  It is orderly: a server is
asked only if the last search found it, and at most once until the next.
-/

namespace TimeSync

namespace Pool

inductive Event where
  | searched (now : Instant)
  | succeeded (index : Nat) (now : Instant)
  | failed (index : Nat) (fault : Ntp.Fault) (now : Instant)
deriving DecidableEq

def Event.asked? : Event → Option Nat
  | .searched _ => none
  | .succeeded index _ => some index
  | .failed index _ _ => some index

def Event.started? : Event → Option Instant
  | .searched now => some now
  | .succeeded _ _ => none
  | .failed _ _ _ => none

def starts (events : List Event) : List Instant := events.filterMap Event.started?

@[simp] theorem starts_searched (now : Instant) (events : List Event) :
    starts (.searched now :: events) = now :: starts events := rfl

theorem starts_of_asked {event : Event} {index : Nat} (asked : event.asked? = some index)
    (events : List Event) : starts (event :: events) = starts events := by
  cases event with
  | searched now => cases asked
  | succeeded asked now => rfl
  | failed asked fault now => rfl

def after (pool : Pool) : Event → Pool
  | .searched now => (pool.search now).2
  | .succeeded index now => pool.recordSuccess index now
  | .failed index fault now => pool.recordFailure index fault now

def replay (pool : Pool) (events : List Event) : Pool := events.foldl after pool

@[simp] theorem replay_nil (pool : Pool) : pool.replay [] = pool := rfl

@[simp] theorem replay_cons (pool : Pool) (event : Event) (events : List Event) :
    pool.replay (event :: events) = (pool.after event).replay events := rfl

@[simp] theorem replay_append (pool : Pool) (first second : List Event) :
    pool.replay (first ++ second) = (pool.replay first).replay second :=
  List.foldl_append

theorem entries_after_of_ne {pool : Pool} {event : Event} {index : Nat}
    (elsewhere : event.asked? ≠ some index) :
    (pool.after event).entries[index]? = pool.entries[index]? := by
  cases event with
  | searched now => simp [after]
  | succeeded asked now =>
    have different : asked ≠ index := fun same => elsewhere (congrArg some same)
    simp [after, recordSuccess, different]
  | failed asked fault now =>
    have different : asked ≠ index := fun same => elsewhere (congrArg some same)
    simp [after, recordFailure, different]

theorem entries_replay_of_ne {pool : Pool} {events : List Event} {index : Nat}
    (elsewhere : ∀ event ∈ events, event.asked? ≠ some index) :
    (pool.replay events).entries[index]? = pool.entries[index]? := by
  induction events generalizing pool with
  | nil => rfl
  | cons event events induction =>
    rw [List.forall_mem_cons] at elsewhere
    rw [replay_cons, induction elsewhere.2, entries_after_of_ne elsewhere.1]

@[simp] theorem size_after (pool : Pool) (event : Event) : (pool.after event).size = pool.size := by
  cases event with
  | searched now => simp [after, size]
  | succeeded index now => simp [after, recordSuccess, size]
  | failed index fault now => simp [after, recordFailure, size]

@[simp] theorem size_replay (pool : Pool) (events : List Event) :
    (pool.replay events).size = pool.size := by
  induction events generalizing pool with
  | nil => rfl
  | cons event events induction => rw [replay_cons, induction, size_after]

@[simp] theorem selection_after (pool : Pool) (event : Event) :
    (pool.after event).selection = pool.selection := by
  cases event with
  | searched now =>
    simp only [after, search, advance]
    split
    · rfl
    · split <;> rfl
  | succeeded index now => rfl
  | failed index fault now => rfl

@[simp] theorem selection_replay (pool : Pool) (events : List Event) :
    (pool.replay events).selection = pool.selection := by
  induction events generalizing pool with
  | nil => rfl
  | cons event events induction => rw [replay_cons, induction, selection_after]

theorem entries_recordSuccess (pool : Pool) (index : Nat) (now : Instant) :
    (pool.recordSuccess index now).entries[index]? =
      pool.entries[index]?.map (Entry.succeed pool.cooldownInitial now) := by
  simp [recordSuccess]

theorem entries_recordFailure (pool : Pool) (index : Nat) (fault : Ntp.Fault)
    (now : Instant) :
    (pool.recordFailure index fault now).entries[index]? =
      pool.entries[index]?.map (Entry.fail pool.threshold pool.cooldownMax fault now) := by
  simp [recordFailure]

/-- Two pools with the same rules for cooling down. -/
def SameRules (first second : Pool) : Prop :=
  second.threshold = first.threshold ∧ second.cooldownInitial = first.cooldownInitial ∧
    second.cooldownMax = first.cooldownMax

theorem sameRules_after (pool : Pool) (event : Event) : SameRules pool (pool.after event) := by
  cases event with
  | searched now =>
    simp only [after, search, advance]
    split
    · exact ⟨rfl, rfl, rfl⟩
    · dsimp only
      split <;> exact ⟨rfl, rfl, rfl⟩
  | succeeded index now => exact ⟨rfl, rfl, rfl⟩
  | failed index fault now => exact ⟨rfl, rfl, rfl⟩

theorem sameRules_replay (pool : Pool) (events : List Event) :
    SameRules pool (pool.replay events) := by
  induction events generalizing pool with
  | nil => exact ⟨rfl, rfl, rfl⟩
  | cons event events induction =>
    have first := sameRules_after pool event
    have rest := induction (pool.after event)
    exact ⟨rest.1.trans first.1, rest.2.1.trans first.2.1, rest.2.2.trans first.2.2⟩

/-- A history in which the servers asked are, in order, among those that are left of
the last search. -/
inductive Orderly : List Nat → Pool → List Event → Prop where
  | done {left : List Nat} {pool : Pool} : Orderly left pool []
  | search {left : List Nat} {pool : Pool} {now : Instant} {events : List Event}
      (rest : Orderly (pool.search now).1 (pool.after (.searched now)) events) :
      Orderly left pool (.searched now :: events)
  | ask {skipped later : List Nat} {index : Nat} {pool : Pool} {event : Event}
      {events : List Event} (asked : event.asked? = some index)
      (rest : Orderly later (pool.after event) events) :
      Orderly (skipped ++ index :: later) pool (event :: events)

namespace Orderly

variable {left : List Nat} {pool : Pool}

theorem of_nil {events : List Event} (orderly : Orderly [] pool events) :
    Orderly left pool events := by
  generalize noneLeft : ([] : List Nat) = before at orderly
  cases orderly with
  | done => exact .done
  | search rest => exact .search rest
  | ask asked rest => simp at noneLeft

theorem skip {events : List Event} {index : Nat} (orderly : Orderly left pool events) :
    Orderly (index :: left) pool events := by
  cases orderly with
  | done => exact .done
  | search rest => exact .search rest
  | @ask skipped later asked pool event events was rest =>
    exact show Orderly ((index :: skipped) ++ asked :: later) pool _ from .ask was rest

theorem split {before after : List Event} {event : Event} {index : Nat}
    (orderly : Orderly left pool (before ++ event :: after)) (distinct : left.Nodup)
    (asked : event.asked? = some index) :
    ∃ later, Orderly later (pool.replay (before ++ [event])) after ∧ index ∉ later := by
  induction before generalizing left pool with
  | nil =>
    cases orderly with
    | search rest => cases asked
    | @ask skipped later other _ _ _ was rest =>
      obtain rfl : other = index := Option.some.inj (was.symm.trans asked)
      have once := (List.nodup_cons.mp (List.nodup_append.mp distinct).2.1).1
      exact ⟨later, rest, once⟩
  | cons first before induction =>
    cases orderly with
    | search rest => exact induction rest (nodup_search pool _)
    | ask was rest =>
      exact induction rest (List.nodup_cons.mp (List.nodup_append.mp distinct).2.1).2

theorem append {first second : List Event} (orderly : Orderly left pool first)
    (next : Orderly [] (pool.replay first) second) : Orderly left pool (first ++ second) := by
  induction orderly with
  | done => exact next.of_nil
  | search rest induction => exact .search (induction next)
  | ask asked rest induction => exact .ask asked (induction next)

end Orderly

end Pool

namespace Sync

open Ntp (Fault Sample Outcome)

def Attempt.event : Attempt → Pool.Event
  | ⟨index, _, .ok _, known⟩ => .succeeded index known
  | ⟨index, _, .error fault, known⟩ => .failed index fault known

namespace Trial

variable {ε : Type} (source : Source ε) (timeout : Duration)

theorem asked?_event (attempt : Attempt) : attempt.event.asked? = some attempt.index := by
  obtain ⟨index, endpoint, outcome, known⟩ := attempt
  cases outcome <;> rfl

theorem index_ask (index : Nat) (entry : Pool.Entry) (trial : Trial ε) :
    (trial.ask source timeout index entry).1.index = index := rfl

theorem pool_ask (index : Nat) (entry : Pool.Entry) (trial : Trial ε) :
    (trial.ask source timeout index entry).2.pool =
      trial.pool.after (trial.ask source timeout index entry).1.event := by
  unfold ask
  dsimp only
  split <;> rename_i outcome <;> simp only [outcome] <;> rfl

/-- Asking in turn is orderly, and the pool it leaves is that of its history. -/
theorem askInTurn_history (left : List Nat) (trial : Trial ε) :
    Pool.Orderly left trial.pool
        ((askInTurn source timeout left trial).1.map Attempt.event) ∧
      (askInTurn source timeout left trial).2.pool =
        trial.pool.replay ((askInTurn source timeout left trial).1.map Attempt.event) := by
  induction left generalizing trial with
  | nil => exact ⟨.done, rfl⟩
  | cons index left induction =>
    cases present : trial.pool.entries[index]? with
    | none =>
      simp only [askInTurn, present]
      exact ⟨(induction trial).1.skip, (induction trial).2⟩
    | some entry =>
      have asked := asked?_event (trial.ask source timeout index entry).1
      rw [index_ask] at asked
      have pool := pool_ask source timeout index entry trial
      have rest := induction (trial.ask source timeout index entry).2
      rw [pool] at rest
      simp only [askInTurn, present]
      rw [show index :: left = [] ++ index :: left from rfl]
      split
      · exact ⟨.ask asked .done, pool⟩
      · exact ⟨.ask asked rest.1, rest.2⟩

end Trial

namespace Poller

variable {ε : Type}

/-- What the pool goes through in a cycle. -/
def events (source : Source ε) (poller : Poller) (context : Context ε) : List Pool.Event :=
  .searched context.now :: (poller.attempts source context).1.map Attempt.event

theorem attempts_history (source : Source ε) (poller : Poller) (context : Context ε) :
    Pool.Orderly (poller.pool.search context.now).1
        (poller.pool.after (.searched context.now))
        ((poller.attempts source context).1.map Attempt.event) ∧
      (poller.attempts source context).2.pool =
        poller.pool.replay (poller.events source context) := by
  unfold events attempts
  cases found : poller.pool.search context.now with
  | mk candidates pool =>
    have searched : poller.pool.after (.searched context.now) = pool := by
      simp only [Pool.after, found]
    rw [Pool.replay_cons, searched]
    exact Trial.askInTurn_history source _ candidates ⟨pool, _⟩

theorem orderly_events (source : Source ε) (poller : Poller) (context : Context ε) :
    Pool.Orderly [] poller.pool (poller.events source context) :=
  .search (attempts_history source poller context).1

theorem pool_runCycle (source : Source ε) (poller : Poller) (context : Context ε) :
    (poller.runCycle source context).2.1.pool =
      poller.pool.replay (poller.events source context) :=
  (attempts_history source poller context).2

/-- Cycles one after another, each with a source and surroundings of its own, and what
the pool goes through in them.  The servers are never replaced. -/
inductive Cycles (ε : Type) (first : Poller) : List Pool.Event → Poller → Prop where
  | none : Cycles ε first [] first
  | next {events : List Pool.Event} {poller : Poller} (earlier : Cycles ε first events poller)
      (source : Source ε) (context : Context ε) :
      Cycles ε first (events ++ poller.events source context)
        (poller.runCycle source context).2.1

namespace Cycles

variable {first poller : Poller} {events : List Pool.Event}

theorem pool_eq (cycles : Cycles ε first events poller) :
    poller.pool = first.pool.replay events := by
  induction cycles with
  | none => rfl
  | next earlier source context induction =>
    rw [pool_runCycle, induction, Pool.replay_append]

theorem orderly (cycles : Cycles ε first events poller) :
    Pool.Orderly [] first.pool events := by
  induction cycles with
  | none => exact .done
  | @next events poller earlier source context induction =>
    refine induction.append ?_
    rw [← earlier.pool_eq]
    exact orderly_events source poller context

end Cycles

end Poller

end Sync

end TimeSync
