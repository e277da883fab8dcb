import Mathlib
import TimeSync.Proofs.Pool.History

/-!
# Cooling down

A failure that leaves a server at or above the threshold sends it into a cooldown.
The first one since its last success lasts as long as the settings say, and each
further one twice as long as the one before, up to a limit.  Until the cooldown is
over no search finds the server, so that no cycle which starts earlier asks it; the
first search after it finds the server again.
-/

namespace TimeSync

theorem Settings.rules_of_valid {settings : Settings} (valid : settings.fault? = none) :
    1 ≤ settings.failureThreshold.toNat ∧
      settings.cooldownInitial.nanos ≤ settings.cooldownMax.nanos := by
  unfold fault? at valid
  cases found : settings.servers.find? fun endpoint => ¬ usable endpoint with
  | some endpoint =>
    simp only [found] at valid
    split_ifs at valid
  | none =>
    simp only [found] at valid
    split_ifs at valid with empty poll query threshold range
    constructor
    · have nonzero : settings.failureThreshold.toNat ≠ 0 := by
        intro zero
        exact threshold (UInt32.toNat_inj.mp zero)
      omega
    · rw [UInt64.lt_iff_toNat_lt] at range
      simp only [cooldownInitial, cooldownMax, Duration.ofMillis]
      omega

namespace Pool

/-- The count after one event of the failures of the server at `index` that left it at or
above the threshold.  A success of that server begins the count anew. -/
def tally (pool : Pool) (index count : Nat) : Event → Nat
  | .searched _ => count
  | .succeeded asked _ => if asked = index then 0 else count
  | .failed asked fault now =>
    if asked = index ∧
        pool.threshold ≤ (pool.recordFailure asked fault now).failuresInARow index then
      count + 1
    else
      count

/-- How often since its last success the server at `index` has failed and been left at or
above the threshold, for a pool with such a count to begin with and what it went
through since. -/
def trips : Pool → Nat → Nat → List Event → Nat
  | _, _, count, [] => count
  | pool, index, count, event :: events =>
    trips (pool.after event) index (pool.tally index count event) events

theorem trips_append (pool : Pool) (index count : Nat) (first second : List Event) :
    pool.trips index count (first ++ second) =
      (pool.replay first).trips index (pool.trips index count first) second := by
  induction first generalizing pool count with
  | nil => rfl
  | cons event first induction => exact induction (pool.after event) _

theorem failuresInARow_recordFailure {pool : Pool} {index : Nat} {entry : Entry}
    (present : pool.entries[index]? = some entry) (fault : Ntp.Fault) (now : Instant) :
    (pool.recordFailure index fault now).failuresInARow index =
      Entry.oneMore entry.failuresInARow := by
  have failed := entries_recordFailure pool index fault now
  rw [present, Option.map_some] at failed
  simp only [failuresInARow, failed, Entry.fail]
  split <;> rfl

/-- The next cooldown is the initial one doubled `count` times, up to the limit. -/
def Backed (pool : Pool) (index count : Nat) : Prop :=
  ∀ entry, pool.entries[index]? = some entry →
    entry.backoff.nanos =
      min (pool.cooldownInitial.nanos * 2 ^ count) pool.cooldownMax.nanos

theorem nanos_double_shorter (backoff most : Duration) :
    (backoff.double.shorter most).nanos = min (backoff.nanos * 2) most.nanos := by
  have bound := most.inRange
  simp only [Duration.nanos_shorter, Duration.double, Duration.clamp]
  omega

theorem backed_ofSettings {settings : Settings} (valid : settings.fault? = none)
    (index : Nat) : (Pool.ofSettings settings).Backed index 0 := by
  have ordered := (Settings.rules_of_valid valid).2
  intro entry present
  simp only [ofSettings, List.getElem?_map, Option.map_eq_some_iff] at present
  obtain ⟨endpoint, -, rfl⟩ := present
  simp only [Entry.fresh, ofSettings, pow_zero, mul_one]
  omega

theorem Backed.after {pool : Pool} {index count : Nat} (backed : pool.Backed index count)
    (ordered : pool.cooldownInitial.nanos ≤ pool.cooldownMax.nanos) (event : Event) :
    (pool.after event).Backed index (pool.tally index count event) := by
  obtain ⟨-, initial, most⟩ := sameRules_after pool event
  intro entry present
  rw [initial, most]
  by_cases elsewhere : event.asked? = some index
  case neg =>
    rw [entries_after_of_ne elsewhere] at present
    have same : pool.tally index count event = count := by
      cases event with
      | searched now => rfl
      | succeeded asked now =>
        exact if_neg fun same => elsewhere (congrArg some same)
      | failed asked fault now =>
        exact if_neg fun same => elsewhere (congrArg some same.1)
    rw [same]
    exact backed entry present
  cases event with
  | searched now => cases elsewhere
  | succeeded asked now =>
    obtain rfl : asked = index := Option.some.inj elsewhere
    simp only [Pool.after, entries_recordSuccess, Option.map_eq_some_iff] at present
    obtain ⟨earlier, -, rfl⟩ := present
    simp only [tally, Entry.succeed, if_true, pow_zero, mul_one]
    omega
  | failed asked fault now =>
    obtain rfl : asked = index := Option.some.inj elsewhere
    simp only [Pool.after, entries_recordFailure, Option.map_eq_some_iff] at present
    obtain ⟨earlier, found, rfl⟩ := present
    have before := backed earlier found
    simp only [tally, failuresInARow_recordFailure found, true_and, Entry.fail]
    split
    · simp only [nanos_double_shorter, pow_succ, ← mul_assoc]
      omega
    · exact before

theorem Backed.replay {pool : Pool} {index count : Nat} (backed : pool.Backed index count)
    (ordered : pool.cooldownInitial.nanos ≤ pool.cooldownMax.nanos) (events : List Event) :
    (pool.replay events).Backed index (pool.trips index count events) := by
  induction events generalizing pool count with
  | nil => exact backed
  | cons event events induction =>
    obtain ⟨-, initial, most⟩ := sameRules_after pool event
    exact induction (backed.after ordered event) (by rw [initial, most]; exact ordered)

theorem cooling_recordFailure {pool : Pool} {index count : Nat} {fault : Ntp.Fault}
    {now ready : Instant} (backed : pool.Backed index count) (positive : 1 ≤ pool.threshold)
    (tripped : pool.threshold ≤ (pool.recordFailure index fault now).failuresInARow index)
    (lasts : ready.nanos = now.nanos +
      min (pool.cooldownInitial.nanos * 2 ^ count) pool.cooldownMax.nanos) :
    ∃ entry, (pool.recordFailure index fault now).entries[index]? = some entry ∧
      entry.cooldownUntil = some ready := by
  have failed := entries_recordFailure pool index fault now
  cases present : pool.entries[index]? with
  | none =>
    simp only [present, Option.map_none] at failed
    simp only [failuresInARow, failed] at tripped
    omega
  | some entry =>
    refine ⟨_, by rw [failed, present]; rfl, ?_⟩
    rw [failuresInARow_recordFailure present] at tripped
    simp only [Entry.fail, if_pos tripped]
    rw [Instant.add?_eq_some_iff, backed entry present, lasts]

theorem inCooldown_eq_false_iff {entry : Entry} {ready now : Instant}
    (cooling : entry.cooldownUntil = some ready) :
    entry.inCooldown now = false ↔ ready ≤ now := by
  simp only [Entry.inCooldown, cooling, decide_eq_false_iff_not, Instant.le_def,
    Instant.lt_def, not_lt]

section Cooling

variable {left : List Nat} {pool : Pool} {index : Nat} {entry : Entry} {ready : Instant}

theorem mem_search_iff_of_cooling (present : pool.entries[index]? = some entry)
    (cooling : entry.cooldownUntil = some ready) {now : Instant} :
    index ∈ (pool.search now).1 ↔ ready ≤ now := by
  rw [mem_search_iff, ← inCooldown_eq_false_iff cooling]
  constructor
  · rintro ⟨other, found, ended⟩
    rw [present] at found
    cases found
    exact ended
  · intro ended
    exact ⟨entry, present, ended⟩

/-- A server that cools down is asked next in a cycle that begins when it is ready, unless it
was still left of the search before. -/
theorem Orderly.ready_of_asked {middle later : List Event} {event : Event}
    (orderly : Orderly left pool (middle ++ event :: later))
    (present : pool.entries[index]? = some entry)
    (cooling : entry.cooldownUntil = some ready) (asked : event.asked? = some index)
    (untouched : ∀ other ∈ middle, other.asked? ≠ some index) :
    (index ∈ left ∧ starts middle = []) ∨
      ∃ start, (starts middle).getLast? = some start ∧ ready ≤ start := by
  induction middle generalizing left pool with
  | nil =>
    cases orderly with
    | search rest => cases asked
    | ask was rest =>
      cases was.symm.trans asked
      exact .inl ⟨by simp, rfl⟩
  | cons first middle induction =>
    rw [List.forall_mem_cons] at untouched
    have same : (pool.after first).entries[index]? = some entry := by
      rw [entries_after_of_ne untouched.1, present]
    cases orderly with
    | @search _ _ now _ rest =>
      rcases induction rest same untouched.2 with ⟨found, noneLater⟩ | ⟨start, last, ended⟩
      · refine .inr ⟨now, ?_, (mem_search_iff_of_cooling present cooling).mp found⟩
        rw [starts_searched, noneLater]
        rfl
      · refine .inr ⟨start, ?_, ended⟩
        rw [starts_searched, List.getLast?_cons, last]
        rfl
    | ask was rest =>
      rw [starts_of_asked was]
      rcases induction rest same untouched.2 with ⟨found, noneLater⟩ | later
      · exact .inl ⟨by simp [found], noneLater⟩
      · exact .inr later

/-- A server that cools down and is not left of the last search is not asked in any
cycle that begins before it is ready. -/
theorem Orderly.not_asked {middle later : List Event}
    (orderly : Orderly left pool (middle ++ later))
    (present : pool.entries[index]? = some entry)
    (cooling : entry.cooldownUntil = some ready) (spent : index ∉ left)
    (early : ∀ start ∈ starts middle, start < ready) :
    ∀ event ∈ middle, event.asked? ≠ some index := by
  induction middle generalizing left pool with
  | nil => simp
  | cons first middle induction =>
    rw [List.forall_mem_cons]
    cases orderly with
    | @search _ _ now _ rest =>
      rw [starts_searched, List.forall_mem_cons] at early
      have elsewhere : (Event.searched now).asked? ≠ some index := nofun
      have hidden : index ∉ (pool.search now).1 := by
        rw [mem_search_iff_of_cooling present cooling, Instant.le_def, not_le]
        exact early.1
      exact ⟨elsewhere, induction rest ((entries_after_of_ne elsewhere).trans present)
        hidden early.2⟩
    | @ask skipped later other _ _ _ was rest =>
      rw [starts_of_asked was] at early
      have elsewhere : first.asked? ≠ some index := by
        rintro asked
        cases was.symm.trans asked
        exact spent (by simp)
      exact ⟨elsewhere, induction rest ((entries_after_of_ne elsewhere).trans present)
        (fun left => spent (by simp [left])) early⟩

end Cooling

open Sync (Poller)

theorem threshold_replay {settings : Settings} (valid : settings.fault? = none)
    (events : List Event) :
    ((Pool.ofSettings settings).replay events).threshold =
      settings.failureThreshold.toNat := by
  rw [(sameRules_replay _ events).1]
  exact max_eq_left (Settings.rules_of_valid valid).1

theorem trips_tripped {pool : Pool} {index count : Nat} {fault : Ntp.Fault} {now : Instant}
    (tripped : pool.threshold ≤ (pool.recordFailure index fault now).failuresInARow index) :
    pool.trips index count [.failed index fault now] = count + 1 :=
  if_pos ⟨rfl, tripped⟩

theorem trips_succeeded (pool : Pool) (index count : Nat) (events : List Event)
    (known : Instant) : pool.trips index count (events ++ [.succeeded index known]) = 0 := by
  rw [trips_append]
  exact if_pos rfl

/-- Over any cycles of a poller whose settings pass their checks: let a server's failure
at `now` be the `j`-th since its last success that leaves it at or above the threshold,
and let it be `ready` after the initial cooldown, doubled `j - 1` times, up to the limit.
Then it is asked next in a cycle that begins when it is ready, the first such cycle has it
among the candidates, and the first cooldown after a success is the initial one. -/
theorem cooldown_respected {ε : Type} {settings : Settings} {poller : Poller}
    {before after : List Event} {index j : Nat} {fault : Ntp.Fault} {now ready : Instant}
    (valid : settings.fault? = none)
    (cycles : Poller.Cycles ε (.ofSettings settings)
      (before ++ Event.failed index fault now :: after) poller)
    (tripped : settings.failureThreshold.toNat ≤
      ((Pool.ofSettings settings).replay (before ++ [Event.failed index fault now])).failuresInARow
        index)
    (counted : (Pool.ofSettings settings).trips index 0
      (before ++ [Event.failed index fault now]) = j)
    (lasts : ready.nanos = now.nanos +
      min (settings.cooldownInitial.nanos * 2 ^ (j - 1)) settings.cooldownMax.nanos) :
    (∀ (middle : List Event) (event : Event) (later : List Event),
      after = middle ++ event :: later → event.asked? = some index →
      (∀ other ∈ middle, other.asked? ≠ some index) →
      ∃ start, (starts middle).getLast? = some start ∧ ready ≤ start) ∧
    (∀ (middle : List Event) (start : Instant) (later : List Event),
      after = middle ++ .searched start :: later →
      (∀ earlier ∈ starts middle, earlier < ready) → ready ≤ start →
      index ∈ (((Pool.ofSettings settings).replay
        (before ++ Event.failed index fault now :: middle)).search start).1) ∧
    ∀ (earlier : List Event) (known : Instant) (later : List Event),
      before = earlier ++ Event.succeeded index known :: later →
      ((Pool.ofSettings settings).replay (earlier ++ [Event.succeeded index known])).trips
        index 0 later = 0 →
      ready.nanos = now.nanos + settings.cooldownInitial.nanos := by
  obtain ⟨positive, ordered⟩ := Settings.rules_of_valid valid
  have threshold := threshold_replay valid before
  obtain ⟨-, initial, most⟩ := sameRules_replay (Pool.ofSettings settings) before
  rw [replay_append] at tripped
  rw [trips_append, trips_tripped (threshold.trans_le tripped)] at counted
  subst counted
  have backed := (backed_ofSettings valid index).replay ordered before
  obtain ⟨entry, present, cooling⟩ :=
    cooling_recordFailure backed (by omega) (threshold.trans_le tripped)
      (by rw [initial, most]; exact lasts)
  have orderly : Orderly [] (Pool.ofSettings settings)
    (before ++ .failed index fault now :: after) := cycles.orderly
  obtain ⟨left, rest, spent⟩ := orderly.split List.nodup_nil rfl
  rw [replay_append] at rest
  refine ⟨?_, ?_, ?_⟩
  · rintro middle event later rfl asked untouched
    rcases rest.ready_of_asked present cooling asked untouched with ⟨found, -⟩ | found
    · exact (spent found).elim
    · exact found
  · rintro middle start later rfl early late
    have untouched := rest.not_asked present cooling spent early
    rw [replay_append, replay_cons]
    exact (mem_search_iff_of_cooling ((entries_replay_of_ne untouched).trans present)
      cooling).mpr late
  · rintro earlier known later rfl quiet
    have anew : (Pool.ofSettings settings).trips index 0
        (earlier ++ .succeeded index known :: later) = 0 := by
      rw [List.append_cons, trips_append, trips_succeeded]
      exact quiet
    rw [anew] at lasts
    simp only [zero_add, Nat.sub_self, pow_zero, mul_one] at lasts
    omega

/-- The only server never answers, and cycles begin at 0, 1, 2 and 3 milliseconds.  Its second
failure, at 1, keeps it away from the cycle at 2, and the cycle at 3 asks it again. -/
theorem cooldown_respected_twice :
    let settings : Settings :=
      { servers := [{ host := "a" }]
        failureThreshold := 1, cooldownInitialMs := 1, cooldownMaxMs := 10 }
    let first : Instant := ⟨0, by decide, by decide⟩
    let second : Instant := ⟨1000000, by decide, by decide⟩
    let third : Instant := ⟨2000000, by decide, by decide⟩
    let fourth : Instant := ⟨3000000, by decide, by decide⟩
    let before : List Event :=
      [.searched first, .failed 0 .timeout first, .searched second]
    let after : List Event :=
      [.searched third, .searched fourth, .failed 0 .timeout fourth]
    settings.fault? = none ∧
    (∃ poller, Poller.Cycles Unit (.ofSettings settings)
      (before ++ .failed 0 .timeout second :: after) poller) ∧
    (Pool.ofSettings settings).trips 0 0 (before ++ [.failed 0 .timeout second]) = 2 ∧
    0 ∈ (((Pool.ofSettings settings).replay
      (before ++ .failed 0 .timeout second :: [.searched third])).search fourth).1 := by
  intro settings first second third fourth before after
  have valid : settings.fault? = none :=
    Option.isNone_iff_eq_none.mp (by decide +kernel)
  let silent : Sync.Source Unit := fun _ _ context => (.error .timeout, context)
  let clock (now : Instant) : Context Unit :=
    { now, wall := 0, cpu := {}, log := #[], env := () }
  let start : Poller := .ofSettings settings
  have idle : Poller.Cycles Unit start [] start := .none
  have cycles := (((idle.next silent (clock first)).next silent (clock second)).next silent
    (clock third)).next silent (clock fourth)
  generalize history : ((([] ++ _) ++ _) ++ _) ++ _ = events at cycles
  have eventsEq : events = before ++ .failed 0 .timeout second :: after := by
    rw [← history]
    decide +kernel
  rw [eventsEq] at cycles
  have counted : (Pool.ofSettings settings).trips 0 0
      (before ++ [.failed 0 .timeout second]) = 2 := by
    decide +kernel
  have lasts : fourth.nanos = second.nanos +
      min (settings.cooldownInitial.nanos * 2 ^ (2 - 1)) settings.cooldownMax.nanos := by
    decide +kernel
  obtain ⟨-, found, -⟩ :=
    cooldown_respected valid cycles (by decide +kernel) counted lasts
  exact ⟨valid, ⟨_, cycles⟩, counted,
    found [.searched third] fourth _ rfl (by decide) (by decide)⟩

end Pool

end TimeSync
