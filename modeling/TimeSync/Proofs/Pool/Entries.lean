import TimeSync.Proofs.Pool.Cooldown
import TimeSync.Proofs.Pool.Ranking

/-!
# What the fields of an entry say of each other

The count of failures, the fault, the next cooldown and the present one are kept in fields
of their own.  `Entry.Consistent` says how they belong together.  Searches, successes and
failures preserve it, and it leaves no server below the threshold cooling down.
-/

namespace TimeSync.Pool

/-- The fields of an entry belong together, for a threshold and the shortest and the longest
cooldown. -/
structure Entry.Consistent (threshold : Nat) (initial most : Duration) (entry : Entry) :
    Prop where
  counted : entry.failuresInARow ≤ entry.failures
  fits : entry.failuresInARow < UInt32.size
  faultless : entry.failuresInARow = 0 ↔ entry.lastFault = none
  cooling : entry.cooldownUntil ≠ none → threshold ≤ entry.failuresInARow
  backoffWithin : initial ≤ entry.backoff ∧ entry.backoff ≤ most
  backoffInitial : entry.failuresInARow < threshold → entry.backoff = initial

namespace Entry

variable {threshold : Nat} {initial most : Duration} {entry : Entry}

theorem consistent_fresh {settings : Settings} (endpoint : Endpoint)
    (ordered : initial ≤ most) (begins : settings.cooldownInitial = initial) :
    (fresh settings endpoint).Consistent threshold initial most where
  counted := Nat.le_refl 0
  fits := Nat.zero_lt_succ _
  faultless := ⟨fun _ => rfl, fun _ => rfl⟩
  cooling := fun cools => (cools rfl).elim
  backoffWithin := by
    subst begins
    exact ⟨Nat.le_refl _, ordered⟩
  backoffInitial := fun _ => begins

theorem consistent_succeed (ordered : initial ≤ most) (now : Instant) :
    (entry.succeed initial now).Consistent threshold initial most where
  counted := Nat.zero_le _
  fits := Nat.zero_lt_succ _
  faultless := ⟨fun _ => rfl, fun _ => rfl⟩
  cooling := fun cools => (cools rfl).elim
  backoffWithin := ⟨Nat.le_refl _, ordered⟩
  backoffInitial := fun _ => rfl

theorem oneMore_bounds {count : Nat} (fits : count < UInt32.size) :
    0 < oneMore count ∧ count ≤ oneMore count ∧ oneMore count ≤ count + 1 ∧
      oneMore count < UInt32.size := by
  simp only [oneMore, UInt32.size] at fits ⊢
  omega

theorem Consistent.fail (consistent : entry.Consistent threshold initial most)
    (ordered : initial ≤ most) (fault : Ntp.Fault) (now : Instant) :
    (entry.fail threshold most fault now).Consistent threshold initial most := by
  obtain ⟨positive, least, greatest, fits⟩ := oneMore_bounds consistent.fits
  have counted := consistent.counted
  have faulty : oneMore entry.failuresInARow = 0 ↔ some fault = none := by
    constructor
    · omega
    · nofun
  unfold Entry.fail
  dsimp only
  split
  · rename_i tripped
    have within : initial ≤ entry.backoff.double.shorter most ∧
        entry.backoff.double.shorter most ≤ most := by
      have shortest := consistent.backoffWithin.1
      rw [Duration.le_def] at shortest ordered ⊢
      rw [Duration.le_def, nanos_double_shorter]
      omega
    refine ⟨?_, fits, faulty, fun _ => tripped, within, ?_⟩
    · dsimp only
      omega
    · intro below
      exact absurd tripped (Nat.not_le_of_lt below)
  · rename_i healthy
    -- A count that stays below the threshold was below it before, so nothing cools down.
    refine ⟨?_, fits, faulty, ?_, consistent.backoffWithin, ?_⟩
    · dsimp only
      omega
    · intro cools
      have before := consistent.cooling cools
      dsimp only
      omega
    · intro _
      exact consistent.backoffInitial (by omega)

theorem Consistent.not_inCooldown (consistent : entry.Consistent threshold initial most)
    (below : entry.failuresInARow < threshold) (now : Instant) :
    entry.inCooldown now = false := by
  have idle : entry.cooldownUntil = none := by
    by_contra cools
    have tripped := consistent.cooling cools
    omega
  simp only [inCooldown, idle]

end Entry

def Consistent (pool : Pool) : Prop :=
  ∀ entry ∈ pool.entries,
    entry.Consistent pool.threshold pool.cooldownInitial pool.cooldownMax

theorem consistent_ofSettings {settings : Settings} (valid : settings.fault? = none) :
    (Pool.ofSettings settings).Consistent := by
  intro entry member
  obtain ⟨endpoint, -, rfl⟩ := List.mem_map.mp member
  exact Entry.consistent_fresh endpoint (Settings.rules_of_valid valid).2 rfl

theorem Consistent.modify {pool : Pool} (consistent : pool.Consistent) (index : Nat)
    {change : Entry → Entry}
    (keeps : ∀ entry,
      entry.Consistent pool.threshold pool.cooldownInitial pool.cooldownMax →
      (change entry).Consistent pool.threshold pool.cooldownInitial pool.cooldownMax) :
    ∀ entry ∈ pool.entries.modify index change,
      entry.Consistent pool.threshold pool.cooldownInitial pool.cooldownMax := by
  intro entry member
  obtain ⟨place, found⟩ := List.mem_iff_getElem?.mp member
  rw [List.getElem?_modify] at found
  obtain ⟨earlier, present, rfl⟩ := Option.map_eq_some_iff.mp found
  have before := consistent earlier (List.mem_of_getElem? present)
  split
  · exact keeps earlier before
  · exact before

theorem Consistent.after {pool : Pool} (consistent : pool.Consistent)
    (ordered : pool.cooldownInitial ≤ pool.cooldownMax) (event : Event) :
    (pool.after event).Consistent := by
  cases event with
  | searched now =>
    obtain ⟨threshold, initial, most⟩ := sameRules_after pool (.searched now)
    unfold Consistent
    rw [threshold, initial, most, Pool.after, entries_search]
    exact consistent
  | succeeded index now =>
    exact consistent.modify index fun entry _ => Entry.consistent_succeed ordered now
  | failed index fault now =>
    exact consistent.modify index fun entry before => before.fail ordered fault now

theorem Consistent.replay {pool : Pool} (consistent : pool.Consistent)
    (ordered : pool.cooldownInitial ≤ pool.cooldownMax) (events : List Event) :
    (pool.replay events).Consistent := by
  induction events generalizing pool with
  | nil => exact consistent
  | cons event events induction =>
    obtain ⟨-, initial, most⟩ := sameRules_after pool event
    exact induction (consistent.after ordered event) (by rw [initial, most]; exact ordered)

/-- After any searches, successes and failures of the servers of a pool whose settings pass
their checks, every entry is consistent with the threshold and the cooldowns of the settings
and the cursor is on a server.  What happens to one server changes no other entry, and every
server below the threshold is found by a search at any instant. -/
theorem entries_stay_consistent {settings : Settings} (valid : settings.fault? = none)
    {events : List Event} (within : Within settings.servers.length events) :
    let pool := (Pool.ofSettings settings).replay events
    pool.size = settings.servers.length ∧ pool.cursor < settings.servers.length ∧
    (∀ entry ∈ pool.entries, entry.Consistent settings.failureThreshold.toNat
      settings.cooldownInitial settings.cooldownMax) ∧
    (∀ event index, event.asked? ≠ some index →
      (pool.after event).entries[index]? = pool.entries[index]?) ∧
    ∀ index entry, pool.entries[index]? = some entry →
      entry.failuresInARow < settings.failureThreshold.toNat →
      ∀ now, index ∈ (pool.search now).1 := by
  intro pool
  have ordered := (Settings.rules_of_valid valid).2
  have servers : (Pool.ofSettings settings).size = settings.servers.length := List.length_map ..
  have size : pool.size = settings.servers.length := (size_replay _ events).trans servers
  have some : 0 < settings.servers.length := by
    rw [List.length_pos_iff]
    intro empty
    simp [Settings.fault?, empty] at valid
  have placed : pool.cursor < (Pool.ofSettings settings).size :=
    cursor_replay_lt (servers ▸ some) (servers ▸ within)
  obtain ⟨-, initial, most⟩ := sameRules_replay (Pool.ofSettings settings) events
  have consistent : pool.Consistent := (consistent_ofSettings valid).replay ordered events
  unfold Consistent at consistent
  rw [threshold_replay valid, initial, most] at consistent
  refine ⟨size, servers ▸ placed, consistent, fun event index => entries_after_of_ne, ?_⟩
  intro index entry present below now
  have own := consistent entry (List.mem_of_getElem? present)
  exact mem_search_iff.mpr ⟨entry, present, own.not_inCooldown below now⟩

/-- The first of two servers trips the threshold twice and recovers in between; the second
fails once, and is found even so. -/
theorem entries_stay_consistent_tripped :
    let settings : Settings :=
      { servers := [{ host := "a" }, { host := "b" }]
        failureThreshold := 2, cooldownInitialMs := 1, cooldownMaxMs := 2 }
    let now : Instant := .origin
    let events : List Event :=
      [.searched now, .failed 0 .timeout now, .failed 0 .timeout now, .failed 1 .timeout now,
        .searched now, .succeeded 0 now, .failed 0 .timeout now, .failed 0 .timeout now]
    let pool := (Pool.ofSettings settings).replay events
    settings.fault? = none ∧ Within settings.servers.length events ∧
    (∃ entry, pool.entries[0]? = some entry ∧ entry.cooldownUntil ≠ none ∧
      2 ≤ entry.failuresInARow ∧ entry.backoff ≤ settings.cooldownMax) ∧
    1 ∈ (pool.search now).1 := by
  intro settings now events pool
  have valid : settings.fault? = none :=
    Option.isNone_iff_eq_none.mp (by decide +kernel)
  have within : Within settings.servers.length events := by
    simp [Within, events, settings, Event.asked?]
  obtain ⟨-, -, consistent, -, found⟩ := entries_stay_consistent valid within
  have cools : ∃ entry, pool.entries[0]? = some entry ∧ entry.cooldownUntil ≠ none := by
    refine ⟨_, rfl, ?_⟩
    decide +kernel
  obtain ⟨entry, present, cooling⟩ := cools
  have own := consistent entry (List.mem_of_getElem? present)
  refine ⟨valid, within, ⟨entry, present, cooling, own.cooling cooling, own.backoffWithin.2⟩, ?_⟩
  exact found 1 _ rfl (by decide +kernel) now

end TimeSync.Pool
