import TimeSync.Proofs.Sync.Asking

/-!
# When servers recover

A search leaves out the servers whose cooldown is not over; the next recovery is the
earliest end of a cooldown that still lies ahead.  So it is the instant at which the
candidates change next: they stay the same until then, and then there are more of them.
Without one every server is a candidate, now and later.
-/

namespace TimeSync

namespace Instant

theorem earlier_le_left (first second : Instant) : first.earlier second ≤ first := by
  unfold earlier
  split
  · exact Int.le_refl _
  · rename_i after
    exact Int.le_of_lt (Int.not_le.mp after)

theorem earlier_le_right (first second : Instant) : first.earlier second ≤ second := by
  unfold earlier
  split
  · assumption
  · exact Int.le_refl _

theorem earlier_mem_pair (first second : Instant) : first.earlier second ∈ [first, second] := by
  unfold earlier
  split <;> simp

theorem foldl_earlier (first : Instant) (rest : List Instant) :
    rest.foldl earlier first ∈ first :: rest ∧
      ∀ other ∈ first :: rest, rest.foldl earlier first ≤ other := by
  induction rest generalizing first with
  | nil =>
    refine ⟨List.mem_cons_self, fun other member => ?_⟩
    rw [List.mem_singleton.mp member]
    exact Int.le_refl _
  | cons second rest induction =>
    obtain ⟨member, least⟩ := induction (first.earlier second)
    have below : rest.foldl earlier (first.earlier second) ≤ first.earlier second :=
      least _ List.mem_cons_self
    refine ⟨?_, ?_⟩
    · have pair := earlier_mem_pair first second
      simp only [List.foldl_cons, List.mem_cons, List.not_mem_nil, or_false] at member pair ⊢
      rcases member with same | later
      · rw [same]
        exact pair.imp_right .inl
      · exact .inr (.inr later)
    · rw [List.foldl_cons, List.forall_mem_cons, List.forall_mem_cons]
      exact ⟨Int.le_trans below (earlier_le_left first second),
        Int.le_trans below (earlier_le_right first second),
        fun other later => least other (List.mem_cons_of_mem _ later)⟩

end Instant

namespace Pool

theorem Entry.inCooldown_eq_true_iff {entry : Entry} {now : Instant} :
    entry.inCooldown now = true ↔ ∃ last, entry.cooldownUntil = some last ∧ now < last := by
  unfold inCooldown
  cases entry.cooldownUntil with
  | none => simp
  | some last => simp

theorem Entry.inCooldown_eq_false_of_le {entry : Entry} {now later : Instant}
    (order : now ≤ later) (ready : entry.inCooldown now = false) :
    entry.inCooldown later = false := by
  rw [← Bool.not_eq_true, inCooldown_eq_true_iff] at ready ⊢
  rintro ⟨last, ends, early⟩
  exact ready ⟨last, ends, Int.lt_of_le_of_lt order early⟩

variable {pool : Pool} {now time next : Instant}

/-- The instants after `now` at which cooldowns end. -/
def recoveries (pool : Pool) (now : Instant) : List Instant :=
  (pool.entries.filterMap Entry.cooldownUntil).filter (now < ·)

theorem mem_recoveries_iff : time ∈ pool.recoveries now ↔
    (∃ entry ∈ pool.entries, entry.cooldownUntil = some time) ∧ now < time := by
  simp [recoveries, List.mem_filter, List.mem_filterMap]

theorem nextRecovery_eq (pool : Pool) (now : Instant) :
    pool.nextRecovery now = match pool.recoveries now with
      | [] => none
      | first :: rest => some (rest.foldl Instant.earlier first) := rfl

theorem nextRecovery_eq_some (found : pool.nextRecovery now = some next) :
    next ∈ pool.recoveries now ∧ ∀ other ∈ pool.recoveries now, next ≤ other := by
  rw [nextRecovery_eq] at found
  cases ends : pool.recoveries now with
  | nil => rw [ends] at found; cases found
  | cons first rest =>
    rw [ends] at found
    cases found
    exact Instant.foldl_earlier first rest

theorem nextRecovery_eq_none_iff :
    pool.nextRecovery now = none ↔ ∀ entry ∈ pool.entries, entry.inCooldown now = false := by
  have noneLeft : pool.nextRecovery now = none ↔ pool.recoveries now = [] := by
    rw [nextRecovery_eq]
    split <;> simp_all
  rw [noneLeft, List.eq_nil_iff_forall_not_mem]
  constructor
  · intro noneEnds entry member
    rw [← Bool.not_eq_true, Entry.inCooldown_eq_true_iff]
    rintro ⟨last, ends, ahead⟩
    exact noneEnds last (mem_recoveries_iff.mpr ⟨⟨entry, member, ends⟩, ahead⟩)
  · intro ready last member
    obtain ⟨⟨entry, present, ends⟩, ahead⟩ := mem_recoveries_iff.mp member
    have cooling := Entry.inCooldown_eq_true_iff.mpr ⟨last, ends, ahead⟩
    cases (ready entry present).symm.trans cooling

theorem search_eq_nil_iff :
    (pool.search now).1 = [] ↔ ∀ entry ∈ pool.entries, entry.inCooldown now = true := by
  rw [List.eq_nil_iff_forall_not_mem]
  constructor
  · intro noneFound entry member
    obtain ⟨index, present⟩ := List.mem_iff_getElem?.mp member
    by_contra ready
    exact noneFound index (mem_search_iff.mpr ⟨entry, present, Bool.not_eq_true _ ▸ ready⟩)
  · intro cooling index found
    obtain ⟨entry, present, ready⟩ := mem_search_iff.mp found
    cases (cooling entry (List.mem_of_getElem? present)).symm.trans ready

theorem search_subset_of_le (order : now ≤ time) :
    (pool.search now).1 ⊆ (pool.search time).1 := by
  intro index found
  obtain ⟨entry, present, ready⟩ := mem_search_iff.mp found
  exact mem_search_iff.mpr ⟨entry, present, Entry.inCooldown_eq_false_of_le order ready⟩

/-- Until the next recovery a search finds the same servers. -/
theorem mem_search_until_recovery (found : pool.nextRecovery now = some next)
    (order : now ≤ time) (early : time < next) (index : Nat) :
    index ∈ (pool.search time).1 ↔ index ∈ (pool.search now).1 := by
  refine ⟨fun among => ?_, fun among => search_subset_of_le order among⟩
  obtain ⟨entry, present, ready⟩ := mem_search_iff.mp among
  refine mem_search_iff.mpr ⟨entry, present, ?_⟩
  rw [← Bool.not_eq_true, Entry.inCooldown_eq_true_iff] at ready ⊢
  rintro ⟨last, ends, ahead⟩
  -- A cooldown that is not over now is not over before the next recovery either.
  have least := (nextRecovery_eq_some found).2 last
    (mem_recoveries_iff.mpr ⟨⟨entry, List.mem_of_getElem? present, ends⟩, ahead⟩)
  exact ready ⟨last, ends, Int.lt_of_lt_of_le early least⟩

theorem exists_recovered (found : pool.nextRecovery now = some next) :
    ∃ index ∈ (pool.search next).1, index ∉ (pool.search now).1 := by
  obtain ⟨⟨entry, member, ends⟩, ahead⟩ := mem_recoveries_iff.mp (nextRecovery_eq_some found).1
  obtain ⟨index, present⟩ := List.mem_iff_getElem?.mp member
  refine ⟨index, mem_search_iff.mpr ⟨entry, present, ?_⟩, fun among => ?_⟩
  · rw [← Bool.not_eq_true, Entry.inCooldown_eq_true_iff]
    rintro ⟨last, same, later⟩
    cases ends.symm.trans same
    exact Int.lt_irrefl _ later
  · obtain ⟨other, same, ready⟩ := mem_search_iff.mp among
    cases present.symm.trans same
    cases ready.symm.trans (Entry.inCooldown_eq_true_iff.mpr ⟨next, ends, ahead⟩)

theorem mem_search_of_none (noneLeft : pool.nextRecovery now = none) (order : now ≤ time)
    {index : Nat} (within : index < pool.size) : index ∈ (pool.search time).1 := by
  have ready := nextRecovery_eq_none_iff.mp noneLeft _ (List.getElem_mem within)
  exact mem_search_iff.mpr ⟨_, List.getElem?_eq_getElem within,
    Entry.inCooldown_eq_false_of_le order ready⟩

end Pool

namespace Sync

open Ntp (Fault)

namespace Poller

variable {ε : Type}

/-- A cycle asks nothing exactly if every server is cooling down when it begins. -/
theorem attempts_eq_nil_iff (source : Source ε) (poller : Poller) (context : Context ε) :
    (poller.attempts source context).1 = [] ↔
      ∀ entry ∈ poller.pool.entries, entry.inCooldown context.now = true := by
  rw [(asks_attempts source poller context).eq_nil_iff, Pool.search_eq_nil_iff]

end Poller

/-- The next recovery of a pool is the next instant at which its candidates change.  It lies
ahead; until then every search finds the same servers, and then all of these and at least one
more.  If there is none, every search from now on finds every server.  So if a search finds
nothing there is a next recovery, no search finds anything before it, and one at that instant
does.  And a cycle ends without having asked anything, for want of servers, exactly if every
server is cooling down when it begins. -/
theorem nextRecovery_next_change {ε : Type} :
    (∀ (pool : Pool) (now : Instant),
      (∀ next, pool.nextRecovery now = some next →
        now < next ∧
        (∀ time, now ≤ time → time < next → ∀ index,
          index ∈ (pool.search time).1 ↔ index ∈ (pool.search now).1) ∧
        (∀ index ∈ (pool.search now).1, index ∈ (pool.search next).1) ∧
        ∃ index ∈ (pool.search next).1, index ∉ (pool.search now).1) ∧
      (pool.nextRecovery now = none →
        ∀ time, now ≤ time → ∀ index < pool.size, index ∈ (pool.search time).1) ∧
      (pool.entries ≠ [] → (pool.search now).1 = [] →
        ∃ next, pool.nextRecovery now = some next ∧
          (∀ time, now ≤ time → time < next → (pool.search time).1 = []) ∧
          (pool.search next).1 ≠ [])) ∧
    ∀ (source : Source ε) (poller : Poller) (context : Context ε),
      ((poller.runCycle source context).1 = .error .noServersAvailable ∧
        (poller.runCycle source.recorded
          (context.withEnv (context.env, []))).2.2.env.2 = []) ↔
      ∀ entry ∈ poller.pool.entries, entry.inCooldown context.now = true := by
  refine ⟨fun pool now => ⟨?_, ?_, ?_⟩, ?_⟩
  · intro next found
    have ahead := (Pool.mem_recoveries_iff.mp (Pool.nextRecovery_eq_some found).1).2
    exact ⟨ahead, fun time => Pool.mem_search_until_recovery found,
      Pool.search_subset_of_le (Int.le_of_lt ahead), Pool.exists_recovered found⟩
  · intro noneLeft time order index within
    exact Pool.mem_search_of_none noneLeft order within
  · intro someThere noneFound
    cases found : pool.nextRecovery now with
    | none =>
      have all := Pool.mem_search_of_none found (Int.le_refl _) (List.length_pos_iff.mpr someThere)
      rw [noneFound] at all
      cases all
    | some next =>
      refine ⟨next, rfl, fun time order early => ?_, ?_⟩
      · rw [List.eq_nil_iff_forall_not_mem]
        intro index among
        rw [Pool.mem_search_until_recovery found order early, noneFound] at among
        cases among
      · obtain ⟨index, recovered, -⟩ := Pool.exists_recovered found
        exact List.ne_nil_of_mem recovered
  · intro source poller context
    rw [Poller.runCycle_recorded, ← Poller.attempts_eq_nil_iff source poller context]
    constructor
    · rintro ⟨-, noneAsked⟩
      exact List.map_eq_nil_iff.mp noneAsked
    · intro noneAsked
      have concluded : (poller.runCycle source context).1 =
          conclusion (poller.attempts source context).1 := rfl
      rw [concluded, noneAsked]
      exact ⟨rfl, rfl⟩

/-- Two servers have failed, the second half a millisecond after the first.  Both cool down
for a millisecond, so nothing is found until the first has recovered. -/
theorem nextRecovery_next_change_cooling :
    let settings : Settings :=
      { servers := [{ host := "a" }, { host := "b" }]
        failureThreshold := 1, cooldownInitialMs := 1 }
    let first : Instant := ⟨0, by decide, by decide⟩
    let second : Instant := ⟨500000, by decide, by decide⟩
    let third : Instant := ⟨1000000, by decide, by decide⟩
    let pool := (Pool.ofSettings settings).replay
      [.searched first, .failed 0 .timeout first, .failed 1 .timeout second]
    pool.entries ≠ [] ∧ (pool.search second).1 = [] ∧ pool.nextRecovery second = some third ∧
    (∀ time, second ≤ time → time < third → (pool.search time).1 = []) ∧
    ∃ index ∈ (pool.search third).1, index ∉ (pool.search second).1 := by
  intro settings first second third pool
  have entries : pool.entries ≠ [] := by decide +kernel
  have noneFound : (pool.search second).1 = [] :=
    Pool.search_eq_nil_iff.mpr (by decide +kernel)
  have recovers : pool.nextRecovery second = some third := by decide +kernel
  obtain ⟨changes, -, waits⟩ := (nextRecovery_next_change (ε := Unit)).1 pool second
  obtain ⟨next, found, nothing, -⟩ := waits entries noneFound
  cases found.symm.trans recovers
  exact ⟨entries, noneFound, recovers, nothing, (changes third recovers).2.2.2⟩

end Sync

end TimeSync
