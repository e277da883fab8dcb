import Mathlib
import TimeSync.Proofs.Pool.History

/-!
# The order of the candidates

The candidates of a search are ordered by a rank: first the servers that have not reached
the threshold, then the others by their failures in a row, and servers that are equal so
far by how far they are from the start of the circle.  No two servers have the same rank,
so the order is the only one.  Where the circle starts depends on the selection; in turns
it starts one server further on with every search, whatever the servers answer.
-/

namespace TimeSync.Pool

section Sorting

variable {α : Type} {key : α → Nat}

theorem pairwise_mergeSort_key (items : List α) :
    (items.mergeSort fun first second => key first ≤ key second).Pairwise
      fun first second => key first ≤ key second := by
  have sorted : (items.mergeSort fun first second => key first ≤ key second).Pairwise
      fun first second => decide (key first ≤ key second) = true :=
    List.pairwise_mergeSort (fun first second third => by simpa using Nat.le_trans)
      (fun first second => by simpa using Nat.le_total (key first) (key second)) items
  simpa using sorted

/-- Those with one key stand in the sorted list as they stood before. -/
theorem filter_mergeSort_key (items : List α) (value : Nat) :
    (items.mergeSort fun first second => key first ≤ key second).filter
        (fun item => key item = value) =
      items.filter fun item => key item = value := by
  have equals : (items.filter fun item => key item = value).Pairwise
      fun first second => decide (key first ≤ key second) = true := by
    refine List.pairwise_of_forall_mem_list fun first firstIn second secondIn => ?_
    have firstValue := (List.mem_filter.mp firstIn).2
    have secondValue := (List.mem_filter.mp secondIn).2
    simp only [decide_eq_true_eq] at firstValue secondValue ⊢
    exact Nat.le_of_eq (firstValue.trans secondValue.symm)
  have kept := List.sublist_mergeSort
    (fun first second third => by simpa using Nat.le_trans)
    (fun first second => by simpa using Nat.le_total (key first) (key second))
    equals List.filter_sublist
  have within := kept.filter fun item => decide (key item = value)
  rw [List.filter_filter] at within
  simp only [Bool.and_self] at within
  exact (within.eq_of_length
    ((List.mergeSort_perm items _).filter _).length_eq.symm).symm

theorem pairwise_mergeSort_of_pairwise {before : α → α → Prop} {items : List α}
    (ordered : items.Pairwise before) :
    (items.mergeSort fun first second => key first ≤ key second).Pairwise
      fun first second =>
        key first < key second ∨ (key first = key second ∧ before first second) := by
  rw [List.pairwise_iff_forall_sublist]
  intro first second pair
  have least := List.pairwise_iff_forall_sublist.mp (pairwise_mergeSort_key items) pair
  rcases Nat.lt_or_eq_of_le least with less | same
  · exact .inl less
  · -- Both are among those with one key, whose order sorting leaves alone.
    have among := pair.filter fun item => decide (key item = key second)
    rw [filter_mergeSort_key] at among
    simp only [List.filter_cons, same, decide_true, if_true, List.filter_nil] at among
    have original := among.trans List.filter_sublist
    exact .inr ⟨same, List.pairwise_iff_forall_sublist.mp ordered original⟩

end Sorting

variable {pool : Pool} {now : Instant} {index : Nat}

/-- How far round the pool a server is from the one at `start`. -/
def distance (pool : Pool) (start index : Nat) : Int := ((index : Int) - start) % pool.size

/-- The place of a server among the candidates of a search from `start`. -/
def rank (pool : Pool) (start index : Nat) : Nat ×ₗ Nat ×ₗ Int :=
  let failures := pool.failuresInARow index
  toLex (if failures < pool.threshold then 0 else 1,
    toLex (if failures < pool.threshold then 0 else failures, pool.distance start index))

theorem distance_circle (pool : Pool) {step : Nat} (below : step < pool.size) :
    pool.distance pool.start ((pool.start + step) % pool.size) = step := by
  have whole : (((pool.start + step) % pool.size : Nat) : Int) ≡
      (pool.start : Int) + step [ZMOD pool.size] := by
    push_cast
    exact Int.mod_modEq _ _
  have same : (((pool.start + step) % pool.size : Nat) : Int) - pool.start ≡
      step [ZMOD pool.size] := by
    simpa using whole.sub_right (pool.start : Int)
  unfold distance
  rw [same.eq]
  exact Int.emod_eq_of_lt (by omega) (by omega)

theorem pairwise_circle (pool : Pool) :
    pool.circle.Pairwise fun first second =>
      pool.distance pool.start first < pool.distance pool.start second := by
  unfold circle
  rw [List.pairwise_map]
  refine List.pairwise_lt_range.imp_of_mem fun firstIn secondIn less => ?_
  rw [List.mem_range] at firstIn secondIn
  rw [distance_circle pool firstIn, distance_circle pool secondIn]
  exact_mod_cast less

theorem healthy_iff : pool.healthy index = true ↔ pool.failuresInARow index < pool.threshold := by
  simp [healthy]

section Rank

variable {start first second : Nat}

theorem rank_lt_of_healthy (firstWell : pool.healthy first = true)
    (secondWell : pool.healthy second = true)
    (nearer : pool.distance start first < pool.distance start second) :
    pool.rank start first < pool.rank start second := by
  rw [healthy_iff] at firstWell secondWell
  simp only [rank, if_pos firstWell, if_pos secondWell, Prod.Lex.toLex_lt_toLex]
  exact .inr ⟨trivial, .inr ⟨trivial, nearer⟩⟩

theorem rank_lt_of_tripped (firstIll : ¬ pool.healthy first = true)
    (secondIll : ¬ pool.healthy second = true)
    (fewer : pool.failuresInARow first < pool.failuresInARow second ∨
      (pool.failuresInARow first = pool.failuresInARow second ∧
        pool.distance start first < pool.distance start second)) :
    pool.rank start first < pool.rank start second := by
  rw [healthy_iff] at firstIll secondIll
  simp only [rank, if_neg firstIll, if_neg secondIll, Prod.Lex.toLex_lt_toLex]
  exact .inr ⟨trivial, fewer⟩

theorem rank_lt_of_healthy_tripped (firstWell : pool.healthy first = true)
    (secondIll : ¬ pool.healthy second = true) :
    pool.rank start first < pool.rank start second := by
  rw [healthy_iff] at firstWell secondIll
  simp only [rank, if_pos firstWell, if_neg secondIll, Prod.Lex.toLex_lt_toLex]
  exact .inl Nat.zero_lt_one

end Rank

theorem pairwise_candidates (pool : Pool) (now : Instant) :
    (pool.candidates now).Pairwise fun first second =>
      pool.rank pool.start first < pool.rank pool.start second := by
  have circle := (pairwise_circle pool).filter (pool.eligible now)
  refine List.pairwise_append.mpr ⟨?_, ?_, ?_⟩
  · refine (circle.filter pool.healthy).imp_of_mem fun firstIn secondIn nearer => ?_
    exact rank_lt_of_healthy (List.mem_filter.mp firstIn).2 (List.mem_filter.mp secondIn).2
      nearer
  · have sorted := @pairwise_mergeSort_of_pairwise _ pool.failuresInARow _ _
      (circle.filter fun index => decide (¬ pool.healthy index = true))
    refine sorted.imp_of_mem fun firstIn secondIn fewer => ?_
    rw [List.mem_mergeSort] at firstIn secondIn
    exact rank_lt_of_tripped (of_decide_eq_true (List.mem_filter.mp firstIn).2)
      (of_decide_eq_true (List.mem_filter.mp secondIn).2) fewer
  · intro first firstIn second secondIn
    rw [List.mem_mergeSort] at secondIn
    exact rank_lt_of_healthy_tripped (List.mem_filter.mp firstIn).2
      (of_decide_eq_true (List.mem_filter.mp secondIn).2)

/-- A history of a pool that has all the servers it tells of. -/
def Within (size : Nat) (events : List Event) : Prop :=
  ∀ event ∈ events, ∀ index, event.asked? = some index → index < size

theorem entries_ne_nil_iff : pool.entries ≠ [] ↔ 0 < pool.size := List.length_pos_iff.symm

theorem search_of_pos (some : 0 < pool.size) (now : Instant) :
    pool.search now = (pool.candidates now, pool.advance) :=
  if_neg (entries_ne_nil_iff.mpr some)

theorem cursor_after_lt {event : Event} (placed : pool.cursor < pool.size)
    (within : ∀ index, event.asked? = some index → index < pool.size) :
    (pool.after event).cursor < pool.size := by
  have some : 0 < pool.size := Nat.zero_lt_of_lt placed
  cases event with
  | searched now =>
    simp only [after, search_of_pos some, advance]
    split
    · exact Nat.mod_lt _ some
    · exact placed
    · exact placed
  | succeeded index now =>
    simp only [after, recordSuccess]
    split
    · exact within index rfl
    · exact placed
  | failed index fault now =>
    simp only [after, recordFailure]
    split
    · exact Nat.mod_lt _ some
    · exact placed

theorem cursor_replay_lt {events : List Event} (placed : pool.cursor < pool.size)
    (within : Within pool.size events) : (pool.replay events).cursor < pool.size := by
  induction events generalizing pool with
  | nil => exact placed
  | cons event events induction =>
    obtain ⟨first, rest⟩ := List.forall_mem_cons.mp within
    have moved := cursor_after_lt placed first
    rw [← size_after pool event] at moved rest
    rw [replay_cons, ← size_after pool event]
    exact induction moved rest

/-- The servers with which the searches of a history start. -/
def scans : Pool → List Event → List Nat
  | _, [] => []
  | pool, .searched now :: events => pool.start :: scans (pool.after (.searched now)) events
  | pool, event :: events => scans (pool.after event) events

theorem start_of_roundRobin (turns : pool.selection = .roundRobin) :
    pool.start = pool.cursor % pool.size := by
  simp only [start, turns]

theorem length_starts_cons (event : Event) (events : List Event) :
    (starts (event :: events)).length = (starts [event]).length + (starts events).length := by
  rw [← List.length_append]
  refine congrArg List.length ?_
  change starts ([event] ++ events) = _
  exact List.filterMap_append

/-- Only a search moves the cursor of a pool that takes turns. -/
theorem cursor_after_modEq (turns : pool.selection = .roundRobin) (some : 0 < pool.size)
    (event : Event) :
    (pool.after event).cursor ≡ pool.cursor + (starts [event]).length [MOD pool.size] := by
  cases event with
  | searched now =>
    simp only [after, search_of_pos some, advance, turns, start_of_roundRobin turns]
    exact (Nat.mod_modEq _ _).trans ((Nat.mod_modEq _ _).add_right 1)
  | succeeded index now =>
    simp only [after, recordSuccess, turns]
    exact .rfl
  | failed index fault now =>
    simp only [after, recordFailure, turns]
    exact .rfl

theorem cursor_replay_modEq (turns : pool.selection = .roundRobin) (some : 0 < pool.size)
    (events : List Event) :
    (pool.replay events).cursor ≡ pool.cursor + (starts events).length [MOD pool.size] := by
  induction events generalizing pool with
  | nil => exact .rfl
  | cons event events induction =>
    have rest := @induction (pool.after event) (by rwa [selection_after])
      (by rwa [size_after])
    rw [size_after] at rest
    rw [replay_cons, length_starts_cons, ← Nat.add_assoc]
    exact rest.trans ((cursor_after_modEq turns some event).add_right _)

theorem scans_of_roundRobin (turns : pool.selection = .roundRobin) (some : 0 < pool.size)
    (events : List Event) :
    pool.scans events = (List.range (starts events).length).map fun turn =>
      (pool.cursor + turn) % pool.size := by
  induction events generalizing pool with
  | nil => rfl
  | cons event events induction =>
    have rest := @induction (pool.after event) (by rwa [selection_after])
      (by rwa [size_after])
    rw [size_after] at rest
    have moved := cursor_after_modEq turns some event
    cases event with
    | searched now =>
      rw [scans, rest, starts_searched, List.length_cons, List.range_succ_eq_map,
        List.map_cons, List.map_map, start_of_roundRobin turns]
      refine congrArg₂ List.cons (by rw [Nat.add_zero]) (List.map_congr_left fun turn _ => ?_)
      calc
        ((pool.after (.searched now)).cursor + turn) % pool.size =
            (pool.cursor + 1 + turn) % pool.size := moved.add_right turn
        _ = (pool.cursor + (turn + 1)) % pool.size := by rw [Nat.add_assoc, Nat.add_comm 1]
    | succeeded index now =>
      refine rest.trans (List.map_congr_left fun turn _ => moved.add_right turn)
    | failed index fault now =>
      refine rest.trans (List.map_congr_left fun turn _ => moved.add_right turn)

/-- As many searches as there are servers start with each of them once. -/
theorem perm_scans_of_roundRobin (turns : pool.selection = .roundRobin) (some : 0 < pool.size)
    {events : List Event} (round : (starts events).length = pool.size) :
    (pool.scans events).Perm (List.range pool.size) := by
  have circle : pool.scans events = pool.circle := by
    rw [scans_of_roundRobin turns some, round]
    refine List.map_congr_left fun step _ => ?_
    rw [start_of_roundRobin turns, Nat.mod_add_mod]
  rw [circle]
  exact perm_circle pool

theorem start_replay {settings : Settings} (servers : settings.servers ≠ [])
    {events : List Event} (within : Within settings.servers.length events) :
    ((Pool.ofSettings settings).replay events).start =
      match settings.selection with
      | .priority => 0
      | .failover => ((Pool.ofSettings settings).replay events).cursor
      | .roundRobin => (starts events).length % settings.servers.length := by
  have size : (Pool.ofSettings settings).size = settings.servers.length := List.length_map ..
  have some : 0 < (Pool.ofSettings settings).size := by
    rw [size]
    exact List.length_pos_iff.mpr servers
  have placed : ((Pool.ofSettings settings).replay events).cursor <
      (Pool.ofSettings settings).size := cursor_replay_lt some (size ▸ within)
  have chosen : (Pool.ofSettings settings).selection = settings.selection := rfl
  unfold start
  rw [selection_replay, size_replay, chosen]
  cases selection : settings.selection with
  | priority => rfl
  | failover => exact Nat.mod_eq_of_lt placed
  | roundRobin =>
    have turned := cursor_replay_modEq (chosen.trans selection) some events
    rw [show (Pool.ofSettings settings).cursor = 0 from rfl, Nat.zero_add] at turned
    rw [← size]
    exact turned

/-- After any searches, successes and failures a search finds exactly the servers that are
not cooling down, each of them once, in the order of their ranks: first those below the
threshold, then the others by their failures in a row, and equals by their distance from
the start of the circle.  That is the first server where servers have priorities, the
cursor where the last good one is kept, and one further with every search where they take
turns, so that as many searches as there are servers start with each of them once.  The
search changes no server's entry. -/
theorem candidates_ranked {settings : Settings} (servers : settings.servers ≠ [])
    {events : List Event} (within : Within settings.servers.length events) (now : Instant) :
    let pool := (Pool.ofSettings settings).replay events
    let start := match settings.selection with
      | .priority => 0
      | .failover => pool.cursor
      | .roundRobin => (starts events).length % settings.servers.length
    ((pool.search now).1.Pairwise fun first second =>
      pool.rank start first < pool.rank start second) ∧
    (pool.search now).1.Nodup ∧
    (∀ index, index ∈ (pool.search now).1 ↔
      ∃ entry, pool.entries[index]? = some entry ∧ entry.inCooldown now = false) ∧
    (∀ index ∈ (pool.search now).1, index < settings.servers.length) ∧
    (pool.search now).2.entries = pool.entries ∧
    (settings.selection = .roundRobin → ∀ later,
      (starts later).length = settings.servers.length →
      (pool.scans later).Perm (List.range settings.servers.length)) := by
  intro pool start
  have size : pool.size = settings.servers.length :=
    (size_replay _ events).trans (List.length_map ..)
  have some : 0 < pool.size := by
    rw [size]
    exact List.length_pos_iff.mpr servers
  refine ⟨?_, nodup_search pool now, fun index => mem_search_iff, ?_,
    entries_search pool now, ?_⟩
  · have ordered := pairwise_candidates pool now
    rw [start_replay servers within] at ordered
    rw [search_of_pos some]
    exact ordered
  · intro index found
    obtain ⟨entry, present, -⟩ := mem_search_iff.mp found
    rw [← size]
    exact (List.getElem?_eq_some_iff.mp present).1
  · intro turns later round
    rw [← size] at round ⊢
    exact perm_scans_of_roundRobin ((selection_replay _ events).trans turns) some round

/-- Three servers take turns in a pool that has been searched once.  The first has failed
twice, the second is cooling down, and the third, which has failed once, has cooled down. -/
theorem candidates_ranked_recovered :
    let settings : Settings :=
      { servers := [{ host := "a" }, { host := "b" }, { host := "c" }]
        failureThreshold := 1, cooldownInitialMs := 1, selection := .roundRobin }
    let first : Instant := ⟨0, by decide, by decide⟩
    let second : Instant := ⟨5000000, by decide, by decide⟩
    let events : List Event :=
      [.searched first, .failed 0 .timeout first, .failed 0 .timeout first,
        .failed 1 .timeout second, .failed 2 .timeout first]
    let pool := (Pool.ofSettings settings).replay events
    settings.servers ≠ [] ∧ Within settings.servers.length events ∧
    (pool.search second).1 = [2, 0] ∧ pool.rank 1 2 < pool.rank 1 0 ∧
    (pool.scans [.searched second, .succeeded 2 second, .searched second,
      .searched second]).Perm [0, 1, 2] := by
  intro settings first second events pool
  have servers : settings.servers ≠ [] := List.cons_ne_nil _ _
  have within : Within settings.servers.length events := by
    simp [Within, events, settings, Event.asked?]
  obtain ⟨ranked, once, foundIff, known, -, turns⟩ := candidates_ranked servers within second
  have able : ∀ index < 3, pool.eligible second index = true ↔ index ∈ [2, 0] := by
    decide +kernel
  have among : ∀ index, index ∈ (pool.search second).1 ↔ index ∈ [2, 0] := by
    intro index
    constructor
    · intro found
      exact (able index (known index found)).mp (eligible_iff.mpr ((foundIff index).mp found))
    · intro listed
      have below : index < 3 := by
        rcases List.mem_pair.mp listed with rfl | rfl <;> decide
      exact (foundIff index).mpr (eligible_iff.mp ((able index below).mpr listed))
  have perm : (pool.search second).1.Perm [2, 0] :=
    (List.perm_ext_iff_of_nodup once (by decide)).mpr among
  have order : pool.rank 1 2 < pool.rank 1 0 := by decide +kernel
  have found : (pool.search second).1 = [2, 0] :=
    perm.eq_of_pairwise (fun first second _ _ less more => absurd less (lt_asymm more))
      ranked (List.pairwise_pair.mpr order)
  exact ⟨servers, within, found, order, turns rfl _ rfl⟩

end TimeSync.Pool
