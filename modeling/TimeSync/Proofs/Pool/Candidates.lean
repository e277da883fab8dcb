import Mathlib
import TimeSync.Pool.Candidates

/-!
# What a search finds

The circle goes through every server of the pool once, wherever it starts.  So
the candidates of a search are the servers that are not cooling down, each of
them once, whatever the selection.
-/

namespace TimeSync.Pool

variable {pool : Pool} {now : Instant} {index : Nat}

theorem nodup_circle (pool : Pool) : pool.circle.Nodup := by
  refine List.Nodup.map_on ?_ List.nodup_range
  intro first firstIn second secondIn same
  rw [List.mem_range] at firstIn secondIn
  have congruent : first ≡ second [MOD pool.size] := Nat.ModEq.add_left_cancel' _ same
  exact congruent.eq_of_lt_of_lt firstIn secondIn

theorem perm_circle (pool : Pool) : pool.circle.Perm (List.range pool.size) := by
  have below : pool.circle ⊆ List.range pool.size := by
    intro other listed
    obtain ⟨step, stepIn, rfl⟩ := List.mem_map.mp listed
    rw [List.mem_range] at stepIn ⊢
    exact Nat.mod_lt _ (by omega)
  -- Distinct numbers below the size, as many as there are, are all of them.
  exact ((nodup_circle pool).subperm below).perm_of_length_le (by simp [circle])

theorem mem_circle_iff : index ∈ pool.circle ↔ index < pool.size := by
  rw [(perm_circle pool).mem_iff, List.mem_range]

theorem eligible_iff :
    pool.eligible now index = true ↔
      ∃ entry, pool.entries[index]? = some entry ∧ entry.inCooldown now = false := by
  unfold eligible
  cases present : pool.entries[index]? with
  | none => simp
  | some entry => simp

theorem mem_candidates_iff : index ∈ pool.candidates now ↔ pool.eligible now index = true := by
  have listed (able : pool.eligible now index = true) : index ∈ pool.circle := by
    obtain ⟨entry, present, -⟩ := eligible_iff.mp able
    exact mem_circle_iff.mpr (List.getElem?_eq_some_iff.mp present).1
  simp only [candidates, List.mem_append, List.mem_mergeSort, List.mem_filter,
    decide_eq_true_eq]
  constructor
  · rintro (⟨⟨-, able⟩, -⟩ | ⟨⟨-, able⟩, -⟩) <;> exact able
  · intro able
    by_cases well : pool.healthy index = true
    · exact .inl ⟨⟨listed able, able⟩, well⟩
    · exact .inr ⟨⟨listed able, able⟩, well⟩

theorem nodup_candidates (pool : Pool) (now : Instant) : (pool.candidates now).Nodup := by
  have eligible : (pool.circle.filter (pool.eligible now)).Nodup :=
    (nodup_circle pool).filter _
  refine List.nodup_append.mpr ⟨eligible.filter _, ?_, ?_⟩
  · exact (List.mergeSort_perm _ _).nodup_iff.mpr (eligible.filter _)
  · rintro first firstIn second secondIn rfl
    rw [List.mem_mergeSort] at secondIn
    have well := (List.mem_filter.mp firstIn).2
    have ill := (List.mem_filter.mp secondIn).2
    simp only [well, not_true_eq_false, decide_false, Bool.false_eq_true] at ill

theorem mem_search_iff :
    index ∈ (pool.search now).1 ↔
      ∃ entry, pool.entries[index]? = some entry ∧ entry.inCooldown now = false := by
  rw [← eligible_iff, ← mem_candidates_iff]
  unfold search
  split
  · rename_i empty
    have unable : index ∉ pool.candidates now := by
      rw [mem_candidates_iff, eligible_iff, empty]
      simp
    simpa using unable
  · rfl

theorem nodup_search (pool : Pool) (now : Instant) : (pool.search now).1.Nodup := by
  unfold search
  split
  · exact List.nodup_nil
  · exact nodup_candidates pool now

@[simp] theorem entries_search (pool : Pool) (now : Instant) :
    (pool.search now).2.entries = pool.entries := by
  unfold search advance
  split
  · rfl
  · dsimp only
    split <;> rfl

end TimeSync.Pool
