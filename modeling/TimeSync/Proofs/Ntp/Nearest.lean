import TimeSync.Proofs.Ntp.Eras

/-!
# Decoding to the nearest microsecond

A stamp stands for an exact instant, some `2 ^ 32`th of a second.  Decoding gives the nearest
microsecond, and the later one of two that are equally near, so it keeps the order of
stamps across the bounds of seconds.  Encoding what was decoded loses less than decoding
makes good, except in the last half microsecond of the era, which is decoded as the
beginning of the next.
-/

namespace TimeSync.Ntp.Stamp

/-- The instant that a stamp stands for, in microseconds since 1970. -/
def exactMicros (stamp : Stamp) : ℚ :=
  ((stamp.seconds.toNat : ℚ) - 2208988800 + stamp.fraction.toNat / 2 ^ 32) * 1000000

theorem round_le_round {first second : ℚ} (order : first ≤ second) :
    round first ≤ round second := by
  rw [round_eq, round_eq]
  exact Int.floor_mono (by linarith)

/-- Of two whole numbers that are nearest, rounding gives the greater one. -/
theorem le_round_of_tie {exact : ℚ} {other : ℤ}
    (tie : |exact - other| = |exact - round exact|) : other ≤ round exact := by
  by_contra above
  have near := abs_sub_round exact
  have reached := (round_eq_iff.mp (rfl : round exact = round exact)).2
  have beyond : ((round exact : ℤ) : ℚ) + 1 ≤ other := by exact_mod_cast not_le.mp above
  rw [← tie, abs_le] at near
  linarith [near.1]

theorem exactMicros_eq_bits (stamp : Stamp) :
    stamp.exactMicros = ((stamp.bits.toNat : ℚ) / 2 ^ 32 - 2208988800) * 1000000 := by
  rw [exactMicros, toNat_bits]
  push_cast
  ring

theorem exactMicros_le_of_bits_le {first second : Stamp} (order : first.bits ≤ second.bits) :
    first.exactMicros ≤ second.exactMicros := by
  have words : (first.bits.toNat : ℚ) ≤ second.bits.toNat := by
    exact_mod_cast UInt64.le_iff_toNat_le.mp order
  rw [exactMicros_eq_bits, exactMicros_eq_bits]
  linarith

/-- Decoding rounds the instant that a stamp stands for. -/
theorem unixMicros?_eq_round {stamp : Stamp} (late : epochOffset ≤ stamp.seconds.toNat) :
    stamp.unixMicros? = some (round stamp.exactMicros) := by
  have fraction (part : Nat)
      (is : part = (stamp.fraction.toNat * 1000000 + 0x80000000) / 0x100000000) :
      round stamp.exactMicros = ((stamp.seconds.toNat : Int) - epochOffset) * 1000000 + part := by
    have lower : (part : ℚ) * 2 ^ 32 ≤ stamp.fraction.toNat * 1000000 + 2 ^ 31 := by
      have : part * 2 ^ 32 ≤ stamp.fraction.toNat * 1000000 + 2 ^ 31 := by omega
      exact_mod_cast this
    have upper : (stamp.fraction.toNat : ℚ) * 1000000 + 2 ^ 31 < (part + 1) * 2 ^ 32 := by
      have : stamp.fraction.toNat * 1000000 + 2 ^ 31 < (part + 1) * 2 ^ 32 := by omega
      exact_mod_cast this
    rw [round_eq_iff, exactMicros, Set.mem_Ico, epochOffset]
    push_cast
    constructor <;> linarith
  rw [unixMicros?_of_le late, fraction _ rfl]

theorem unixMicros?_eq_some_iff {stamp : Stamp} {micros : Int} :
    stamp.unixMicros? = some micros ↔
      epochOffset ≤ stamp.seconds.toNat ∧ round stamp.exactMicros = micros := by
  by_cases early : stamp.seconds.toNat < epochOffset
  · rw [unixMicros?_eq_none_iff.mpr early]
    constructor
    · nofun
    · rintro ⟨late, -⟩
      omega
  · have late := not_lt.mp early
    rw [unixMicros?_eq_round late, Option.some.injEq]
    exact (and_iff_right late).symm

/-- The beginning of the next era, in microseconds since 1970. -/
def eraEnd : Int := (2 ^ 32 - 2208988800) * 1000000

theorem exactMicros_lt_eraEnd (stamp : Stamp) : stamp.exactMicros < eraEnd := by
  have word : (stamp.bits.toNat : ℚ) < 2 ^ 64 := by
    exact_mod_cast stamp.bits.toNat_lt
  rw [exactMicros_eq_bits, eraEnd]
  push_cast
  linarith

theorem round_eq_eraEnd_iff (stamp : Stamp) :
    round stamp.exactMicros = eraEnd ↔ (eraEnd : ℚ) - 1 / 2 ≤ stamp.exactMicros := by
  have before := stamp.exactMicros_lt_eraEnd
  rw [round_eq_iff, Set.mem_Ico]
  constructor
  · exact And.left
  · intro reached
    exact ⟨reached, by linarith⟩

theorem unixMicros?_eraEnd : (ofUnixMicros eraEnd).unixMicros? = none := by decide

theorem unixMicros?_reencoded {stamp : Stamp} {micros : Int}
    (found : stamp.unixMicros? = some micros) :
    (ofUnixMicros micros).unixMicros? = if micros = eraEnd then none else some micros := by
  obtain ⟨late, rfl⟩ := unixMicros?_eq_some_iff.mp found
  have first : 0 ≤ round stamp.exactMicros := by
    have seconds : (2208988800 : ℚ) ≤ stamp.seconds.toNat := by exact_mod_cast late
    have part : (0 : ℚ) ≤ stamp.fraction.toNat / 2 ^ 32 := by positivity
    have after : 0 ≤ stamp.exactMicros := by
      unfold exactMicros
      linarith
    calc
      0 = round (0 : ℚ) := round_zero.symm
      _ ≤ round stamp.exactMicros := round_le_round after
  have last : round stamp.exactMicros ≤ eraEnd := by
    calc
      round stamp.exactMicros ≤ round (eraEnd : ℚ) := round_le_round stamp.exactMicros_lt_eraEnd.le
      _ = eraEnd := round_intCast eraEnd
  split
  · rename_i ended
    rw [ended, unixMicros?_eraEnd]
  · rename_i within
    apply unixMicros?_ofUnixMicros_eq_some_iff.mpr
    refine ⟨first, ?_⟩
    simp only [eraEnd, epochOffset] at last within ⊢
    omega

/-- Decoding refuses exactly the stamps before 1970.  Of every other it gives the whole
number of microseconds that is nearest to the instant that the stamp stands for, the greater
where two are, and a stamp that is not less as a single word gives no less.  Encoded again and
decoded, that number comes back, unless the instant lies in the last half microsecond of the
era: then nothing does. -/
theorem decodes_nearest_in_order (stamp : Stamp) :
    (stamp.unixMicros? = none ↔ stamp.seconds.toNat < 2208988800) ∧
    ∀ micros, stamp.unixMicros? = some micros →
      (∀ other : ℤ, |stamp.exactMicros - micros| ≤ |stamp.exactMicros - other| ∧
        (|stamp.exactMicros - other| = |stamp.exactMicros - micros| → other ≤ micros)) ∧
      (∀ later : Stamp, stamp.bits ≤ later.bits →
        ∃ further, later.unixMicros? = some further ∧ micros ≤ further) ∧
      (ofUnixMicros micros).unixMicros? =
        if ((2 ^ 32 - 2208988800) * 1000000 : ℚ) - 1 / 2 ≤ stamp.exactMicros then none
        else some micros := by
  refine ⟨unixMicros?_eq_none_iff, ?_⟩
  intro micros found
  have reencoded := unixMicros?_reencoded found
  obtain ⟨late, rfl⟩ := unixMicros?_eq_some_iff.mp found
  refine ⟨fun other => ⟨round_le _ other, le_round_of_tie⟩, ?_, ?_⟩
  · intro later order
    have seconds := UInt64.le_iff_toNat_le.mp order
    rw [toNat_bits, toNat_bits] at seconds
    have fraction := later.fraction.toNat_lt
    have since : epochOffset ≤ later.seconds.toNat := by omega
    exact ⟨_, unixMicros?_eq_round since, round_le_round (exactMicros_le_of_bits_le order)⟩
  · have ends := stamp.round_eq_eraEnd_iff
    simp only [eraEnd, Int.cast_mul, Int.cast_sub, Int.cast_pow, Int.cast_ofNat] at ends
    rw [reencoded, eraEnd]
    exact if_congr ends rfl rfl

/-- A stamp half way between two microseconds, which is decoded as the later one, and the last
stamp of the era, which is decoded as its end. -/
theorem decodes_nearest_in_order_half :
    let half : Stamp := ⟨2208988800, 33554432⟩
    let last : Stamp := ⟨4294967295, 4294967295⟩
    half.exactMicros = 7812 + 1 / 2 ∧ half.unixMicros? = some 7813 ∧
    |half.exactMicros - (7813 : ℤ)| ≤ |half.exactMicros - (7812 : ℤ)| ∧
    (∃ further, last.unixMicros? = some further ∧ 7813 ≤ further) ∧
    last.unixMicros? = some 2085978496000000 ∧
    (ofUnixMicros 2085978496000000).unixMicros? = none := by
  intro half last
  have exactHalf : half.exactMicros = 7812 + 1 / 2 := by
    have seconds : half.seconds.toNat = 2208988800 := rfl
    have fraction : half.fraction.toNat = 33554432 := rfl
    norm_num [exactMicros, seconds, fraction]
  have decoded : half.unixMicros? = some 7813 := by decide
  have ending : last.unixMicros? = some 2085978496000000 := by decide
  obtain ⟨-, ofHalf⟩ := decodes_nearest_in_order half
  obtain ⟨-, ofLast⟩ := decodes_nearest_in_order last
  obtain ⟨nearest, ordered, -⟩ := ofHalf 7813 decoded
  obtain ⟨-, -, again⟩ := ofLast 2085978496000000 ending
  refine ⟨exactHalf, decoded, (nearest 7812).1, ordered last (by decide), ending, ?_⟩
  have seconds : last.seconds.toNat = 4294967295 := rfl
  have fraction : last.fraction.toNat = 4294967295 := rfl
  rw [again, if_pos]
  norm_num [exactMicros, seconds, fraction]

end TimeSync.Ntp.Stamp
