import TimeSync.Proofs.Ntp.Acceptance

/-!
# Times and eras

A stamp has room for the seconds of one era, and nothing in it says which.  Encoding keeps
the second of the era and the part of the second; decoding takes the stamp for one of the era
that began in 1900, and refuses it if it lies before 1970.  So a time of this era is read as it
was written, and any other is read some whole number of eras away from it, if at all.
-/

namespace TimeSync.Ntp

/-- From the beginning of 1970 to the end of the era that began in 1900. -/
def InEra (micros : Int) : Prop :=
  0 ≤ micros ∧ micros < ((2 ^ 32 - Stamp.epochOffset) * 1000000 : Nat)

instance (micros : Int) : Decidable (InEra micros) := inferInstanceAs (Decidable (_ ∧ _))

namespace Stamp

/-- The second of its era in which a time lies. -/
def secondOfEra (micros : Int) : Int := (micros / 1000000 + 2208988800) % 2 ^ 32

/-- The era in which a time lies, zero for the one that began in 1900. -/
def eraOf (micros : Int) : Int := (micros / 1000000 + 2208988800) / 2 ^ 32

theorem inEra_iff {micros : Int} :
    InEra micros ↔ eraOf micros = 0 ∧ 2208988800 ≤ secondOfEra micros := by
  simp only [InEra, eraOf, secondOfEra, epochOffset]
  omega

/-- What is left of a time without its era lies as many eras before it. -/
theorem secondOfEra_mul_add (micros : Int) :
    (secondOfEra micros - 2208988800) * 1000000 + micros % 1000000 =
      micros - eraOf micros * (2 ^ 32 * 1000000) := by
  have seconds := Int.emod_add_mul_ediv (micros / 1000000 + 2208988800) (2 ^ 32)
  have parts := Int.emod_add_mul_ediv micros 1000000
  unfold secondOfEra eraOf
  omega

theorem toNat_seconds_ofUnixMicros (micros : Int) :
    ((ofUnixMicros micros).seconds.toNat : Int) = secondOfEra micros := by
  simp only [ofUnixMicros, UInt32.toNat_ofNat', epochOffset, secondOfEra]
  omega

theorem seconds_ofUnixMicros {micros : Int} (inEra : InEra micros) :
    ((ofUnixMicros micros).seconds.toNat : Int) = micros / 1000000 + epochOffset := by
  obtain ⟨present, -⟩ := inEra_iff.mp inEra
  rw [toNat_seconds_ofUnixMicros]
  simp only [eraOf, secondOfEra, epochOffset] at present ⊢
  omega

/-- Rounding down and then to the nearest gives back any number of microseconds. -/
theorem fraction_ofUnixMicros (micros : Int) :
    (((ofUnixMicros micros).fraction.toNat * 1000000 + 0x80000000) / 0x100000000 : Nat) =
      (micros % 1000000).toNat := by
  have few : (micros % 1000000).toNat < 1000000 := by omega
  simp only [ofUnixMicros, UInt32.toNat_ofNat']
  generalize (micros % 1000000).toNat = part at few ⊢
  rw [Nat.mod_eq_of_lt (by omega)]
  omega

/-- A stamp says nothing about the era of the time that it was made for. -/
theorem unixMicros?_ofUnixMicros_eq (micros : Int) :
    (ofUnixMicros micros).unixMicros? =
      if secondOfEra micros < 2208988800 then none
      else some ((secondOfEra micros - 2208988800) * 1000000 + micros % 1000000) := by
  have seconds := toNat_seconds_ofUnixMicros micros
  split
  · rename_i early
    apply unixMicros?_eq_none_iff.mpr
    simp only [epochOffset]
    omega
  · rename_i late
    have converts : epochOffset ≤ (ofUnixMicros micros).seconds.toNat := by
      simp only [epochOffset]
      omega
    have part : 0 ≤ micros % 1000000 := Int.emod_nonneg _ (by decide)
    rw [unixMicros?_of_le converts, seconds, fraction_ofUnixMicros, Int.toNat_of_nonneg part]
    rfl

theorem eq_sub_of_unixMicros?_ofUnixMicros {micros read : Int}
    (found : (ofUnixMicros micros).unixMicros? = some read) :
    read = micros - eraOf micros * (2 ^ 32 * 1000000) ∧ 2208988800 ≤ secondOfEra micros := by
  rw [unixMicros?_ofUnixMicros_eq] at found
  split at found
  · cases found
  · rename_i late
    cases found
    exact ⟨secondOfEra_mul_add micros, not_lt.mp late⟩

theorem unixMicros?_ofUnixMicros_eq_some_iff {micros : Int} :
    (ofUnixMicros micros).unixMicros? = some micros ↔ InEra micros := by
  rw [inEra_iff]
  constructor
  · intro found
    obtain ⟨same, late⟩ := eq_sub_of_unixMicros?_ofUnixMicros found
    refine ⟨?_, late⟩
    omega
  · rintro ⟨present, late⟩
    have exactTime := secondOfEra_mul_add micros
    rw [present, zero_mul, sub_zero] at exactTime
    rw [unixMicros?_ofUnixMicros_eq, if_neg (not_lt.mpr late), exactTime]

@[simp] theorem ofBits_bits (stamp : Stamp) : ofBits stamp.bits = stamp := by
  have whole := stamp.toNat_bits
  have fraction := stamp.fraction.toNat_lt
  have high : stamp.bits.toNat / 0x100000000 = stamp.seconds.toNat := by omega
  have low : stamp.bits.toNat % 0x100000000 = stamp.fraction.toNat := by omega
  rw [ofBits, high, low, UInt32.ofNat_toNat, UInt32.ofNat_toNat]

@[simp] theorem bits_ofBits (bits : UInt64) : (ofBits bits).bits = bits := by
  have bound := bits.toNat_lt
  apply UInt64.toNat_inj.mp
  simp only [toNat_bits, ofBits, UInt32.toNat_ofNat']
  omega

/-- A stamp keeps the second of the era and the microsecond of any time, before 1970 too.
What is read from it is none where that second lies before 1970, and otherwise this second of
the present era with its microsecond.  That is the time itself exactly from 1970 to the end of
the era, and in every other case a time whole eras away.  As a single word a stamp loses
nothing, and every word is a stamp. -/
theorem reads_back_modulo_eras (micros : Int) :
    ((ofUnixMicros micros).seconds.toNat : Int) = secondOfEra micros ∧
    ((ofUnixMicros micros).unixMicros? =
      if secondOfEra micros < 2208988800 then none
      else some ((secondOfEra micros - 2208988800) * 1000000 + micros % 1000000)) ∧
    ((ofUnixMicros micros).unixMicros? = some micros ↔
      0 ≤ micros ∧ micros < (2 ^ 32 - 2208988800) * 1000000) ∧
    (∀ read, (ofUnixMicros micros).unixMicros? = some read → read ≠ micros →
      ∃ eras : Int, eras ≠ 0 ∧ read - micros = eras * (2 ^ 32 * 1000000)) ∧
    (∀ stamp : Stamp, ofBits stamp.bits = stamp) ∧
    ∀ bits : UInt64, (ofBits bits).bits = bits := by
  refine ⟨toNat_seconds_ofUnixMicros micros, unixMicros?_ofUnixMicros_eq micros,
    unixMicros?_ofUnixMicros_eq_some_iff, ?_, ofBits_bits, bits_ofBits⟩
  intro read found other
  obtain ⟨reading, -⟩ := eq_sub_of_unixMicros?_ofUnixMicros found
  refine ⟨-eraOf micros, ?_, ?_⟩
  · intro present
    apply other
    rw [reading, neg_eq_zero.mp present, zero_mul, sub_zero]
  · rw [reading]
    ring

/-- A whole era after the beginning of 1970 a stamp is read as that beginning, and the last
microsecond before 1970 is not read at all. -/
theorem reads_back_modulo_eras_next :
    (ofUnixMicros 4294967296000000).unixMicros? = some 0 ∧
    (∃ eras : Int, eras ≠ 0 ∧ 0 - 4294967296000000 = eras * (2 ^ 32 * 1000000)) ∧
    (ofUnixMicros (-1)).unixMicros? = none := by
  have next : (ofUnixMicros 4294967296000000).unixMicros? = some 0 := by decide
  obtain ⟨-, -, -, others, -⟩ := reads_back_modulo_eras 4294967296000000
  exact ⟨next, others 0 next (by decide), by decide⟩

end Stamp

end TimeSync.Ntp
