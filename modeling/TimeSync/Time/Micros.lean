/-!
# Microseconds

Times of day and the differences between clocks are whole microseconds in 64
signed bits, and what is computed of them wraps around there.
-/

namespace TimeSync.Micros

/-- Whether 64 signed bits hold a number of microseconds. -/
def Fits (micros : Int) : Prop :=
  -9223372036854775808 ≤ micros ∧ micros ≤ 9223372036854775807

/-- What 64 signed bits hold of a number of microseconds. -/
def wrap (micros : Int) : Int := micros.bmod UInt64.size

theorem fits_wrap (micros : Int) : Fits (wrap micros) := by
  have below : -9223372036854775808 ≤ wrap micros := Int.le_bmod (by decide)
  have above : wrap micros < 9223372036854775808 := Int.bmod_lt (by decide)
  exact ⟨below, Int.le_of_lt_add_one above⟩

theorem wrap_of_fits {micros : Int} (fits : Fits micros) : wrap micros = micros := by
  obtain ⟨below, above⟩ := fits
  exact Int.bmod_eq_of_le below (Int.lt_add_one_of_le above)

end TimeSync.Micros
