import Mathlib
import TimeSync.Json.Float
import TimeSync.Proofs.Json.Document

/-!
# Numbers as they are written

Every number that is written can be read as it stands: its digits before the point have no
superfluous zero.  For a floating point number this is so because the shortest decimal of a
number other than zero is not zero.
-/

namespace TimeSync

namespace Text

theorem digits_ne_nil (number : Nat) : digits number ≠ [] := by
  rw [digits]
  split <;> simp

theorem small_of_mem_digits (number : Nat) : ∀ digit ∈ digits number, digit < 10 := by
  rw [digits]
  split
  · rename_i small
    simpa using small
  · intro digit member
    rcases List.mem_append.mp member with member | member
    · exact small_of_mem_digits (number / 10) digit member
    · rw [List.mem_singleton.mp member]
      exact Nat.mod_lt _ (by omega)
termination_by number

theorem head?_digits {number : Nat} (positive : 0 < number) :
    (digits number).head? ≠ some 0 := by
  rw [digits]
  split
  · simp only [List.head?_cons, ne_eq, Option.some.injEq]
    omega
  · have rest := head?_digits (show 0 < number / 10 by omega)
    rw [List.head?_append_of_ne_nil _ (digits_ne_nil _)]
    exact rest
termination_by number

theorem no_zero_digits (number : Nat) :
    (digits number).head? = some 0 → (digits number).length ≤ 1 := by
  intro zero
  have noneLeft : number = 0 := by
    by_contra positive
    exact head?_digits (Nat.pos_of_ne_zero positive) zero
  rw [noneLeft, digits]
  exact Nat.le_refl 1

end Text

namespace Binary64

theorem scale_one_pos (power : Int) : 0 < (scale 1 1 power).1 ∧ 0 < (scale 1 1 power).2 := by
  cases power with
  | ofNat power => exact ⟨by simp [scale], by simp [scale]⟩
  | negSucc power => exact ⟨by simp [scale], by simp [scale]⟩

namespace Rounding

/-- Whether an interval is that of a number other than zero. -/
structure Positive (interval : Rounding) : Prop where
  low : 0 < interval.low
  value : 0 < interval.value
  top : 0 < interval.unit.1
  bottom : 0 < interval.unit.2

variable {interval : Rounding}

theorem Positive.of_contains (positive : interval.Positive) {digits : Nat} {power : Int}
    (inside : interval.contains digits power = true) : 0 < digits := by
  refine Nat.pos_of_ne_zero fun zero => ?_
  have width : 0 < interval.low * (interval.unit.1 * Nat.pow 10 (-power).toNat) :=
    Nat.mul_pos positive.low (Nat.mul_pos positive.top (Nat.pow_pos (by omega)))
  rw [zero] at inside
  simp only [contains, Nat.zero_mul] at inside
  split at inside <;> simp only [decide_eq_true_eq] at inside <;> omega

theorem Positive.of_onGrid (positive : interval.Positive) {tie : Tie} {power : Int}
    {digits : Nat} (found : interval.onGrid tie power = some digits) : 0 < digits := by
  unfold onGrid at found
  dsimp only at found
  split at found
  · rename_i lower upper
    have above := positive.of_contains lower
    split at found <;> cases found
    · exact Nat.succ_pos _
    · exact above
  · rename_i lower upper
    cases found
    exact positive.of_contains lower
  · cases found
    exact Nat.succ_pos _
  · cases found

theorem pow_length_toDigits_le {number : Nat} (positive : 0 < number) :
    10 ^ ((Nat.toDigits 10 number).length - 1) ≤ number := by
  rcases Nat.eq_zero_or_pos ((Nat.toDigits 10 number).length - 1) with one | more
  · rw [one]
    exact positive
  · by_contra less
    have := (Nat.length_toDigits_le_iff (by omega) more).mpr (Nat.not_le.mp less)
    omega

theorem lt_pow_length_toDigits (number : Nat) :
    number < 10 ^ (Nat.toDigits 10 number).length :=
  (Nat.length_toDigits_le_iff (by omega) Nat.length_toDigits_pos).mp (Nat.le_refl _)

theorem Positive.magnitude (positive : interval.Positive) :
    interval.unit.2 * Nat.pow 10 interval.magnitude.toNat ≤
      interval.value * interval.unit.1 * Nat.pow 10 (-interval.magnitude).toNat := by
  have topPos : 0 < interval.value * interval.unit.1 :=
    Nat.mul_pos positive.value positive.top
  have bottomPos := positive.bottom
  unfold Rounding.magnitude
  generalize interval.value * interval.unit.1 = top at *
  generalize interval.unit.2 = bottom at *
  simp only [Int.ofNat_eq_natCast]
  split
  · rename_i large
    have first := pow_length_toDigits_le (Nat.div_pos large bottomPos)
    generalize (Nat.toDigits 10 (top / bottom)).length = length at *
    calc bottom * 10 ^ ((length : Int) - 1).toNat
        = bottom * 10 ^ (length - 1) := by congr 2; omega
      _ ≤ bottom * (top / bottom) := Nat.mul_le_mul_left bottom first
      _ ≤ top := Nat.mul_div_le top bottom
      _ ≤ top * 10 ^ (-((length : Int) - 1)).toNat :=
        Nat.le_mul_of_pos_right top (Nat.pow_pos (by omega))
  · have rest := lt_pow_length_toDigits ((bottom + top - 1) / top - 1)
    generalize (Nat.toDigits 10 ((bottom + top - 1) / top - 1)).length = length at *
    have quotient : (bottom + top - 1) / top < 10 ^ length + 1 := by omega
    have product := (Nat.div_lt_iff_lt_mul topPos).mp quotient
    have expanded : (10 ^ length + 1) * top = top * 10 ^ length + top := by ring
    calc bottom * 10 ^ (-(length : Int)).toNat
        = bottom * 10 ^ 0 := by congr 2; omega
      _ ≤ top * 10 ^ length := by omega
      _ = top * 10 ^ (- -(length : Int)).toNat := by congr 2; omega

/-- On a grid no coarser than the first digit there is a point below the value. -/
theorem Positive.below (positive : interval.Positive) :
    0 < interval.below (interval.magnitude - 16) := by
  have first := positive.magnitude
  have ten (power : Nat) : 0 < Nat.pow 10 power := Nat.pow_pos (by omega)
  unfold Rounding.below
  generalize interval.magnitude = magnitude at *
  refine Nat.div_pos ?_ (Nat.mul_pos positive.bottom (ten _))
  calc interval.unit.2 * 10 ^ (magnitude - 16).toNat
      ≤ interval.unit.2 * 10 ^ magnitude.toNat :=
        Nat.mul_le_mul_left _ (Nat.pow_le_pow_right (by omega) (by omega))
    _ ≤ interval.value * interval.unit.1 * 10 ^ (-magnitude).toNat := first
    _ ≤ interval.value * interval.unit.1 * 10 ^ (-(magnitude - 16)).toNat :=
        Nat.mul_le_mul_left _ (Nat.pow_le_pow_right (by omega) (by omega))

theorem Positive.firstGrid (positive : interval.Positive) (tie : Tie) (fuel : Nat) :
    0 < (interval.firstGrid tie interval.magnitude fuel).digits := by
  induction fuel with
  | zero => exact positive.below
  | succ fuel induction =>
    rw [Rounding.firstGrid]
    split
    · rename_i digits found
      exact positive.of_onGrid found
    · exact induction

end Rounding

theorem rounding_positive {significand : Nat} (positive : 0 < significand) (exponent : Int) :
    (rounding significand exponent).Positive where
  low := by
    unfold rounding
    dsimp only
    split <;> omega
  value := Nat.mul_pos (by omega) positive
  top := (scale_one_pos _).1
  bottom := (scale_one_pos _).2

theorem Decimal.digits_strip {decimal : Decimal} (positive : 0 < decimal.digits) (fuel : Nat) :
    0 < (decimal.strip fuel).digits := by
  induction fuel generalizing decimal with
  | zero => exact positive
  | succ fuel induction =>
    rw [strip]
    split
    · rename_i tens
      exact induction (show 0 < decimal.digits / 10 by omega)
    · exact positive

theorem digits_shortest {significand : Nat} (positive : 0 < significand) (tie : Tie)
    (exponent : Int) : 0 < (shortest tie significand exponent).digits := by
  rw [shortest, if_neg (by omega)]
  exact Decimal.digits_strip ((rounding_positive positive exponent).firstGrid tie 17) 20

end Binary64

namespace NumberText

theorem plain_ofInt (value : Int) : (ofInt value).Plain where
  whole := Text.small_of_mem_digits _
  someWhole := Text.digits_ne_nil _
  noZero := Text.no_zero_digits _
  fraction := fun _ member => nomatch member
  exponent := fun _ _ given => nomatch given

theorem plain_ofDecimal (negative : Bool) {decimal : Binary64.Decimal}
    (nonzero : 0 < decimal.digits ∨ decimal.exponent = 0) :
    (ofDecimal negative decimal).Plain := by
  have small := Text.small_of_mem_digits decimal.digits
  have someDigit := Text.digits_ne_nil decimal.digits
  have noZero := Text.no_zero_digits decimal.digits
  have head (positive : 0 < decimal.digits) := Text.head?_digits positive
  have zeroSmall : ∀ digit ∈ [0], digit < 10 := by simp
  have noneGiven : ∀ negative digits, (none : Option (Bool × List Nat)) = some (negative, digits) →
      digits ≠ [] ∧ ∀ digit ∈ digits, digit < 10 := fun _ _ given => nomatch given
  unfold ofDecimal
  dsimp only
  generalize Text.digits decimal.digits = digits at *
  split
  · refine ⟨?_, List.append_ne_nil_of_left_ne_nil someDigit _, ?_, zeroSmall, noneGiven⟩
    · intro digit member
      rcases List.mem_append.mp member with member | member
      · exact small digit member
      · rw [List.eq_of_mem_replicate member]
        omega
    · dsimp only
      intro zero
      rw [List.head?_append_of_ne_nil _ someDigit] at zero
      rcases nonzero with positive | whole
      · exact absurd zero (head positive)
      · simpa [whole] using noZero zero
  · split
    · rename_i inside
      have point : (digits.length + decimal.exponent).toNat ≠ 0 := by omega
      refine ⟨fun digit member => small digit (List.mem_of_mem_take member), ?_, ?_,
        fun digit member => small digit (List.mem_of_mem_drop member), noneGiven⟩
      · simp [someDigit, point]
      · dsimp only
        intro zero
        rw [List.head?_take, if_neg point] at zero
        exact (List.length_take_le' _ _).trans (noZero zero)
    · split
      · refine ⟨zeroSmall, List.cons_ne_nil _ _, fun _ => Nat.le_refl 1, ?_, noneGiven⟩
        intro digit member
        rcases List.mem_append.mp member with member | member
        · rw [List.eq_of_mem_replicate member]
          omega
        · exact small digit member
      · refine ⟨fun digit member => small digit (List.mem_of_mem_take member), ?_, ?_,
          fun digit member => small digit (List.mem_of_mem_drop member), ?_⟩
        · simp [someDigit]
        · exact fun _ => List.length_take_le 1 digits
        · rintro _ _ ⟨⟩
          exact ⟨Text.digits_ne_nil _, Text.small_of_mem_digits _⟩

theorem plain_of_ofFloat? {number : Float} {written : NumberText}
    (given : ofFloat? number = some written) : written.Plain := by
  unfold ofFloat? at given
  split at given
  · rename_i negative significand exponent found
    cases given
    refine plain_ofDecimal negative ?_
    rcases Nat.eq_zero_or_pos significand with rfl | positive
    · exact .inr rfl
    · exact .inl (Binary64.digits_shortest positive .even exponent)
  · cases given

end NumberText

namespace Json

theorem plain_ofInt (value : Int) : (ofInt value).Plain :=
  plain_number (NumberText.plain_ofInt value)

theorem plain_ofFloat (number : Float) : (ofFloat number).Plain := by
  unfold ofFloat
  split
  · rename_i written given
    exact plain_number (NumberText.plain_of_ofFloat? given)
  · exact plain_null

end Json

end TimeSync
