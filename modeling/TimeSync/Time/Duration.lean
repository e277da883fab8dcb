/-!
# Lengths of time

A `Duration` is a whole number of nanoseconds below `2 ^ 64` seconds.  The
arithmetic is exact; an operation whose exact result does not fit stops at the
longest duration.
-/

namespace TimeSync

@[ext]
structure Duration where
  nanos : Nat
  inRange : nanos < 18446744073709551616000000000
deriving DecidableEq

namespace Duration

def clamp (nanos : Nat) : Duration :=
  ⟨min nanos (18446744073709551615999999999), by omega⟩

def zero : Duration := ⟨0, by omega⟩

def longest : Duration := ⟨18446744073709551615999999999, by omega⟩

instance : Inhabited Duration := ⟨zero⟩

def ofMillis (millis : UInt64) : Duration :=
  ⟨millis.toNat * 1000000, by have := millis.toNat_lt; omega⟩

def seconds (duration : Duration) : Nat := duration.nanos / 1000000000

def subsecond (duration : Duration) : Nat := duration.nanos % 1000000000

def millis (duration : Duration) : Nat := duration.nanos / 1000000

def micros (duration : Duration) : Nat := duration.nanos / 1000

def double (duration : Duration) : Duration := clamp (duration.nanos * 2)

instance : LE Duration := ⟨fun first second => first.nanos ≤ second.nanos⟩
instance : LT Duration := ⟨fun first second => first.nanos < second.nanos⟩

instance (first second : Duration) : Decidable (first ≤ second) :=
  inferInstanceAs (Decidable (first.nanos ≤ second.nanos))

instance (first second : Duration) : Decidable (first < second) :=
  inferInstanceAs (Decidable (first.nanos < second.nanos))

def shorter (first second : Duration) : Duration :=
  if first ≤ second then first else second

theorem le_def {first second : Duration} :
    first ≤ second ↔ first.nanos ≤ second.nanos := Iff.rfl

theorem lt_def {first second : Duration} :
    first < second ↔ first.nanos < second.nanos := Iff.rfl

theorem le_longest (duration : Duration) : duration ≤ longest :=
  Nat.le_of_lt_succ duration.inRange

@[simp] theorem nanos_shorter (first second : Duration) :
    (shorter first second).nanos = min first.nanos second.nanos := by
  unfold shorter
  split <;> rename_i order <;> rw [le_def] at order <;> omega

theorem nanos_clamp_of_lt {nanos : Nat} (fits : nanos < 18446744073709551616000000000) :
    (clamp nanos).nanos = nanos := by
  simp only [clamp]
  omega

end Duration

end TimeSync
