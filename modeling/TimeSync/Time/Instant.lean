import TimeSync.Time.Duration

/-!
# Points of monotonic time

An `Instant` counts nanoseconds on the monotonic clock's scale; its seconds
fit in 64 signed bits.  Adding a duration is exact or refused, and the span
between two instants is never negative.
-/

namespace TimeSync

@[ext]
structure Instant where
  nanos : Int
  notBefore : -9223372036854775808000000000 ≤ nanos
  notAfter : nanos < 9223372036854775808000000000
deriving DecidableEq

namespace Instant

def ofNanos? (nanos : Int) : Option Instant :=
  if inRange : -9223372036854775808000000000 ≤ nanos ∧ nanos < 9223372036854775808000000000 then
    some ⟨nanos, inRange.1, inRange.2⟩
  else
    none

def origin : Instant := ⟨0, by omega, by omega⟩

instance : Inhabited Instant := ⟨origin⟩

/-- The instant `duration` later, unless the scale ends before it. -/
def add? (instant : Instant) (duration : Duration) : Option Instant :=
  if fits : instant.nanos + duration.nanos < 9223372036854775808000000000 then
    some ⟨instant.nanos + duration.nanos,
      by have := instant.notBefore; omega, fits⟩
  else
    none

/-- The time from `earlier` to `later`, zero when they are the other way round. -/
def since (later earlier : Instant) : Duration :=
  ⟨(later.nanos - earlier.nanos).toNat, by
    have := later.notAfter
    have := earlier.notBefore
    omega⟩

instance : LE Instant := ⟨fun first second => first.nanos ≤ second.nanos⟩
instance : LT Instant := ⟨fun first second => first.nanos < second.nanos⟩

instance (first second : Instant) : Decidable (first ≤ second) :=
  inferInstanceAs (Decidable (first.nanos ≤ second.nanos))

instance (first second : Instant) : Decidable (first < second) :=
  inferInstanceAs (Decidable (first.nanos < second.nanos))

def later (first second : Instant) : Instant :=
  if first ≤ second then second else first

def earlier (first second : Instant) : Instant :=
  if first ≤ second then first else second

theorem le_def {first second : Instant} :
    first ≤ second ↔ first.nanos ≤ second.nanos := Iff.rfl

theorem lt_def {first second : Instant} :
    first < second ↔ first.nanos < second.nanos := Iff.rfl

theorem add?_eq_some_iff {instant result : Instant} {duration : Duration} :
    instant.add? duration = some result ↔
      result.nanos = instant.nanos + duration.nanos := by
  unfold add?
  constructor
  · intro found
    split at found
    · cases found
      rfl
    · cases found
  · intro same
    have fits : instant.nanos + duration.nanos < 9223372036854775808000000000 :=
      same ▸ result.notAfter
    rw [dif_pos fits]
    exact congrArg some (Instant.ext same.symm)

theorem add?_eq_none_iff {instant : Instant} {duration : Duration} :
    instant.add? duration = none ↔
      9223372036854775808000000000 ≤ instant.nanos + duration.nanos := by
  unfold add?
  split <;> simp <;> omega

theorem nanos_later (first second : Instant) :
    (first.later second).nanos = max first.nanos second.nanos := by
  unfold later
  split <;> rename_i order <;> rw [le_def] at order <;> omega

@[simp] theorem nanos_since (later earlier : Instant) :
    (later.since earlier).nanos = (later.nanos - earlier.nanos).toNat := rfl

end Instant

end TimeSync
