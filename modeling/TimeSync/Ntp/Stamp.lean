/-!
# NTP timestamps

A timestamp counts seconds since 1900, modulo `2 ^ 32`, and 32 binary places of
a second.  Microseconds since 1970 are encoded by rounding down and decoded by
rounding to the nearest, so that encoding and decoding a time of the current
era gives it back.
-/

namespace TimeSync.Ntp

@[ext]
structure Stamp where
  seconds : UInt32 := 0
  fraction : UInt32 := 0
deriving DecidableEq

namespace Stamp

/-- Seconds from the beginning of 1900 to the beginning of 1970. -/
def epochOffset : Nat := 2208988800

def isZero (stamp : Stamp) : Bool := stamp.seconds = 0 ∧ stamp.fraction = 0

/-- The stamp of a time in microseconds since 1970, rounded down. -/
def ofUnixMicros (micros : Int) : Stamp where
  seconds := .ofNat ((micros / 1000000 + epochOffset) % 0x100000000).toNat
  fraction := .ofNat ((micros % 1000000).toNat * 0x100000000 / 1000000)

/-- The nearest microsecond, a half rounded up; none for a stamp that says
nothing or lies before 1970. -/
def unixMicros? (stamp : Stamp) : Option Int :=
  if stamp.isZero ∨ stamp.seconds.toNat < epochOffset then
    none
  else
    some ((stamp.seconds.toNat - epochOffset : Nat) * 1000000
      + ((stamp.fraction.toNat * 1000000 + 0x80000000) / 0x100000000 : Nat))

def bits (stamp : Stamp) : UInt64 :=
  .ofNat (stamp.seconds.toNat * 0x100000000 + stamp.fraction.toNat)

def ofBits (bits : UInt64) : Stamp where
  seconds := .ofNat (bits.toNat / 0x100000000)
  fraction := .ofNat (bits.toNat % 0x100000000)

theorem toNat_bits (stamp : Stamp) :
    stamp.bits.toNat = stamp.seconds.toNat * 0x100000000 + stamp.fraction.toNat := by
  have := stamp.seconds.toNat_lt
  have := stamp.fraction.toNat_lt
  simp only [bits, UInt64.toNat_ofNat']
  omega

theorem isZero_iff {stamp : Stamp} :
    stamp.isZero ↔ stamp.seconds = 0 ∧ stamp.fraction = 0 := by
  simp [isZero]

end Stamp

end TimeSync.Ntp
