import TimeSync.Binary64.Basic

/-!
# Shortest decimals

The decimal written for a binary number is the shortest that reads back as
that number, and of several equally short ones the nearest; a `Tie` says which
of two equally near ones.  The decimals that read back form an interval around
the value; its ends belong to it when the significand is even.  A decimal grid
of `n` digits meets the interval exactly when one of the two grid points next
to the value lies in it, so trying the grids from one digit up finds the
shortest.
-/

namespace TimeSync.Binary64

/-- The decimal `digits * 10 ^ exponent`. -/
structure Decimal where
  digits : Nat
  exponent : Int
deriving DecidableEq

inductive Tie where
  | up
  | even
deriving DecidableEq

/-- The reals that round to one positive number, as whole multiples of
`unit.1 / unit.2`: the number itself and the two ends. -/
structure Rounding where
  low : Nat
  value : Nat
  high : Nat
  closed : Bool
  unit : Nat × Nat

/-- The interval of `significand * 2 ^ exponent`.  Below the least significand
of its power of two the neighbours are twice as close. -/
def rounding (significand : Nat) (exponent : Int) : Rounding :=
  let low :=
    if significand = 0x10000000000000 ∧ exponent ≠ -1074 then
      4 * significand - 1
    else
      4 * significand - 2
  { low
    value := 4 * significand
    high := 4 * significand + 2
    closed := significand % 2 = 0
    unit := scale 1 1 (exponent - 2) }

namespace Rounding

/-- Whether `digits * 10 ^ power` lies in the interval. -/
def contains (interval : Rounding) (digits : Nat) (power : Int) : Bool :=
  let point := digits * interval.unit.2 * Nat.pow 10 power.toNat
  let width := interval.unit.1 * Nat.pow 10 (-power).toNat
  if interval.closed then
    interval.low * width ≤ point ∧ point ≤ interval.high * width
  else
    interval.low * width < point ∧ point < interval.high * width

/-- The largest grid point `digits * 10 ^ power` that is not above the value. -/
def below (interval : Rounding) (power : Int) : Nat :=
  interval.value * interval.unit.1 * Nat.pow 10 (-power).toNat /
    (interval.unit.2 * Nat.pow 10 power.toNat)

/-- Whether the upper of two neighbouring grid points is taken: it is nearer, or
equally near and preferred. -/
def takesUpper (interval : Rounding) (tie : Tie) (digits : Nat) (power : Int) :
    Bool :=
  let doubled := 2 * interval.value * interval.unit.1 * Nat.pow 10 (-power).toNat
  let middle := (2 * digits + 1) * interval.unit.2 * Nat.pow 10 power.toNat
  middle < doubled ∨ (middle = doubled ∧ (tie = .up ∨ digits % 2 = 1))

/-- The best point of one grid, if the grid meets the interval. -/
def onGrid (interval : Rounding) (tie : Tie) (power : Int) : Option Nat :=
  let lower := interval.below power
  match interval.contains lower power, interval.contains (lower + 1) power with
  | true, true =>
    some (if interval.takesUpper tie lower power then lower + 1 else lower)
  | true, false => some lower
  | false, true => some (lower + 1)
  | false, false => none

/-- The power of ten of the value's first digit. -/
def magnitude (interval : Rounding) : Int :=
  let top := interval.value * interval.unit.1
  let bottom := interval.unit.2
  if bottom ≤ top then
    Int.ofNat (Nat.toDigits 10 (top / bottom)).length - 1
  else
    -Int.ofNat (Nat.toDigits 10 ((bottom + top - 1) / top - 1)).length

/-- The first grid that meets the interval, from grids of `17 - fuel` digits up. -/
def firstGrid (interval : Rounding) (tie : Tie) (magnitude : Int) : Nat → Decimal
  | 0 => ⟨interval.below (magnitude - 16), magnitude - 16⟩
  | fuel + 1 =>
    let power := magnitude - (16 - Int.ofNat fuel)
    match interval.onGrid tie power with
    | some digits => ⟨digits, power⟩
    | none => firstGrid interval tie magnitude fuel

end Rounding

def Decimal.strip (decimal : Decimal) : Nat → Decimal
  | 0 => decimal
  | fuel + 1 =>
    if decimal.digits ≠ 0 ∧ decimal.digits % 10 = 0 then
      Decimal.strip ⟨decimal.digits / 10, decimal.exponent + 1⟩ fuel
    else
      decimal

/-- The shortest decimal of `significand * 2 ^ exponent`, nearest among equals. -/
def shortest (tie : Tie) (significand : Nat) (exponent : Int) : Decimal :=
  if significand = 0 then
    ⟨0, 0⟩
  else
    let interval := rounding significand exponent
    (interval.firstGrid tie interval.magnitude 17).strip 20

end TimeSync.Binary64
