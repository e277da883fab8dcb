import TimeSync.Json.Record
import TimeSync.Binary64.Shortest

/-!
# Floating point numbers in JSON

A number is written with its shortest decimal, of two equally near ones the
even; at least one digit follows the point, and an exponent stands where the
plain form would be long.  What has no finite value is written as null.

Reading gathers as many digits as fit in 64 bits and scales them by a power of
ten in floating point, so a number with many digits may come out one place off
the nearest; a number beyond the largest finite one is refused.
-/

namespace TimeSync.NumberText

open TimeSync.Binary64

/-- A decimal other than zero, written the way that suits its size. -/
def ofDecimal (negative : Bool) (decimal : Decimal) : NumberText :=
  let digits := Text.digits decimal.digits
  let point : Int := digits.length + decimal.exponent
  if 0 ≤ decimal.exponent ∧ point ≤ 16 then
    { negative
      whole := digits ++ List.replicate decimal.exponent.toNat 0
      fraction := [0]
      exponent := none }
  else if 0 < point ∧ point ≤ 16 then
    { negative
      whole := digits.take point.toNat
      fraction := digits.drop point.toNat
      exponent := none }
  else if -5 < point ∧ point ≤ 0 then
    { negative
      whole := [0]
      fraction := List.replicate (-point).toNat 0 ++ digits
      exponent := none }
  else
    { negative
      whole := digits.take 1
      fraction := digits.drop 1
      exponent := some (point - 1 < 0, Text.digits (point - 1).natAbs) }

/-- The way a floating point number is written, if it is finite. -/
def ofFloat? (number : Float) : Option NumberText :=
  match decode number with
  | .finite negative significand exponent =>
    some (ofDecimal negative (shortest .even significand exponent))
  | _ => none

/-- Gathers digits before the point while they fit in 64 bits; the others are
only counted. -/
def gatherWhole : List Nat → Nat → Nat × Int
  | [], gathered => (gathered, 0)
  | digit :: rest, gathered =>
    if 10 * gathered + digit < UInt64.size then
      gatherWhole rest (10 * gathered + digit)
    else
      (gathered, (rest.length + 1 : Nat))

/-- Gathers digits after the point while they fit in 64 bits; the others are
dropped. -/
def gatherFraction : List Nat → Nat × Int → Nat × Int
  | [], gathered => gathered
  | digit :: rest, (gathered, exponent) =>
    if 10 * gathered + digit < UInt64.size then
      gatherFraction rest (10 * gathered + digit, exponent - 1)
    else
      (gathered, exponent)

/-- The power of ten nearest to `10 ^ power`. -/
def powerOfTen (power : Nat) : Float := nearest false (Nat.pow 10 power) 1

/-- Scales by a power of ten, at most `10 ^ 308` at a time. -/
def scaleByTen : Nat → Float → Int → Option Float
  | 0, number, _ => some number
  | fuel + 1, number, exponent =>
    if exponent.natAbs ≤ 308 then
      if 0 ≤ exponent then
        let scaled := number * powerOfTen exponent.toNat
        if scaled.isInf then none else some scaled
      else
        some (number / powerOfTen exponent.natAbs)
    else if number == 0.0 then
      some number
    else if 0 ≤ exponent then
      none
    else
      scaleByTen fuel (number / powerOfTen 308) (exponent + 308)

/-- The size of the number written, its sign left out. -/
def magnitude? (written : NumberText) : Option Float :=
  let (gathered, exponent) :=
    gatherFraction written.fraction (gatherWhole written.whole 0)
  let (negative, digits) := written.exponent.getD (false, [])
  let written := Text.ofDigits 0 digits
  if 0x80000000 ≤ written then
    if gathered ≠ 0 ∧ negative = false then none else some 0.0
  else
    let exponent := if negative then exponent - written else exponent + written
    scaleByTen 4 (Float.ofNat gathered) exponent

/-- The floating point number written, if it is not too large. -/
def float? (written : NumberText) : Option Float :=
  (magnitude? written).map fun size => if written.negative then -size else size

end TimeSync.NumberText

namespace TimeSync.Json

def ofFloat (number : Float) : Json :=
  match NumberText.ofFloat? number with
  | some written => .number written
  | none => .null

def float? : Json → Option Float
  | .number written => written.float?
  | _ => none

end TimeSync.Json
