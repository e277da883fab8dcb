/-!
# Binary floating point numbers of 64 bits

The bits of a `Float` say a sign, a whole significand and a power of two.
`decode` reads them and `nearest` is the rounding from an exact quotient of
whole numbers, to the nearest representable number and to the even one of two
equally near.
-/

namespace TimeSync.Binary64

/-- What a bit pattern stands for: `significand * 2 ^ exponent` for a finite
number. -/
inductive Value where
  | nan
  | infinite (negative : Bool)
  | finite (negative : Bool) (significand : Nat) (exponent : Int)
deriving DecidableEq

def decodeBits (bits : UInt64) : Value :=
  let negative := bits.toNat / 0x8000000000000000 = 1
  let field : Nat := bits.toNat / 0x10000000000000 % 0x800
  let fraction : Nat := bits.toNat % 0x10000000000000
  if field = 2047 then
    if fraction = 0 then .infinite negative else .nan
  else if field = 0 then
    .finite negative fraction (-1074)
  else
    .finite negative (0x10000000000000 + fraction) ((field : Int) - 1075)

def decode (number : Float) : Value := decodeBits number.toBits

/-- The whole number nearest to a quotient, the even one of two equally near. -/
def roundQuotient (numerator denominator : Nat) : Nat :=
  let quotient := numerator / denominator
  let twice := 2 * (numerator % denominator)
  if twice < denominator ∨ (twice = denominator ∧ quotient % 2 = 0) then
    quotient
  else
    quotient + 1

/-- A quotient scaled by a power of two, as numerator and denominator. -/
def scale (numerator denominator : Nat) : Int → Nat × Nat
  | .ofNat power => (numerator * Nat.pow 2 power, denominator)
  | .negSucc power => (numerator, denominator * Nat.pow 2 (power + 1))

/-- The bits of the number nearest to a non-negative quotient. -/
def nearestBits (numerator denominator : Nat) : Nat :=
  if numerator = 0 then
    0
  else
    let magnitude : Int := Int.ofNat numerator.log2 - Int.ofNat denominator.log2
    let guess := max (magnitude - 53) (-1074)
    let (top, bottom) := scale numerator denominator (-guess)
    let exponent := if top / bottom < 0x20000000000000 then guess else guess + 1
    let (top, bottom) := scale numerator denominator (-exponent)
    let significand := roundQuotient top bottom
    let bits :=
      if significand < 0x10000000000000 then
        significand
      else
        (exponent + 1075).toNat * 0x10000000000000 + (significand - 0x10000000000000)
    min bits 0x7ff0000000000000

def nearest (negative : Bool) (numerator denominator : Nat) : Float :=
  let bits := nearestBits numerator denominator
  Float.ofBits (UInt64.ofNat (if negative then 0x8000000000000000 + bits else bits))

end TimeSync.Binary64
