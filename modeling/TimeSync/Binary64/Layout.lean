import TimeSync.Binary64.Shortest

/-!
# Floating point numbers in messages

Messages write a number with the shortest decimal that reads back, never with
an exponent, or rounded to a fixed count of places.
-/

namespace TimeSync.Binary64

/-- Digits with the point after the first `places + length` of them, where
`places` may be negative. -/
def positional (decimal : Decimal) : List Char :=
  let digits := Nat.toDigits 10 decimal.digits
  let point : Int := digits.length + decimal.exponent
  if 0 ≤ decimal.exponent then
    digits ++ List.replicate decimal.exponent.toNat '0'
  else if 0 < point then
    digits.take point.toNat ++ '.' :: digits.drop point.toNat
  else
    '0' :: '.' :: (List.replicate (-point).toNat '0' ++ digits)

def sign (negative : Bool) : List Char := if negative then ['-'] else []

/-- The number as messages show it; of two equally near decimals the upper. -/
def text (number : Float) : String :=
  match decode number with
  | .nan => "NaN"
  | .infinite negative => String.ofList (sign negative ++ ['i', 'n', 'f'])
  | .finite negative significand exponent =>
    String.ofList (sign negative ++ positional (shortest .up significand exponent))

/-- The number rounded to three places, a half to the even neighbour. -/
def thousandths (number : Float) : String :=
  match decode number with
  | .nan => "NaN"
  | .infinite negative => String.ofList (sign negative ++ ['i', 'n', 'f'])
  | .finite negative significand exponent =>
    let (top, bottom) := scale (1000 * significand) 1 exponent
    let count := roundQuotient top bottom
    let places := Nat.toDigits 10 (1000 + count % 1000)
    String.ofList
      (sign negative ++ Nat.toDigits 10 (count / 1000) ++ '.' :: places.drop 1)

end TimeSync.Binary64
