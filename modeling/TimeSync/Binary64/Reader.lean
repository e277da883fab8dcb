import TimeSync.Binary64.Basic
import TimeSync.Text.Natural

/-!
# Reading floating point numbers

A number is read from decimal digits with an optional sign, point and
exponent, or from the words for infinity and for no number, and is rounded
correctly however many digits it has.
-/

namespace TimeSync.Binary64

open TimeSync.Text

/-- The number nearest to `digits * 10 ^ exponent`.  Beyond the range in which
the digits matter the answer is known without them. -/
def ofDecimal (negative : Bool) (digits : Nat) (exponent : Int) : Float :=
  let magnitude : Int := (Nat.toDigits 10 digits).length + exponent
  if digits = 0 ∨ magnitude < -330 then
    nearest negative 0 1
  else if 310 < magnitude then
    nearest negative (Nat.pow 2 1024) 1
  else
    nearest negative (digits * Nat.pow 10 exponent.toNat)
      (Nat.pow 10 (-exponent).toNat)

/-- Reads an exponent: a sign, if any, and digits to the end. -/
def exponent? : List Char → Option Int
  | '-' :: rest => do
    let digits ← digits? rest
    return -Int.ofNat (ofDigits 0 digits)
  | '+' :: rest => do
    let digits ← digits? rest
    return Int.ofNat (ofDigits 0 digits)
  | chars => do
    let digits ← digits? chars
    return Int.ofNat (ofDigits 0 digits)

def unsigned? (negative : Bool) (chars : List Char) : Option Float :=
  let word := chars.map Char.toLower
  if word = ['i', 'n', 'f'] ∨ word = ['i', 'n', 'f', 'i', 'n', 'i', 't', 'y'] then
    some (nearest negative (Nat.pow 2 1024) 1)
  else if word = ['n', 'a', 'n'] then
    some (0.0 / 0.0)
  else do
    let whole := chars.takeWhile Char.isDigit
    let rest := chars.dropWhile Char.isDigit
    let (fraction, rest) := match rest with
      | '.' :: rest => (rest.takeWhile Char.isDigit, rest.dropWhile Char.isDigit)
      | _ => ([], rest)
    let digits ← digits? (whole ++ fraction)
    let exponent ← match rest with
      | [] => some 0
      | char :: rest => if char = 'e' ∨ char = 'E' then exponent? rest else none
    return ofDecimal negative (ofDigits 0 digits) (exponent - fraction.length)

def ofText? (text : List Char) : Option Float :=
  match text with
  | '-' :: rest => unsigned? true rest
  | '+' :: rest => unsigned? false rest
  | _ => unsigned? false text

end TimeSync.Binary64
