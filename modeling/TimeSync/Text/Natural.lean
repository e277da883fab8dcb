/-!
# Whole numbers in text

Whole numbers are read from plain decimal digits with an optional plus sign,
and refused above a bound.
-/

namespace TimeSync.Text

def digitValue? (char : Char) : Option Nat :=
  if char.isDigit then some (char.toNat - 48) else none

/-- The number that a list of digits writes, with `value` before them. -/
def ofDigits (value : Nat) (digits : List Nat) : Nat :=
  digits.foldl (fun sum digit => 10 * sum + digit) value

def digits (number : Nat) : List Nat :=
  if number < 10 then [number] else digits (number / 10) ++ [number % 10]

def ofDigitValues (digits : List Nat) : List Char := digits.map Nat.digitChar

theorem ofDigits_append (value : Nat) (first second : List Nat) :
    ofDigits value (first ++ second) = ofDigits (ofDigits value first) second :=
  List.foldl_append

@[simp] theorem ofDigits_digits (number : Nat) : ofDigits 0 (digits number) = number := by
  rw [digits]
  split
  · simp [ofDigits]
  · rw [ofDigits_append, ofDigits_digits (number / 10)]
    simp only [ofDigits, List.foldl_cons, List.foldl_nil]
    omega

/-- Reads digits to the end of the text; there must be one at least. -/
def digits? : List Char → Option (List Nat)
  | [] => none
  | chars => chars.mapM digitValue?

/-- Reads a number up to `bound`, with an optional plus sign. -/
def natural? (bound : Nat) (chars : List Char) : Option Nat := do
  let unsigned := match chars with
    | '+' :: rest => rest
    | _ => chars
  let value := ofDigits 0 (← digits? unsigned)
  if value ≤ bound then some value else none

def natural16? (chars : List Char) : Option UInt16 :=
  (natural? (UInt16.size - 1) chars).map UInt16.ofNat

def natural64? (chars : List Char) : Option UInt64 :=
  (natural? (UInt64.size - 1) chars).map UInt64.ofNat

end TimeSync.Text
