/-!
# Hexadecimal text

Numbers in hexadecimal digits, which are read in either case and written in
lower case.
-/

namespace TimeSync.Text

def hexValue? (char : Char) : Option Nat :=
  if char.isDigit then
    some (char.toNat - 48)
  else if 'a' ≤ char ∧ char ≤ 'f' then
    some (char.toNat - 87)
  else if 'A' ≤ char ∧ char ≤ 'F' then
    some (char.toNat - 55)
  else
    none

/-- The last `width` digits of a number, the most significant first. -/
def hexDigits : Nat → Nat → List Char
  | 0, _ => []
  | width + 1, number => hexDigits width (number / 16) ++ [Nat.digitChar (number % 16)]

theorem hexValue?_digitChar {value : Nat} (small : value < 16) :
    hexValue? (Nat.digitChar value) = some value := by
  have all : ∀ value : Fin 16,
      hexValue? (Nat.digitChar value.val) = some value.val := by decide
  exact all ⟨value, small⟩

end TimeSync.Text
