import TimeSync.Text.Natural

/-!
# JSON values

A number keeps the digits it was written with, since whole numbers and floating
point numbers read them differently.  A text is `none` where its escapes leave
half of a surrogate pair: such a text may stand in a value that nobody reads.
-/

namespace TimeSync

/-- A number as written.  No fraction is an empty list of digits. -/
structure NumberText where
  negative : Bool
  whole : List Nat
  fraction : List Nat
  /-- Whether the exponent is negative, and its digits. -/
  exponent : Option (Bool × List Nat)
deriving DecidableEq

inductive Json where
  | null
  | bool (value : Bool)
  | number (written : NumberText)
  | text (content : Option String)
  | array (elements : List Json)
  | object (members : List (Option String × Json))

namespace NumberText

def ofInt (value : Int) : NumberText :=
  { negative := value < 0
    whole := Text.digits value.natAbs
    fraction := []
    exponent := none }

/-- The whole number written, unless it has a point or an exponent.  A negative
zero is not a whole number. -/
def int? (written : NumberText) : Option Int :=
  if written.fraction ≠ [] ∨ written.exponent ≠ none then
    none
  else
    let value := Text.ofDigits 0 written.whole
    if written.negative then
      if value = 0 then none else some (-value)
    else
      some value

theorem int?_ofInt (value : Int) : (ofInt value).int? = some value := by
  have noPoint : ¬ ((ofInt value).fraction ≠ [] ∨ (ofInt value).exponent ≠ none) := by
    rintro (some | some) <;> exact some rfl
  have size : Text.ofDigits 0 (ofInt value).whole = value.natAbs :=
    Text.ofDigits_digits _
  have sign : (ofInt value).negative = decide (value < 0) := rfl
  rw [int?, if_neg noPoint, size, sign]
  by_cases below : value < 0
  · have positive : ¬ (value.natAbs : Nat) = 0 := by omega
    have same : -(value.natAbs : Int) = value := by omega
    simp only [below, decide_true, if_true, positive, if_false, same]
  · have same : (value.natAbs : Int) = value := by omega
    simp only [below, decide_false, Bool.false_eq_true, if_false, same]

end NumberText

namespace Json

def ofString (content : String) : Json := .text (some content)

def ofInt (value : Int) : Json := .number (.ofInt value)

def ofMembers (members : List (String × Json)) : Json :=
  .object (members.map fun member => (some member.1, member.2))

def ofOption {α : Type} (encode : α → Json) : Option α → Json
  | none => .null
  | some value => encode value

end Json

end TimeSync
