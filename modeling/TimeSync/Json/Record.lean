import TimeSync.Json.Basic

/-!
# Records in JSON

A record is read from an object, whose unknown members are ignored and whose
known ones may stand in any order but only once, or from an array of the
fields' values in order.  Either way the result says for each field what was
given for it, if anything.
-/

namespace TimeSync.Json

abbrev Fields := String → Option Json

def givenFor (name : String) (members : List (Option String × Json)) : List Json :=
  (members.filter fun member => member.1 = some name).map Prod.snd

/-- The fields of a record with these names, in order.  The names of an object's
members have to be plain text. -/
def fields? (names : List String) : Json → Option Fields
  | .object members =>
    if members.any (fun member => member.1.isNone)
        ∨ names.any (fun name => 1 < (givenFor name members).length) then
      none
    else
      some fun name => (givenFor name members).head?
  | .array elements =>
    if names.length < elements.length then
      none
    else
      some fun name => (names.zip elements).lookup name
  | _ => none

def required {α : Type} (fields : Fields) (name : String)
    (decode : Json → Option α) : Option α :=
  fields name >>= decode

/-- A field with a value of its own where none is given. -/
def defaulted {α : Type} (fields : Fields) (name : String)
    (decode : Json → Option α) (value : α) : Option α :=
  match fields name with
  | none => some value
  | some json => decode json

def nullable {α : Type} (decode : Json → Option α) : Json → Option (Option α)
  | .null => some none
  | json => some <$> decode json

/-- A field whose value may be null, and is null where none is given. -/
def optional {α : Type} (fields : Fields) (name : String)
    (decode : Json → Option α) : Option (Option α) :=
  defaulted fields name (nullable decode) none

def string? : Json → Option String
  | .text content => content
  | _ => none

def bool? : Json → Option Bool
  | .bool value => some value
  | _ => none

def int? : Json → Option Int
  | .number written => written.int?
  | _ => none

def intWithin? (low high : Int) (json : Json) : Option Int := do
  let value ← json.int?
  if low ≤ value ∧ value ≤ high then some value else none

def natBelow? (bound : Nat) (json : Json) : Option Nat := do
  let value ← json.int?
  if 0 ≤ value ∧ value < bound then some value.toNat else none

def word8? (json : Json) : Option UInt8 := UInt8.ofNat <$> json.natBelow? UInt8.size

def word16? (json : Json) : Option UInt16 := UInt16.ofNat <$> json.natBelow? UInt16.size

def word32? (json : Json) : Option UInt32 := UInt32.ofNat <$> json.natBelow? UInt32.size

def word64? (json : Json) : Option UInt64 := UInt64.ofNat <$> json.natBelow? UInt64.size

def list? {α : Type} (decode : Json → Option α) : Json → Option (List α)
  | .array elements => elements.mapM decode
  | _ => none

end TimeSync.Json
