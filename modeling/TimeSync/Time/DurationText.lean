import TimeSync.Time.Duration

/-!
# Durations in messages

A duration is written in the largest of the units s, ms, µs and ns of which
it holds at least one, with as many decimals as it needs.
-/

namespace TimeSync.Duration

/-- The decimals of `value` parts out of `10 ^ places`, without final zeros. -/
def decimals : Nat → Nat → List Char
  | 0, _ => []
  | places + 1, value =>
    if value = 0 then
      []
    else
      Nat.digitChar (value / Nat.pow 10 places) :: decimals places (value % Nat.pow 10 places)

/-- A count of units with `value` parts out of `10 ^ places` and the unit's name. -/
def amount (whole places value : Nat) (unit : String) : String :=
  match decimals places value with
  | [] => s!"{whole}{unit}"
  | digits => s!"{whole}.{String.ofList digits}{unit}"

def text (duration : Duration) : String :=
  let nanos := duration.nanos
  if 1000000000 ≤ nanos then
    amount duration.seconds 9 duration.subsecond "s"
  else if 1000000 ≤ nanos then
    amount (nanos / 1000000) 6 (nanos % 1000000) "ms"
  else if 1000 ≤ nanos then
    amount (nanos / 1000) 3 (nanos % 1000) "µs"
  else
    amount nanos 0 0 "ns"

end TimeSync.Duration
