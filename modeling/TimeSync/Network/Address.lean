import TimeSync.Text.Hexadecimal
import TimeSync.Text.Natural
import TimeSync.Text.Parts

/-!
# Addresses

Addresses of the two internet protocols in their usual text: four decimal
octets, or eight hexadecimal groups of which the longest run of zeros may be
left out.  Four octets may also be written with fewer or with other numbers.
Eight groups may come with a zone, which is the number of an interface of the
system, after a percent sign.
-/

namespace TimeSync.Network

inductive Address where
  | v4 (octets : List Nat)
  /-- Zone zero is no zone at all. -/
  | v6 (groups : List Nat) (zone : UInt32)
deriving DecidableEq

namespace Address

def isV4 : Address → Bool
  | v4 _ => true
  | v6 _ _ => false

/-- An octet: up to three digits without a superfluous zero. -/
def octet? (chars : List Char) : Option Nat := do
  let digits ← Text.digits? chars
  let value := Text.ofDigits 0 digits
  if 3 < chars.length ∨ 255 < value ∨ (digits.head? = some 0 ∧ 1 < chars.length) then
    none
  else
    some value

def octets? (chars : List Char) : Option (List Nat) :=
  let parts := Text.parts '.' chars
  if parts.length = 4 then parts.mapM octet? else none

/-- The value of digits in a base up to sixteen. -/
def inBase? (base : Nat) (chars : List Char) : Option Nat := do
  let digits ← chars.mapM Text.hexValue?
  if digits.all (· < base) then
    some (digits.foldl (fun value digit => base * value + digit) 0)
  else
    none

/-- A number as in programs: hexadecimal after `0x`, octal after another zero, else
decimal. -/
def number? : List Char → Option Nat
  | [] => none
  | '0' :: 'x' :: digit :: digits => inBase? 16 (digit :: digits)
  | '0' :: 'X' :: digit :: digits => inBase? 16 (digit :: digits)
  | '0' :: digits => inBase? 8 digits
  | digits => inBase? 10 digits

def bytesOf : Nat → Nat → List Nat
  | 0, _ => []
  | count + 1, number => bytesOf count (number / 256) ++ [number % 256]

/-- Up to four numbers for four octets, where the last stands for all the octets
that are left. -/
def looseOctets? (chars : List Char) : Option (List Nat) := do
  let numbers ← (Text.parts '.' chars).mapM number?
  let first := numbers.dropLast
  let last ← numbers.getLast?
  if first.length ≤ 3 ∧ first.all (· < 256) ∧ last < Nat.pow 256 (4 - first.length) then
    some (first ++ bytesOf (4 - first.length) last)
  else
    none

/-- A group: one to four hexadecimal digits. -/
def group? (chars : List Char) : Option Nat :=
  if chars = [] ∨ 4 < chars.length then none else inBase? 16 chars

/-- Groups with colons between them; the last two may be written as octets where
that is allowed. -/
def groups? (octets : Bool) : List (List Char) → Option (List Nat)
  | [] => some []
  | [last] =>
    match octets, octets? last with
    | true, some [first, second, third, fourth] =>
      some [256 * first + second, 256 * third + fourth]
    | _, _ => (group? last).map fun group => [group]
  | part :: parts => do
    let group ← group? part
    return group :: (← groups? octets parts)

def splitGap? : List Char → Option (List Char × List Char)
  | ':' :: ':' :: rest => some ([], rest)
  | char :: rest => (splitGap? rest).map fun parts => (char :: parts.1, parts.2)
  | [] => none

def side? (octets : Bool) (chars : List Char) : Option (List Nat) :=
  if chars = [] then some [] else groups? octets (Text.parts ':' chars)

def eightGroups? (chars : List Char) : Option (List Nat) := do
  match splitGap? chars with
  | none =>
    let groups ← groups? true (Text.parts ':' chars)
    if groups.length = 8 then some groups else none
  | some (before, after) =>
    let head ← side? false before
    let tail ← side? true after
    if head.length + tail.length ≤ 7 then
      some (head ++ List.replicate (8 - (head.length + tail.length)) 0 ++ tail)
    else
      none

/-- Whether every interface has addresses of this kind of its own. -/
def isLinkLocal (groups : List Nat) : Bool :=
  match groups with
  | first :: _ => first / 64 = 0xfe80 / 64 ∨ (first / 256 = 0xff ∧ first % 16 = 2)
  | [] => false

/-- The number of an interface in 32 bits; for an address that is local to a link, the
loopback interface, which is the first of every system, may be named. -/
def zone? (groups : List Nat) (chars : List Char) : Option UInt32 :=
  if isLinkLocal groups ∧ chars = ['l', 'o'] then
    some 1
  else do
    let number := Text.ofDigits 0 (← Text.digits? chars)
    if number < UInt32.size then some (.ofNat number) else none

/-- The groups before a percent sign, and the zone after it as it is written. -/
def splitZone? (chars : List Char) : Option (List Nat × List Char) := do
  let (before, after) ← Text.splitFirst? '%' chars
  return (← eightGroups? before, after)

def zoned? (chars : List Char) : Option Address := do
  let (groups, zone) ← splitZone? chars
  return v6 groups (← zone? groups zone)

def ofText? (text : String) : Option Address :=
  match octets? text.toList, eightGroups? text.toList with
  | some octets, _ => some (v4 octets)
  | none, some groups => some (v6 groups 0)
  | none, none => ((looseOctets? text.toList).map v4).or (zoned? text.toList)

def octetsText (octets : List Nat) : String :=
  ".".intercalate (octets.map Nat.repr)

def groupsText (groups : List Nat) : String :=
  ":".intercalate (groups.map fun group => String.ofList (Nat.toDigits 16 group))

/-- Start and length of the longest run of zeros, the first of several; `current`
is the run just before the groups, which start at `index`. -/
def longestZeros (index : Nat) (current longest : Nat × Nat) : List Nat → Nat × Nat
  | [] => longest
  | group :: rest =>
    if group = 0 then
      let current := if current.2 = 0 then (index, 1) else (current.1, current.2 + 1)
      let longest := if longest.2 < current.2 then current else longest
      longestZeros (index + 1) current longest rest
    else
      longestZeros (index + 1) (0, 0) longest rest

def text : Address → String
  | v4 octets => octetsText octets
  | v6 groups _ =>
    match groups with
    | [0, 0, 0, 0, 0, 0xffff, high, low] =>
      "::ffff:" ++ octetsText [high / 256, high % 256, low / 256, low % 256]
    | _ =>
      let (start, length) := longestZeros 0 (0, 0) (0, 0) groups
      if 1 < length then
        groupsText (groups.take start) ++ "::" ++ groupsText (groups.drop (start + length))
      else
        groupsText groups

def withPort (address : Address) (port : UInt16) : String :=
  let shown := address.text
  match address with
  | v4 _ => s!"{shown}:{port}"
  | v6 _ zone => if zone = 0 then s!"[{shown}]:{port}" else s!"[{shown}%{zone}]:{port}"

end Address

end TimeSync.Network
