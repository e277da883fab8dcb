import TimeSync.Ntp.Stamp

/-!
# NTP packets

A packet is 48 bytes: four single bytes, three words and four timestamps, all
words with the most significant byte first.  `encode` writes them in order and
`decode?` takes them off in the same order, so that neither mentions a
position.
-/

namespace TimeSync.Ntp

@[ext]
structure Packet where
  /-- Leap indicator, version and mode. -/
  flags : UInt8 := 0
  stratum : UInt8 := 0
  poll : Int8 := 0
  precision : Int8 := 0
  rootDelay : UInt32 := 0
  rootDispersion : UInt32 := 0
  referenceId : UInt32 := 0
  reference : Stamp := {}
  origin : Stamp := {}
  receive : Stamp := {}
  transmit : Stamp := {}
deriving DecidableEq

def wordBytes (word : UInt32) : List UInt8 :=
  [.ofNat (word.toNat / 0x1000000), .ofNat (word.toNat / 0x10000),
    .ofNat (word.toNat / 0x100), .ofNat word.toNat]

def stampBytes (stamp : Stamp) : List UInt8 :=
  wordBytes stamp.seconds ++ wordBytes stamp.fraction

def takeWord? : List UInt8 → Option (UInt32 × List UInt8)
  | first :: second :: third :: fourth :: rest =>
    some (.ofNat (first.toNat * 0x1000000 + second.toNat * 0x10000
      + third.toNat * 0x100 + fourth.toNat), rest)
  | _ => none

def takeStamp? (bytes : List UInt8) : Option (Stamp × List UInt8) := do
  let (seconds, bytes) ← takeWord? bytes
  let (fraction, bytes) ← takeWord? bytes
  return (⟨seconds, fraction⟩, bytes)

@[simp] theorem takeWord?_wordBytes (word : UInt32) (rest : List UInt8) :
    takeWord? (wordBytes word ++ rest) = some (word, rest) := by
  simp only [wordBytes, takeWord?, List.cons_append, List.nil_append,
    Option.some.injEq, Prod.mk.injEq, and_true]
  apply UInt32.toNat_inj.mp
  have := word.toNat_lt
  simp only [UInt32.toNat_ofNat', UInt8.toNat_ofNat']
  omega

@[simp] theorem takeStamp?_stampBytes (stamp : Stamp) (rest : List UInt8) :
    takeStamp? (stampBytes stamp ++ rest) = some (stamp, rest) := by
  simp [takeStamp?, stampBytes, List.append_assoc]

@[simp] theorem takeStamp?_stampBytes_nil (stamp : Stamp) :
    takeStamp? (stampBytes stamp) = some (stamp, []) := by
  simpa using takeStamp?_stampBytes stamp []

namespace Packet

def packFlags (leap version mode : Nat) : UInt8 :=
  .ofNat (leap % 4 * 64 + version % 8 * 8 + mode % 8)

def leap (packet : Packet) : Nat := packet.flags.toNat / 64

def version (packet : Packet) : Nat := packet.flags.toNat / 8 % 8

def mode (packet : Packet) : Nat := packet.flags.toNat % 8

/-- The visible ASCII characters of the reference id. -/
def referenceCode (packet : Packet) : String :=
  String.ofList <| ((wordBytes packet.referenceId).filter fun byte =>
    0x21 ≤ byte.toNat ∧ byte.toNat ≤ 0x7e).map fun byte => Char.ofNat byte.toNat

def size : Nat := 48

def encode (packet : Packet) : List UInt8 :=
  [packet.flags, packet.stratum, packet.poll.toUInt8, packet.precision.toUInt8]
    ++ (wordBytes packet.rootDelay
    ++ (wordBytes packet.rootDispersion
    ++ (wordBytes packet.referenceId
    ++ (stampBytes packet.reference
    ++ (stampBytes packet.origin
    ++ (stampBytes packet.receive
    ++ stampBytes packet.transmit))))))

/-- Reads the fields; the bytes have to end with the last one. -/
def decode? : List UInt8 → Option Packet
  | flags :: stratum :: poll :: precision :: bytes => do
    let (rootDelay, bytes) ← takeWord? bytes
    let (rootDispersion, bytes) ← takeWord? bytes
    let (referenceId, bytes) ← takeWord? bytes
    let (reference, bytes) ← takeStamp? bytes
    let (origin, bytes) ← takeStamp? bytes
    let (receive, bytes) ← takeStamp? bytes
    let (transmit, bytes) ← takeStamp? bytes
    if bytes = [] then
      return {
        flags, stratum, poll := poll.toInt8, precision := precision.toInt8
        rootDelay, rootDispersion, referenceId
        reference, origin, receive, transmit }
    else
      none
  | _ => none

@[simp] theorem length_encode (packet : Packet) : packet.encode.length = size := rfl

@[simp] theorem decode?_encode (packet : Packet) :
    decode? packet.encode = some packet := by
  simp [encode, decode?]

end Packet

end TimeSync.Ntp
