import TimeSync.Ntp.Fault
import TimeSync.Ntp.Packet

/-!
# One exchange with a server

A request carries the local time at which it leaves, and a reply is accepted
only if it echoes that stamp and passes every check.  The checks have a fixed
order, and the first that fails is the reason for the refusal.
-/

namespace TimeSync.Ntp

/-- What a client sends: the version it speaks and the time it sends. -/
structure Request where
  version : UInt8 := 4
  transmit : Stamp
deriving DecidableEq

namespace Request

/-- The request sent at a local time in microseconds since 1970. -/
def sentAt (micros : Int) : Request := { transmit := .ofUnixMicros micros }

def packet (request : Request) : Packet :=
  { flags := Packet.packFlags 0 request.version.toNat 3, transmit := request.transmit }

def bytes (request : Request) : List UInt8 := request.packet.encode

end Request

/-- The result of an accepted exchange, in microseconds. -/
structure Sample where
  /-- The server's clock less the local one. -/
  offset : Int
  /-- The time on the way, there and back. -/
  delay : Int
  stratum : UInt8
  /-- The local time at which the reply arrived. -/
  arrival : Int
deriving DecidableEq

abbrev Outcome := Except Fault Sample

inductive Refusal where
  | length (found : Nat)
  | mode (found : Nat)
  | version (found : Nat)
  | leapAlarm
  | kissOfDeath (code : String)
  | stratum (found : Nat)
  | origin
  | stampRange
  | stampConversion
  | negativeDelay (delay : Int)
deriving DecidableEq

namespace Refusal

def fault : Refusal → Fault
  | length found => .malformedPacket s!"expected 48 bytes, got {found}"
  | mode found => .malformedPacket s!"mode {found} is not a server response"
  | version found => .malformedPacket s!"unsupported version {found}"
  | leapAlarm => .unsynchronized "leap indicator alarm"
  | kissOfDeath code => .kissOfDeath code
  | stratum found => .unsynchronized s!"stratum {found}"
  | origin => .badTimestamps "origin timestamp does not echo our transmit timestamp"
  | stampRange => .badTimestamps "server timestamps unset or out of range"
  | stampConversion => .badTimestamps "server timestamps out of range"
  | negativeDelay delay => .badTimestamps s!"negative round-trip delay {delay}us"

end Refusal

def readReply (bytes : List UInt8) : Except Refusal Packet :=
  match Packet.decode? bytes with
  | none => .error (.length bytes.length)
  | some packet =>
    if packet.mode = 4 then .ok packet else .error (.mode packet.mode)

/-- The checks of a server's packet against the request that it answers. -/
def checkReply (packet : Packet) (request : Request) : Except Refusal Unit :=
  if ¬ (1 ≤ packet.version ∧ packet.version ≤ 4) then
    .error (.version packet.version)
  else if packet.leap = 3 then
    .error .leapAlarm
  else if packet.stratum = 0 then
    .error (.kissOfDeath packet.referenceCode)
  else if 16 ≤ packet.stratum then
    .error (.stratum packet.stratum.toNat)
  else if packet.origin ≠ request.transmit then
    .error .origin
  else if packet.receive.unixMicros? = none ∨ packet.transmit.unixMicros? = none then
    .error .stampRange
  else
    .ok ()

/-- The offset of the server's clock from four readings: the request sent
(local), received and answered (server), and the reply received (local). -/
def offset (sent received answered arrived : Int) : Int :=
  ((received - sent) + (answered - arrived)).tdiv 2

/-- The time on the way, from the same four readings. -/
def delay (sent received answered arrived : Int) : Int :=
  (arrived - sent) - (answered - received)

/-- What a reply to the request sent at `sent` says when it arrives at `arrived`. -/
def judge (sent arrived : Int) (reply : List UInt8) : Except Refusal Sample := do
  let packet ← readReply reply
  checkReply packet (.sentAt sent)
  match packet.receive.unixMicros?, packet.transmit.unixMicros? with
  | some received, some answered =>
    let delay := delay sent received answered arrived
    if delay < 0 then
      .error (.negativeDelay delay)
    else
      .ok {
        offset := offset sent received answered arrived
        delay
        stratum := packet.stratum
        arrival := arrived }
  | _, _ => .error .stampConversion

end TimeSync.Ntp
