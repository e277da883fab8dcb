import TimeSync.Json.Document
import TimeSync.Sync.State

/-!
# Status reports

The published state in the form in which it is printed and handed on: the same
facts without anything that only means something inside the program.
-/

namespace TimeSync.Sync

open Ntp (Fault)

@[ext]
structure Status where
  offset : Int := 0
  sampleOffset : Int := 0
  delay : Int := 0
  stratum : Option UInt8 := none
  server : Option String := none
  synchronized : Bool := false
  lastArrival : Option Int := none
  ageMs : Option Nat := none
  lastFaultCode : Int := 0
  lastFault : Option String := none
  cycles : Nat := 0
  failedCycles : Nat := 0
  servers : List Pool.Health := []
deriving DecidableEq

namespace Status

def ofState (state : State) (now : Instant) : Status :=
  { offset := state.offset
    sampleOffset := state.sampleOffset
    delay := state.delay
    stratum := state.stratum
    server := state.server.map Endpoint.text
    synchronized := state.synchronized
    lastArrival := state.lastArrival
    ageMs := state.lastSync.map fun last => (now.since last).millis % UInt64.size
    lastFaultCode := Fault.codeOf state.lastFault
    lastFault := state.lastFault.map Fault.message
    cycles := state.cycles
    failedCycles := state.failedCycles
    servers := state.servers }

def fieldNames : List String :=
  ["offset_us", "sample_offset_us", "delay_us", "stratum", "server", "synchronized",
    "last_sync_unix_us", "age_ms", "last_error_code", "last_error", "cycles",
    "failed_cycles", "servers"]

def toJson (status : Status) : Json :=
  .ofMembers
    [("offset_us", .ofInt status.offset),
      ("sample_offset_us", .ofInt status.sampleOffset),
      ("delay_us", .ofInt status.delay),
      ("stratum", .ofOption (fun stratum => .ofInt stratum.toNat) status.stratum),
      ("server", .ofOption .ofString status.server),
      ("synchronized", .bool status.synchronized),
      ("last_sync_unix_us", .ofOption .ofInt status.lastArrival),
      ("age_ms", .ofOption (fun age => .ofInt age) status.ageMs),
      ("last_error_code", .ofInt status.lastFaultCode),
      ("last_error", .ofOption .ofString status.lastFault),
      ("cycles", .ofInt status.cycles),
      ("failed_cycles", .ofInt status.failedCycles),
      ("servers", .array (status.servers.map Pool.Health.toJson))]

/-- A time in microseconds that fits in 64 signed bits. -/
def micros? : Json → Option Int :=
  Json.intWithin? Int64.minValue.toInt Int64.maxValue.toInt

def ofJson? (json : Json) : Option Status := do
  let fields ← json.fields? fieldNames
  return {
    offset := ← Json.required fields "offset_us" micros?
    sampleOffset := ← Json.defaulted fields "sample_offset_us" micros? 0
    delay := ← Json.required fields "delay_us" micros?
    stratum := ← Json.optional fields "stratum" Json.word8?
    server := ← Json.optional fields "server" Json.string?
    synchronized := ← Json.required fields "synchronized" Json.bool?
    lastArrival := ← Json.optional fields "last_sync_unix_us" micros?
    ageMs := ← Json.optional fields "age_ms" (Json.natBelow? UInt64.size)
    lastFaultCode := ← Json.required fields "last_error_code"
      (Json.intWithin? Int32.minValue.toInt Int32.maxValue.toInt)
    lastFault := ← Json.optional fields "last_error" Json.string?
    cycles := ← Json.required fields "cycles" (Json.natBelow? UInt64.size)
    failedCycles := ← Json.required fields "failed_cycles" (Json.natBelow? UInt64.size)
    servers := ← Json.required fields "servers" (Json.list? Pool.Health.ofJson?) }

def ofText? (text : List Char) : Option Status := Json.parse? text >>= ofJson?

end Status

end TimeSync.Sync
