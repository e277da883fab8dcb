import TimeSync.Json.Record
import TimeSync.Pool.Basic

/-!
# Health of the servers

The part of the pool's history that is published, one record for each server.
-/

namespace TimeSync.Pool

open Ntp (Fault)

@[ext]
structure Health where
  server : String
  failuresInARow : Nat
  successes : Nat
  failures : Nat
  coolingDown : Bool
  /-- Milliseconds until the cooldown ends, in 64 bits. -/
  remainingMs : Nat
  lastFaultCode : Int
deriving DecidableEq

def Entry.health (now : Instant) (entry : Entry) : Health :=
  { server := entry.endpoint.text
    failuresInARow := entry.failuresInARow
    successes := entry.successes
    failures := entry.failures
    coolingDown := entry.inCooldown now
    remainingMs := match entry.cooldownUntil with
      | none => 0
      | some last => (last.since now).millis % UInt64.size
    lastFaultCode := Fault.codeOf entry.lastFault }

def health (pool : Pool) (now : Instant) : List Health :=
  pool.entries.map (Entry.health now)

namespace Health

def fieldNames : List String :=
  ["server", "consecutive_failures", "total_successes", "total_failures",
    "cooling_down", "cooldown_remaining_ms", "last_error_code"]

def toJson (health : Health) : Json :=
  .ofMembers
    [("server", .ofString health.server),
      ("consecutive_failures", .ofInt health.failuresInARow),
      ("total_successes", .ofInt health.successes),
      ("total_failures", .ofInt health.failures),
      ("cooling_down", .bool health.coolingDown),
      ("cooldown_remaining_ms", .ofInt health.remainingMs),
      ("last_error_code", .ofInt health.lastFaultCode)]

def ofJson? (json : Json) : Option Health := do
  let fields ← json.fields? fieldNames
  return {
    server := ← Json.required fields "server" Json.string?
    failuresInARow := ← Json.required fields "consecutive_failures"
      (Json.natBelow? UInt32.size)
    successes := ← Json.required fields "total_successes" (Json.natBelow? UInt64.size)
    failures := ← Json.required fields "total_failures" (Json.natBelow? UInt64.size)
    coolingDown := ← Json.required fields "cooling_down" Json.bool?
    remainingMs := ← Json.required fields "cooldown_remaining_ms"
      (Json.natBelow? UInt64.size)
    lastFaultCode := ← Json.required fields "last_error_code"
      (Json.intWithin? Int32.minValue.toInt Int32.maxValue.toInt) }

end Health

end TimeSync.Pool
