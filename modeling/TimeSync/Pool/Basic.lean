import TimeSync.Ntp.Fault
import TimeSync.Settings.Basic
import TimeSync.Context

/-!
# The pool of servers

A pool remembers how each server has fared.  A server that fails too often in
a row has to cool down, each time twice as long as before up to a limit, until
it answers again; no server ever leaves the pool.
-/

namespace TimeSync

open Ntp (Fault)

/-- One server of the pool and how it has fared. -/
@[ext]
structure Pool.Entry where
  endpoint : Endpoint
  /-- Failures since the last success, as far as 32 bits count them. -/
  failuresInARow : Nat := 0
  successes : Nat := 0
  failures : Nat := 0
  lastSuccess : Option Instant := none
  lastFailure : Option Instant := none
  /-- How long the next cooldown will be. -/
  backoff : Duration
  cooldownUntil : Option Instant := none
  lastFault : Option Fault := none
  maxDelay : Option Duration
deriving DecidableEq

@[ext]
structure Pool where
  entries : List Pool.Entry
  selection : Selection
  threshold : Nat
  cooldownInitial : Duration
  cooldownMax : Duration
  /-- The server with which the next search starts. -/
  cursor : Nat := 0
deriving DecidableEq

namespace Pool

namespace Entry

def fresh (settings : Settings) (endpoint : Endpoint) : Entry :=
  { endpoint
    backoff := settings.cooldownInitial
    maxDelay := settings.maxDelayFor endpoint }

def inCooldown (entry : Entry) (now : Instant) : Bool :=
  match entry.cooldownUntil with
  | none => false
  | some last => now < last

def succeed (initial : Duration) (now : Instant) (entry : Entry) : Entry :=
  { entry with
    failuresInARow := 0
    successes := entry.successes + 1
    lastSuccess := some now
    backoff := initial
    cooldownUntil := none
    lastFault := none }

/-- The count of failures in a row after one more. -/
def oneMore (count : Nat) : Nat := min (count + 1) (UInt32.size - 1)

/-- The entry after a failure: from the threshold on it has to cool down. -/
def fail (threshold : Nat) (most : Duration) (fault : Fault) (now : Instant)
    (entry : Entry) : Entry :=
  let count := oneMore entry.failuresInARow
  let failed :=
    { entry with
      failuresInARow := count
      failures := entry.failures + 1
      lastFailure := some now
      lastFault := some fault }
  if threshold ≤ count then
    { failed with
      cooldownUntil := now.add? entry.backoff
      backoff := entry.backoff.double.shorter most }
  else
    failed

end Entry

def ofSettings (settings : Settings) : Pool :=
  { entries := settings.servers.map (Entry.fresh settings)
    selection := settings.selection
    threshold := max settings.failureThreshold.toNat 1
    cooldownInitial := settings.cooldownInitial
    cooldownMax := settings.cooldownMax }

def size (pool : Pool) : Nat := pool.entries.length

def recordSuccess (pool : Pool) (index : Nat) (now : Instant) : Pool :=
  { pool with
    entries := pool.entries.modify index (Entry.succeed pool.cooldownInitial now)
    cursor := if pool.selection = .failover then index else pool.cursor }

def recordFailure (pool : Pool) (index : Nat) (fault : Fault) (now : Instant) :
    Pool :=
  { pool with
    entries := pool.entries.modify index
      (Entry.fail pool.threshold pool.cooldownMax fault now)
    cursor :=
      if pool.selection = .failover ∧ pool.cursor = index ∧ 0 < pool.size then
        (index + 1) % pool.size
      else
        pool.cursor }

end Pool

end TimeSync
