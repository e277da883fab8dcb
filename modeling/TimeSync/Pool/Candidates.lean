import TimeSync.Pool.Basic

/-!
# Candidates of a cycle

A cycle tries the healthy servers in the order of the pool's selection, then
those that failed too often but have cooled down, the ones with the fewest
failures first.  Servers that are cooling down are left out.
-/

namespace TimeSync.Pool

def start (pool : Pool) : Nat :=
  match pool.selection with
  | .priority => 0
  | .failover | .roundRobin => pool.cursor % pool.size

def advance (pool : Pool) : Pool :=
  match pool.selection with
  | .roundRobin => { pool with cursor := (pool.start + 1) % pool.size }
  | .priority | .failover => pool

/-- All servers, in a circle from the one with which the search starts. -/
def circle (pool : Pool) : List Nat :=
  (List.range pool.size).map fun step => (pool.start + step) % pool.size

def eligible (pool : Pool) (now : Instant) (index : Nat) : Bool :=
  match pool.entries[index]? with
  | none => false
  | some entry => ¬ entry.inCooldown now

def failuresInARow (pool : Pool) (index : Nat) : Nat :=
  match pool.entries[index]? with
  | none => 0
  | some entry => entry.failuresInARow

def healthy (pool : Pool) (index : Nat) : Bool :=
  pool.failuresInARow index < pool.threshold

/-- The servers to try, the best first. -/
def candidates (pool : Pool) (now : Instant) : List Nat :=
  let eligible := pool.circle.filter (pool.eligible now)
  eligible.filter pool.healthy ++
    (eligible.filter fun index => ¬ pool.healthy index).mergeSort
      fun first second => pool.failuresInARow first ≤ pool.failuresInARow second

/-- The servers to try, and the pool once the search has started. -/
def search (pool : Pool) (now : Instant) : List Nat × Pool :=
  if pool.entries = [] then ([], pool) else (pool.candidates now, pool.advance)

/-- The earliest instant after `now` at which a cooldown ends. -/
def nextRecovery (pool : Pool) (now : Instant) : Option Instant :=
  let ends := (pool.entries.filterMap Entry.cooldownUntil).filter (now < ·)
  match ends with
  | [] => none
  | first :: rest => some (rest.foldl Instant.earlier first)

end TimeSync.Pool
