import TimeSync.Pool.Basic
import TimeSync.Time.DurationText

/-!
# Messages about the pool

What is written to the log when a server succeeds or fails, and the two
operations together with their messages.
-/

namespace TimeSync.Pool

open Ntp (Fault)

variable {ε : Type}

/-- The message about an accepted reply: only a server that had reached the
threshold is worth one. -/
def reportSuccess (pool : Pool) (index : Nat) (context : Context ε) : Context ε :=
  match pool.entries[index]? with
  | none => context
  | some entry =>
    if pool.threshold ≤ entry.failuresInARow then
      let server := entry.endpoint.text
      let count := entry.failuresInARow
      context.note .info s!"[Pool] {server} recovered after {count} failures"
    else
      context

def reportFailure (pool : Pool) (index : Nat) (fault : Fault) (context : Context ε) :
    Context ε :=
  match pool.entries[index]? with
  | none => context
  | some entry =>
    let server := entry.endpoint.text
    let count := Entry.oneMore entry.failuresInARow
    let threshold := pool.threshold
    let reason := fault.message
    if pool.threshold ≤ count then
      let pause := entry.backoff.text
      context.note .warn
        s!"[Pool] {server} failed {count} times in a row ({reason}), cooling down for {pause}"
    else
      context.note .debug s!"[Pool] {server} failure {count}/{threshold}: {reason}"

@[simp] theorem now_reportSuccess (pool : Pool) (index : Nat) (context : Context ε) :
    (pool.reportSuccess index context).now = context.now := by
  unfold reportSuccess
  split
  · rfl
  · split <;> rfl

@[simp] theorem now_reportFailure (pool : Pool) (index : Nat) (fault : Fault)
    (context : Context ε) : (pool.reportFailure index fault context).now = context.now := by
  unfold reportFailure
  split
  · rfl
  · dsimp only
    split <;> rfl

end TimeSync.Pool
