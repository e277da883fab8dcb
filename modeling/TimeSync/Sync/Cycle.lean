import TimeSync.Pool.Candidates
import TimeSync.Pool.Report
import TimeSync.Sync.State

/-!
# Cycles of a synchronisation

A cycle asks the candidates of the pool in turn until one gives a reply that
is not too slow, and publishes what came of it.  `Poller.attempts` lists the
servers that were asked with their outcomes; the outcome of the last is the
outcome of the cycle.
-/

namespace TimeSync.Sync

open Ntp (Fault Sample Outcome)

/-- Asks a server for the time; the surroundings may change meanwhile. -/
abbrev Source (ε : Type) := Endpoint → Duration → Context ε → Outcome × Context ε

/-- A reply is accepted only within the limit on its delay, if there is one. -/
def withinLimit (limit : Option Duration) (sample : Sample) : Outcome :=
  match limit with
  | none => .ok sample
  | some limit =>
    let most : Int := min limit.micros Int64.maxValue.toInt
    if most < sample.delay then
      .error (.delayTooHigh sample.delay most)
    else
      .ok sample

/-- One server asked in a cycle, and what came of it. -/
structure Attempt where
  index : Nat
  endpoint : Endpoint
  outcome : Outcome
  /-- When the outcome was known. -/
  known : Instant

/-- What is carried from one server to the next within a cycle. -/
structure Trial (ε : Type) where
  pool : Pool
  context : Context ε

namespace Trial

variable {ε : Type}

def ask (source : Source ε) (timeout : Duration) (index : Nat) (entry : Pool.Entry)
    (trial : Trial ε) : Attempt × Trial ε :=
  let (reply, context) := source entry.endpoint timeout trial.context
  let outcome := reply >>= withinLimit entry.maxDelay
  let trial := match outcome with
    | .ok _ =>
      { pool := trial.pool.recordSuccess index context.now
        context := trial.pool.reportSuccess index context }
    | .error fault =>
      { pool := trial.pool.recordFailure index fault context.now
        context := trial.pool.reportFailure index fault context }
  (⟨index, entry.endpoint, outcome, context.now⟩, trial)

def askInTurn (source : Source ε) (timeout : Duration) :
    List Nat → Trial ε → List Attempt × Trial ε
  | [], trial => ([], trial)
  | index :: rest, trial =>
    match trial.pool.entries[index]? with
    | none => askInTurn source timeout rest trial
    | some entry =>
      let (attempt, trial) := trial.ask source timeout index entry
      match attempt.outcome with
      | .ok _ => ([attempt], trial)
      | .error _ =>
        let (attempts, trial) := askInTurn source timeout rest trial
        (attempt :: attempts, trial)

end Trial

/-- What came of a cycle: the last server's outcome, or that there was none. -/
def conclusion (attempts : List Attempt) : Outcome :=
  match attempts.getLast? with
  | none => .error .noServersAvailable
  | some attempt => attempt.outcome

/-- A pool, the settings that it follows and what has been published. -/
structure Poller where
  pool : Pool
  settings : Settings
  state : State := {}

namespace Poller

variable {ε : Type}

def ofSettings (settings : Settings) : Poller :=
  { pool := .ofSettings settings, settings }

def reportNoCandidates (pool : Pool) (context : Context ε) : Context ε :=
  match pool.nextRecovery context.now with
  | none => context.note .warn "[Sync] no servers available"
  | some recovery =>
    let pause := (recovery.since context.now).text
    context.note .warn s!"[Sync] every server is cooling down, next retry in {pause}"

/-- The servers asked in a cycle, and the pool and the surroundings after it. -/
def attempts (source : Source ε) (poller : Poller) (context : Context ε) :
    List Attempt × Trial ε :=
  let (candidates, pool) := poller.pool.search context.now
  let context := if candidates = [] then reportNoCandidates pool context else context
  Trial.askInTurn source poller.settings.queryTimeout candidates { pool, context }

def publish (poller : Poller) (attempts : List Attempt) (now : Instant) : State :=
  let servers := poller.pool.health now
  match attempts.getLast? with
  | some ⟨_, endpoint, .ok sample, _⟩ =>
    poller.state.succeed endpoint sample poller.settings.smoothingAlpha now servers
  | some ⟨_, _, .error fault, _⟩ => poller.state.fail fault servers
  | none => poller.state.fail .noServersAvailable servers

def report (before after : State) (context : Context ε) : Context ε :=
  let offset := after.offset
  let delay := after.delay
  match after.lastFault with
  | some fault =>
    let cycle := after.cycles
    let reason := fault.message
    context.note .warn s!"[Sync] cycle {cycle} failed: {reason} (keeping offset {offset}us)"
  | none =>
    if before.synchronized then
      let server := (after.server.map Endpoint.text).getD ""
      context.note .debug s!"[Sync] offset {offset}us (delay {delay}us) from {server}"
    else
      let stratum := after.stratum.getD 0
      context.note .info
        s!"[Sync] first sync: offset {offset}us (delay {delay}us, stratum {stratum})"

@[simp] theorem now_reportNoCandidates (pool : Pool) (context : Context ε) :
    (reportNoCandidates pool context).now = context.now := by
  unfold reportNoCandidates
  split <;> rfl

@[simp] theorem now_report (before after : State) (context : Context ε) :
    (report before after context).now = context.now := by
  unfold report
  dsimp only
  split
  · rfl
  · split <;> rfl

def runCycle (source : Source ε) (poller : Poller) (context : Context ε) :
    Outcome × Poller × Context ε :=
  let (attempts, trial) := poller.attempts source context
  let asked := { poller with pool := trial.pool }
  let state := asked.publish attempts trial.context.now
  (conclusion attempts, { asked with state }, report poller.state state trial.context)

/-- Other servers in place of the present ones, without any history.  Settings
that would not pass the checks change nothing. -/
def replaceServers (poller : Poller) (servers : List Endpoint) (context : Context ε) :
    Except SettingsFault Unit × Poller × Context ε :=
  let settings := { poller.settings with servers }
  match settings.fault? with
  | some fault => (.error fault, poller, context)
  | none =>
    let pool := Pool.ofSettings settings
    let count := servers.length
    (.ok (),
      { pool, settings,
        state := { poller.state with servers := pool.health context.now } },
      context.note .info s!"[Sync] server pool replaced ({count} server(s))")

end Poller

end TimeSync.Sync
