import Mathlib
import TimeSync.Network.Replay
import TimeSync.Simulation.Servers

/-!
# What a client remembers

A client is asked again and again, directly or as a source of samples, and every query may
succeed or fail in any way.  It writes what came of a query to five cells, one after another.
After every query they agree: three of them hold the last sample, whatever has failed since,
and the other two hold the last outcome.
-/

namespace TimeSync.Ntp

/-- Surroundings that hold a client. -/
structure Holder (ε : Type) where
  client : ε → Client
  hold : Client → ε → ε
  client_hold : ∀ held env, client (hold held env) = held

namespace Holder

def source {ε κ : Type} (holder : Holder ε) (transport : Transport ε κ) (clock : LocalClock ε) :
    Sync.Source ε := fun endpoint timeout context =>
  let (outcome, client, context) := (holder.client context.env).query transport clock
    endpoint.host endpoint.port timeout context
  (outcome, context.withEnv (holder.hold client context.env))

def replay : Holder Network.Replay where
  client := Network.Replay.client
  hold client replay := { replay with client }
  client_hold _ _ := rfl

def servers : Holder Simulation.Servers where
  client := Simulation.Servers.client
  hold client servers := { servers with client }
  client_hold _ _ := rfl

theorem source_replay :
    Network.Replay.source = replay.source Network.Replay.transport Context.wallMicros := rfl

theorem source_servers : Simulation.Servers.clientSource =
    servers.source Simulation.Servers.transport Simulation.Servers.localClock := rfl

end Holder

namespace Client

/-- A query, with the surroundings that it finds; `ask` goes through the source. -/
inductive Call (ε : Type) where
  | query (host : String) (port : UInt16) (timeout : Duration) (context : Context ε)
  | ask (endpoint : Endpoint) (timeout : Duration) (context : Context ε)

variable {ε κ : Type} (holder : Holder ε) (transport : Transport ε κ) (clock : LocalClock ε)

/-- What a call of a client returns, and the client after it. -/
def call (client : Client) : Call ε → Outcome × Client
  | .query host port timeout context =>
    let (outcome, after, _) := client.query transport clock host port timeout context
    (outcome, after)
  | .ask endpoint timeout context =>
    let (outcome, after) := holder.source transport clock endpoint timeout
      (context.withEnv (holder.hold client context.env))
    (outcome, holder.client after.env)

/-- What calls return in turn, and the client after them. -/
def calls (client : Client) : List (Call ε) → List Outcome × Client
  | [] => ([], client)
  | first :: later =>
    let (outcome, after) := client.call holder transport clock first
    let (outcomes, last) := calls after later
    (outcome :: outcomes, last)

theorem call_ask (client : Client) (endpoint : Endpoint) (timeout : Duration)
    (context : Context ε) :
    client.call holder transport clock (.ask endpoint timeout context) =
      client.call holder transport clock (.query endpoint.host endpoint.port timeout
        (context.withEnv (holder.hold client context.env))) := by
  simp only [call, Holder.source, Context.env_withEnv, holder.client_hold]

/-- However a client is asked, it remembers what it returns. -/
theorem call_eq_remember (client : Client) (asked : Call ε) :
    (client.call holder transport clock asked).2 =
      client.remember (client.call holder transport clock asked).1 := by
  cases asked with
  | query host port timeout context => rfl
  | ask endpoint timeout context =>
    rw [call_ask]
    rfl

/-- The last sample among some outcomes, which no other has followed. -/
def Latest (outcomes : List Outcome) (sample : Sample) : Prop :=
  ∃ earlier later, outcomes = earlier ++ .ok sample :: later ∧ ∀ other, .ok other ∉ later

theorem Latest.fail {outcomes : List Outcome} {sample : Sample}
    (latest : Latest outcomes sample) (fault : Fault) :
    Latest (outcomes ++ [.error fault]) sample := by
  obtain ⟨earlier, later, rfl, noneLater⟩ := latest
  refine ⟨earlier, later ++ [.error fault], by simp, ?_⟩
  intro other member
  rcases List.mem_append.mp member with before | last
  · exact noneLater other before
  · cases List.mem_singleton.mp last

/-- A client shows these values, and tells the time by this offset: the sum wraps around
only where 64 bits cannot hold it. -/
structure Tells (client : Client) (offset delay stratum : Int) : Prop where
  offset_eq : client.offset = offset
  delay_eq : client.delay = delay
  stratum_eq : client.stratum = stratum
  utcMicros_eq : ∀ reading, client.utcMicros reading = Micros.wrap (reading + offset)
  utcMicros_fits : ∀ reading, Micros.Fits (client.utcMicros reading)
  utcMicros_of_fits : ∀ reading, Micros.Fits (reading + offset) →
    client.utcMicros reading = reading + offset

theorem tells_cells (client : Client) :
    client.Tells client.offset client.delay client.stratum where
  offset_eq := rfl
  delay_eq := rfl
  stratum_eq := rfl
  utcMicros_eq := fun _ => rfl
  utcMicros_fits := fun _ => Micros.fits_wrap _
  utcMicros_of_fits := fun _ fits => Micros.wrap_of_fits fits

theorem Tells.fail {client : Client} {offset delay stratum : Int}
    (tells : client.Tells offset delay stratum) (fault : Fault) :
    (client.remember (.error fault)).Tells offset delay stratum :=
  ⟨tells.offset_eq, tells.delay_eq, tells.stratum_eq, tells.utcMicros_eq,
    tells.utcMicros_fits, tells.utcMicros_of_fits⟩

/-- What the cells of a client hold of the outcomes so far. -/
structure Remembers (outcomes : List Outcome) (client : Client) : Prop where
  success : client.success = true ↔ ∃ sample, outcomes.getLast? = some (.ok sample)
  lastFault : ∀ fault, client.lastFault = some fault ↔ outcomes.getLast? = some (.error fault)
  tells : (∀ sample, .ok sample ∉ outcomes) ∧ client.Tells 0 0 (-1) ∨
    ∃ sample, Latest outcomes sample ∧
      client.Tells sample.offset sample.delay sample.stratum.toNat

theorem Remembers.succeed {outcomes : List Outcome} {client : Client} (sample : Sample) :
    Remembers (outcomes ++ [.ok sample]) (client.remember (.ok sample)) where
  success := by simp [remember]
  lastFault := by simp [remember]
  tells := .inr ⟨sample, ⟨outcomes, [], rfl, fun _ => List.not_mem_nil⟩, tells_cells _⟩

theorem Remembers.fail {outcomes : List Outcome} {client : Client}
    (remembers : Remembers outcomes client) (fault : Fault) :
    Remembers (outcomes ++ [.error fault]) (client.remember (.error fault)) where
  success := by simp [remember]
  lastFault := by simp [remember]
  tells := by
    rcases remembers.tells with ⟨noneYet, tells⟩ | ⟨sample, latest, tells⟩
    · refine .inl ⟨?_, tells.fail fault⟩
      intro sample member
      rcases List.mem_append.mp member with before | last
      · exact noneYet sample before
      · cases List.mem_singleton.mp last
    · exact .inr ⟨sample, latest.fail fault, tells.fail fault⟩

/-- Whatever the outcome, the cells agree on it once all are written. -/
theorem Remembers.remember {outcomes : List Outcome} {client : Client}
    (remembers : Remembers outcomes client) (outcome : Outcome) :
    Remembers (outcomes ++ [outcome]) (client.remember outcome) := by
  cases outcome with
  | ok sample => exact .succeed sample
  | error fault => exact remembers.fail fault

theorem Remembers.calls {before : List Outcome} {client : Client}
    (remembers : Remembers before client) (asked : List (Call ε)) :
    Remembers (before ++ (client.calls holder transport clock asked).1)
      (client.calls holder transport clock asked).2 := by
  induction asked generalizing before client with
  | nil =>
    rw [Client.calls, List.append_nil]
    exact remembers
  | cons first later induction =>
    have once := remembers.remember (client.call holder transport clock first).1
    rw [← call_eq_remember] at once
    have rest := induction once
    rw [List.append_assoc] at rest
    exact rest

end Client
end TimeSync.Ntp
