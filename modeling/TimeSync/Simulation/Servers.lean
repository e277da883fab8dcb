import TimeSync.Ntp.Client
import TimeSync.Simulation.Clock
import TimeSync.Sync.Cycle

/-!
# Scripted servers

Servers that answer by a script: each query of a host takes the next answer of
its list, and the last answer repeats.  A host without a script times out.
`Servers.source` answers with samples, `Servers.transport` with packets.
-/

namespace TimeSync.Simulation

open Ntp (Client Fault Outcome Packet Stamp Transport)

/-- What is left of each host's list of answers. -/
abbrev Script (α : Type) := List (String × List α)

namespace Script

variable {α : Type}

/-- The next answer of a host, and the script after it. -/
def next (script : Script α) (host : String) : Option α × Script α :=
  match script with
  | [] => (none, [])
  | (name, answers) :: rest =>
    if name = host then
      match answers with
      | first :: second :: others => (some first, (name, second :: others) :: rest)
      | _ => (answers.head?, (name, answers) :: rest)
    else
      let (answer, rest) := next rest host
      (answer, (name, answers) :: rest)

/-- Gives the hosts named in `changes` the lists that stand there. -/
def override (script changes : Script α) : Script α :=
  changes ++ script.filter fun entry => ¬ changes.any fun change => change.1 = entry.1

end Script

/-- An answer with a sample, or without, after some time. -/
structure SampleAnswer where
  takes : Option Duration := none
  outcome : Outcome

/-- The packet with which a server replies. -/
structure ReplyPlan where
  packet : Packet
  /-- Whether the origin stamp is the request's own. -/
  echo : Bool := true
  length : Nat := Packet.size

namespace ReplyPlan

def transmitOf (request : List UInt8) : Stamp :=
  match Ntp.takeStamp? (request.drop 40) with
  | some (stamp, _) => stamp
  | none => {}

/-- The bytes of the reply: cut short, or followed by zeros. -/
def bytes (plan : ReplyPlan) (request : List UInt8) : List UInt8 :=
  let packet :=
    if plan.echo then
      { plan.packet with origin := transmitOf request }
    else
      plan.packet
  (packet.encode ++ List.replicate plan.length 0).take plan.length

end ReplyPlan

inductive Reply where
  | fail (fault : Fault)
  | raw (bytes : List UInt8)
  | packet (plan : ReplyPlan)

def Reply.answer (reply : Reply) (request : List UInt8) : Except Fault (List UInt8) :=
  match reply with
  | fail fault => .error fault
  | raw bytes => .ok bytes
  | packet plan => .ok (plan.bytes request)

/-- The answer to a whole exchange: how long connecting takes and whether it
succeeds, the local times of sending and of arrival, and the reply. -/
structure ExchangeAnswer where
  takes : Option Duration := none
  connectFault : Option Fault := none
  sentAt : Option Int := none
  arrivesAt : Option Int := none
  reply : Reply

inductive Call where
  | query (host : String) (port : UInt16) (timeout : Duration)
  | connect (host : String) (port : UInt16) (timeout : Duration)
  | send (bytes : List UInt8)

/-- Scripted servers, a clock that they drive, and a client for them. -/
structure Servers where
  clock : ManualClock := 0
  samples : Script SampleAnswer := []
  exchanges : Script ExchangeAnswer := []
  client : Client := {}
  calls : Array Call := #[]

namespace Servers

def localClock (context : Context Servers) : Int := context.env.clock

def record (call : Call) (servers : Servers) : Servers :=
  { servers with calls := servers.calls.push call }

def setClock (reading : Option Int) (servers : Servers) : Servers :=
  { servers with clock := reading.getD servers.clock }

def wait (takes : Option Duration) (context : Context Servers) : Context Servers :=
  match takes with
  | none => context
  | some duration => (ClockStep.advance duration).apply context

def source : Sync.Source Servers := fun endpoint timeout context =>
  let (answer, samples) := context.env.samples.next endpoint.host
  let servers := { context.env with samples }.record
    (.query endpoint.host endpoint.port timeout)
  let answer := answer.getD { outcome := .error .timeout }
  (answer.outcome, wait answer.takes (context.withEnv servers))

/-- Servers that answer with packets; an open path is the answer that it will get. -/
def transport : Transport Servers ExchangeAnswer where
  connect := fun host port timeout context =>
    let (answer, exchanges) := context.env.exchanges.next host
    let servers := { context.env with exchanges }.record (.connect host port timeout)
    let answer := answer.getD { reply := .fail .timeout }
    let context := wait answer.takes (context.withEnv servers)
    match answer.connectFault with
    | some fault => (.error fault, context)
    | none => (.ok answer, context.withEnv (context.env.setClock answer.sentAt))
  roundTrip := fun answer request context =>
    let servers := (context.env.record (.send request)).setClock answer.arrivesAt
    (answer.reply.answer request, context.withEnv servers)

def query (host : String) (port : UInt16) (timeout : Duration)
    (context : Context Servers) : Outcome × Context Servers :=
  let (outcome, client, context) :=
    context.env.client.query transport localClock host port timeout context
  (outcome, context.withEnv { context.env with client })

def clientSource : Sync.Source Servers := fun endpoint timeout context =>
  query endpoint.host endpoint.port timeout context

end Servers

end TimeSync.Simulation
