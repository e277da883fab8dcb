import TimeSync.Network.Sockets
import TimeSync.Sync.Cycle

/-!
# Computations that need a network

A computation on a `Replay` is given what the network has answered so far.  The
first time that it needs more, it notes what it needs and goes on as if nothing
had come; its result is then of no use, and it has to be run again from its
beginning with one answer more.  A computation that notes nothing has run as it
would have on the network itself.
-/

namespace TimeSync.Network

open Ntp (Client Transport)

inductive Demand where
  | probe
  | addresses (host : String) (port : UInt16)
  | socket (address : Address)
  /-- Connects the socket that was opened last. -/
  | connect (address : Address) (port : UInt16)
  | send (request : List UInt8) (left : Duration)
  | receive (most : Nat) (left : Duration)

inductive Answer where
  | done (result : Except SystemError Unit)
  | addresses (found : Except SystemError (List Address))
  | sent (count : Except SystemError Nat)
  | datagram (reply : Except SystemError (List UInt8))

namespace Answer

def done? : Answer → Option (Except SystemError Unit)
  | done result => some result
  | _ => none

def addresses? : Answer → Option (Except SystemError (List Address))
  | addresses found => some found
  | _ => none

def sent? : Answer → Option (Except SystemError Nat)
  | sent count => some count
  | _ => none

def datagram? : Answer → Option (Except SystemError (List UInt8))
  | datagram reply => some reply
  | _ => none

end Answer

/-- An answer, and the readings of the clocks when it came. -/
structure Met where
  answer : Answer
  now : Instant
  wall : Int

structure Replay where
  known : List Met := []
  /-- The first demand for which there was no answer. -/
  missing : Option Demand := none
  handles : Handles := {}
  client : Client := {}

namespace Replay

/-- Takes the answer to a demand, or notes that there is none. -/
def take (demand : Demand) (context : Context Replay) : Option Answer × Context Replay :=
  let replay := context.env
  match replay.known with
  | [] =>
    (none, context.withEnv { replay with missing := replay.missing.or (some demand) })
  | met :: known =>
    (some met.answer,
      { context with now := met.now, wall := met.wall }.withEnv { replay with known })

/-- Asks for something.  Where there is no answer of that kind, none has come in time. -/
def ask {α : Type} (demand : Demand) (read : Answer → Option (Except SystemError α))
    (context : Context Replay) : Except SystemError α × Context Replay :=
  let (answer, context) := take demand context
  ((answer >>= read).getD (.error { text := "", timedOut := true }), context)

def system : System Replay where
  handles := Replay.handles
  withHandles handles replay := { replay with handles }
  probe := ask .probe Answer.done?
  addresses host port := ask (.addresses host port) Answer.addresses?
  socket address := ask (.socket address) Answer.done?
  connect address port := ask (.connect address port) Answer.done?
  send request left := ask (.send request left) Answer.sent?
  receive most left := ask (.receive most left) Answer.datagram?

def transport : Transport Replay Path := system.transport

def source : Sync.Source Replay := fun endpoint timeout context =>
  let (outcome, client, context) := context.env.client.query transport Context.wallMicros
    endpoint.host endpoint.port timeout context
  (outcome, context.withEnv { context.env with client })

end Replay

end TimeSync.Network
