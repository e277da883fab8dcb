import TimeSync.Ntp.Exchange
import TimeSync.Context

/-!
# The client

A client asks one server at a time through a `Transport` and remembers what
came of it.  Of an accepted sample it keeps the values, of a failure the fault;
the offset stays in effect when later exchanges fail.
-/

namespace TimeSync.Ntp

/-- A way to reach servers: open a path to one, and exchange one request for one
reply over it.  `κ` is what stands for an open path. -/
structure Transport (ε κ : Type) where
  connect : String → UInt16 → Duration → Context ε → Except Fault κ × Context ε
  roundTrip : κ → List UInt8 → Context ε → Except Fault (List UInt8) × Context ε

abbrev LocalClock (ε : Type) := Context ε → Int

/-- The cells in which a client remembers, each of which is written by itself. -/
structure Client where
  offset : Int := 0
  delay : Int := 0
  /-- The stratum of the last accepted sample, -1 before any. -/
  stratum : Int := -1
  success : Bool := false
  lastFault : Option Fault := none

namespace Client

variable {ε κ : Type}

/-- One exchange.  The request is stamped when the path is open, so that the
time it took to open does not count as delay. -/
def exchange (transport : Transport ε κ) (clock : LocalClock ε) (host : String)
    (port : UInt16) (timeout : Duration) (context : Context ε) : Outcome × Context ε :=
  match transport.connect host port timeout context with
  | (.error fault, context) => (.error fault, context)
  | (.ok path, context) =>
    let sent := clock context
    match transport.roundTrip path (Request.sentAt sent).bytes context with
    | (.error fault, context) => (.error fault, context)
    | (.ok reply, context) =>
      ((judge sent (clock context) reply).mapError Refusal.fault, context)

/-- A sample is written to all cells, one after another; a fault only to the last two. -/
def remember (client : Client) (outcome : Outcome) : Client :=
  match outcome with
  | .ok sample =>
    let client := { client with offset := sample.offset }
    let client := { client with delay := sample.delay }
    let client := { client with stratum := sample.stratum.toNat }
    let client := { client with success := true }
    { client with lastFault := none }
  | .error fault =>
    let client := { client with success := false }
    { client with lastFault := some fault }

def report (host : String) (port : UInt16) (outcome : Outcome) (context : Context ε) :
    Context ε :=
  match outcome with
  | .ok sample =>
    let offset := sample.offset
    let delay := sample.delay
    let stratum := sample.stratum
    context.note .debug
      s!"[NTP] {host}:{port} offset={offset}us delay={delay}us stratum={stratum}"
  | .error fault =>
    let reason := fault.message
    context.note .warn s!"[NTP] {host}:{port} query failed: {reason}"

def query (client : Client) (transport : Transport ε κ) (clock : LocalClock ε)
    (host : String) (port : UInt16) (timeout : Duration) (context : Context ε) :
    Outcome × Client × Context ε :=
  let (outcome, context) := exchange transport clock host port timeout context
  (outcome, client.remember outcome, report host port outcome context)

def lastFaultCode (client : Client) : Nat := Fault.codeOf client.lastFault

/-- Coordinated universal time in microseconds, milliseconds and seconds, rounded
down, for a reading of the local clock. -/
def utcMicros (client : Client) (reading : Int) : Int := Micros.wrap (reading + client.offset)

def utcMillis (client : Client) (reading : Int) : Int := client.utcMicros reading / 1000

def utcSeconds (client : Client) (reading : Int) : Int :=
  client.utcMicros reading / 1000000

end Client

end TimeSync.Ntp
