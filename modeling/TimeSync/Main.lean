import Std.Async.DNS
import Std.Async.Timer
import Std.Async.UDP
import Std.Time.DateTime.Timestamp
import TimeSync.CommandLine.Once
import TimeSync.CommandLine.Overlay
import TimeSync.Network.Replay
import TimeSync.Stopwatch.Elapsed
import TimeSync.Sync.Service
import TimeSync.Sync.Status

/-!
# The command line

Reads the arguments and the settings, and then asks every server once or runs
the service.  All that happens here is input and output: the clocks are read,
demands on the operating system are met, and messages are printed.
-/

namespace TimeSync.CommandLine

open Network (Address Answer Demand Met Replay SystemError)
open Std.Async (Selectable Selector)
open Sync (Service Status)

def readMonotonic : IO Instant := do
  return (Instant.ofNanos? (Int.ofNat (← IO.monoNanosNow))).getD .origin

def readWall : IO Int := do
  return (← Std.Time.Timestamp.now).toNanosecondsSinceUnixEpoch.val

/-- Surroundings in which nothing has happened yet. -/
def currentContext : IO (Context Replay) := do
  return {
    now := ← readMonotonic
    wall := ← readWall
    cpu := {}
    log := #[]
    env := {} }

def printLog (log : Array Message) : IO Unit := do
  for message in log do
    match message.level with
    | .error | .warn | .info =>
      IO.eprintln ("[" ++ message.level.name ++ "] " ++ message.text)
    | .debug | .trace => pure ()

abbrev LastSocket := IO.Ref (Option Std.Async.UDP.Socket)

/-- What the system answers, with what it says when it refuses. -/
def attempt {α : Type} (act : IO α) : IO (Except SystemError α) := do
  try
    return .ok (← act)
  catch error =>
    return .error { text := toString error }

/-- The addresses of a host, which may be written as one. -/
def addressesOf (host : String) : IO (List Address) := do
  match Address.ofText? host with
  | some address => return [address]
  | none =>
    let found ← (Std.Async.DNS.getAddrInfo host "").block
    return found.toList.filterMap fun address => Address.ofText? (toString address)

/-- The address as the socket takes it, which chooses the zone by itself. -/
def socketAddress? (address : Address) (port : UInt16) : Option Std.Net.SocketAddress :=
  match address with
  | .v4 _ => (Std.Net.IPv4Addr.ofString address.text).map fun addr => .v4 ⟨addr, port⟩
  | .v6 _ _ => (Std.Net.IPv6Addr.ofString address.text).map fun addr => .v6 ⟨addr, port⟩

def current (last : LastSocket) : IO Std.Async.UDP.Socket := do
  match ← last.get with
  | some socket => return socket
  | none => throw (.userError "no socket is open")

def connect (last : LastSocket) (address : Address) (port : UInt16) : IO Unit := do
  match socketAddress? address port with
  | some target => (← current last).connect target
  | none => throw (.userError "no address for a socket")

/-- Waits for one datagram, at most for the given time. -/
def receive (last : LastSocket) (most : Nat) (left : Duration) :
    IO (Except SystemError (List UInt8)) := do
  let socket ← current last
  let pause : Std.Time.Millisecond.Offset := ⟨Int.ofNat (max left.millis 1)⟩
  Std.Async.Async.block do
    Selectable.one #[
      .case (socket.recvSelector most.toUInt64) fun (data, _) => return .ok data.toList,
      .case (← Selector.sleep pause) fun _ =>
        return .error { text := "nothing came in time", timedOut := true }]

def meet (last : LastSocket) (demand : Demand) : IO Met := do
  let answer : Answer ← match demand with
    | .probe => Answer.done <$> attempt (discard Std.Async.UDP.Socket.mk)
    | .addresses host _ => Answer.addresses <$> attempt (addressesOf host)
    | .socket _ =>
      Answer.done <$> attempt do last.set (some (← Std.Async.UDP.Socket.mk))
    | .connect address port => Answer.done <$> attempt (connect last address port)
    | .send request _ =>
      Answer.sent <$> attempt do
        ((← current last).send ⟨request.toArray⟩).block
        return request.length
    | .receive most left =>
      let reply ← attempt (receive last most left)
      pure (.datagram (reply >>= id))
  return { answer, now := ← readMonotonic, wall := ← readWall }

/-- Runs a computation again and again, with one more answer of the network each
time, until it needs no more. -/
partial def fulfil {α : Type} (last : LastSocket)
    (run : List Met → α × Option Demand) (known : List Met) : IO α := do
  match run known with
  | (result, none) => return result
  | (_, some demand) => fulfil last run (known ++ [← meet last demand])

def askOnce (settings : Settings) (json : Bool) : IO UInt32 := do
  let last ← IO.mkRef none
  let context ← currentContext
  let run ← fulfil last (fun known =>
    let run := runOnce Replay.system.lookup Replay.transport settings json
      (context.withEnv { known })
    (run, run.context.env.missing)) []
  printLog run.context.log
  for line in run.lines do
    IO.println line
  if run.answered then
    return 0
  else
    IO.eprintln ("Error: " ++ noAnswer)
    return 1

def timersAtOnce : Nat := 1000000

def runDueTimers (last : LastSocket) (service : Service Replay) :
    IO (Service Replay) :=
  fulfil last (fun known =>
    let asked := service.mapContext fun context =>
      context.withEnv (context.env.1, { context.env.2 with known })
    match asked.runPending Replay.source timersAtOnce with
    | some (_, done) => (done, done.context.env.2.missing)
    | none => (service, none)) []

def statusLine (service : Service Replay) (status : Status) : String :=
  "UTC " ++ Calendar.text (service.state.utcMicros service.context.wallMicros)
    ++ " | offset " ++ toString status.offset ++ "us delay " ++ toString status.delay
    ++ "us | server " ++ status.server.getD "-" ++ " | err "
    ++ toString status.lastFaultCode ++ " | cycles " ++ toString status.failedCycles
    ++ "/" ++ toString status.cycles ++ " failed"

def printStatus (service : Service Replay) (json : Bool) : IO Unit := do
  let now := service.context.now
  let status := Status.ofState service.state now
  if json then
    IO.println status.toJson.render
  else
    IO.eprintln ("[INFO] " ++ statusLine service status)
    let limit := Duration.clamp (service.interval.nanos * 3)
    if service.state.stale now limit then
      IO.eprintln ("[WARN] No successful sync in the last " ++ limit.text)

/-- Runs the service until the program is stopped. -/
partial def serve (last : LastSocket) (json : Bool) (every : Duration)
    (shown : Stopwatch) (service : Service Replay) : IO UInt32 := do
  let now ← readMonotonic
  let wall ← readWall
  let service ← runDueTimers last
    (service.mapContext fun context => { context with now, wall })
  printLog service.context.log
  let service := service.mapContext fun context => { context with log := #[] }
  if shown.expired every now then
    printStatus service json
    IO.sleep 100
    serve last json every (.started now) service
  else
    IO.sleep 100
    serve last json every shown service

def runService (settings : Settings) (arguments : Arguments) : IO UInt32 := do
  let context ← currentContext
  match Service.start settings { context } with
  | .error fault =>
    IO.eprintln ("Error: " ++ fault.message)
    return 1
  | .ok service =>
    let every := Duration.clamp (max arguments.statusSecs.toNat 1 * 1000000000)
    serve (← IO.mkRef none) arguments.json every (.started context.now) service

def usage : String :=
  "Usage: timesync [OPTIONS]\n\n"
    ++ "  -s, --server <SERVER>             NTP server as host or host:port; "
    ++ "repeat for a pool\n"
    ++ "  -c, --config <PATH>               JSON settings; options override them\n"
    ++ "      --interval-secs <SECS>        time between two cycles\n"
    ++ "      --timeout-ms <MS>             time for one exchange\n"
    ++ "      --max-delay-ms <MS>           longest delay accepted; 0 accepts any\n"
    ++ "      --smoothing-alpha <WEIGHT>    weight of a new sample, in (0, 1]\n"
    ++ "      --once                        ask every server once and exit\n"
    ++ "      --json                        print in JSON\n"
    ++ "      --status-secs <SECS>          time between two status lines\n"
    ++ "  -h, --help                        print this text\n"
    ++ "  -V, --version                     print the version\n"

def UsageFault.message : UsageFault → String
  | missingValue => "an option has no value"
  | badValue => "an option has a value that it cannot have"
  | repeated => "an option is given more than once"
  | unexpectedValue => "an option has a value though it takes none"
  | unknownArgument => "there is an unknown argument"
  | help => usage
  | version => "timesync 0.4.2"

def readFile? (path : String) : IO (Option ByteArray) := do
  try
    return some (← IO.FS.readBinFile path)
  catch _ =>
    return none

def run (arguments : List String) : IO UInt32 := do
  match Arguments.read arguments with
  | .error fault =>
    if fault = .help ∨ fault = .version then
      IO.println fault.message
      return 0
    else
      IO.eprintln ("error: " ++ fault.message ++ "\n\n" ++ usage)
      return 2
  | .ok arguments =>
    let file ← match arguments.config with
      | none => pure none
      | some path => readFile? path
    match arguments.settings fun _ => file with
    | .error fault =>
      IO.eprintln ("Error: " ++ fault.message)
      return 1
    | .ok settings =>
      if arguments.once then
        askOnce settings arguments.json
      else
        runService settings arguments

end TimeSync.CommandLine

def main (arguments : List String) : IO UInt32 := TimeSync.CommandLine.run arguments
