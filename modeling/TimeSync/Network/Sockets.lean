import TimeSync.Network.Lookup
import TimeSync.Ntp.Client
import TimeSync.Stopwatch.Deadline

/-!
# Datagrams over sockets

To reach a server its host is looked up and a socket is connected to the address;
then one datagram is sent and one is awaited, all within one deadline.  What the
operating system does is given by a `System`.  Its sockets are up while anybody
holds a handle to them; a transport holds one from its first connection on.
-/

namespace TimeSync.Network

open Ntp (Fault Transport)

/-- What the operating system says when it does not do what it is asked for. -/
structure SystemError where
  text : String
  /-- The number that the system has for it, -1 if it has none. -/
  code : Int := -1
  /-- Whether the time that was given is over. -/
  timedOut : Bool := false

/-- Time that is over is a timeout, whatever it was given for. -/
def SystemError.fault (error : SystemError) (cause : String → Fault) : Fault :=
  if error.timedOut then .timeout else cause error.text

/-- Who holds a handle to the sockets of the system. -/
structure Handles where
  count : Nat := 0
  /-- Whether one of them is the transport's. -/
  transport : Bool := false

structure System (ε : Type) where
  handles : ε → Handles
  withHandles : Handles → ε → ε
  /-- Tries whether there are sockets at all. -/
  probe : Context ε → Except SystemError Unit × Context ε
  addresses : String → UInt16 → Context ε → Except SystemError (List Address) × Context ε
  /-- Opens a socket for addresses of this kind. -/
  socket : Address → Context ε → Except SystemError Unit × Context ε
  connect : Address → UInt16 → Context ε → Except SystemError Unit × Context ε
  /-- Sends a datagram within some time, and says how much of it was sent. -/
  send : List UInt8 → Duration → Context ε → Except SystemError Nat × Context ε
  /-- Waits some time for a datagram, of which it takes so many bytes at most. -/
  receive : Nat → Duration → Context ε → Except SystemError (List UInt8) × Context ε

/-- An open path: a socket that is connected, and the time until when it is of use. -/
structure Path where
  address : Address
  port : UInt16
  deadline : Deadline

namespace System

variable {ε : Type} (system : System ε)

def handlesIn (context : Context ε) : Handles := system.handles context.env

def setHandles (handles : Handles) (context : Context ε) : Context ε :=
  context.withEnv (system.withHandles handles context.env)

/-- Takes a handle; the first finds out whether there are sockets. -/
def acquire (context : Context ε) : Except Fault Unit × Context ε :=
  let take (context : Context ε) : Context ε :=
    let handles := system.handlesIn context
    system.setHandles { handles with count := handles.count + 1 } context
  if (system.handlesIn context).count ≠ 0 then
    (.ok (), take context)
  else
    match system.probe context with
    | (.ok (), context) => (.ok (), take (context.note .debug "Socket subsystem initialized"))
    | (.error error, context) =>
      let code := error.code
      (.error (.socketInit code),
        context.note .warn s!"Socket subsystem initialization failed (code {code})")

def release (context : Context ε) : Context ε :=
  let handles := system.handlesIn context
  let context := system.setHandles { handles with count := handles.count - 1 } context
  if handles.count = 1 then
    context.note .debug "Socket subsystem released"
  else
    context

/-- The first connection makes the transport take a handle. -/
def hold (context : Context ε) : Except Fault Unit × Context ε :=
  if (system.handlesIn context).transport then
    (.ok (), context)
  else
    match system.acquire context with
    | (.error fault, context) => (.error fault, context)
    | (.ok (), context) =>
      (.ok (), system.setHandles { system.handlesIn context with transport := true } context)

/-- Gives the transport up, and with it its handle. -/
def disconnect (context : Context ε) : Context ε :=
  let handles := system.handlesIn context
  if handles.transport then
    system.release (system.setHandles { handles with transport := false } context)
  else
    context

def resolve (host : String) (port : UInt16) (context : Context ε) :
    Except Fault Address × Context ε :=
  match system.addresses host port context with
  | (.error error, context) =>
    let reason := error.text
    (.error (.resolveFailure s!"{host}:{port} ({reason})"), context)
  | (.ok addresses, context) =>
    match preferred? addresses with
    | some address => (.ok address, context)
    | none => (.error (.resolveFailure s!"{host}:{port} (no addresses)"), context)

def lookup : Lookup ε := fun host port context =>
  let (found, context) := system.resolve host port context
  (found.map fun address => address.withPort port, context)

/-- A socket from which datagrams go to one address, and on which they come from there. -/
def connected (address : Address) (port : UInt16) (context : Context ε) :
    Except Fault Unit × Context ε :=
  match system.socket address context with
  | (.error error, context) => (.error (.socketInit error.code), context)
  | (.ok (), context) =>
    match system.connect address port context with
    | (.ok (), context) => (.ok (), context)
    | (.error error, context) =>
      let place := address.withPort port
      let reason := error.text
      (.error (.resolveFailure s!"{place} ({reason})"), context)

def openPath (host : String) (port : UInt16) (timeout : Duration) (context : Context ε) :
    Except Fault Path × Context ε :=
  match system.hold context with
  | (.error fault, context) => (.error fault, context)
  | (.ok (), context) =>
    let deadline := Deadline.after context.now timeout
    match system.resolve host port context with
    | (.error fault, context) => (.error fault, context)
    | (.ok address, context) =>
      match system.connected address port context with
      | (.error fault, context) => (.error fault, context)
      | (.ok (), context) =>
        let place := address.withPort port
        (.ok { address, port, deadline }, context.note .debug s!"Connected to {place}")

/-- The most that is taken of a datagram, which is more than a packet has. -/
def bufferSize : Nat := 512

def await (path : Path) (context : Context ε) : Except Fault (List UInt8) × Context ε :=
  let left := path.deadline.remaining context.now
  if left = .zero then
    (.error .timeout, context)
  else
    match system.receive bufferSize left context with
    | (.error error, context) => (.error (error.fault .receiveFailure), context)
    | (.ok reply, context) =>
      let count := reply.length
      let place := path.address.withPort path.port
      (.ok reply, context.note .debug s!"Received {count} bytes from {place}")

def roundTrip (path : Path) (request : List UInt8) (context : Context ε) :
    Except Fault (List UInt8) × Context ε :=
  let left := path.deadline.remaining context.now
  if left = .zero then
    (.error .timeout, context)
  else
    match system.send request left context with
    | (.error error, context) => (.error (error.fault .sendFailure), context)
    | (.ok sent, context) =>
      let whole := request.length
      if sent ≠ whole then
        (.error (.sendFailure s!"short send: {sent} of {whole} bytes"), context)
      else
        system.await path context

def transport : Transport ε Path where
  connect := system.openPath
  roundTrip := system.roundTrip

end System

end TimeSync.Network
