/-!
# What can go wrong in an exchange

Each cause of a failed exchange has a code that never changes and a message.
-/

namespace TimeSync.Ntp

inductive Fault where
  | timeout
  | malformedPacket (detail : String)
  | badTimestamps (detail : String)
  | socketInit (code : Int)
  | sendFailure (detail : String)
  | receiveFailure (detail : String)
  | noServersAvailable
  | resolveFailure (detail : String)
  | kissOfDeath (code : String)
  | unsynchronized (detail : String)
  | delayTooHigh (delay limit : Int)
deriving DecidableEq

namespace Fault

def name : Fault → String
  | timeout => "Timeout"
  | malformedPacket _ => "MalformedPacket"
  | badTimestamps _ => "BadTimestamps"
  | socketInit _ => "SocketInitFailure"
  | sendFailure _ => "SendFailure"
  | receiveFailure _ => "ReceiveFailure"
  | noServersAvailable => "NoServersAvailable"
  | resolveFailure _ => "ResolveFailure"
  | kissOfDeath _ => "KissOfDeath"
  | unsynchronized _ => "Unsynchronized"
  | delayTooHigh _ _ => "DelayTooHigh"

def code : Fault → Nat
  | timeout => 1
  | malformedPacket _ => 2
  | badTimestamps _ => 3
  | socketInit _ => 4
  | sendFailure _ => 5
  | receiveFailure _ => 6
  | noServersAvailable => 7
  | resolveFailure _ => 8
  | kissOfDeath _ => 9
  | unsynchronized _ => 10
  | delayTooHigh _ _ => 11

/-- The code of the last fault, zero where there was none. -/
def codeOf : Option Fault → Nat
  | none => 0
  | some fault => fault.code

def message : Fault → String
  | timeout => "timed out waiting for NTP response"
  | malformedPacket detail => s!"malformed NTP packet: {detail}"
  | badTimestamps detail => s!"inconsistent NTP timestamps: {detail}"
  | socketInit code => s!"socket subsystem initialization failed (code {code})"
  | sendFailure detail => s!"failed to send NTP request: {detail}"
  | receiveFailure detail => s!"failed to receive NTP response: {detail}"
  | noServersAvailable =>
    "no NTP servers available (pool empty or every server cooling down)"
  | resolveFailure detail => s!"failed to resolve or connect to {detail}"
  | kissOfDeath code => s!"server sent Kiss-o'-Death ({code})"
  | unsynchronized detail => s!"server clock is unsynchronized: {detail}"
  | delayTooHigh delay limit =>
    s!"round-trip delay {delay}us exceeds the {limit}us limit"

end Fault

end TimeSync.Ntp
