import TimeSync.Calendar
import TimeSync.Json.Document
import TimeSync.Network.Lookup
import TimeSync.Ntp.Client
import TimeSync.Settings.Basic

/-!
# Asking every server once

Every server is asked in turn, whatever came of the others.  The results go to
the log, or to the output as one line of JSON for each server that answered.
-/

namespace TimeSync.CommandLine

open Ntp (Client Sample Transport)

structure OnceRun (ε : Type) where
  client : Client := {}
  answered : Bool := false
  lines : List String := []
  context : Context ε

namespace OnceRun

variable {ε κ : Type}

/-- The line about a server that answered; `utc` is the time that it gives. -/
def line (server : Endpoint) (sample : Sample) (utc : String) : String :=
  Json.render <| .ofMembers
    [("delay_us", .ofInt sample.delay), ("offset_us", .ofInt sample.offset),
      ("server", .ofString server.text), ("stratum", .ofInt sample.stratum.toNat),
      ("utc", .ofString utc)]

def ask (lookup : Network.Lookup ε) (transport : Transport ε κ) (timeout : Duration)
    (json : Bool) (run : OnceRun ε) (server : Endpoint) : OnceRun ε :=
  let context := Network.describe lookup server.host server.port run.context
  let (outcome, client, context) :=
    run.client.query transport Context.wallMicros server.host server.port timeout context
  let name := server.text
  match outcome with
  | .ok sample =>
    let utc := Calendar.text (client.utcMicros context.wallMicros)
    if json then
      { client, answered := true, lines := run.lines ++ [line server sample utc], context }
    else
      let offset := sample.offset
      let delay := sample.delay
      let stratum := sample.stratum
      { client, answered := true, lines := run.lines
        context := context.note .info
          s!"{name}: offset {offset}us, delay {delay}us, stratum {stratum} -> {utc}" }
  | .error fault =>
    let reason := fault.message
    let code := fault.code
    { run with client, context := context.note .warn s!"{name}: {reason} (code {code})" }

end OnceRun

def runOnce {ε κ : Type} (lookup : Network.Lookup ε) (transport : Transport ε κ)
    (settings : Settings) (json : Bool) (context : Context ε) : OnceRun ε :=
  settings.servers.foldl (OnceRun.ask lookup transport settings.queryTimeout json)
    { context }

def noAnswer : String := "no server answered"

end TimeSync.CommandLine
