import TimeSync.CommandLine.Arguments
import TimeSync.Settings.File

/-!
# Settings from the command line

The settings come from a file, which has to be valid by itself, or from the
defaults; the options of the command line replace single fields, and the result
is checked again.
-/

namespace TimeSync.CommandLine

namespace Arguments

/-- Milliseconds of a number of seconds, as many as 64 bits count. -/
def millisOfSecs (secs : UInt64) : UInt64 :=
  .ofNat (min (secs.toNat * 1000) (UInt64.size - 1))

def overlay (arguments : Arguments) (settings : Settings) : Settings :=
  { settings with
    servers :=
      if arguments.servers = [] then settings.servers else arguments.servers
    pollIntervalMs :=
      (arguments.intervalSecs.map millisOfSecs).getD settings.pollIntervalMs
    queryTimeoutMs := arguments.timeoutMs.getD settings.queryTimeoutMs
    maxDelayMs := arguments.maxDelayMs.getD settings.maxDelayMs
    smoothingAlpha := arguments.smoothingAlpha.getD settings.smoothingAlpha }

/-- The settings that the arguments ask for.  `contents` has the bytes of each file
that there is. -/
def settings (arguments : Arguments) (contents : String → Option ByteArray) :
    Except Settings.FileFault Settings := do
  let base ← match arguments.config with
    | none => .ok default
    | some path => Settings.ofFile path (contents path)
  let settings := arguments.overlay base
  match settings.fault? with
  | some fault => .error (.invalid fault)
  | none => .ok settings

end Arguments

end TimeSync.CommandLine
