import TimeSync.Binary64.Reader
import TimeSync.Endpoint

/-!
# Arguments of the command line

An option takes its value from the same argument or from the next one, and a
value is looked at when the next option begins or the arguments end.  The first
thing that is wrong, or that asks for a text to be shown, decides.
-/

namespace TimeSync.CommandLine

structure Arguments where
  servers : List Endpoint := []
  config : Option String := none
  intervalSecs : Option UInt64 := none
  timeoutMs : Option UInt64 := none
  maxDelayMs : Option UInt64 := none
  smoothingAlpha : Option Float := none
  once : Bool := false
  json : Bool := false
  statusSecs : UInt64 := 10

inductive UsageFault where
  | missingValue
  | badValue
  | repeated
  | unexpectedValue
  | unknownArgument
  | help
  | version
deriving DecidableEq

inductive Flag where
  | server
  | config
  | intervalSecs
  | timeoutMs
  | maxDelayMs
  | smoothingAlpha
  | once
  | json
  | statusSecs
  | help
  | version
deriving DecidableEq

namespace Flag

def long : Flag → String
  | server => "server"
  | config => "config"
  | intervalSecs => "interval-secs"
  | timeoutMs => "timeout-ms"
  | maxDelayMs => "max-delay-ms"
  | smoothingAlpha => "smoothing-alpha"
  | once => "once"
  | json => "json"
  | statusSecs => "status-secs"
  | help => "help"
  | version => "version"

def all : List Flag :=
  [server, config, intervalSecs, timeoutMs, maxDelayMs, smoothingAlpha, once, json,
    statusSecs, help, version]

def ofLong? (name : List Char) : Option Flag :=
  all.find? fun flag => flag.long.toList = name

def ofShort? : Char → Option Flag
  | 's' => some server
  | 'c' => some config
  | 'h' => some help
  | 'V' => some version
  | _ => none

def takesValue : Flag → Bool
  | once | json | help | version => false
  | _ => true

def repeats : Flag → Bool
  | server => true
  | _ => false

end Flag

/-- The arguments so far.  An option may be waiting for its value, or for the value
that it has to be looked at. -/
structure Scan where
  arguments : Arguments := {}
  given : List Flag := []
  waiting : Option (Flag × Option (List Char)) := none
  closed : Bool := false

namespace Scan

def assign (arguments : Arguments) (flag : Flag) (value : List Char) :
    Except UsageFault Arguments :=
  let word (set : UInt64 → Arguments) : Except UsageFault Arguments :=
    match Text.natural64? value with
    | some word => .ok (set word)
    | none => .error .badValue
  match flag with
  | .server =>
    match Endpoint.read (.ofList value) with
    | .ok endpoint =>
      .ok { arguments with servers := arguments.servers ++ [endpoint] }
    | .error _ => .error .badValue
  | .config =>
    if value = [] then
      .error .missingValue
    else
      .ok { arguments with config := some (.ofList value) }
  | .intervalSecs => word fun secs => { arguments with intervalSecs := some secs }
  | .timeoutMs => word fun millis => { arguments with timeoutMs := some millis }
  | .maxDelayMs => word fun millis => { arguments with maxDelayMs := some millis }
  | .statusSecs => word fun secs => { arguments with statusSecs := secs }
  | .smoothingAlpha =>
    match Binary64.ofText? value with
    | some alpha => .ok { arguments with smoothingAlpha := some alpha }
    | none => .error .badValue
  | .once => .ok { arguments with once := true }
  | .json => .ok { arguments with json := true }
  | .help => .error .help
  | .version => .error .version

/-- Gives an option a value, unless it has had one that it keeps. -/
def accept (scan : Scan) (flag : Flag) (value : List Char) :
    Except UsageFault Scan :=
  if flag ∈ scan.given ∧ ¬ flag.repeats then
    .error .repeated
  else do
    let arguments ← assign scan.arguments flag value
    return { scan with arguments, given := flag :: scan.given }

def resolve (scan : Scan) : Except UsageFault Scan :=
  match scan.waiting with
  | none => .ok scan
  | some (_, none) => .error .missingValue
  | some (flag, some value) => { scan with waiting := none }.accept flag value

/-- An option without a value of its own, or whose value stands in its argument. -/
def meet (scan : Scan) (flag : Flag) (value : Option (List Char)) :
    Except UsageFault Scan := do
  let scan ← scan.resolve
  match value with
  | some value => scan.accept flag value
  | none =>
    if flag.takesValue then
      return { scan with waiting := some (flag, none) }
    else
      scan.accept flag []

/-- An argument that begins with two dashes. -/
def long (scan : Scan) (chars : List Char) : Except UsageFault Scan :=
  let value := match chars.dropWhile (· ≠ '=') with
    | [] => none
    | _ :: value => some value
  match Flag.ofLong? (chars.takeWhile (· ≠ '=')) with
  | none => .error .unknownArgument
  | some flag =>
    if value.isSome ∧ ¬ flag.takesValue then
      .error .unexpectedValue
    else
      scan.meet flag value

/-- An argument that begins with one dash: letters of options, the last of which
may be followed by its value. -/
def short (scan : Scan) : List Char → Except UsageFault Scan
  | [] => .ok scan
  | letter :: rest =>
    match Flag.ofShort? letter with
    | none => .error .unknownArgument
    | some flag =>
      if flag.takesValue then
        match rest with
        | [] => scan.meet flag none
        | '=' :: value => scan.meet flag (some value)
        | value => scan.meet flag (some value)
      else do
        short (← scan.meet flag none) rest

/-- An argument that is no option: a value, if one is waited for. -/
def plain (scan : Scan) (chars : List Char) : Except UsageFault Scan :=
  match scan.waiting with
  | some (flag, none) => .ok { scan with waiting := some (flag, some chars) }
  | _ => .error .unknownArgument

def step (scan : Scan) (argument : String) : Except UsageFault Scan :=
  if scan.closed then
    .error .unknownArgument
  else
    match argument.toList with
    | ['-', '-'] => .ok { scan with closed := true }
    | '-' :: '-' :: rest => scan.long rest
    | ['-'] => scan.plain ['-']
    | '-' :: rest => scan.short rest
    | chars => scan.plain chars

end Scan

def Arguments.read (arguments : List String) : Except UsageFault Arguments := do
  let scan ← arguments.foldlM Scan.step {}
  return (← scan.resolve).arguments

end TimeSync.CommandLine
