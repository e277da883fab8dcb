import TimeSync.Binary64.Layout
import TimeSync.Endpoint
import TimeSync.Time.Duration

/-!
# Settings of the synchronisation

The settings of a service, their defaults and the checks that they have to
pass.  The checks have a fixed order, and the first that fails is reported.
-/

namespace TimeSync

inductive Selection where
  /-- Stay with the last server that answered. -/
  | failover
  /-- Start one server further on each time. -/
  | roundRobin
  /-- Start with the first server each time. -/
  | priority
deriving DecidableEq

def Selection.name : Selection → String
  | failover => "Failover"
  | roundRobin => "RoundRobin"
  | priority => "Priority"

def Selection.all : List Selection := [failover, roundRobin, priority]

/-- Times are in milliseconds. -/
@[ext]
structure Settings where
  servers : List Endpoint
  pollIntervalMs : UInt64 := 30000
  queryTimeoutMs : UInt64 := 5000
  /-- Failures in a row after which a server has to cool down. -/
  failureThreshold : UInt32 := 3
  cooldownInitialMs : UInt64 := 15000
  cooldownMaxMs : UInt64 := 600000
  selection : Selection := .failover
  /-- Whether the first cycle runs at once and not after the first interval. -/
  measureImmediately : Bool := true
  /-- The delay above which replies are refused; zero accepts any. -/
  maxDelayMs : UInt64 := 250
  /-- The weight of a new sample in the published offset. -/
  smoothingAlpha : Float := 1.0

inductive SettingsFault where
  | emptyPool
  | invalidEndpoint (text : String)
  | zero (field : String)
  | cooldownRange (initial most : UInt64)
  | smoothingAlpha (value : Float)

def SettingsFault.message : SettingsFault → String
  | emptyPool => "server pool is empty"
  | invalidEndpoint text => s!"invalid server endpoint '{text}'"
  | zero field => s!"{field} must be greater than zero"
  | cooldownRange initial most =>
    s!"cooldown_max_ms ({most}) is below cooldown_initial_ms ({initial})"
  | smoothingAlpha value =>
    "smoothing_alpha must be in (0, 1], got " ++ Binary64.text value

namespace Settings

def defaultServers : List Endpoint :=
  [{ host := "time.google.com" }, { host := "time.cloudflare.com" },
    { host := "pool.ntp.org" }, { host := "time.windows.com" },
    { host := "time.apple.com" }]

instance : Inhabited Settings := ⟨{ servers := defaultServers }⟩

/-- Whether an endpoint can be asked at all. -/
def usable (endpoint : Endpoint) : Bool :=
  ¬ (Text.trim endpoint.host.toList = [] ∨ endpoint.port = 0)

def fault? (settings : Settings) : Option SettingsFault :=
  if settings.servers = [] then
    some .emptyPool
  else
    match settings.servers.find? fun endpoint => ¬ usable endpoint with
    | some endpoint => some (.invalidEndpoint endpoint.text)
    | none =>
      if settings.pollIntervalMs = 0 then
        some (.zero "poll_interval_ms")
      else if settings.queryTimeoutMs = 0 then
        some (.zero "query_timeout_ms")
      else if settings.failureThreshold = 0 then
        some (.zero "failure_threshold")
      else if settings.cooldownMaxMs < settings.cooldownInitialMs then
        some (.cooldownRange settings.cooldownInitialMs settings.cooldownMaxMs)
      else if 0.0 < settings.smoothingAlpha ∧ settings.smoothingAlpha ≤ 1.0 then
        none
      else
        some (.smoothingAlpha settings.smoothingAlpha)

def validate (settings : Settings) : Except SettingsFault Unit :=
  match settings.fault? with
  | some fault => .error fault
  | none => .ok ()

/-- The limit on the delay of one server's replies, none where any is accepted. -/
def maxDelayFor (settings : Settings) (endpoint : Endpoint) : Option Duration :=
  let millis := endpoint.maxDelayMs.getD settings.maxDelayMs
  if millis = 0 then none else some (.ofMillis millis)

def pollInterval (settings : Settings) : Duration := .ofMillis settings.pollIntervalMs

def queryTimeout (settings : Settings) : Duration := .ofMillis settings.queryTimeoutMs

def cooldownInitial (settings : Settings) : Duration :=
  .ofMillis settings.cooldownInitialMs

def cooldownMax (settings : Settings) : Duration := .ofMillis settings.cooldownMaxMs

end Settings

end TimeSync
