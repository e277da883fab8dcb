import TimeSync.Json.Document
import TimeSync.Json.Float
import TimeSync.Settings.Basic

/-!
# Settings as JSON

Endpoints and settings are written with every field in order, an endpoint's
delay limit only where it is set.  Reading fills in the defaults of the fields
that are not given.
-/

namespace TimeSync

namespace Endpoint

def fieldNames : List String := ["host", "port", "max_delay_ms"]

def toJson (endpoint : Endpoint) : Json :=
  .ofMembers <|
    [("host", .ofString endpoint.host), ("port", .ofInt endpoint.port.toNat)]
    ++ match endpoint.maxDelayMs with
      | none => []
      | some millis => [("max_delay_ms", .ofInt millis.toNat)]

def ofJson? (json : Json) : Option Endpoint := do
  let fields ← json.fields? fieldNames
  return {
    host := ← Json.required fields "host" Json.string?
    port := ← Json.defaulted fields "port" Json.word16? 123
    maxDelayMs := ← Json.optional fields "max_delay_ms" Json.word64? }

end Endpoint

namespace Selection

def toJson (selection : Selection) : Json := .ofString selection.name

def ofName? (name : String) : Option Selection :=
  all.find? fun selection => selection.name = name

/-- A selection is given by its name, alone or as the one name of an object with
null under it. -/
def ofJson? : Json → Option Selection
  | .text (some name) => ofName? name
  | .object [(some name, .null)] => ofName? name
  | _ => none

end Selection

namespace Settings

def fieldNames : List String :=
  ["servers", "poll_interval_ms", "query_timeout_ms", "failure_threshold",
    "cooldown_initial_ms", "cooldown_max_ms", "selection", "measure_immediately",
    "max_delay_ms", "smoothing_alpha"]

def toJson (settings : Settings) : Json :=
  .ofMembers
    [("servers", .array (settings.servers.map Endpoint.toJson)),
      ("poll_interval_ms", .ofInt settings.pollIntervalMs.toNat),
      ("query_timeout_ms", .ofInt settings.queryTimeoutMs.toNat),
      ("failure_threshold", .ofInt settings.failureThreshold.toNat),
      ("cooldown_initial_ms", .ofInt settings.cooldownInitialMs.toNat),
      ("cooldown_max_ms", .ofInt settings.cooldownMaxMs.toNat),
      ("selection", settings.selection.toJson),
      ("measure_immediately", .bool settings.measureImmediately),
      ("max_delay_ms", .ofInt settings.maxDelayMs.toNat),
      ("smoothing_alpha", .ofFloat settings.smoothingAlpha)]

/-- Reads settings; `base` has the values of the fields that are not given. -/
def ofJson? (base : Settings) (json : Json) : Option Settings := do
  let fields ← json.fields? fieldNames
  return {
    servers := ← Json.defaulted fields "servers" (Json.list? Endpoint.ofJson?)
      base.servers
    pollIntervalMs := ← Json.defaulted fields "poll_interval_ms" Json.word64?
      base.pollIntervalMs
    queryTimeoutMs := ← Json.defaulted fields "query_timeout_ms" Json.word64?
      base.queryTimeoutMs
    failureThreshold := ← Json.defaulted fields "failure_threshold" Json.word32?
      base.failureThreshold
    cooldownInitialMs := ← Json.defaulted fields "cooldown_initial_ms" Json.word64?
      base.cooldownInitialMs
    cooldownMaxMs := ← Json.defaulted fields "cooldown_max_ms" Json.word64?
      base.cooldownMaxMs
    selection := ← Json.defaulted fields "selection" Selection.ofJson? base.selection
    measureImmediately := ← Json.defaulted fields "measure_immediately" Json.bool?
      base.measureImmediately
    maxDelayMs := ← Json.defaulted fields "max_delay_ms" Json.word64? base.maxDelayMs
    smoothingAlpha := ← Json.defaulted fields "smoothing_alpha" Json.float?
      base.smoothingAlpha }

/-- Reads the text of a settings file, without checking what it says. -/
def ofText? (text : List Char) : Option Settings :=
  Json.parse? text >>= ofJson? default

end Settings

end TimeSync
