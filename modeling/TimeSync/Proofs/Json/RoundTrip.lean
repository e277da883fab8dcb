import TimeSync.Settings.Document
import TimeSync.Sync.Status
import TimeSync.Proofs.Json.Numbers
import TimeSync.Proofs.Json.Records

/-!
# Settings and status reports as text

A status report and settings are read back from the text that they are written as.  More
generally settings are read from an object that holds some of the fields, in any order and
among unknown ones: the others get their defaults, and so do the fields of an endpoint.
-/

namespace TimeSync

namespace Endpoint

theorem names_toJson (endpoint : Endpoint) :
    (endpoint.toJson.entries.map Prod.fst).Sublist fieldNames := by
  unfold toJson
  cases endpoint.maxDelayMs with
  | none => exact .cons_cons _ (.cons_cons _ (.cons _ .slnil))
  | some millis => exact List.Sublist.refl _

/-- The endpoint of which only some fields are given. -/
def given (fields : String → Bool) (endpoint : Endpoint) : Endpoint :=
  { host := endpoint.host
    port := if fields "port" then endpoint.port else 123
    maxDelayMs := if fields "max_delay_ms" then endpoint.maxDelayMs else none }

/-- An endpoint is read from an object that holds its host and some of its other fields. -/
theorem ofJson?_given (endpoint : Endpoint) (fields : String → Bool)
    {extras held : List (String × Json)} (host : fields "host" = true)
    (unknown : ∀ extra ∈ extras, extra.1 ∉ fieldNames)
    (order : held.Perm
      ((endpoint.toJson.entries.filter fun member => fields member.1) ++ extras)) :
    ofJson? (.ofMembers held) = some (endpoint.given fields) := by
  have distinct : (endpoint.toJson.entries.map Prod.fst).Nodup :=
    endpoint.names_toJson.nodup (by decide)
  obtain ⟨read, object, found⟩ := Json.fields?_given distinct unknown order
  have hostFound : read "host" = some (.ofString endpoint.host) := by
    rw [found "host" (by decide), if_pos host]
    rfl
  have portLooked : endpoint.toJson.entries.lookup "port" =
      some (.ofInt endpoint.port.toNat) := rfl
  have limitRead : Json.optional read "max_delay_ms" Json.word64? =
      some (if fields "max_delay_ms" then endpoint.maxDelayMs else none) := by
    have limitFound := found "max_delay_ms" (by decide)
    cases limit : endpoint.maxDelayMs with
    | none =>
      have looked : endpoint.toJson.entries.lookup "max_delay_ms" = none := by
        rw [toJson, limit]
        rfl
      rw [looked, ite_self] at limitFound
      rw [Json.optional, Json.defaulted, limitFound, ite_self]
    | some millis =>
      have looked : endpoint.toJson.entries.lookup "max_delay_ms" = some (.ofInt millis.toNat) := by
        rw [toJson, limit]
        rfl
      exact Json.defaulted_of_found limitFound looked fun _ =>
        Json.nullable_of_ne_null (Json.ofInt_ne_null _) (Json.word64?_ofInt millis)
  unfold ofJson?
  rw [Json.bind_of_read object,
    Json.bind_required hostFound (Json.string?_ofString _),
    Json.bind_defaulted (found "port" (by decide)) portLooked fun _ => Json.word16?_ofInt _,
    Json.bind_of_read limitRead]
  rfl

/-- Whether a value is an object with the host and some of the other fields of an endpoint, in
any order and among unknown ones; the endpoint has the defaults where a field is left out. -/
inductive Written : Json → Endpoint → Prop where
  | object (endpoint : Endpoint) (fields : String → Bool) (extras held : List (String × Json))
      (host : fields "host" = true) (unknown : ∀ extra ∈ extras, extra.1 ∉ fieldNames)
      (order : held.Perm
        ((endpoint.toJson.entries.filter fun member => fields member.1) ++ extras)) :
      Written (.ofMembers held) (endpoint.given fields)

theorem Written.read {json : Json} {endpoint : Endpoint} (written : Written json endpoint) :
    ofJson? json = some endpoint := by
  cases written with
  | object endpoint fields extras held host unknown order =>
    exact endpoint.ofJson?_given fields host unknown order

theorem ofJson?_toJson (endpoint : Endpoint) : ofJson? endpoint.toJson = some endpoint := by
  have read := endpoint.ofJson?_given (fun _ => true) rfl (List.forall_mem_nil _)
    (Json.perm_whole _)
  rw [toJson, Json.entries_ofMembers] at read
  exact read

theorem plain_toJson (endpoint : Endpoint) : endpoint.toJson.Plain := by
  refine Json.plain_ofMembers ?_
  cases endpoint.maxDelayMs <;> simp [Json.plain_ofString, Json.plain_ofInt]

end Endpoint

namespace Settings

/-- The members that settings are written with, their servers as some array. -/
def members (settings : Settings) (servers : List Json) : List (String × Json) :=
  [("servers", .array servers),
    ("poll_interval_ms", .ofInt settings.pollIntervalMs.toNat),
    ("query_timeout_ms", .ofInt settings.queryTimeoutMs.toNat),
    ("failure_threshold", .ofInt settings.failureThreshold.toNat),
    ("cooldown_initial_ms", .ofInt settings.cooldownInitialMs.toNat),
    ("cooldown_max_ms", .ofInt settings.cooldownMaxMs.toNat),
    ("selection", settings.selection.toJson),
    ("measure_immediately", .bool settings.measureImmediately),
    ("max_delay_ms", .ofInt settings.maxDelayMs.toNat),
    ("smoothing_alpha", .ofFloat settings.smoothingAlpha)]

/-- The settings of which only some fields are given. -/
def given (fields : String → Bool) (settings : Settings) : Settings :=
  let base : Settings := default
  { servers := if fields "servers" then settings.servers else base.servers
    pollIntervalMs :=
      if fields "poll_interval_ms" then settings.pollIntervalMs else base.pollIntervalMs
    queryTimeoutMs :=
      if fields "query_timeout_ms" then settings.queryTimeoutMs else base.queryTimeoutMs
    failureThreshold :=
      if fields "failure_threshold" then settings.failureThreshold else base.failureThreshold
    cooldownInitialMs :=
      if fields "cooldown_initial_ms" then settings.cooldownInitialMs
      else base.cooldownInitialMs
    cooldownMaxMs :=
      if fields "cooldown_max_ms" then settings.cooldownMaxMs else base.cooldownMaxMs
    selection := if fields "selection" then settings.selection else base.selection
    measureImmediately :=
      if fields "measure_immediately" then settings.measureImmediately
      else base.measureImmediately
    maxDelayMs := if fields "max_delay_ms" then settings.maxDelayMs else base.maxDelayMs
    smoothingAlpha :=
      if fields "smoothing_alpha" then settings.smoothingAlpha else base.smoothingAlpha }

theorem Selection.ofJson?_toJson (selection : Selection) :
    Selection.ofJson? selection.toJson = some selection := by
  cases selection <;> decide

theorem ofJson?_given (settings : Settings) (fields : String → Bool) {servers : List Json}
    {extras held : List (String × Json)}
    (endpoints : List.Forall₂ (fun json endpoint => Endpoint.ofJson? json = some endpoint)
      servers settings.servers)
    (alpha : fields "smoothing_alpha" = true →
      Json.float? (.ofFloat settings.smoothingAlpha) = some settings.smoothingAlpha)
    (unknown : ∀ extra ∈ extras, extra.1 ∉ fieldNames)
    (order : held.Perm
      (((settings.members servers).filter fun member => fields member.1) ++ extras)) :
    ofJson? default (.ofMembers held) = some (settings.given fields) := by
  have distinct : ((settings.members servers).map Prod.fst).Nodup :=
    show fieldNames.Nodup by decide
  obtain ⟨read, object, found⟩ := Json.fields?_given distinct unknown order
  unfold ofJson?
  rw [Json.bind_of_read object,
    Json.bind_defaulted (found "servers" (by decide)) rfl fun _ => Json.list?_array endpoints,
    Json.bind_defaulted (found "poll_interval_ms" (by decide)) rfl fun _ => Json.word64?_ofInt _,
    Json.bind_defaulted (found "query_timeout_ms" (by decide)) rfl fun _ => Json.word64?_ofInt _,
    Json.bind_defaulted (found "failure_threshold" (by decide)) rfl fun _ => Json.word32?_ofInt _,
    Json.bind_defaulted (found "cooldown_initial_ms" (by decide)) rfl
      fun _ => Json.word64?_ofInt _,
    Json.bind_defaulted (found "cooldown_max_ms" (by decide)) rfl fun _ => Json.word64?_ofInt _,
    Json.bind_defaulted (found "selection" (by decide)) rfl
      fun _ => Selection.ofJson?_toJson _,
    Json.bind_defaulted (found "measure_immediately" (by decide)) rfl fun _ => Json.bool?_bool _,
    Json.bind_defaulted (found "max_delay_ms" (by decide)) rfl fun _ => Json.word64?_ofInt _,
    Json.bind_defaulted (found "smoothing_alpha" (by decide)) rfl alpha]
  rfl

theorem ofJson?_toJson {settings : Settings}
    (alpha : Json.float? (.ofFloat settings.smoothingAlpha) = some settings.smoothingAlpha) :
    ofJson? default settings.toJson = some settings := by
  have endpoints : List.Forall₂ (fun json endpoint => Endpoint.ofJson? json = some endpoint)
      (settings.servers.map Endpoint.toJson) settings.servers := by
    rw [List.forall₂_map_left_iff]
    exact List.forall₂_same.mpr fun endpoint _ => endpoint.ofJson?_toJson
  exact settings.ofJson?_given (fun _ => true) endpoints (fun _ => alpha) (List.forall_mem_nil _)
    (Json.perm_whole _)

theorem plain_members (settings : Settings) {servers : List Json}
    (plain : ∀ server ∈ servers, server.Plain) :
    ∀ member ∈ settings.members servers, member.2.Plain := by
  simp [members, Json.plain_array plain, Json.plain_ofInt, Json.plain_bool, Json.plain_ofFloat,
    Selection.toJson, Json.plain_ofString]

end Settings

/-- Whether the numbers of a record fit in the words that hold them. -/
structure Pool.Health.InRange (health : Pool.Health) : Prop where
  failuresInARow : health.failuresInARow < UInt32.size
  successes : health.successes < UInt64.size
  failures : health.failures < UInt64.size
  remainingMs : health.remainingMs < UInt64.size
  lastFaultCode : Int32.minValue.toInt ≤ health.lastFaultCode ∧
    health.lastFaultCode ≤ Int32.maxValue.toInt

namespace Pool.Health

theorem ofJson?_toJson {health : Health} (inRange : health.InRange) :
    ofJson? health.toJson = some health := by
  have distinct : (health.toJson.entries.map Prod.fst).Nodup :=
    show fieldNames.Nodup by decide
  obtain ⟨read, object, found⟩ := Json.fields?_whole fieldNames health.toJson ⟨_, rfl⟩ distinct
  unfold ofJson?
  rw [Json.bind_of_read object,
    Json.bind_required (found "server" (by decide)) (Json.string?_ofString _),
    Json.bind_required (found "consecutive_failures" (by decide))
      (Json.natBelow?_ofInt inRange.failuresInARow),
    Json.bind_required (found "total_successes" (by decide))
      (Json.natBelow?_ofInt inRange.successes),
    Json.bind_required (found "total_failures" (by decide))
      (Json.natBelow?_ofInt inRange.failures),
    Json.bind_required (found "cooling_down" (by decide)) (Json.bool?_bool _),
    Json.bind_required (found "cooldown_remaining_ms" (by decide))
      (Json.natBelow?_ofInt inRange.remainingMs),
    Json.bind_required (found "last_error_code" (by decide))
      (Json.intWithin?_ofInt inRange.lastFaultCode)]
  rfl

theorem plain_toJson (health : Health) : health.toJson.Plain := by
  refine Json.plain_ofMembers ?_
  simp [Json.plain_ofString, Json.plain_ofInt, Json.plain_bool]

end Pool.Health

namespace Sync.Status

structure InRange (status : Status) : Prop where
  offset : Int64.minValue.toInt ≤ status.offset ∧ status.offset ≤ Int64.maxValue.toInt
  sampleOffset : Int64.minValue.toInt ≤ status.sampleOffset ∧
    status.sampleOffset ≤ Int64.maxValue.toInt
  delay : Int64.minValue.toInt ≤ status.delay ∧ status.delay ≤ Int64.maxValue.toInt
  lastArrival : ∀ arrival, status.lastArrival = some arrival →
    Int64.minValue.toInt ≤ arrival ∧ arrival ≤ Int64.maxValue.toInt
  ageMs : ∀ age, status.ageMs = some age → age < UInt64.size
  lastFaultCode : Int32.minValue.toInt ≤ status.lastFaultCode ∧
    status.lastFaultCode ≤ Int32.maxValue.toInt
  cycles : status.cycles < UInt64.size
  failedCycles : status.failedCycles < UInt64.size
  servers : ∀ health ∈ status.servers, health.InRange

theorem micros?_ofInt {value : Int}
    (inside : Int64.minValue.toInt ≤ value ∧ value ≤ Int64.maxValue.toInt) :
    micros? (.ofInt value) = some value :=
  Json.intWithin?_ofInt inside

theorem ofJson?_toJson {status : Status} (inRange : status.InRange) :
    ofJson? status.toJson = some status := by
  have distinct : (status.toJson.entries.map Prod.fst).Nodup :=
    show fieldNames.Nodup by decide
  obtain ⟨read, object, found⟩ := Json.fields?_whole fieldNames status.toJson ⟨_, rfl⟩ distinct
  have sampleFound : read "sample_offset_us" =
      if true then status.toJson.entries.lookup "sample_offset_us" else none :=
    found "sample_offset_us" (by decide)
  have ageFound : read "age_ms" =
      some (.ofOption (fun age : Nat => .ofInt age) status.ageMs) := by
    refine (found "age_ms" (by decide)).trans ?_
    change some (Json.ofOption _ (status.ageMs >>= fun age => pure (age : Int))) = _
    cases status.ageMs <;> rfl
  unfold ofJson?
  rw [Json.bind_of_read object,
    Json.bind_required (found "offset_us" (by decide)) (micros?_ofInt inRange.offset),
    Json.bind_defaulted sampleFound rfl fun _ => micros?_ofInt inRange.sampleOffset,
    Json.bind_required (found "delay_us" (by decide)) (micros?_ofInt inRange.delay),
    Json.bind_optional (found "stratum" (by decide)) (fun _ => Json.ofInt_ne_null _)
      fun _ _ => Json.word8?_ofInt _,
    Json.bind_optional (found "server" (by decide)) (fun _ => Json.ofString_ne_null _)
      fun _ _ => Json.string?_ofString _,
    Json.bind_required (found "synchronized" (by decide)) (Json.bool?_bool _),
    Json.bind_optional (found "last_sync_unix_us" (by decide)) (fun _ => Json.ofInt_ne_null _)
      fun arrival known => micros?_ofInt (inRange.lastArrival arrival known),
    Json.bind_optional ageFound (fun _ => Json.ofInt_ne_null _)
      fun age known => Json.natBelow?_ofInt (inRange.ageMs age known),
    Json.bind_required (found "last_error_code" (by decide))
      (Json.intWithin?_ofInt inRange.lastFaultCode),
    Json.bind_optional (found "last_error" (by decide)) (fun _ => Json.ofString_ne_null _)
      fun _ _ => Json.string?_ofString _,
    Json.bind_required (found "cycles" (by decide)) (Json.natBelow?_ofInt inRange.cycles),
    Json.bind_required (found "failed_cycles" (by decide))
      (Json.natBelow?_ofInt inRange.failedCycles),
    Json.bind_required (found "servers" (by decide))
      (Json.list?_array_map fun health listed =>
        Pool.Health.ofJson?_toJson (inRange.servers health listed))]
  rfl

theorem plain_toJson (status : Status) : status.toJson.Plain := by
  refine Json.plain_ofMembers ?_
  have servers : (Json.array (status.servers.map Pool.Health.toJson)).Plain :=
    Json.plain_array (List.forall_mem_map.mpr fun health _ => health.plain_toJson)
  simp [Json.plain_ofInt, Json.plain_bool, Json.plain_ofString, Json.plain_ofOption, servers]

end Sync.Status

/-- Status reports and settings survive being written and read.  A report whose numbers fit
in their words is read back from its text, and so are settings if their weight is, whatever
their endpoints have.  An object that holds only some fields of settings, in any order and
among unknown ones, is read as these settings where fields are given and as the default
ones elsewhere; each of its servers may be an object that holds only some fields of an
endpoint, which then has the usual port and no limit of its own.  The text of the object may
be any that stands for it, such as the one that it is written as. -/
theorem documents_round_trip :
    (∀ status : Sync.Status, status.InRange →
      Sync.Status.ofText? status.toJson.render.toList = some status) ∧
    (∀ settings : Settings,
      Json.float? (.ofFloat settings.smoothingAlpha) = some settings.smoothingAlpha →
      Settings.ofText? settings.toJson.render.toList = some settings) ∧
    (∀ (settings : Settings) (fields : String → Bool) (servers : List Json)
        (extras held : List (String × Json)) (text : List Char),
      (fields "smoothing_alpha" = true →
        Json.float? (.ofFloat settings.smoothingAlpha) = some settings.smoothingAlpha) →
      List.Forall₂ Endpoint.Written servers settings.servers →
      (∀ extra ∈ extras, extra.1 ∉ Settings.fieldNames) →
      held.Perm (((settings.members servers).filter fun member => fields member.1) ++ extras) →
      Json.parse? text = some (.ofMembers held) →
      Settings.ofText? text = some (settings.given fields)) ∧
    (∀ held : List (String × Json), (∀ member ∈ held, member.2.Plain) →
      Json.parse? (Json.ofMembers held).render.toList = some (.ofMembers held)) ∧
    (∀ settings : Settings,
      settings.toJson = .ofMembers (settings.members (settings.servers.map Endpoint.toJson)) ∧
      settings.given (fun _ => true) = settings ∧ settings.given (fun _ => false) = default) := by
  refine ⟨?_, ?_, ?_, ?_, ?_⟩
  · intro status inRange
    rw [Sync.Status.ofText?, Json.parse?_render status.plain_toJson]
    exact Sync.Status.ofJson?_toJson inRange
  · intro settings alpha
    have endpoints : ∀ server ∈ settings.servers.map Endpoint.toJson, server.Plain :=
      List.forall_mem_map.mpr fun endpoint _ => endpoint.plain_toJson
    have plain : settings.toJson.Plain := Json.plain_ofMembers (settings.plain_members endpoints)
    rw [Settings.ofText?, Json.parse?_render plain]
    exact Settings.ofJson?_toJson alpha
  · intro settings fields servers extras held text alpha endpoints unknown order written
    rw [Settings.ofText?, written]
    exact settings.ofJson?_given fields (endpoints.imp fun _ _ written => written.read) alpha
      unknown order
  · intro held plain
    exact Json.parse?_render (Json.plain_ofMembers plain)
  · exact fun settings => ⟨rfl, rfl, rfl⟩

/-- A report with a server and a failure; the settings by default; and an object with an
endpoint that has only its host, a weight and an unknown member. -/
theorem documents_round_trip_partly :
    Sync.Status.ofText?
        ({ offset := -5, lastArrival := some 7, ageMs := some 9, lastFaultCode := 3,
           lastFault := some "\"slow\"\n", cycles := 2, failedCycles := 1,
           servers := [⟨"ntp.example:123", 1, 1, 1, false, 0, 3⟩] } :
          Sync.Status).toJson.render.toList =
      some { offset := -5, lastArrival := some 7, ageMs := some 9, lastFaultCode := 3,
             lastFault := some "\"slow\"\n", cycles := 2, failedCycles := 1,
             servers := [⟨"ntp.example:123", 1, 1, 1, false, 0, 3⟩] } ∧
    Settings.ofText? (default : Settings).toJson.render.toList = some default ∧
    Settings.ofText? (Json.ofMembers
        [("smoothing_alpha", .ofFloat 0.5), ("note", .null),
          ("servers", .array [.ofMembers [("host", .ofString "ntp.example")]])]).render.toList =
      some { (default : Settings) with
        servers := [{ host := "ntp.example" }], smoothingAlpha := 0.5 } := by
  obtain ⟨reports, settings, partly, texts, -⟩ := documents_round_trip
  have alpha : Json.float? (.ofFloat 0.5) = some 0.5 := by decide +kernel
  have server : Endpoint.Written (.ofMembers [("host", .ofString "ntp.example")])
      { host := "ntp.example" } :=
    .object { host := "ntp.example" } (fun name => name = "host") [] _ rfl
      (List.forall_mem_nil _) (List.Perm.refl _)
  refine ⟨reports _ ?_, settings _ (by decide +kernel), ?_⟩
  · have health : (⟨"ntp.example:123", 1, 1, 1, false, 0, 3⟩ : Pool.Health).InRange :=
      ⟨by decide, by decide, by decide, by decide, by decide⟩
    exact ⟨by decide, by decide, by decide, by rintro _ ⟨⟩; decide, by rintro _ ⟨⟩; decide,
      by decide, by decide, by decide, List.forall_mem_singleton.mpr health⟩
  · refine partly
      { (default : Settings) with servers := [{ host := "ntp.example" }], smoothingAlpha := 0.5 }
      (fun name => name = "servers" ∨ name = "smoothing_alpha") _ [("note", .null)] _ _
      (fun _ => alpha) (.cons server .nil) ?_ ?_ (texts _ ?_)
    · decide
    · exact @List.perm_append_comm _ [_, _] [_]
    · have array : (Json.array [.ofMembers [("host", .ofString "ntp.example")]]).Plain :=
        Json.plain_array (List.forall_mem_singleton.mpr
          (Json.plain_ofMembers (List.forall_mem_singleton.mpr (Json.plain_ofString _))))
      simp [Json.plain_ofFloat, Json.plain_null, array]

end TimeSync
