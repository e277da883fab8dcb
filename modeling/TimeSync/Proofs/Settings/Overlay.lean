import TimeSync.CommandLine.Overlay
import TimeSync.Proofs.Json.RoundTrip

/-!
# Options over settings

The options of the command line are laid over the settings of a file, or over the default
ones.  What comes out is checked, and so is a file by itself before that: options can spoil
settings that are valid, but they cannot mend a file that is not.
-/

namespace TimeSync

namespace Settings

theorem validate_eq_ok_iff {settings : Settings} :
    settings.validate = .ok () ↔ settings.fault? = none := by
  unfold validate
  cases settings.fault? with
  | none => simp
  | some fault => simp

theorem validate_eq_error_iff {settings : Settings} {fault : SettingsFault} :
    settings.validate = .error fault ↔ settings.fault? = some fault := by
  unfold validate
  cases settings.fault? with
  | none => simp
  | some found => simp

theorem fault?_default : (default : Settings).fault? = none := by decide +kernel

theorem ofFile_of_text {path text : String} {contents : Option ByteArray} {settings : Settings}
    (holds : contents >>= String.fromUTF8? = some text)
    (parsed : ofText? text.toList = some settings) :
    ofFile path contents =
      match settings.fault? with
      | some fault => .error (.invalid fault)
      | none => .ok settings := by
  cases checked : settings.fault? with
  | none => simp only [ofFile, holds, parsed, checked]
  | some fault => simp only [ofFile, holds, parsed, checked]

theorem ofJson?_interval (millis : UInt64) :
    ofJson? default (.ofMembers [("poll_interval_ms", .ofInt millis.toNat)]) =
      some { (default : Settings) with pollIntervalMs := millis } := by
  have endpoints : List.Forall₂ (fun json endpoint => Endpoint.ofJson? json = some endpoint)
      (defaultServers.map Endpoint.toJson) defaultServers := by
    rw [List.forall₂_map_left_iff]
    exact List.forall₂_same.mpr fun endpoint _ => endpoint.ofJson?_toJson
  exact ofJson?_given { (default : Settings) with pollIntervalMs := millis }
    (fun name => name = "poll_interval_ms") endpoints (fun given => absurd given (by decide))
    (List.forall_mem_nil _) (List.Perm.refl _)

end Settings

namespace CommandLine.Arguments

/-- The settings under the options: what the file says that is asked for, valid or not, or
the default settings where none is. -/
inductive Base (arguments : Arguments) (contents : String → Option ByteArray) :
    Settings → Prop where
  | standard : arguments.config = none → Base arguments contents default
  | file {path text : String} {settings : Settings} : arguments.config = some path →
      contents path >>= String.fromUTF8? = some text →
      Settings.ofText? text.toList = some settings → Base arguments contents settings

/-- Settings in which each option that is given stands in place of its field, and every other
field is as it was. -/
structure Overlaid (arguments : Arguments) (base merged : Settings) : Prop where
  servers : merged.servers =
    if arguments.servers = [] then base.servers else arguments.servers
  interval : merged.pollIntervalMs.toNat = match arguments.intervalSecs with
    | none => base.pollIntervalMs.toNat
    | some secs => min (secs.toNat * 1000) (2 ^ 64 - 1)
  timeout : merged.queryTimeoutMs = match arguments.timeoutMs with
    | none => base.queryTimeoutMs
    | some millis => millis
  maxDelay : merged.maxDelayMs = match arguments.maxDelayMs with
    | none => base.maxDelayMs
    | some millis => millis
  smoothing : merged.smoothingAlpha = match arguments.smoothingAlpha with
    | none => base.smoothingAlpha
    | some alpha => alpha
  threshold : merged.failureThreshold = base.failureThreshold
  cooldownInitial : merged.cooldownInitialMs = base.cooldownInitialMs
  cooldownMax : merged.cooldownMaxMs = base.cooldownMaxMs
  selection : merged.selection = base.selection
  immediately : merged.measureImmediately = base.measureImmediately

theorem toNat_millisOfSecs (secs : UInt64) :
    (millisOfSecs secs).toNat = min (secs.toNat * 1000) (2 ^ 64 - 1) := by
  have fits : min (secs.toNat * 1000) (UInt64.size - 1) < UInt64.size := by
    have : UInt64.size - 1 < UInt64.size := by decide
    omega
  exact UInt64.toNat_ofNat_of_lt' fits

theorem overlaid_overlay (arguments : Arguments) (base : Settings) :
    Overlaid arguments base (arguments.overlay base) where
  servers := rfl
  interval := by
    cases given : arguments.intervalSecs with
    | none => simp [overlay, given]
    | some secs => simp [overlay, given, toNat_millisOfSecs]
  timeout := by cases given : arguments.timeoutMs <;> simp [overlay, given]
  maxDelay := by cases given : arguments.maxDelayMs <;> simp [overlay, given]
  smoothing := by cases given : arguments.smoothingAlpha <;> simp [overlay, given]
  threshold := rfl
  cooldownInitial := rfl
  cooldownMax := rfl
  selection := rfl
  immediately := rfl

theorem Overlaid.eq_overlay {arguments : Arguments} {base merged : Settings}
    (overlaid : Overlaid arguments base merged) : merged = arguments.overlay base := by
  have other := overlaid_overlay arguments base
  apply Settings.ext
  · exact overlaid.servers.trans other.servers.symm
  · exact UInt64.toNat_inj.mp (overlaid.interval.trans other.interval.symm)
  · exact overlaid.timeout.trans other.timeout.symm
  · exact overlaid.threshold
  · exact overlaid.cooldownInitial
  · exact overlaid.cooldownMax
  · exact overlaid.selection
  · exact overlaid.immediately
  · exact overlaid.maxDelay.trans other.maxDelay.symm
  · exact overlaid.smoothing.trans other.smoothing.symm

section Laid

variable {arguments : Arguments} {contents : String → Option ByteArray} {base merged : Settings}

/-- The settings under the options are checked first, and then those with the options. -/
theorem Base.settings_eq (under : Base arguments contents base) :
    arguments.settings contents =
      match base.fault? with
      | some fault => .error (.invalid fault)
      | none =>
        match (arguments.overlay base).fault? with
        | some fault => .error (.invalid fault)
        | none => .ok (arguments.overlay base) := by
  cases under with
  | standard unasked =>
    rw [Settings.fault?_default]
    unfold settings
    rw [unasked]
    rfl
  | file asked holds parsed =>
    unfold settings
    rw [asked]
    dsimp only
    rw [Settings.ofFile_of_text holds parsed]
    cases base.fault? with
    | some fault => rfl
    | none => rfl

theorem Base.settings_of_fault (under : Base arguments contents base) {fault : SettingsFault}
    (spoiled : base.fault? = some fault) :
    arguments.settings contents = .error (.invalid fault) := by
  rw [under.settings_eq, spoiled]

theorem Base.fault?_of_no_file (under : Base arguments contents base)
    (unasked : arguments.config = none) : base.fault? = none := by
  cases under with
  | standard => exact Settings.fault?_default
  | file asked =>
    rw [unasked] at asked
    cases asked

theorem Base.of_interval {path text : String} {millis : UInt64}
    (asked : arguments.config = some path) (holds : contents path = some text.toUTF8)
    (written : Json.parse? text.toList =
      some (.ofMembers [("poll_interval_ms", .ofInt millis.toNat)])) :
    Base arguments contents { (default : Settings) with pollIntervalMs := millis } := by
  have decoded : contents path >>= String.fromUTF8? = some text := by
    rw [holds]
    exact dif_pos text.isValidUTF8
  refine .file asked decoded ?_
  rw [Settings.ofText?, written, Option.bind_eq_bind, Option.bind_some]
  exact Settings.ofJson?_interval millis

end Laid

/-- If the settings under the options are valid, as the default ones are, then the options
replace exactly their fields, and what comes of it is given where it passes the checks and
else refused for the first that fails.  A file that does not pass them by itself is refused
for its own fault, whatever the options are. -/
theorem options_override_valid_settings {arguments : Arguments}
    {contents : String → Option ByteArray} {base merged : Settings}
    (under : Base arguments contents base) (overlaid : Overlaid arguments base merged) :
    (base.validate = .ok () →
      (arguments.settings contents = .ok merged ↔ merged.validate = .ok ()) ∧
      ∀ fault, arguments.settings contents = .error (.invalid fault) ↔
        merged.validate = .error fault) ∧
    (arguments.config = none → base.validate = .ok ()) ∧
    ∀ fault, base.validate = .error fault →
      arguments.settings contents = .error (.invalid fault) := by
  refine ⟨?_, ?_, ?_⟩
  · intro valid
    rw [under.settings_eq, Settings.validate_eq_ok_iff.mp valid, ← overlaid.eq_overlay,
      Settings.validate_eq_ok_iff]
    simp only [Settings.validate_eq_error_iff]
    cases merged.fault? with
    | none => simp
    | some fault => simp
  · intro unasked
    exact Settings.validate_eq_ok_iff.mpr (under.fault?_of_no_file unasked)
  · intro fault spoiled
    exact under.settings_of_fault (Settings.validate_eq_error_iff.mp spoiled)

/-- A file that holds only an interval, with options that ask for one too long to be counted
and for no time to answer; no file, and a limit; a file with an interval of zero, and an
option that gives another. -/
theorem options_override_valid_settings_saturated :
    let holding (text : String) : String → Option ByteArray := fun _ => some text.toUTF8
    let longest : Arguments :=
      { config := some "file", intervalSecs := some 18446744073709552, timeoutMs := some 0 }
    let limited : Arguments := { maxDelayMs := some 9 }
    let mending : Arguments := { config := some "file", intervalSecs := some 5 }
    longest.settings (holding "\x7b\"poll_interval_ms\":777\x7d") =
        .error (.invalid (.zero "query_timeout_ms")) ∧
      limited.settings (holding "") = .ok { (default : Settings) with maxDelayMs := 9 } ∧
      mending.settings (holding "\x7b\"poll_interval_ms\":0\x7d") =
        .error (.invalid (.zero "poll_interval_ms")) := by
  intro holding longest limited mending
  have someInterval : Base longest (holding "\x7b\"poll_interval_ms\":777\x7d")
      { (default : Settings) with pollIntervalMs := 777 } := .of_interval rfl rfl (by cbv)
  have noInterval : Base mending (holding "\x7b\"poll_interval_ms\":0\x7d")
      { (default : Settings) with pollIntervalMs := 0 } := .of_interval rfl rfl (by cbv)
  obtain ⟨laid, -, -⟩ :=
    options_override_valid_settings someInterval (overlaid_overlay longest _)
  obtain ⟨limits, unasked, -⟩ := options_override_valid_settings
    (Base.standard rfl : Base limited (holding "") default) (overlaid_overlay limited default)
  obtain ⟨-, -, spoiled⟩ :=
    options_override_valid_settings noInterval (overlaid_overlay mending _)
  have sound : Settings.fault? { (default : Settings) with pollIntervalMs := 777 } = none := by
    decide +kernel
  have within : (limited.overlay default).fault? = none := by decide +kernel
  refine ⟨?_, ?_, ?_⟩
  · exact ((laid (Settings.validate_eq_ok_iff.mpr sound)).2 _).mpr rfl
  · exact (limits (unasked rfl)).1.mpr (Settings.validate_eq_ok_iff.mpr within)
  · exact spoiled _ rfl

/-- Though the interval of five seconds that an option gives would make the settings of a file
valid, the file is refused for its interval of zero. -/
theorem options_cannot_mend_file :
    let contents : String → Option ByteArray :=
      fun _ => some "\x7b\"poll_interval_ms\":0\x7d".toUTF8
    let arguments : Arguments := { config := some "file", intervalSecs := some 5 }
    let base : Settings := { (default : Settings) with pollIntervalMs := 0 }
    let merged : Settings := { (default : Settings) with pollIntervalMs := 5000 }
    Base arguments contents base ∧ Overlaid arguments base merged ∧ merged.validate = .ok () ∧
      arguments.settings contents ≠ .ok merged ∧
      arguments.settings contents = .error (.invalid (.zero "poll_interval_ms")) := by
  intro contents arguments base merged
  have under : Base arguments contents base := .of_interval rfl rfl (by cbv)
  have overlaid : Overlaid arguments base merged :=
    ⟨rfl, by decide, rfl, rfl, rfl, rfl, rfl, rfl, rfl, rfl⟩
  have valid : merged.fault? = none := by decide +kernel
  have refused : arguments.settings contents = .error (.invalid (.zero "poll_interval_ms")) :=
    under.settings_of_fault rfl
  refine ⟨under, overlaid, Settings.validate_eq_ok_iff.mpr valid, ?_, refused⟩
  intro given
  rw [refused] at given
  cases given

end CommandLine.Arguments

end TimeSync
