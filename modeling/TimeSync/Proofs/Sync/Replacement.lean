import TimeSync.Proofs.Sync.Asking

/-!
# Replacing the servers

Other servers take the place of the present ones all at once or not at all.  Settings that
would not pass the checks leave the poller as it was.  Otherwise the pool is built anew from
them, and as it follows the settings from then on, no cycle asks any other server before the
next replacement that is carried out.
-/

namespace TimeSync

namespace Sync

namespace Poller

variable {ε : Type} {poller : Poller}

theorem mem_servers_of_attempt (follows : poller.pool.Follows poller.settings)
    {source : Source ε} {context : Context ε} {attempt : Attempt}
    (made : attempt ∈ (poller.attempts source context).1) :
    attempt.endpoint ∈ poller.settings.servers := by
  obtain ⟨entry, present, answers⟩ := (asks_attempts source poller context).answers attempt made
  rw [answers.endpoint]
  exact (follows attempt.index entry present).1

theorem mem_servers_of_request (follows : poller.pool.Follows poller.settings)
    {source : Source ε} {context : Context ε} {request : Endpoint × Duration}
    (made : request ∈ (poller.runCycle source.recorded
      (context.withEnv (context.env, []))).2.2.env.2) :
    request.1 ∈ poller.settings.servers := by
  rw [runCycle_recorded] at made
  obtain ⟨attempt, asked, rfl⟩ := List.mem_map.mp made
  exact mem_servers_of_attempt follows asked

variable {servers : List Endpoint}

theorem replaceServers_eq_error_iff {fault : SettingsFault} {context : Context ε} :
    (poller.replaceServers servers context).1 = .error fault ↔
      { poller.settings with servers }.fault? = some fault := by
  rcases poller.replaceServers_cases servers context with
    ⟨other, found, refused⟩ | ⟨valid, _, replaced⟩
  · rw [refused, found, Except.error.injEq, Option.some.injEq]
  · rw [replaced, valid]
    exact iff_of_false nofun nofun

theorem replaceServers_eq_ok_iff {context : Context ε} :
    (poller.replaceServers servers context).1 = .ok () ↔
      { poller.settings with servers }.fault? = none := by
  rcases poller.replaceServers_cases servers context with
    ⟨other, found, refused⟩ | ⟨valid, _, replaced⟩
  · rw [refused, found]
    exact iff_of_false nofun nofun
  · rw [replaced]
    exact iff_of_true rfl valid

/-- Whether a call puts other servers in the place of the present ones. -/
def Replaces (poller : Poller) : Call ε → Prop
  | .cycle _ _ => False
  | .replacement servers context => (poller.replaceServers servers context).1 = .ok ()

theorem settings_after_of_not_replaces {call : Call ε} (kept : ¬ poller.Replaces call) :
    (poller.after call).settings = poller.settings := by
  cases call with
  | cycle source context => rfl
  | replacement servers context =>
    rcases poller.replaceServers_cases servers context with ⟨_, _, refused⟩ | ⟨_, _, replaced⟩
    · exact congrArg (·.2.1.settings) refused
    · exact (kept (congrArg Prod.fst replaced)).elim

theorem settings_replay_of_not_replaces {calls : List (Call ε)}
    (kept : ∀ earlier call later, calls = earlier ++ call :: later →
      ¬ (poller.replay earlier).Replaces call) :
    (poller.replay calls).settings = poller.settings := by
  induction calls using List.reverseRecOn with
  | nil => rfl
  | append_singleton calls call induction =>
    have before := induction fun earlier other later split =>
      kept earlier other (later ++ [call]) (by simp [split])
    have last := settings_after_of_not_replaces (kept calls call [] rfl)
    rw [replay_concat, last, before]

end Poller

/-- A replacement of the servers fails exactly if the settings with the other servers do not
pass the checks, and then nothing has changed: whatever is asked of the poller later comes
out as if there had been no replacement.  Otherwise the pool has one fresh entry for each of
the servers in turn, with the limit on its delay that it has itself or else the one of the
settings, and its cursor is at the first.  The settings are as before but for the servers, and
so is the published state, which shows the health of the new pool.  Until another replacement
is carried out, every request of a cycle goes to one of the servers. -/
theorem replacement_all_or_nothing {ε : Type} (poller : Poller) (servers : List Endpoint)
    (context : Context ε) :
    let settings : Settings := { poller.settings with servers }
    let answer := (poller.replaceServers servers context).1
    let replaced := (poller.replaceServers servers context).2.1
    (∀ fault, answer = .error fault ↔ settings.fault? = some fault) ∧
    (∀ fault, answer = .error fault →
      replaced = poller ∧ (poller.replaceServers servers context).2.2 = context ∧
      ∀ calls : List (Call ε), replaced.replay calls = poller.replay calls ∧
        replaced.outcomes calls = poller.outcomes calls) ∧
    (answer = .ok () →
      replaced.pool =
        { entries := servers.map fun endpoint =>
            { endpoint
              failuresInARow := 0, successes := 0, failures := 0
              lastSuccess := none, lastFailure := none, lastFault := none
              cooldownUntil := none
              backoff := poller.settings.cooldownInitial
              maxDelay :=
                let millis := endpoint.maxDelayMs.getD poller.settings.maxDelayMs
                if millis = 0 then none else some (.ofMillis millis) }
          selection := poller.settings.selection
          threshold := max poller.settings.failureThreshold.toNat 1
          cooldownInitial := poller.settings.cooldownInitial
          cooldownMax := poller.settings.cooldownMax
          cursor := 0 } ∧
      replaced.settings = settings ∧
      replaced.state =
        { poller.state with servers := replaced.pool.entries.map (·.health context.now) } ∧
      ∀ calls : List (Call ε),
        (∀ earlier call later, calls = earlier ++ call :: later →
          ¬ (replaced.replay earlier).Replaces call) →
        ∀ (source : Source ε) (asked : Context ε),
          ∀ request ∈ ((replaced.replay calls).runCycle source.recorded
            (asked.withEnv (asked.env, []))).2.2.env.2, request.1 ∈ servers) := by
  intro settings answer replaced
  refine ⟨fun fault => Poller.replaceServers_eq_error_iff, ?_, ?_⟩
  · intro fault failed
    rcases poller.replaceServers_cases servers context with ⟨_, _, refused⟩ | ⟨_, _, carriedOut⟩
    · have same : replaced = poller := congrArg (·.2.1) refused
      exact ⟨same, congrArg (·.2.2) refused, fun calls => ⟨by rw [same], by rw [same]⟩⟩
    · cases failed.symm.trans (congrArg Prod.fst carriedOut)
  · intro succeeded
    rcases poller.replaceServers_cases servers context with ⟨_, _, refused⟩ | ⟨_, _, carriedOut⟩
    · cases succeeded.symm.trans (congrArg Prod.fst refused)
    · have built : replaced = _ := congrArg (·.2.1) carriedOut
      have keptSettings : replaced.settings = settings := congrArg Poller.settings built
      have pool : replaced.pool = .ofSettings settings := congrArg Poller.pool built
      have follows : replaced.pool.Follows replaced.settings := by
        rw [pool, keptSettings]
        exact Pool.follows_ofSettings settings
      refine ⟨pool, keptSettings, ?_, ?_⟩
      · rw [pool]
        exact congrArg Poller.state built
      · intro calls kept source asked request made
        have among := Poller.mem_servers_of_request (Poller.follows_calls follows calls) made
        rw [Poller.settings_replay_of_not_replaces kept, keptSettings] at among
        exact among

/-- The only server of a poller has failed when two others take its place.  Their entries
begin without a failure; a replacement by no servers is refused, and the next cycle asks the
first of the two. -/
theorem replacement_all_or_nothing_afresh :
    let first : Instant := ⟨0, by decide, by decide⟩
    let clock : Context Unit := { now := first, wall := 0, cpu := {}, log := #[], env := () }
    let source : Source Unit := fun endpoint _ context =>
      (if endpoint.host = "a" then .error .timeout else .ok ⟨0, 0, 1, 0⟩, context)
    let poller := ((Poller.ofSettings { servers := [{ host := "a" }] }).runCycle source clock).2.1
    let servers : List Endpoint := [{ host := "b", maxDelayMs := some 0 }, { host := "c" }]
    let replaced := (poller.replaceServers servers clock).2.1
    let calls : List (Call Unit) := [.replacement [] clock]
    let asked := ((replaced.replay calls).runCycle source.recorded
      (clock.withEnv (clock.env, []))).2.2.env.2
    poller.pool.entries.map Pool.Entry.failures = [1] ∧
    replaced.pool.entries.map Pool.Entry.failures = [0, 0] ∧
    replaced.replay calls = replaced ∧
    asked.map (·.1.host) = ["b"] ∧ ∀ request ∈ asked, request.1 ∈ servers := by
  intro first clock source poller servers replaced calls asked
  have carriedOut : (poller.replaceServers servers clock).1 = .ok () :=
    Poller.replaceServers_eq_ok_iff.mpr (by decide +kernel)
  obtain ⟨pool, -, -, requests⟩ := (replacement_all_or_nothing poller servers clock).2.2 carriedOut
  obtain ⟨refused, unchanged, -⟩ := replacement_all_or_nothing replaced [] clock
  have refusal := (refused .emptyPool).mpr rfl
  have same : replaced.replay calls = replaced := (unchanged .emptyPool refusal).1
  have kept : ∀ earlier call later, calls = earlier ++ call :: later →
      ¬ (replaced.replay earlier).Replaces call := by
    intro earlier call later split
    cases earlier with
    | nil =>
      obtain ⟨rfl, -⟩ := List.cons.inj split
      exact fun replaces => nomatch refusal.symm.trans replaces
    | cons other earlier => simp [calls] at split
  have afresh := congrArg (·.entries.map Pool.Entry.failures) pool
  exact ⟨by decide +kernel, afresh, same, by decide +kernel, requests calls kept source clock⟩

end Sync

end TimeSync
