import TimeSync.Proofs.Sync.Calls

/-!
# What the published state says

Three operations write the state that a poller publishes: a cycle that succeeds, a cycle
that fails and a replacement of the servers.  Each starts from the state before, so what
is published can be read off the calls so far: the counters and the last fault from the
outcomes of the cycles, the offset from the samples, and the rest from the exchange of
the last cycle that was successful.
-/

namespace TimeSync.Sync

open Ntp (Fault Sample Outcome)

/-- Whether two states give the same reading of the time. -/
structure State.SameReading (first second : State) : Prop where
  offset : first.offset = second.offset
  sampleOffset : first.sampleOffset = second.sampleOffset
  delay : first.delay = second.delay
  stratum : first.stratum = second.stratum
  server : first.server = second.server
  lastSync : first.lastSync = second.lastSync
  lastArrival : first.lastArrival = second.lastArrival

/-- Whether a state shows an exchange with a server, whose reply was known at `known`. -/
structure State.Shows (state : State) (endpoint : Endpoint) (sample : Sample)
    (known : Instant) : Prop where
  sampleOffset : state.sampleOffset = sample.offset
  delay : state.delay = sample.delay
  stratum : state.stratum = some sample.stratum
  server : state.server = some endpoint
  lastSync : state.lastSync = some known
  lastArrival : state.lastArrival = some sample.arrival

theorem State.SameReading.shows {first second : State} (same : first.SameReading second)
    {endpoint : Endpoint} {sample : Sample} {known : Instant}
    (showsIt : second.Shows endpoint sample known) : first.Shows endpoint sample known where
  sampleOffset := same.sampleOffset.trans showsIt.sampleOffset
  delay := same.delay.trans showsIt.delay
  stratum := same.stratum.trans showsIt.stratum
  server := same.server.trans showsIt.server
  lastSync := same.lastSync.trans showsIt.lastSync
  lastArrival := same.lastArrival.trans showsIt.lastArrival

theorem State.SameReading.trans {first second third : State} (left : first.SameReading second)
    (right : second.SameReading third) : first.SameReading third where
  offset := left.offset.trans right.offset
  sampleOffset := left.sampleOffset.trans right.sampleOffset
  delay := left.delay.trans right.delay
  stratum := left.stratum.trans right.stratum
  server := left.server.trans right.server
  lastSync := left.lastSync.trans right.lastSync
  lastArrival := left.lastArrival.trans right.lastArrival

/-- Samples smoothed one after another, the first one taken as it is. -/
def smoothed (weight : Float) : List Int → Int
  | [] => 0
  | first :: later => later.foldl (fun previous sample => smooth previous sample weight) first

theorem smoothed_concat (weight : Float) {offsets : List Int} (begun : offsets ≠ [])
    (offset : Int) :
    smoothed weight (offsets ++ [offset]) = smooth (smoothed weight offsets) offset weight := by
  cases offsets with
  | nil => exact (begun rfl).elim
  | cons first later => exact List.foldl_append

def samples (outcomes : List Outcome) : List Sample := outcomes.filterMap Except.toOption

theorem mem_samples_iff {outcomes : List Outcome} {sample : Sample} :
    sample ∈ samples outcomes ↔ .ok sample ∈ outcomes := by
  simp only [samples, List.mem_filterMap]
  constructor
  · rintro ⟨outcome, member, same⟩
    cases outcome with
    | error fault => cases same
    | ok other =>
      cases same
      exact member
  · exact fun member => ⟨_, member, rfl⟩

namespace Poller

variable {ε : Type}

theorem publish_of_last {poller : Poller} {attempts : List Attempt} {index : Nat}
    {endpoint : Endpoint} {sample : Sample} {known : Instant}
    (last : attempts.getLast? = some ⟨index, endpoint, .ok sample, known⟩) (now : Instant) :
    poller.publish attempts now =
      poller.state.succeed endpoint sample poller.settings.smoothingAlpha now
        (poller.pool.health now) := by
  simp only [publish, last]

theorem publish_of_fault {poller : Poller} {attempts : List Attempt} {fault : Fault}
    (concluded : conclusion attempts = .error fault) (now : Instant) :
    poller.publish attempts now = poller.state.fail fault (poller.pool.health now) := by
  unfold conclusion at concluded
  unfold publish
  cases last : attempts.getLast? with
  | none =>
    simp only [last] at concluded ⊢
    cases concluded
    rfl
  | some attempt =>
    obtain ⟨index, endpoint, outcome, known⟩ := attempt
    simp only [last] at concluded
    subst concluded
    rfl

/-- A cycle publishes the exchange that it has accepted, or its fault; a replacement
publishes nothing but the servers. -/
theorem after_cases {poller : Poller} (follows : poller.pool.Follows poller.settings)
    (call : Call ε) :
    (∃ source context endpoint sample known servers, call = .cycle source context ∧
      poller.outcome? call = some (.ok sample) ∧
      Accepts source poller.settings (poller.attempts source context).1 endpoint sample known ∧
      (poller.after call).state =
        poller.state.succeed endpoint sample poller.settings.smoothingAlpha known servers) ∨
    (∃ fault servers, poller.outcome? call = some (.error fault) ∧
      (poller.after call).state = poller.state.fail fault servers) ∨
    (poller.outcome? call = none ∧
      ∃ servers, (poller.after call).state = { poller.state with servers }) := by
  cases call with
  | replacement servers context =>
    refine .inr (.inr ⟨rfl, ?_⟩)
    rcases poller.replaceServers_cases servers context with ⟨_, _, refused⟩ | ⟨_, _, replaced⟩
    · rw [after, refused]
      exact ⟨poller.state.servers, rfl⟩
    · rw [after, replaced]
      exact ⟨_, rfl⟩
  | cycle source context =>
    let asked : Poller := { poller with pool := (poller.attempts source context).2.pool }
    cases concluded : (poller.runCycle source context).1 with
    | ok sample =>
      obtain ⟨endpoint, known, accepts, now⟩ := accepts_runCycle follows concluded
      obtain ⟨index, last⟩ := accepts.last
      have published : asked.publish (poller.attempts source context).1 known = _ :=
        publish_of_last last known
      rw [← now] at published
      exact .inl ⟨source, context, endpoint, sample, _, _, rfl, congrArg some concluded,
        now ▸ accepts, published⟩
    | error fault =>
      exact .inr (.inl ⟨fault, _, congrArg some concluded, publish_of_fault concluded _⟩)

theorem sameReading_after {poller : Poller} (follows : poller.pool.Follows poller.settings)
    {call : Call ε} (without : ∀ sample, poller.outcome? call ≠ some (.ok sample)) :
    (poller.after call).state.SameReading poller.state := by
  rcases after_cases follows call with ⟨_, _, _, sample, _, _, _, succeeds, _⟩ |
    ⟨_, _, _, published⟩ | ⟨_, _, published⟩
  · exact (without sample succeeds).elim
  · rw [published]
    constructor <;> rfl
  · rw [published]
    constructor <;> rfl

/-- What the state says after the cycles with these outcomes. -/
structure Published (weight : Float) (outcomes : List Outcome) (state : State) : Prop where
  cycles : state.cycles = outcomes.length
  failedCycles : state.failedCycles = outcomes.countP fun outcome => !outcome.isOk
  lastFault : ∀ fault, state.lastFault = some fault ↔ outcomes.getLast? = some (.error fault)
  synchronized : state.lastSync.isSome ↔ samples outcomes ≠ []
  offset : state.offset = smoothed weight ((samples outcomes).map Sample.offset)

theorem Published.succeed {weight : Float} {outcomes : List Outcome} {state : State}
    (published : Published weight outcomes state) (endpoint : Endpoint) (sample : Sample)
    (now : Instant) (servers : List Pool.Health) :
    Published weight (outcomes ++ [.ok sample])
      (state.succeed endpoint sample weight now servers) := by
  have more : samples (outcomes ++ [.ok sample]) = samples outcomes ++ [sample] := by
    simp [samples, Except.toOption]
  refine ⟨?_, ?_, ?_, ?_, ?_⟩
  · simp [State.succeed, published.cycles]
  · simp [State.succeed, published.failedCycles, Except.isOk, Except.toBool]
  · simp [State.succeed]
  · simp [State.succeed, more]
  · rw [more, List.map_append, List.map_cons, List.map_nil]
    by_cases begun : samples outcomes = []
    · have first : ¬ state.synchronized := fun synced => published.synchronized.mp synced begun
      simp only [State.succeed, State.offsetAfter, if_neg first, begun]
      rfl
    · have again : state.synchronized := published.synchronized.mpr begun
      simp only [State.succeed, State.offsetAfter, if_pos again, published.offset]
      exact (smoothed_concat weight (by simpa using begun) sample.offset).symm

theorem Published.fail {weight : Float} {outcomes : List Outcome} {state : State}
    (published : Published weight outcomes state) (fault : Fault)
    (servers : List Pool.Health) :
    Published weight (outcomes ++ [.error fault]) (state.fail fault servers) := by
  have same : samples (outcomes ++ [.error fault]) = samples outcomes := by
    simp [samples, Except.toOption]
  refine ⟨?_, ?_, ?_, ?_, ?_⟩
  · simp [State.fail, published.cycles]
  · simp [State.fail, published.failedCycles, Except.isOk, Except.toBool]
  · simp [State.fail]
  · rw [same]
    exact published.synchronized
  · rw [same]
    exact published.offset

theorem published_replay (settings : Settings) (calls : List (Call ε)) :
    Published settings.smoothingAlpha ((ofSettings settings).outcomes calls)
      ((ofSettings settings).replay calls).state := by
  induction calls using List.reverseRecOn with
  | nil => exact ⟨rfl, rfl, by simp [replay, outcomes, ofSettings], by
      simp [replay, outcomes, ofSettings, samples], rfl⟩
  | append_singleton calls call induction =>
    have weight := smoothingAlpha_replay (ofSettings settings) calls
    rw [replay_concat, outcomes_concat]
    rcases after_cases (follows_replay settings calls) call with
      ⟨_, _, endpoint, sample, known, servers, _, succeeds, _, published⟩ |
      ⟨fault, servers, fails, published⟩ | ⟨replaced, servers, published⟩
    · rw [published, succeeds, weight]
      exact induction.succeed endpoint sample known servers
    · rw [published, fails]
      exact induction.fail fault servers
    · rw [published, replaced, Option.toList_none, List.append_nil]
      exact ⟨induction.cycles, induction.failedCycles, induction.lastFault,
        induction.synchronized, induction.offset⟩

/-- The exchange of the last cycle that succeeded, which none that succeeded has followed. -/
def Latest (first : Poller) (calls : List (Call ε)) (endpoint : Endpoint) (sample : Sample)
    (known : Instant) : Prop :=
  ∃ earlier source context later, calls = earlier ++ .cycle source context :: later ∧
    (first.replay earlier).outcome? (.cycle source context) = some (.ok sample) ∧
    Accepts source (first.replay earlier).settings
      ((first.replay earlier).attempts source context).1 endpoint sample known ∧
    ∀ other, .ok other ∉
      ((first.replay earlier).after (.cycle source context)).outcomes later

theorem Latest.concat {first : Poller} {calls : List (Call ε)} {endpoint : Endpoint}
    {sample : Sample} {known : Instant} (latest : Latest first calls endpoint sample known)
    {call : Call ε}
    (without : ∀ sample, (first.replay calls).outcome? call ≠ some (.ok sample)) :
    Latest first (calls ++ [call]) endpoint sample known := by
  obtain ⟨earlier, source, context, later, rfl, succeeds, accepts, noneLater⟩ := latest
  refine ⟨earlier, source, context, later ++ [call], by simp, succeeds, accepts, ?_⟩
  intro other member
  have reached : first.replay (earlier ++ .cycle source context :: later) =
      ((first.replay earlier).after (.cycle source context)).replay later :=
    List.foldl_append
  rw [reached] at without
  rw [outcomes_concat, List.mem_append] at member
  rcases member with before | last
  · exact noneLater other before
  · exact without other (Option.mem_toList.mp last)

/-- What is shown after some calls: nothing yet, or the exchange of the last cycle that
succeeded. -/
def ShowsLatest (first : Poller) (calls : List (Call ε)) : Prop :=
  (samples (first.outcomes calls) = [] ∧ (first.replay calls).state.SameReading {}) ∨
    ∃ endpoint sample known, Latest first calls endpoint sample known ∧
      (first.replay calls).state.Shows endpoint sample known

theorem ShowsLatest.concat {first : Poller} {calls : List (Call ε)}
    (shown : ShowsLatest first calls) {call : Call ε}
    (without : ∀ sample, (first.replay calls).outcome? call ≠ some (.ok sample))
    (same : ((first.replay calls).after call).state.SameReading (first.replay calls).state) :
    ShowsLatest first (calls ++ [call]) := by
  unfold ShowsLatest
  rw [replay_concat]
  rcases shown with ⟨nothing, blank⟩ | ⟨endpoint, sample, known, latest, shown⟩
  · refine .inl ⟨?_, same.trans blank⟩
    rw [List.eq_nil_iff_forall_not_mem] at nothing ⊢
    intro sample member
    rw [mem_samples_iff, outcomes_concat, List.mem_append] at member
    rcases member with before | last
    · exact nothing sample (mem_samples_iff.mpr before)
    · exact without sample (Option.mem_toList.mp last)
  · exact .inr ⟨endpoint, sample, known, latest.concat without, same.shows shown⟩

theorem showsLatest_replay (settings : Settings) (calls : List (Call ε)) :
    ShowsLatest (ofSettings settings) calls := by
  induction calls using List.reverseRecOn with
  | nil =>
    refine .inl ⟨rfl, ?_⟩
    constructor <;> rfl
  | append_singleton calls call induction =>
    have follows := follows_replay settings calls
    rcases after_cases follows call with
      ⟨source, context, endpoint, sample, known, servers, rfl, succeeds, accepts, published⟩ |
      ⟨fault, servers, fails, -⟩ | ⟨replaced, servers, -⟩
    · refine .inr ⟨endpoint, sample, known, ⟨calls, source, context, [], rfl, succeeds,
        accepts, fun other => List.not_mem_nil⟩, ?_⟩
      rw [replay_concat, published]
      constructor <;> rfl
    · have without : ∀ sample,
          ((ofSettings settings).replay calls).outcome? call ≠ some (.ok sample) :=
        fun sample succeeds => nomatch fails.symm.trans succeeds
      exact induction.concat without (sameReading_after follows without)
    · have without : ∀ sample,
          ((ofSettings settings).replay calls).outcome? call ≠ some (.ok sample) :=
        fun sample succeeds => nomatch replaced.symm.trans succeeds
      exact induction.concat without (sameReading_after follows without)

theorem synchronized_replay {poller : Poller} (follows : poller.pool.Follows poller.settings)
    (calls : List (Call ε)) (synced : poller.state.lastSync.isSome) :
    (poller.replay calls).state.lastSync.isSome := by
  induction calls generalizing poller with
  | nil => exact synced
  | cons call calls induction =>
    refine induction (follows_after follows call) ?_
    rcases after_cases follows call with ⟨_, _, _, _, _, _, _, _, _, published⟩ |
      ⟨_, _, _, published⟩ | ⟨_, _, published⟩
    · rw [published]
      rfl
    · rw [published]
      exact synced
    · rw [published]
      exact synced

end Poller

/-- The state that a new poller has published can be read off the calls so far, in any
order, with any sources and with servers replaced by any others.  The counters and the
last fault are those of the outcomes of its cycles; it is synchronised once a cycle has
succeeded, and for good.  The offset is that of the samples, smoothed one after another.
All else that concerns the time shows the exchange of the last cycle that succeeded, which
was within the limit on its server's delay at the time.  Only a cycle that succeeds
changes the reading of the time. -/
theorem state_folds_calls {ε : Type} (settings : Settings) (calls : List (Call ε)) :
    let first := Poller.ofSettings settings
    let outcomes := first.outcomes calls
    let state := (first.replay calls).state
    state.cycles = outcomes.length ∧
    state.failedCycles = (outcomes.countP fun outcome => !outcome.isOk) ∧
    (∀ fault, state.lastFault = some fault ↔ outcomes.getLast? = some (.error fault)) ∧
    (state.lastSync.isSome ↔ ∃ sample, .ok sample ∈ outcomes) ∧
    (∀ later : List (Call ε), state.lastSync.isSome →
      (first.replay (calls ++ later)).state.lastSync.isSome) ∧
    state.offset =
      smoothed settings.smoothingAlpha ((samples outcomes).map Sample.offset) ∧
    ((samples outcomes = [] ∧ state.SameReading {}) ∨
      ∃ endpoint sample known, first.Latest calls endpoint sample known ∧
        state.Shows endpoint sample known) ∧
    ∀ call : Call ε, (∀ sample, (first.replay calls).outcome? call ≠ some (.ok sample)) →
      (first.replay (calls ++ [call])).state.SameReading state := by
  intro first outcomes state
  have published := Poller.published_replay settings calls
  have follows := Poller.follows_replay settings calls
  refine ⟨published.cycles, published.failedCycles, published.lastFault, ?_, ?_,
    published.offset, Poller.showsLatest_replay settings calls, ?_⟩
  · rw [published.synchronized, ne_eq, List.eq_nil_iff_forall_not_mem, not_forall_not]
    simp only [mem_samples_iff]
    rfl
  · intro later synced
    have reached : first.replay (calls ++ later) = (first.replay calls).replay later :=
      List.foldl_append
    rw [reached]
    exact Poller.synchronized_replay follows later synced
  · intro call without
    rw [Poller.replay_concat]
    exact Poller.sameReading_after follows without

end TimeSync.Sync
