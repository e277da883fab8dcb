import TimeSync.Proofs.Scheduler.FiringOrder

/-!
# The grid of a repeating timer

The points of a timer's grid are its first deadline and whole periods after it.  Each time
that the timer waits again its phase has moved to a later point of the grid, and its
deadline lies less than a period after that point, however late its run began and however
long it took.  So every run has a grid point of its own, which the clock has passed when
the run begins, and there are never more runs than grid points have passed.
-/

namespace TimeSync

namespace Timer

theorem nextDeadline_of_le {phase next now : Instant} {period : Duration}
    (fits : phase.add? period = some next) (inTime : now ≤ next) :
    nextDeadline phase period now = (next, next) := by
  simp only [nextDeadline, fits, if_pos inTime]

/-- Where the next grid point has passed, the timer is due at once, and its phase is the
last point that has not passed `now`. -/
theorem nextDeadline_of_lt {phase next now : Instant} {period : Duration}
    (fits : phase.add? period = some next) (late : next < now)
    (short : now.nanos - phase.nanos < 2 ^ 64) :
    ∃ point : Instant, nextDeadline phase period now = (point, now) ∧
      point.nanos =
        phase.nanos + ((now.since phase).nanos / period.nanos * period.nanos : ℕ) := by
  have added := Instant.add?_eq_some_iff.mp fits
  have passed : ¬ now ≤ next := by
    rw [Instant.lt_def] at late
    rw [Instant.le_def]
    omega
  have whole : (now.since phase).nanos / period.nanos * period.nanos ≤
      (now.nanos - phase.nanos).toNat := Nat.div_mul_le_self _ _
  simp only [nextDeadline, fits, if_neg passed]
  generalize (now.since phase).nanos / period.nanos * period.nanos = skipped at whole ⊢
  have few : skipped < UInt64.size := by
    simp only [UInt64.size]
    omega
  have reachable : phase.nanos + skipped < 9223372036854775808000000000 := by
    have bound := now.notAfter
    rw [Instant.lt_def] at late
    omega
  have enough : (Duration.clamp skipped).nanos = skipped :=
    Duration.nanos_clamp_of_lt (by simp only [UInt64.size] at few; omega)
  have inRange : -9223372036854775808000000000 ≤ phase.nanos + skipped := by
    have bound := phase.notBefore
    omega
  refine ⟨⟨phase.nanos + skipped, inRange, reachable⟩, ?_, rfl⟩
  have reached : phase.add? (.clamp skipped) =
      some ⟨phase.nanos + skipped, inRange, reachable⟩ :=
    Instant.add?_eq_some_iff.mpr (by rw [enough])
  rw [if_pos few, reached]
  rfl

/-- The next phase is some points further on the grid, and the next deadline less than a
period after it. -/
theorem nextDeadline_on_grid {phase next now : Instant} {period : Duration}
    (fits : phase.add? period = some next) (positive : 0 < period.nanos)
    (short : now.nanos - phase.nanos < 2 ^ 64) :
    ∃ steps : ℕ, 1 ≤ steps ∧
      (nextDeadline phase period now).1.nanos = phase.nanos + steps * period.nanos ∧
      (nextDeadline phase period now).1 ≤ (nextDeadline phase period now).2 ∧
      (nextDeadline phase period now).2.nanos <
        (nextDeadline phase period now).1.nanos + period.nanos := by
  have added := Instant.add?_eq_some_iff.mp fits
  by_cases inTime : now ≤ next
  · rw [nextDeadline_of_le fits inTime]
    refine ⟨1, Nat.le_refl _, ?_, Int.le_refl _, ?_⟩
    · rw [added, Nat.cast_one, one_mul]
    · exact Int.lt_add_of_pos_right _ (by exact_mod_cast positive)
  · have late : next < now := by
      rw [Instant.lt_def]
      rw [Instant.le_def] at inTime
      omega
    obtain ⟨point, is, reached⟩ := nextDeadline_of_lt fits late short
    rw [Instant.lt_def, added] at late
    rw [Instant.nanos_since] at reached
    generalize spanned : (now.nanos - phase.nanos).toNat = span at reached
    have split : span / period.nanos * period.nanos + span % period.nanos = span :=
      Nat.div_add_mod' span period.nanos
    have remainder : span % period.nanos < period.nanos := Nat.mod_lt _ positive
    have several : 1 ≤ span / period.nanos := by
      rw [Nat.one_le_div_iff positive]
      omega
    rw [is]
    refine ⟨span / period.nanos, several, by rw [reached]; push_cast; rfl, ?_, ?_⟩
    · rw [Instant.le_def]
      dsimp only
      omega
    · dsimp only
      omega

theorem leastPeriod_le_clampPeriod (period : Duration) :
    leastPeriod ≤ clampPeriod period := by
  unfold clampPeriod
  split
  · exact Nat.le_refl _
  · rename_i long
    rw [Duration.lt_def] at long
    rw [Duration.le_def]
    omega

end Timer

namespace Scheduler

/-- The executions of a timer in the order in which they were taken. -/
def runs (id : TimerId) (moments : List Moment) : List Execution :=
  (taken moments).filter fun execution => execution.timer = id

def upTo (limit : Instant) (moments : List Moment) : List Moment :=
  moments.filter fun moment => moment.clock ≤ limit

/-- Whether a step makes a repeating timer wait again, after a run that ended at `now`. -/
def Moment.Rearms (moment : Moment) (id : TimerId) (timer : Timer) (now : Instant) : Prop :=
  (∃ execution ending, moment.event = .settled execution ending now ∧
    execution.timer = id) ∧
  moment.before.timer? id = some timer ∧ moment.after.status? id = some .pending

theorem runs_concat_of_begins {id : TimerId} {moments : List Moment} {moment : Moment}
    {execution : Execution} {cutoff : Instant}
    (begins : moment.event = .taken execution cutoff) (own : execution.timer = id) :
    runs id (moments ++ [moment]) = runs id moments ++ [execution] := by
  simp [runs, taken, Moment.taken?, begins, own]

theorem runs_eq_nil {id : TimerId} {moments : List Moment}
    (idle : ∀ moment ∈ moments, ¬ moment.event.Begins id) : runs id moments = [] := by
  apply List.filter_eq_nil_iff.mpr
  intro execution member own
  obtain ⟨moment, happened, cutoff, begins⟩ := mem_taken_iff.mp member
  exact idle moment happened ⟨execution, cutoff, begins, by simpa using own⟩

theorem runs_concat_of_not_begins {id : TimerId} {moments : List Moment} {moment : Moment}
    (other : ¬ moment.event.Begins id) :
    runs id (moments ++ [moment]) = runs id moments := by
  have noneAdded : runs id [moment] = [] :=
    runs_eq_nil fun same member => List.mem_singleton.mp member ▸ other
  rw [runs, taken_append, List.filter_append]
  exact (congrArg _ noneAdded).trans (List.append_nil _)

theorem upTo_concat (limit : Instant) (moments : List Moment) (moment : Moment) :
    upTo limit (moments ++ [moment]) =
      if moment.clock ≤ limit then upTo limit moments ++ [moment]
      else upTo limit moments := by
  unfold upTo
  rw [List.filter_append]
  split <;> rename_i reached <;> simp [reached]

theorem length_runs_upTo_le (id : TimerId) (limit : Instant) (moments : List Moment) :
    (runs id (upTo limit moments)).length ≤ (runs id moments).length :=
  ((List.filter_sublist.filterMap _).filter _).length_le

/-- What has happened to a repeating timer, in a list of moments that begins before its
registration, and what it looks like now. -/
inductive Life (id : TimerId) (first : Instant) (period : Duration) :
    List Moment → Timer → Prop where
  | registered {moments : List Moment}
      (unheard : ∀ moment ∈ moments, ¬ moment.event.Begins id ∧ ¬ moment.event.Finishes id) :
      Life id first period moments (.waiting first (some period))
  | marked {moments : List Moment} {moment : Moment} {timer : Timer}
      {status : Timer.Status} {asked : Bool} (earlier : Life id first period moments timer) :
      ¬ moment.event.Begins id → ¬ moment.event.Finishes id →
      (status = timer.status ∨ status = .cancelled) →
      Life id first period (moments ++ [moment])
        { timer with status, cancelRequested := asked }
  | begun {moments : List Moment} {moment : Moment} {timer : Timer}
      {execution : Execution} {cutoff : Instant}
      (earlier : Life id first period moments timer) :
      moment.event = .taken execution cutoff → execution.timer = id →
      execution.dueAt = timer.fireAt → timer.fireAt ≤ moment.clock →
      timer.status = .pending →
      Life id first period (moments ++ [moment]) { timer with status := .running }
  | ended {moments : List Moment} {moment : Moment} {timer : Timer}
      {execution : Execution} {ending : Ending} {now : Instant}
      (earlier : Life id first period moments timer) :
      moment.event = .settled execution ending now → execution.timer = id →
      moment.before.timer? id = some timer → timer.status = .running →
      moment.after.timer? id = some (timer.afterRun now) →
      Life id first period (moments ++ [moment]) (timer.afterRun now)

theorem Step.registered {before after : Scheduler} {id : TimerId} {first : Instant}
    (step : Step before (.registered id first) after) :
    before.timer? id = none ∧ ∃ given : Option Duration,
      after.timer? id = some (.waiting first (given.map Timer.clampPeriod)) := by
  generalize shown : Event.registered id first = event at step
  cases step with
  | register resolved given now =>
    cases shown
    exact ⟨List.getElem?_eq_none (Nat.le_refl _), given,
      timer?_register before resolved given now⟩
  | _ => cases shown

namespace Timeline

variable {moments : List Moment} {scheduler : Scheduler} {clock : Instant}

theorem unheard (timeline : Timeline moments scheduler clock) {id : TimerId}
    (unknown : scheduler.timer? id = none) :
    ∀ moment ∈ moments, ¬ moment.event.Begins id ∧ ¬ moment.event.Finishes id := by
  induction timeline with
  | start clock => exact fun _ member => (List.not_mem_nil member).elim
  | wait earlier _ induction => exact induction unknown
  | step earlier step _ induction =>
    obtain ⟨unknownBefore, quiet⟩ := step.timer?_eq_none earlier.coupled unknown
    intro moment member
    rcases List.mem_append.mp member with front | last
    · exact induction unknownBefore moment front
    · cases List.mem_singleton.mp last
      exact quiet

theorem life (timeline : Timeline moments scheduler clock) {id : TimerId}
    {first : Instant} {period : Duration}
    (registration : ∃ moment ∈ moments, moment.event = .registered id first ∧
      (moment.after.timer? id).bind Timer.period = some period) :
    ∃ timer, scheduler.timer? id = some timer ∧ Life id first period moments timer := by
  induction timeline with
  | start clock =>
    obtain ⟨_, member, _⟩ := registration
    cases member
  | wait earlier _ induction => exact induction registration
  | @step moments before after event clock earlier step read induction =>
    obtain ⟨moment, member, registers, repeats⟩ := registration
    rcases List.mem_append.mp member with front | last
    · obtain ⟨timer, found, life⟩ := induction ⟨moment, front, registers, repeats⟩
      rcases step.timer_cases earlier.coupled found with
        ⟨begins, finishes, status, asked, allowed, -, still⟩ |
        ⟨execution, cutoff, rfl, own, due, pending, still⟩ |
        ⟨execution, ending, now, rfl, own, running, still⟩
      · exact ⟨_, still, life.marked begins finishes allowed⟩
      · have reached : timer.fireAt ≤ clock := by
          have notEarly := (step.takes earlier.coupled).2.due
          rw [due, Instant.lt_def] at notEarly
          rw [Event.ReadBy, Instant.le_def] at read
          rw [Instant.le_def]
          omega
        exact ⟨_, still, life.begun rfl own due reached pending⟩
      · exact ⟨_, still, life.ended rfl own found running still⟩
    · cases List.mem_singleton.mp last
      dsimp only at registers repeats
      subst registers
      obtain ⟨unknown, given, waits⟩ := step.registered
      rw [waits] at repeats
      have same : given.map Timer.clampPeriod = some period := repeats
      rw [same] at waits
      refine ⟨_, waits, .registered ?_⟩
      intro moment member
      rcases List.mem_append.mp member with front | last
      · exact earlier.unheard unknown moment front
      · cases List.mem_singleton.mp last
        constructor
        · rintro ⟨_, _, begins, _⟩
          cases begins
        · rintro ⟨_, _, _, finishes, _⟩
          cases finishes

end Timeline

/-- A timer after some runs: its phase is on the grid, with a grid point for each of the runs
that is not after it, and its deadline lies in the period that begins there. -/
structure OnGrid (first : Instant) (period : Duration) (runs : ℕ) (timer : Timer) :
    Prop where
  repeats : timer.period = some period
  phase : ∃ k : ℕ, timer.phase.nanos = first.nanos + k * period.nanos ∧
    runs ≤ k + if timer.status = .pending then 0 else 1
  notBefore : timer.phase ≤ timer.fireAt
  within : timer.fireAt.nanos < timer.phase.nanos + period.nanos

/-- Where a timer waits again, its next grid point has a place on the monotonic scale, and
less than `2 ^ 64` nanoseconds have passed since its phase. -/
def WithinScale (id : TimerId) (period : Duration) (moments : List Moment) : Prop :=
  ∀ moment ∈ moments, ∀ timer now, moment.Rearms id timer now →
    (∃ next, timer.phase.add? period = some next) ∧ now.nanos - timer.phase.nanos < 2 ^ 64

/-- How many points of a grid have been reached when the clock reads `limit`. -/
def gridPoints (first : Instant) (period : Duration) (limit : Instant) : ℕ :=
  if limit < first then 0 else (limit.since first).nanos / period.nanos + 1

theorem le_gridPoints {first limit : Instant} {period : Duration} {k : ℕ}
    (positive : 0 < period.nanos) (reached : first.nanos + k * period.nanos ≤ limit.nanos) :
    k + 1 ≤ gridPoints first period limit := by
  have begun : ¬ limit < first := by
    rw [Instant.lt_def]
    have : (0 : ℤ) ≤ k * period.nanos := by positivity
    omega
  rw [gridPoints, if_neg begun, Nat.add_le_add_iff_right, Nat.le_div_iff_mul_le positive,
    Instant.nanos_since]
  zify
  omega

section Life

variable {id : TimerId} {first : Instant} {period : Duration} {moments : List Moment}
  {timer : Timer}

theorem OnGrid.moves {runs : ℕ} (onGrid : OnGrid first period runs timer)
    (positive : 0 < period.nanos) {next now : Instant}
    (fits : timer.phase.add? period = some next) (short : now.nanos - timer.phase.nanos < 2 ^ 64)
    (again : (timer.afterRun now).status = .pending) :
    ∃ k k' : ℕ, k < k' ∧ timer.phase.nanos = first.nanos + k * period.nanos ∧
      (timer.afterRun now).phase.nanos = first.nanos + k' * period.nanos ∧
      runs ≤ k + (if timer.status = .pending then 0 else 1) ∧
      (timer.afterRun now).period = some period ∧
      (timer.afterRun now).phase ≤ (timer.afterRun now).fireAt ∧
      (timer.afterRun now).fireAt.nanos < (timer.afterRun now).phase.nanos + period.nanos := by
  obtain ⟨repeats, ⟨k, phase, few⟩, -, -⟩ := onGrid
  obtain ⟨other, same, renewed⟩ := Timer.afterRun_of_pending again
  cases repeats.symm.trans same
  obtain ⟨steps, several, moved, notBefore, within⟩ :=
    Timer.nextDeadline_on_grid fits positive short
  rw [renewed]
  refine ⟨k, k + steps, by omega, phase, ?_, few, repeats, notBefore, within⟩
  dsimp only
  rw [moved, phase]
  push_cast
  ring

theorem OnGrid.afterRun {runs : ℕ} (onGrid : OnGrid first period runs timer)
    (positive : 0 < period.nanos) (running : timer.status = .running) {now : Instant}
    (scale : (timer.afterRun now).status = .pending →
      (∃ next, timer.phase.add? period = some next) ∧
        now.nanos - timer.phase.nanos < 2 ^ 64) :
    OnGrid first period runs (timer.afterRun now) := by
  by_cases again : (timer.afterRun now).status = .pending
  · obtain ⟨⟨next, fits⟩, short⟩ := scale again
    obtain ⟨k, k', later, -, moved, few, repeats, notBefore, within⟩ :=
      onGrid.moves positive fits short again
    refine ⟨repeats, ⟨k', moved, ?_⟩, notBefore, within⟩
    rw [running] at few
    simp only [again, reduceCtorEq, if_false, if_true] at few ⊢
    omega
  · obtain ⟨repeats, ⟨k, phase, few⟩, notBefore, within⟩ := onGrid
    rw [Timer.afterRun_of_not_pending again]
    refine ⟨repeats, ⟨k, phase, ?_⟩, notBefore, within⟩
    rw [running] at few
    simpa [again] using few

theorem WithinScale.earlier {moment : Moment}
    (scale : WithinScale id period (moments ++ [moment])) : WithinScale id period moments :=
  fun other member => scale other (List.mem_append_left _ member)

theorem rearms_of_afterRun {moment : Moment} {execution : Execution} {ending : Ending}
    {now : Instant} (finishes : moment.event = .settled execution ending now)
    (own : execution.timer = id) (was : moment.before.timer? id = some timer)
    (became : moment.after.timer? id = some (timer.afterRun now))
    (again : (timer.afterRun now).status = .pending) : moment.Rearms id timer now :=
  ⟨⟨execution, ending, finishes, own⟩, was,
    status?_eq_some_iff.mpr ⟨timer.afterRun now, became, again⟩⟩

theorem Moment.Rearms.finishes {moment : Moment} {now : Instant}
    (rearms : moment.Rearms id timer now) : moment.event.Finishes id := by
  obtain ⟨⟨execution, ending, finishes, own⟩, -⟩ := rearms
  exact ⟨execution, ending, now, finishes, own⟩

theorem not_begins_of_settled {event : Event} {execution : Execution} {ending : Ending}
    {now : Instant} (finishes : event = .settled execution ending now) :
    ¬ event.Begins id := by
  rintro ⟨_, _, begins, _⟩
  cases finishes.symm.trans begins

theorem not_finishes_of_taken {event : Event} {execution : Execution} {cutoff : Instant}
    (begins : event = .taken execution cutoff) : ¬ event.Finishes id := by
  rintro ⟨_, _, _, finishes, _⟩
  cases begins.symm.trans finishes

theorem Life.onGrid (life : Life id first period moments timer) (positive : 0 < period.nanos)
    (scale : WithinScale id period moments) :
    OnGrid first period (runs id moments).length timer := by
  induction life with
  | registered unheard =>
    rw [runs_eq_nil fun moment member => (unheard moment member).1]
    refine ⟨rfl, ⟨0, ?_, Nat.zero_le _⟩, Int.le_refl _, ?_⟩
    · simp [Timer.waiting]
    · exact Int.lt_add_of_pos_right _ (by exact_mod_cast positive)
  | marked earlier begins finishes allowed induction =>
    obtain ⟨repeats, ⟨k, phase, few⟩, notBefore, within⟩ := induction scale.earlier
    rw [runs_concat_of_not_begins begins]
    refine ⟨repeats, ⟨k, phase, ?_⟩, notBefore, within⟩
    rcases allowed with rfl | rfl
    · exact few
    · split at few <;> simp <;> omega
  | begun earlier begins own due reached pending induction =>
    obtain ⟨repeats, ⟨k, phase, few⟩, notBefore, within⟩ := induction scale.earlier
    rw [runs_concat_of_begins begins own]
    refine ⟨repeats, ⟨k, phase, ?_⟩, notBefore, within⟩
    simpa [pending] using few
  | @ended moments moment timer _ _ now earlier finishes own was running became induction =>
    rw [runs_concat_of_not_begins (not_begins_of_settled finishes)]
    refine (induction scale.earlier).afterRun positive running fun again => ?_
    exact scale moment (by simp) timer now (rearms_of_afterRun finishes own was became again)

/-- There are never more runs than grid points that the clock has reached. -/
theorem Life.length_runs_le_gridPoints (life : Life id first period moments timer)
    (positive : 0 < period.nanos) (scale : WithinScale id period moments)
    (limit : Instant) :
    (runs id (upTo limit moments)).length ≤ gridPoints first period limit := by
  induction life with
  | @registered moments unheard =>
    have noneYet : runs id moments = [] :=
      runs_eq_nil fun moment member => (unheard moment member).1
    have fewer := length_runs_upTo_le id limit moments
    rw [noneYet] at fewer
    exact fewer.trans (Nat.zero_le _)
  | marked earlier begins finishes allowed induction =>
    have same := induction scale.earlier
    rw [upTo_concat]
    split
    · rwa [runs_concat_of_not_begins begins]
    · exact same
  | @begun moments moment timer _ _ earlier begins own due reached pending induction =>
    have before := induction scale.earlier
    rw [upTo_concat]
    split
    · rename_i counted
      obtain ⟨-, ⟨k, phase, few⟩, notBefore, -⟩ := earlier.onGrid positive scale.earlier
      have enough : k + 1 ≤ gridPoints first period limit := by
        apply le_gridPoints positive
        rw [Instant.le_def] at counted reached notBefore
        omega
      have fewer := length_runs_upTo_le id limit moments
      rw [pending] at few
      rw [runs_concat_of_begins begins own, List.length_append, List.length_singleton]
      simp only [if_true] at few
      omega
    · exact before
  | ended earlier finishes own was running became induction =>
    have same := induction scale.earlier
    rw [upTo_concat]
    split
    · rwa [runs_concat_of_not_begins (not_begins_of_settled finishes)]
    · exact same

theorem Life.moves (life : Life id first period moments timer) (positive : 0 < period.nanos)
    (scale : WithinScale id period moments) {moment : Moment} (member : moment ∈ moments)
    {was : Timer} {now : Instant} (rearms : moment.Rearms id was now) :
    ∃ (later : Timer) (k k' : ℕ), moment.after.timer? id = some later ∧ k < k' ∧
      was.phase.nanos = first.nanos + k * period.nanos ∧
      later.phase.nanos = first.nanos + k' * period.nanos := by
  induction life with
  | registered unheard => exact ((unheard moment member).2 rearms.finishes).elim
  | marked earlier begins finishes allowed induction =>
    rcases List.mem_append.mp member with front | last
    · exact induction scale.earlier front
    · cases List.mem_singleton.mp last
      exact (finishes rearms.finishes).elim
  | begun earlier begins own due reached pending induction =>
    rcases List.mem_append.mp member with front | last
    · exact induction scale.earlier front
    · cases List.mem_singleton.mp last
      exact (not_finishes_of_taken begins rearms.finishes).elim
  | @ended moments _ timer _ _ finish earlier finishes own was running became induction =>
    rcases List.mem_append.mp member with front | last
    · exact induction scale.earlier front
    · cases List.mem_singleton.mp last
      obtain ⟨⟨next, fits⟩, short⟩ := scale moment member _ _ rearms
      obtain ⟨⟨_, _, finished, _⟩, found, waits⟩ := rearms
      cases finishes.symm.trans finished
      cases was.symm.trans found
      obtain ⟨later, same, again⟩ := status?_eq_some_iff.mp waits
      cases became.symm.trans same
      obtain ⟨k, k', further, before, after, -⟩ :=
        (earlier.onGrid positive scale.earlier).moves positive fits short again
      exact ⟨_, k, k', became, further, before, after⟩

/-- Every run after which the timer waits again ended no later than the next grid point. -/
def InTime (id : TimerId) (period : Duration) (moments : List Moment) : Prop :=
  ∀ moment ∈ moments, ∀ timer now, moment.Rearms id timer now →
    now.nanos ≤ timer.phase.nanos + period.nanos

theorem InTime.earlier {moment : Moment} (inTime : InTime id period (moments ++ [moment])) :
    InTime id period moments :=
  fun other member => inTime other (List.mem_append_left _ member)

/-- A timer whose runs ended in time: it is due at the grid point with the number of its
next run. -/
structure Punctual (first : Instant) (period : Duration) (runs : ℕ) (timer : Timer) :
    Prop where
  repeats : timer.period = some period
  due : timer.fireAt = timer.phase
  phase : ∃ k : ℕ, timer.phase.nanos = first.nanos + k * period.nanos ∧
    (timer.status = .pending → runs = k) ∧ (timer.status = .running → runs = k + 1)

theorem Punctual.afterRun {runs : ℕ} (punctual : Punctual first period runs timer)
    (running : timer.status = .running) {now : Instant}
    (inTime : (timer.afterRun now).status = .pending →
      (∃ next, timer.phase.add? period = some next) ∧
        now.nanos ≤ timer.phase.nanos + period.nanos) :
    Punctual first period runs (timer.afterRun now) := by
  obtain ⟨repeats, due, k, phase, -, counted⟩ := punctual
  by_cases again : (timer.afterRun now).status = .pending
  · obtain ⟨⟨next, fits⟩, early⟩ := inTime again
    obtain ⟨other, same, renewed⟩ := Timer.afterRun_of_pending again
    cases repeats.symm.trans same
    have added := Instant.add?_eq_some_iff.mp fits
    rw [Timer.nextDeadline_of_le fits (by rw [Instant.le_def, added]; exact early)] at renewed
    rw [renewed]
    refine ⟨repeats, rfl, k + 1, ?_, fun _ => counted running, nofun⟩
    dsimp only
    rw [added, phase]
    push_cast
    ring
  · have stopped := timer.status_afterRun_ne_running now
    rw [Timer.afterRun_of_not_pending again]
    exact ⟨repeats, due, k, phase, fun waits => (again waits).elim,
      fun runs => (stopped runs).elim⟩

theorem Life.punctual (life : Life id first period moments timer)
    (scale : WithinScale id period moments) (inTime : InTime id period moments) :
    Punctual first period (runs id moments).length timer ∧
      ∀ (n : ℕ) run, (runs id moments)[n]? = some run →
        run.dueAt.nanos = first.nanos + n * period.nanos := by
  induction life with
  | registered unheard =>
    rw [runs_eq_nil fun moment member => (unheard moment member).1]
    constructor
    · refine ⟨rfl, rfl, 0, by simp [Timer.waiting], fun _ => rfl, ?_⟩
      intro runs
      cases runs
    · intro n run found
      cases found
  | marked earlier begins finishes allowed induction =>
    obtain ⟨⟨repeats, due, k, phase, pending, running⟩, numbered⟩ :=
      induction scale.earlier inTime.earlier
    rw [runs_concat_of_not_begins begins]
    refine ⟨⟨repeats, due, k, phase, ?_⟩, numbered⟩
    rcases allowed with rfl | rfl
    · exact ⟨pending, running⟩
    · simp
  | begun earlier begins own dueAt reached pending induction =>
    obtain ⟨⟨repeats, due, k, phase, counted, -⟩, numbered⟩ :=
      induction scale.earlier inTime.earlier
    have index := counted pending
    rw [runs_concat_of_begins begins own]
    refine ⟨⟨repeats, due, k, phase, by simp, fun _ => by simp [index]⟩, ?_⟩
    intro n run found
    rw [List.getElem?_append] at found
    split at found
    · exact numbered n run found
    · obtain ⟨last, rfl⟩ := List.getElem?_eq_some_iff.mp found
      have nEq : n = k := by
        rw [List.length_singleton] at last
        omega
      subst nEq
      rw [List.getElem_singleton, dueAt, due, phase]
  | @ended moments moment timer _ _ now earlier finishes own was running became induction =>
    obtain ⟨punctual, numbered⟩ := induction scale.earlier inTime.earlier
    rw [runs_concat_of_not_begins (not_begins_of_settled finishes)]
    refine ⟨punctual.afterRun running fun again => ?_, numbered⟩
    have rearms := rearms_of_afterRun finishes own was became again
    exact ⟨(scale moment (by simp) timer now rearms).1, inTime moment (by simp) timer now rearms⟩

end Life

namespace Timeline

variable {moments : List Moment} {scheduler : Scheduler} {clock : Instant} {id : TimerId}
  {first : Instant} {period : Duration}

theorem leastPeriod_le (timeline : Timeline moments scheduler clock)
    (registration : ∃ moment ∈ moments, moment.event = .registered id first ∧
      (moment.after.timer? id).bind Timer.period = some period) :
    Timer.leastPeriod ≤ period := by
  obtain ⟨moment, member, registers, repeats⟩ := registration
  obtain ⟨-, step, -⟩ := timeline.of_mem member
  rw [registers] at step
  obtain ⟨-, given, waits⟩ := step.registered
  rw [waits] at repeats
  obtain ⟨asked, -, rfl⟩ := Option.map_eq_some_iff.mp (show given.map _ = some period from repeats)
  exact Timer.leastPeriod_le_clampPeriod asked

end Timeline

/-- Over any run with a clock that never goes back, whatever other timers there are, however
late its executions begin and however long they take: the phase of a repeating timer is
always on the grid of its first deadline, at a later point each time that it waits again,
and it waits for an instant less than a period after its phase.  While it is executed the
clock reads neither less than the deadline it was taken at nor less than its phase.  When
the clock reads `limit` it has been taken at most once for each grid point reached, and as
long as its runs end in time each is due at the grid point of its own number. -/
theorem periodic_keeps_grid {moments : List Moment} {scheduler : Scheduler} {clock : Instant}
    (timeline : Timeline moments scheduler clock) {id : TimerId} {first : Instant}
    {period : Duration}
    (registration : ∃ moment ∈ moments, moment.event = .registered id first ∧
      (moment.after.timer? id).bind Timer.period = some period)
    (scale : WithinScale id period moments) :
    Timer.leastPeriod ≤ period ∧
    (∃ timer, scheduler.timer? id = some timer ∧ timer.period = some period ∧
      (∃ k : ℕ, timer.phase.nanos = first.nanos + k * period.nanos) ∧
      (∀ next, timer.nextFire = some next →
        timer.phase ≤ next ∧ next.nanos < timer.phase.nanos + period.nanos) ∧
      ∀ execution ∈ scheduler.executions, execution.timer = id →
        execution.dueAt ≤ clock ∧ timer.phase ≤ clock) ∧
    (∀ moment ∈ moments, ∀ was now, moment.Rearms id was now →
      ∃ (later : Timer) (k k' : ℕ), moment.after.timer? id = some later ∧ k < k' ∧
        was.phase.nanos = first.nanos + k * period.nanos ∧
        later.phase.nanos = first.nanos + k' * period.nanos) ∧
    (∀ limit, (runs id (upTo limit moments)).length ≤ gridPoints first period limit) ∧
    (InTime id period moments → ∀ (n : ℕ) run, (runs id moments)[n]? = some run →
      run.dueAt.nanos = first.nanos + n * period.nanos) := by
  have least := timeline.leastPeriod_le registration
  have positive : 0 < period.nanos := Nat.lt_of_lt_of_le (by decide) least
  obtain ⟨timer, found, life⟩ := timeline.life registration
  obtain ⟨repeats, ⟨k, phase, -⟩, notBefore, within⟩ := life.onGrid positive scale
  refine ⟨least, ⟨timer, found, repeats, ⟨k, phase⟩, ?_, ?_⟩,
    fun moment member was now rearms => life.moves positive scale member rearms,
    life.length_runs_le_gridPoints positive scale,
    fun inTime => (life.punctual scale inTime).2⟩
  · intro next waits
    unfold Timer.nextFire at waits
    split at waits
    · cases waits
      exact ⟨notBefore, within⟩
    · cases waits
  · rintro execution inProgress rfl
    have reached := timeline.dueAt_le_of_executing inProgress
    obtain ⟨same, again, due⟩ := timeline.fireAt_of_executing inProgress
    cases found.symm.trans again
    exact ⟨reached, Int.le_trans notBefore (due ▸ reached)⟩

/-- A timer of one millisecond whose first run ends after three and a half periods: it is
due again at once, and then at the fourth point of its grid. -/
theorem periodic_keeps_grid_overrun :
    let overrun : Instant := ⟨3500000, by decide, by decide⟩
    let done : Instant := ⟨3600000, by decide, by decide⟩
    let fourth : Instant := ⟨4000000, by decide, by decide⟩
    let one := (Scheduler.register {} (.instant .origin) (some .zero) .origin).2
    let begun := (one.takeDue 0 .origin).scheduler
    let late := begun.settle ⟨0, 0, .origin⟩ overrun
    let again := (late.takeDue 0 overrun).scheduler
    let last := again.settle ⟨0, 0, overrun⟩ done
    let moments : List Moment :=
      [⟨{}, .registered 0 .origin, one, .origin⟩,
        ⟨one, .taken ⟨0, 0, .origin⟩ .origin, begun, .origin⟩,
        ⟨begun, .settled ⟨0, 0, .origin⟩ .done overrun, late, overrun⟩,
        ⟨late, .taken ⟨0, 0, overrun⟩ overrun, again, overrun⟩,
        ⟨again, .settled ⟨0, 0, overrun⟩ .done done, last, done⟩]
    Timeline moments last done ∧ WithinScale 0 Timer.leastPeriod moments ∧
      (runs 0 (upTo done moments)).length ≤ gridPoints .origin Timer.leastPeriod done ∧
      ∃ timer, last.timer? 0 = some timer ∧ timer.nextFire = some fourth ∧
        ∃ k : ℕ, timer.phase.nanos = Instant.origin.nanos + k * Timer.leastPeriod.nanos := by
  intro overrun done fourth one begun late again last moments
  have first : (one.takeDue 0 .origin).execution = some ⟨0, 0, .origin⟩ := by decide
  have second : (late.takeDue 0 overrun).execution = some ⟨0, 0, overrun⟩ := by decide
  have innermost : begun.stack 0 = [⟨0, 0, .origin⟩] := by decide
  have outermost : again.stack 0 = [⟨0, 0, overrun⟩] := by decide
  have started : Timeline _ begun .origin :=
    .step (.step (.start .origin) (.register (.instant .origin) (some .zero) .origin rfl)
      trivial) (.take 0 .origin rfl first) (Int.le_refl _)
  have repeated : Timeline _ again overrun :=
    .step (.step (.wait started (by decide)) (.settle .done overrun innermost) rfl)
      (.take 0 overrun rfl second) (Int.le_refl _)
  have timeline : Timeline moments last done :=
    .step (.wait repeated (by decide)) (.settle .done done outermost) rfl
  have scale : WithinScale 0 Timer.leastPeriod moments := by
    rintro moment member timer now ⟨⟨execution, ending, settles, -⟩, found, -⟩
    simp only [moments, List.mem_cons, List.not_mem_nil, or_false] at member
    rcases member with rfl | rfl | rfl | rfl | rfl <;> cases settles
    · cases found
      exact ⟨⟨⟨1000000, by decide, by decide⟩, by decide⟩, by decide⟩
    · cases found
      exact ⟨⟨fourth, by decide⟩, by decide⟩
  obtain ⟨-, ⟨timer, found, -, onGrid, -⟩, -, few, -⟩ :=
    periodic_keeps_grid timeline ⟨_, List.mem_cons_self, rfl, by decide⟩ scale
  refine ⟨timeline, scale, few done, timer, found, ?_, onGrid⟩
  cases found
  decide

end Scheduler

end TimeSync
