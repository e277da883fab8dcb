import TimeSync.Proofs.Scheduler.Grid
import TimeSync.Proofs.Scheduler.Nesting
import TimeSync.Proofs.Scheduler.Rearming

/-!
# Running what is due while the clock stands still

A call that runs what is due puts timers back into the queue that it empties.  While the
clock stands still a repeating timer is due once more at most, after it was pulled forward:
the next point of its grid then lies after the reading of the clock.  So each timer has a
number of chances to be run, and every run uses one of them.

This rests on the next point being on the scale of the clock.  A timer whose grid leaves the
scale waits for the end of its own run, again and again.
-/

namespace TimeSync

namespace Timer

theorem nextDeadline_of_passed {phase next now : Instant} {period : Duration}
    (fits : phase.add? period = some next) (passed : next ≤ now) :
    ∃ point : Instant, nextDeadline phase period now = (point, now) ∧ point ≤ now ∧
      (0 < period.nanos → now.nanos < point.nanos + period.nanos) := by
  have added := Instant.add?_eq_some_iff.mp fits
  rw [Instant.le_def] at passed
  by_cases inTime : now ≤ next
  · have same : next = now := Instant.ext (Int.le_antisymm passed inTime)
    subst same
    refine ⟨next, nextDeadline_of_le fits inTime, Int.le_refl _, fun positive => ?_⟩
    omega
  · simp only [nextDeadline, fits, if_neg inTime]
    have whole : (now.since phase).nanos / period.nanos * period.nanos +
        (now.since phase).nanos % period.nanos = (now.since phase).nanos :=
      Nat.div_add_mod' _ _
    have remainder : 0 < period.nanos →
        (now.since phase).nanos % period.nanos < period.nanos := Nat.mod_lt _
    rw [Instant.nanos_since] at whole remainder
    rw [Instant.nanos_since]
    generalize (now.nanos - phase.nanos).toNat / period.nanos * period.nanos = skipped at *
    refine ⟨_, rfl, ?_⟩
    split
    · rename_i few
      have enough : (Duration.clamp skipped).nanos = skipped :=
        Duration.nanos_clamp_of_lt (by simp only [UInt64.size] at few; omega)
      cases anchored : phase.add? (.clamp skipped) with
      | none =>
        refine ⟨Int.le_refl _, fun positive => ?_⟩
        simp only [Option.getD_none]
        omega
      | some point =>
        have reached := Instant.add?_eq_some_iff.mp anchored
        rw [enough] at reached
        simp only [Option.getD_some, Instant.le_def]
        omega
    · refine ⟨Int.le_refl _, fun positive => ?_⟩
      simp only [Option.getD_none]
      omega

theorem phase_le_nextDeadline (phase : Instant) (period : Duration) (now : Instant) :
    (nextDeadline phase period now).1 ≤ (nextDeadline phase period now).2 := by
  cases fits : phase.add? period with
  | none =>
    simp only [nextDeadline, fits]
    exact Int.le_refl _
  | some next =>
    by_cases inTime : now ≤ next
    · rw [nextDeadline_of_le fits inTime]
      exact Int.le_refl _
    · have passed : next ≤ now := Int.le_of_lt (Int.not_le.mp inTime)
      obtain ⟨point, same, notAfter, -⟩ := nextDeadline_of_passed fits passed
      rw [same]
      exact notAfter

/-- Whether the grid of a timer has a point after `now` on the scale of the clock: the one
after its phase, or the one after the phase that a run which ends at `now` gives it. -/
def StaysOnScale (timer : Timer) (now : Instant) : Prop :=
  ∀ period, timer.period = some period →
    ∃ next, timer.phase.add? period = some next ∧
      (next ≤ now → (nextDeadline timer.phase period now).1.add? period ≠ none)

/-- What holds of every timer that was registered. -/
structure Sound (timer : Timer) : Prop where
  least : ∀ period, timer.period = some period → leastPeriod ≤ period
  inOrder : timer.phase ≤ timer.fireAt
  wanted : timer.status = .pending → timer.cancelRequested = false

theorem Sound.positive {timer : Timer} (sound : timer.Sound) {period : Duration}
    (repeating : timer.period = some period) : 0 < period.nanos :=
  Nat.lt_of_lt_of_le (by decide) (sound.least period repeating)

theorem sound_waiting (deadline : Instant) (given : Option Duration) :
    (waiting deadline (given.map clampPeriod)).Sound where
  least := by
    intro period repeating
    obtain ⟨asked, -, rfl⟩ := Option.map_eq_some_iff.mp repeating
    exact leastPeriod_le_clampPeriod asked
  inOrder := Int.le_refl _
  wanted := fun _ => rfl

theorem Sound.afterRun {timer : Timer} (sound : timer.Sound) (now : Instant) :
    (timer.afterRun now).Sound := by
  by_cases again : (timer.afterRun now).status = .pending
  · have wanted : timer.cancelRequested = false := by
      by_contra asked
      rw [status_afterRun, if_pos (by simpa using asked)] at again
      cases again
    obtain ⟨period, -, renewed⟩ := afterRun_of_pending again
    rw [renewed]
    exact ⟨sound.least, phase_le_nextDeadline timer.phase period now, fun _ => wanted⟩
  · rw [afterRun_of_not_pending again]
    exact ⟨sound.least, sound.inOrder, fun waiting => (again waiting).elim⟩

theorem staysOnScale_of_add? {timer : Timer} {now : Instant} (reached : timer.phase ≤ now)
    (fits : ∀ period, timer.period = some period → now.add? period ≠ none) :
    timer.StaysOnScale now := by
  intro period repeating
  obtain ⟨later, beyond⟩ := Option.ne_none_iff_exists'.mp (fits period repeating)
  have added := Instant.add?_eq_some_iff.mp beyond
  have reaches : ∀ point : Instant, point ≤ now → point.add? period ≠ none := by
    intro point early off
    have far := Instant.add?_eq_none_iff.mp off
    have bound := later.notAfter
    rw [Instant.le_def] at early
    omega
  obtain ⟨next, found⟩ := Option.ne_none_iff_exists'.mp (reaches _ reached)
  refine ⟨next, found, fun passed => ?_⟩
  obtain ⟨point, same, notAfter, -⟩ := nextDeadline_of_passed found passed
  rw [same]
  exact reaches point notAfter

/-- A timer that is due and whose grid leaves the scale is due again after its run, and its
grid still leaves the scale. -/
theorem Sound.due_again {timer : Timer} {now : Instant} (sound : timer.Sound)
    (due : timer.Due now) (leaves : ¬ timer.StaysOnScale now) :
    (timer.afterRun now).Due now ∧ ¬ (timer.afterRun now).StaysOnScale now := by
  unfold StaysOnScale at leaves
  push Not at leaves
  obtain ⟨period, repeating, off⟩ := leaves
  have again : (timer.afterRun now).Due now := by
    refine (due_afterRun_iff (Int.le_refl _)).mpr ⟨rfl, sound.wanted due.1, period, repeating, ?_⟩
    exact fun next found => (off next found).1
  refine ⟨again, fun stays => ?_⟩
  obtain ⟨same, found, renewed⟩ := afterRun_of_pending again.1
  cases found.symm.trans repeating
  rw [renewed] at stays
  obtain ⟨further, fits, -⟩ := stays period repeating
  cases next : timer.phase.add? period with
  | some point => exact nomatch (off point next).2.symm.trans fits
  | none =>
    have phase := Int.le_trans sound.inOrder due.2
    have far := Instant.add?_eq_none_iff.mp next
    have added := Instant.add?_eq_some_iff.mp fits
    have bound := further.notAfter
    simp only [nextDeadline, next] at added
    omega

theorem Sound.not_drains {timer : Timer} {now : Instant} (sound : timer.Sound)
    (due : timer.Due now) (leaves : ¬ timer.StaysOnScale now) {ends : List Instant}
    (still : ∀ ended ∈ ends, ended = now) : ¬ timer.Drains now ends := by
  induction ends generalizing timer with
  | nil => exact fun drained => drained due
  | cons ended ends induction =>
    obtain ⟨rfl, later⟩ := List.forall_mem_cons.mp still
    obtain ⟨again, stillLeaves⟩ := sound.due_again due leaves
    exact fun drains => induction (sound.afterRun ended) again stillLeaves later drains.2

instance (timer : Timer) (now : Instant) : Decidable (timer.Due now) :=
  inferInstanceAs (Decidable (_ ∧ _))

/-- How often a timer is due at `now` after a run that ends at `now`. -/
def repeatsAt (timer : Timer) (now : Instant) : ℕ :=
  match timer.period.bind timer.phase.add? with
  | none => 0
  | some next => if next ≤ now then 1 else 0

/-- How often a timer can be taken as long as the clock shows `now`. -/
def chances (now : Instant) (timer : Timer) : ℕ :=
  if timer.Due now then timer.repeatsAt now + 1
  else if timer.status = .running then timer.repeatsAt now
  else 0

theorem chances_of_due {timer : Timer} {now : Instant} (due : timer.Due now) :
    timer.chances now = timer.repeatsAt now + 1 := if_pos due

theorem chances_of_running {timer : Timer} {now : Instant} (running : timer.status = .running) :
    timer.chances now = timer.repeatsAt now := by
  have notDue : ¬ timer.Due now := fun due => nomatch running.symm.trans due.1
  rw [chances, if_neg notDue, if_pos running]

theorem chances_of_idle {timer : Timer} {now : Instant} (notDue : ¬ timer.Due now)
    (notRunning : timer.status ≠ .running) : timer.chances now = 0 := by
  rw [chances, if_neg notDue, if_neg notRunning]

theorem repeatsAt_le_one (timer : Timer) (now : Instant) : timer.repeatsAt now ≤ 1 := by
  unfold repeatsAt
  split
  · exact Nat.zero_le 1
  · split <;> decide

theorem chances_le_two (timer : Timer) (now : Instant) : timer.chances now ≤ 2 := by
  have once := timer.repeatsAt_le_one now
  unfold chances
  split
  · exact Nat.succ_le_succ once
  · split <;> omega

theorem StaysOnScale.afterRun {timer : Timer} {now : Instant} (stays : timer.StaysOnScale now)
    (sound : timer.Sound) :
    ((timer.afterRun now).Due now → (timer.afterRun now).StaysOnScale now) ∧
      (timer.afterRun now).chances now ≤ timer.repeatsAt now := by
  by_cases due : (timer.afterRun now).Due now
  · obtain ⟨-, -, period, repeating, early⟩ := (due_afterRun_iff (Int.le_refl _)).mp due
    obtain ⟨next, fits, further⟩ := stays period repeating
    have passed := early next fits
    obtain ⟨point, same, -, beyond⟩ := nextDeadline_of_passed fits passed
    rw [same] at further
    obtain ⟨later, found⟩ := Option.ne_none_iff_exists'.mp (further passed)
    have after : ¬ later ≤ now := by
      have added : later.nanos = point.nanos + period.nanos :=
        Instant.add?_eq_some_iff.mp found
      have positive := beyond (sound.positive repeating)
      rw [Instant.le_def]
      omega
    obtain ⟨other, again, renewed⟩ := afterRun_of_pending due.1
    cases again.symm.trans repeating
    rw [same] at renewed
    constructor
    · rintro - other repeats
      rw [renewed] at repeats ⊢
      cases repeats.symm.trans repeating
      exact ⟨later, found, fun early => (after early).elim⟩
    · rw [chances_of_due due, renewed]
      simp [repeatsAt, repeating, found, after, fits, passed]
  · refine ⟨fun again => (due again).elim, ?_⟩
    rw [chances_of_idle due (timer.status_afterRun_ne_running now)]
    exact Nat.zero_le _

end Timer

namespace Scheduler

theorem Step.registered_of_unknown {before after : Scheduler} {event : Event} {id : TimerId}
    {timer : Timer} (step : Step before event after) (coupled : Coupled before)
    (unknown : before.timer? id = none) (found : after.timer? id = some timer) :
    ∃ first, event = .registered id first := by
  have length := step.length_timers coupled
  have beyond : before.timers.length ≤ id := List.getElem?_eq_none_iff.mp unknown
  have within : id < after.timers.length := (List.getElem?_eq_some_iff.mp found).1
  have longer : before.timers.length < after.timers.length := Nat.lt_of_le_of_lt beyond within
  cases step with
  | register first period now present =>
    rw [length] at within
    have last : id = before.timers.length := Nat.le_antisymm (Nat.le_of_lt_succ within) beyond
    exact ⟨first.resolve now, last ▸ rfl⟩
  | _ =>
    rw [length] at longer
    exact (Nat.lt_irrefl _ longer).elim

theorem Step.sound {before after : Scheduler} {event : Event} (step : Step before event after)
    (coupled : Coupled before)
    (sound : ∀ id timer, before.timer? id = some timer → timer.Sound) {id : TimerId}
    {timer : Timer} (found : after.timer? id = some timer) : timer.Sound := by
  cases known : before.timer? id with
  | none =>
    obtain ⟨first, rfl⟩ := step.registered_of_unknown coupled known found
    obtain ⟨-, given, waits⟩ := step.registered
    cases waits.symm.trans found
    exact Timer.sound_waiting first given
  | some earlier =>
    have was := sound id earlier known
    rcases step.timer_cases coupled known with ⟨-, -, status, asked, marked, kept, now⟩ |
      ⟨_, _, -, -, -, -, now⟩ | ⟨_, _, ended, -, -, -, now⟩
    · cases now.symm.trans found
      refine ⟨was.least, was.inOrder, fun waiting => (kept waiting).trans (was.wanted ?_)⟩
      rcases marked with same | cancelled
      · exact same.symm.trans waiting
      · cases cancelled.symm.trans waiting
    · cases now.symm.trans found
      exact ⟨was.least, was.inOrder, nofun⟩
    · cases now.symm.trans found
      exact was.afterRun ended

theorem Run.sound {first last : Scheduler} {events : List Event} (run : Run first events last)
    (coupled : Coupled first)
    (sound : ∀ id timer, first.timer? id = some timer → timer.Sound) :
    ∀ id timer, last.timer? id = some timer → timer.Sound := by
  induction run with
  | nil => exact sound
  | cons step _ induction =>
    exact induction (step.coupled coupled) fun _ _ found => step.sound coupled sound found

theorem Reachable.sound {scheduler : Scheduler} (reachable : Reachable scheduler) {id : TimerId}
    {timer : Timer} (found : scheduler.timer? id = some timer) : timer.Sound := by
  obtain ⟨events, run⟩ := reachable
  exact run.sound Coupled.initial (fun _ _ found => nomatch found) id timer found

/-- Whether a step registers no timer, ends none of the executions `kept`, and has read
nothing off the clock that it cannot have read when it shows `now`. -/
structure Event.Quiet (event : Event) (now : Instant) (kept : List Execution) : Prop where
  registers : event.registers = false
  read : event.ReadBy now
  spares : ∀ execution ∈ kept, ¬ event.Ends execution

theorem Event.quiet_taken (execution : Execution) (now : Instant) (kept : List Execution) :
    (Event.taken execution now).Quiet now kept := by
  refine ⟨rfl, Int.le_refl _, ?_⟩
  rintro _ _ ⟨_, _, ends⟩
  cases ends

/-- A scheduler in which the executions `kept` are in progress, and the grid of every timer
that is due or in another execution stays on the scale. -/
structure Calm (scheduler : Scheduler) (now : Instant) (kept : List Execution) : Prop where
  ongoing : ∀ execution ∈ kept, execution ∈ scheduler.executions
  due : ∀ id timer, scheduler.timer? id = some timer → timer.Due now → timer.StaysOnScale now
  running : ∀ id timer, scheduler.timer? id = some timer → timer.status = .running →
    (∀ execution ∈ kept, execution.timer ≠ id) → timer.StaysOnScale now

/-- How many executions can begin as long as the clock shows `now`. -/
def chances (scheduler : Scheduler) (now : Instant) : ℕ :=
  ∑ id ∈ Finset.range scheduler.timers.length,
    ((scheduler.timer? id).map (Timer.chances now)).getD 0

theorem chances_le_twice (scheduler : Scheduler) (now : Instant) :
    scheduler.chances now ≤ 2 * scheduler.timers.length := by
  have each : ∀ id ∈ Finset.range scheduler.timers.length,
      ((scheduler.timer? id).map (Timer.chances now)).getD 0 ≤ 2 := by
    intro id _
    cases scheduler.timer? id with
    | none => exact Nat.zero_le 2
    | some timer => exact timer.chances_le_two now
  have bounded := Finset.sum_le_card_nsmul _ _ 2 each
  rw [Finset.card_range, smul_eq_mul, Nat.mul_comm] at bounded
  exact bounded

theorem Step.mem_executions_of_not_ends {before after : Scheduler} {event : Event}
    (step : Step before event after) (coupled : Coupled before) {execution : Execution}
    (inProgress : execution ∈ before.executions) (goesOn : ¬ event.Ends execution) :
    execution ∈ after.executions := by
  have moves := step.movesStacks coupled
  have onStack : execution ∈ before.stack execution.thread := mem_stack_iff.mpr ⟨inProgress, rfl⟩
  suffices still : execution ∈ after.stack execution.thread from (mem_stack_iff.mp still).1
  cases event with
  | taken begun cutoff =>
    obtain ⟨-, -, pushed, others⟩ := moves
    by_cases own : execution.thread = begun.thread
    · rw [own] at onStack ⊢
      rw [pushed]
      exact List.mem_cons_of_mem _ onStack
    · rw [others _ own]
      exact onStack
  | settled ended ending now =>
    obtain ⟨popped, others⟩ := moves
    by_cases own : execution.thread = ended.thread
    · rw [own] at onStack ⊢
      rw [popped] at onStack
      rcases List.mem_cons.mp onStack with same | below
      · exact (goesOn ⟨ending, now, same ▸ rfl⟩).elim
      · exact below
    · rw [others _ own]
      exact onStack
  | _ => exact moves execution.thread ▸ onStack

theorem Run.mem_executions_of_not_ends {first last : Scheduler} {events : List Event}
    (run : Run first events last) (coupled : Coupled first) {execution : Execution}
    (inProgress : execution ∈ first.executions)
    (goesOn : ∀ event ∈ events, ¬ event.Ends execution) : execution ∈ last.executions := by
  induction run with
  | nil => exact inProgress
  | cons step _ induction =>
    obtain ⟨now, later⟩ := List.forall_mem_cons.mp goesOn
    exact induction (step.coupled coupled)
      (step.mem_executions_of_not_ends coupled inProgress now) later

/-- What a quiet step does to a timer of a calm scheduler: it gives it no chance, and to
begin an execution of it uses one up. -/
theorem Step.chances_of_quiet {before after : Scheduler} {event : Event} {now : Instant}
    {kept : List Execution} (step : Step before event after) (reachable : Reachable before)
    (quiet : event.Quiet now kept) (calm : before.Calm now kept) {id : TimerId} {timer : Timer}
    (found : before.timer? id = some timer) :
    ∃ later, after.timer? id = some later ∧
      (later.Due now → later.StaysOnScale now) ∧
      (later.status = .running → (∀ execution ∈ kept, execution.timer ≠ id) →
        later.StaysOnScale now) ∧
      later.chances now ≤ timer.chances now ∧
      (event.Begins id → later.chances now < timer.chances now) := by
  have coupled := reachable.coupled
  rcases step.timer_cases coupled found with
    ⟨notBegins, -, status, asked, rfl | rfl, -, still⟩ |
    ⟨execution, cutoff, rfl, rfl, due, pending, begun⟩ |
    ⟨execution, ending, ended, rfl, rfl, running, renewed⟩
  · exact ⟨_, still, calm.due id timer found, calm.running id timer found, Nat.le_refl _,
      fun begins => (notBegins begins).elim⟩
  · have notDue : ¬ ({ timer with status := .cancelled, cancelRequested := asked } :
        Timer).Due now := fun due => nomatch due.1
    refine ⟨_, still, fun due => (notDue due).elim, nofun, ?_,
      fun begins => (notBegins begins).elim⟩
    rw [Timer.chances_of_idle notDue nofun]
    exact Nat.zero_le _
  · have notEarly := (step.takes coupled).2.due
    have isDue : timer.Due now :=
      ⟨pending, Int.le_trans (due ▸ Int.not_lt.mp notEarly) quiet.read⟩
    have stays := calm.due _ timer found isDue
    have fewer : ({ timer with status := .running } : Timer).chances now < timer.chances now := by
      rw [Timer.chances_of_running rfl, Timer.chances_of_due isDue]
      exact Nat.lt_succ_self _
    exact ⟨_, begun, fun _ => stays, fun _ _ => stays, fewer.le, fun _ => fewer⟩
  · obtain rfl : ended = now := quiet.read
    have other : ∀ one ∈ kept, one.timer ≠ execution.timer := by
      intro one member same
      have inProgress : execution ∈ before.executions := by
        cases step with
        | settle _ _ innermost => exact (mem_executions_of_stack innermost).1
      have alone := coupled.executionsOf_eq inProgress
      have also := mem_executionsOf_iff.mpr ⟨calm.ongoing one member, same⟩
      rw [alone] at also
      cases List.mem_singleton.mp also
      exact quiet.spares execution member ⟨ending, ended, rfl⟩
    have stays := calm.running _ timer found running other
    obtain ⟨onScale, few⟩ := stays.afterRun (reachable.sound found)
    refine ⟨_, renewed, onScale, fun runs => ?_, ?_, ?_⟩
    · exact (timer.status_afterRun_ne_running ended runs).elim
    · rw [Timer.chances_of_running running]
      exact few
    · rintro ⟨_, _, begins, -⟩
      cases begins

theorem Step.timer_before_quiet {before after : Scheduler} {event : Event} {now : Instant}
    {kept : List Execution} (step : Step before event after) (reachable : Reachable before)
    (quiet : event.Quiet now kept) (calm : before.Calm now kept) {id : TimerId} {later : Timer}
    (present : after.timer? id = some later) :
    ∃ timer, before.timer? id = some timer ∧
      (later.Due now → later.StaysOnScale now) ∧
      (later.status = .running → (∀ execution ∈ kept, execution.timer ≠ id) →
        later.StaysOnScale now) ∧
      later.chances now ≤ timer.chances now := by
  cases found : before.timer? id with
  | none =>
    obtain ⟨first, rfl⟩ := step.registered_of_unknown reachable.coupled found present
    cases quiet.registers
  | some timer =>
    obtain ⟨same, again, due, running, few, -⟩ :=
      step.chances_of_quiet reachable quiet calm found
    cases again.symm.trans present
    exact ⟨timer, rfl, due, running, few⟩

theorem Step.calm {before after : Scheduler} {event : Event} {now : Instant}
    {kept : List Execution} (step : Step before event after) (reachable : Reachable before)
    (quiet : event.Quiet now kept) (calm : before.Calm now kept) : after.Calm now kept where
  ongoing := by
    intro execution member
    exact step.mem_executions_of_not_ends reachable.coupled (calm.ongoing execution member)
      (quiet.spares execution member)
  due := by
    intro id timer present
    obtain ⟨-, -, due, -⟩ := step.timer_before_quiet reachable quiet calm present
    exact due
  running := by
    intro id timer present
    obtain ⟨-, -, -, running, -⟩ := step.timer_before_quiet reachable quiet calm present
    exact running

theorem Step.chances_le {before after : Scheduler} {event : Event} {now : Instant}
    {kept : List Execution} (step : Step before event after) (reachable : Reachable before)
    (quiet : event.Quiet now kept) (calm : before.Calm now kept) :
    after.chances now ≤ before.chances now ∧
      ∀ execution cutoff, event = .taken execution cutoff →
        after.chances now < before.chances now := by
  have coupled := reachable.coupled
  have length : after.timers.length = before.timers.length := by
    rw [step.length_timers coupled, quiet.registers]
    rfl
  have each : ∀ id ∈ Finset.range before.timers.length,
      ((after.timer? id).map (Timer.chances now)).getD 0 ≤
        ((before.timer? id).map (Timer.chances now)).getD 0 := by
    intro id _
    cases present : after.timer? id with
    | none => exact Nat.zero_le _
    | some later =>
      obtain ⟨timer, found, -, -, few⟩ := step.timer_before_quiet reachable quiet calm present
      rw [found]
      exact few
  unfold chances
  rw [length]
  refine ⟨Finset.sum_le_sum each, ?_⟩
  rintro execution cutoff rfl
  obtain ⟨present, takes⟩ := step.takes coupled
  obtain ⟨timer, found, -⟩ := takes.waits coupled present
  obtain ⟨later, same, -, -, -, fewer⟩ := step.chances_of_quiet reachable quiet calm found
  have within : execution.timer < before.timers.length :=
    (List.getElem?_eq_some_iff.mp found).1
  refine Finset.sum_lt_sum each ⟨execution.timer, Finset.mem_range.mpr within, ?_⟩
  rw [same, found]
  exact fewer ⟨execution, cutoff, rfl, rfl⟩

theorem Run.calm {first last : Scheduler} {events : List Event} {now : Instant}
    {kept : List Execution} (run : Run first events last) (reachable : Reachable first)
    (quiet : ∀ event ∈ events, event.Quiet now kept) (calm : first.Calm now kept) :
    last.Calm now kept ∧ last.chances now ≤ first.chances now := by
  induction run with
  | nil => exact ⟨calm, Nat.le_refl _⟩
  | cons step _ induction =>
    obtain ⟨now, later⟩ := List.forall_mem_cons.mp quiet
    obtain ⟨few, -⟩ := step.chances_le reachable now calm
    obtain ⟨final, fewer⟩ :=
      induction (reachable.run (.single step)) later (step.calm reachable now calm)
    exact ⟨final, fewer.trans few⟩

end Scheduler

namespace Engine

open Scheduler (Run)

variable {ε : Type}

/-- One engine comes from another by quiet steps, while the clock stands still. -/
structure Stays (thread : ThreadId) (before after : Engine ε) : Prop
    extends Advances thread before after where
  still : after.context.now = before.context.now
  quiet : ∃ events, Run before.scheduler events after.scheduler ∧
    ∀ event ∈ events, event.Quiet before.context.now before.scheduler.executions

theorem InUse.stays {thread : ThreadId} {before after : Engine ε} (inUse : before.InUse)
    (same : after.scheduler = before.scheduler)
    (still : after.context.now = before.context.now) : Stays thread before after :=
  { inUse.advances same with
    still
    quiet := ⟨[], same ▸ .nil, fun _ member => nomatch member⟩ }

theorem Stays.trans {thread : ThreadId} {first middle last : Engine ε} (inUse : first.InUse)
    (earlier : Stays thread first middle) (later : Stays thread middle last) :
    Stays thread first last := by
  obtain ⟨front, frontRun, frontQuiet⟩ := earlier.quiet
  obtain ⟨back, backRun, backQuiet⟩ := later.quiet
  refine { earlier.toAdvances.trans later.toAdvances with
    still := later.still.trans earlier.still
    quiet := ⟨front ++ back, frontRun.append backRun, ?_⟩ }
  intro event member
  rcases List.mem_append.mp member with before | after
  · exact frontQuiet event before
  · obtain ⟨registers, read, spares⟩ := backQuiet event after
    -- What was in progress at first still is when the second part begins.
    refine ⟨registers, earlier.still ▸ read, fun execution inProgress => spares execution ?_⟩
    exact frontRun.mem_executions_of_not_ends inUse.coupled inProgress
      fun event member => (frontQuiet event member).spares execution inProgress

/-- Whether the grid of every timer that is due stays on the scale. -/
def DueOnScale (engine : Engine ε) : Prop :=
  ∀ id timer, engine.scheduler.timer? id = some timer → timer.Due engine.context.now →
    timer.StaysOnScale engine.context.now

end Engine

/-- Callbacks that return where the grid of every timer that is due stays on the scale,
register no timers, end no executions that they have not begun and take no time, and reports
that take none either. -/
structure Behaviour.Still {ε : Type} (behaviour : Behaviour ε) : Prop where
  returns : ∀ thread id (engine : Engine ε), engine.InUse → engine.DueOnScale →
    ∃ ending after, behaviour.call thread id engine = some (ending, after)
  call : ∀ thread id (engine : Engine ε) ending after, engine.InUse →
    behaviour.call thread id engine = some (ending, after) → Engine.Stays thread engine after
  sink : ∀ failure context, (behaviour.sink failure context).now = context.now

theorem Behaviour.Still.lawful {ε : Type} {behaviour : Behaviour ε} (still : behaviour.Still) :
    behaviour.Lawful :=
  fun thread id engine ending after inUse called =>
    (still.call thread id engine ending after inUse called).toAdvances

theorem Behaviour.Prompt.still {ε : Type} {behaviour : Behaviour ε} (prompt : behaviour.Prompt)
    (aloof : behaviour.Aloof) : behaviour.Still where
  returns := by
    intro thread id engine _ _
    obtain ⟨ending, after, called, -⟩ := prompt.returns thread id engine
    exact ⟨ending, after, called⟩
  call := by
    intro thread id engine ending after inUse called
    obtain ⟨_, _, again, now⟩ := prompt.returns thread id engine
    cases called.symm.trans again
    exact inUse.stays (aloof thread id engine ending after called) now
  sink := prompt.sink

namespace Engine

open Scheduler (Run)

variable {ε : Type} {behaviour : Behaviour ε} {thread : ThreadId}

theorem InUse.fire_quiet (still : behaviour.Still) {engine taken fired : Engine ε}
    (inUse : engine.InUse) {execution : Execution}
    (found : engine.takeDue thread engine.context.now = (some execution, taken))
    (firing : taken.fire behaviour execution = some fired) :
    fired.context.now = engine.context.now ∧
      ∃ events, Run taken.scheduler events fired.scheduler ∧
        ∀ event ∈ events, event.Quiet engine.context.now engine.scheduler.executions := by
  obtain ⟨takenInUse, own, begins, pushed⟩ := inUse.takeDue_some found
  subst own
  obtain ⟨ending, called, returned, rfl⟩ := fire_eq_some_iff.mp firing
  have shows : taken.context.now = engine.context.now := now_takeDue found
  have announced : Stays execution.thread taken (taken.announce execution).2 :=
    takenInUse.stays rfl (now_announce execution taken)
  have begunInUse := announced.inUse takenInUse
  have inside := still.call _ _ _ _ _ begunInUse returned
  have closed : Stays execution.thread called
      (called.report behaviour.sink execution (taken.announce execution).1 ending) :=
    (inside.inUse begunInUse).stays rfl (now_report still.sink ..)
  have reported := announced.trans takenInUse (inside.trans begunInUse closed)
  obtain ⟨settles, -, -⟩ :=
    (reported.inUse takenInUse).settle (reported.stack.trans pushed) ending
  obtain ⟨events, run, quiet⟩ := reported.quiet
  have now := reported.still.trans shows
  refine ⟨(now_settle _ execution).trans now, _, run.append (.single settles), ?_⟩
  intro event member
  rcases List.mem_append.mp member with before | last
  · obtain ⟨registers, read, spares⟩ := quiet event before
    refine ⟨registers, shows ▸ read, fun one inProgress => spares one ?_⟩
    exact begins.mem_executions_of_not_ends inUse.coupled inProgress fun ends => by
      obtain ⟨_, _, same⟩ := ends
      cases same
  · cases List.mem_singleton.mp last
    refine ⟨rfl, now, ?_⟩
    rintro one inProgress ⟨_, _, ends⟩
    cases ends
    -- The timer was waiting, so no execution of it was in progress.
    have running := inUse.coupled.status_of_executing inProgress
    have pending := (inUse.takes found).waiting inUse.coupled inUse.present
    cases running.symm.trans pending

theorem InUse.stays_fire (still : behaviour.Still) {engine taken fired : Engine ε}
    (inUse : engine.InUse) {execution : Execution}
    (found : engine.takeDue thread engine.context.now = (some execution, taken))
    (firing : taken.fire behaviour execution = some fired) : Stays thread engine fired := by
  obtain ⟨now, events, run, quiet⟩ := inUse.fire_quiet still found firing
  obtain ⟨-, -, begins, -⟩ := inUse.takeDue_some found
  have taking := Scheduler.Event.quiet_taken execution engine.context.now
    engine.scheduler.executions
  exact {
    inUse.advances_fire still.lawful found firing with
    still := now
    quiet := ⟨_, .cons begins run, List.forall_mem_cons.mpr ⟨taking, quiet⟩⟩ }

theorem InUse.stays_runPending (still : behaviour.Still) {engine after : Engine ε}
    (inUse : engine.InUse) {bound count : Nat}
    (ran : engine.runPending behaviour bound thread = some (count, after)) :
    Stays thread engine after := by
  unfold runPending at ran
  obtain ⟨drains, -, -⟩ := drains_of_runDue ran
  generalize engine.ranDue behaviour thread engine.context.now bound = runs at drains
  generalize shows : engine.context.now = now at drains
  clear ran
  induction drains with
  | rest found =>
    exact inUse.stays (inUse.not_due_of_takeDue found).1 (now_takeDue found)
  | fire found firing _ induction =>
    subst shows
    have first := inUse.stays_fire still found firing
    exact first.trans inUse (induction (first.inUse inUse) first.still)

theorem InUse.calm {engine : Engine ε} (inUse : engine.InUse) (onScale : engine.DueOnScale) :
    engine.scheduler.Calm engine.context.now engine.scheduler.executions where
  ongoing := fun _ member => member
  due := onScale
  running := by
    intro id timer found running others
    obtain ⟨thread, execution, onStack, own⟩ := inUse.coupled.running_iff.mp
      (Scheduler.status?_eq_some_iff.mpr ⟨timer, found, running⟩)
    exact (others execution (Scheduler.mem_stack_iff.mp onStack).1 own).elim

/-- Where the grid of what is due stays on the scale, a timer that was taken is fired, at
the cost of a chance. -/
theorem InUse.exists_fire (still : behaviour.Still) {engine taken : Engine ε}
    (inUse : engine.InUse) (onScale : engine.DueOnScale) {execution : Execution}
    (found : engine.takeDue thread engine.context.now = (some execution, taken)) :
    ∃ fired, taken.fire behaviour execution = some fired ∧ fired.DueOnScale ∧
      fired.scheduler.chances engine.context.now <
        engine.scheduler.chances engine.context.now := by
  obtain ⟨takenInUse, own, begins, -⟩ := inUse.takeDue_some found
  have taking := Scheduler.Event.quiet_taken execution engine.context.now
    engine.scheduler.executions
  have calm := begins.calm inUse.reachable taking (inUse.calm onScale)
  obtain ⟨-, fewer⟩ := begins.chances_le inUse.reachable taking (inUse.calm onScale)
  have announced : Advances execution.thread taken (taken.announce execution).2 :=
    takenInUse.advances rfl
  have begunOnScale : (taken.announce execution).2.DueOnScale := by
    unfold DueOnScale
    rw [now_announce, now_takeDue found]
    exact calm.due
  obtain ⟨ending, called, returned⟩ := still.returns execution.thread execution.timer _
    (announced.inUse takenInUse) begunOnScale
  have firing := fire_of_call returned
  obtain ⟨now, events, run, quiet⟩ := inUse.fire_quiet still found firing
  obtain ⟨after, few⟩ := run.calm takenInUse.reachable quiet calm
  refine ⟨_, firing, ?_, few.trans_lt (fewer execution _ rfl)⟩
  unfold DueOnScale
  rw [now]
  exact after.due

theorem InUse.exists_runDue (still : behaviour.Still) {engine : Engine ε} (inUse : engine.InUse)
    (thread : ThreadId) (onScale : engine.DueOnScale) {bound : ℕ}
    (enough : engine.scheduler.chances engine.context.now < bound) :
    ∃ count after,
      engine.runDue behaviour thread engine.context.now bound = some (count, after) ∧
      count ≤ engine.scheduler.chances engine.context.now ∧
      ∀ id timer, after.scheduler.timer? id = some timer →
        ¬ timer.Due engine.context.now := by
  induction bound generalizing engine with
  | zero => exact (Nat.not_lt_zero _ enough).elim
  | succ bound induction =>
    unfold runDue
    cases found : engine.takeDue thread engine.context.now with
    | mk answer taken =>
      cases answer with
      | none =>
        obtain ⟨same, idle⟩ := inUse.not_due_of_takeDue found
        exact ⟨0, taken, rfl, Nat.zero_le _, same ▸ idle⟩
      | some execution =>
        obtain ⟨fired, firing, firedOnScale, fewer⟩ := inUse.exists_fire still onScale found
        have stays := inUse.stays_fire still found firing
        rw [← stays.still] at fewer enough ⊢
        obtain ⟨count, after, rest, few, idle⟩ :=
          induction (stays.inUse inUse) firedOnScale (by omega)
        refine ⟨count + 1, after, ?_, by omega, idle⟩
        simp only [firing, rest, Option.bind_eq_bind, Option.bind_some, Option.pure_def]

/-- Where the grid of what is due stays on the scale, twice the number of timers is enough
for a call. -/
theorem InUse.exists_runPending (still : behaviour.Still) {engine : Engine ε}
    (inUse : engine.InUse) (thread : ThreadId) (onScale : engine.DueOnScale) {bound : ℕ}
    (enough : 2 * engine.scheduler.timers.length < bound) :
    ∃ count after, engine.runPending behaviour bound thread = some (count, after) ∧
      count ≤ 2 * engine.scheduler.timers.length ∧ after.context.now = engine.context.now ∧
      ∀ id timer, after.scheduler.timer? id = some timer → ¬ timer.Due engine.context.now := by
  have few := engine.scheduler.chances_le_twice engine.context.now
  obtain ⟨count, after, ran, counted, idle⟩ :=
    inUse.exists_runDue still thread onScale (few.trans_lt enough)
  exact ⟨count, after, ran, counted.trans few, (inUse.stays_runPending still ran).still, idle⟩

end Engine

/-- Callbacks that run what is due themselves, by the callbacks of `inner`. -/
def Behaviour.runningDue {ε : Type} (inner : Behaviour ε) : Behaviour ε where
  call := fun thread _ engine =>
    (engine.runPending inner (2 * engine.scheduler.timers.length + 1) thread).map
      fun result => (.done, result.2)
  sink := inner.sink

theorem Behaviour.Still.runningDue {ε : Type} {inner : Behaviour ε} (still : inner.Still) :
    inner.runningDue.Still where
  returns := by
    intro thread id engine inUse onScale
    obtain ⟨count, after, ran, -⟩ :=
      inUse.exists_runPending still thread onScale (Nat.lt_succ_self _)
    exact ⟨.done, after, Option.map_eq_some_iff.mpr ⟨_, ran, rfl⟩⟩
  call := by
    intro thread id engine ending after inUse called
    obtain ⟨result, ran, same⟩ := Option.map_eq_some_iff.mp called
    cases same
    exact inUse.stays_runPending still ran
  sink := still.sink

namespace Engine

variable {ε : Type} {behaviour : Behaviour ε} {thread : ThreadId}

theorem Drains.endedAt_eq (prompt : behaviour.Prompt) {cutoff : Instant} {engine last : Engine ε}
    {ran : List Ran} (drains : Drains behaviour thread cutoff engine ran last) :
    ∀ one ∈ ran, one.endedAt = engine.context.now := by
  induction drains with
  | rest found => exact fun one member => nomatch member
  | fire found firing _ induction =>
    have still := now_fire prompt found firing
    exact List.forall_mem_cons.mpr ⟨still, fun one member => (induction one member).trans still⟩

/-- A timer that is due and whose grid leaves the scale keeps a call from returning. -/
theorem InUse.runPending_eq_none (aloof : behaviour.Aloof) (prompt : behaviour.Prompt)
    {engine : Engine ε} (inUse : engine.InUse) (leaves : ¬ engine.DueOnScale) (bound : ℕ) :
    engine.runPending behaviour bound thread = none := by
  unfold DueOnScale at leaves
  push Not at leaves
  obtain ⟨id, timer, found, due, off⟩ := leaves
  cases ran : engine.runPending behaviour bound thread with
  | none => rfl
  | some result =>
    obtain ⟨drains, -, -⟩ := drains_of_runDue ran
    refine ((inUse.reachable.sound found).not_drains due off ?_
      (drains.timer aloof inUse found).1).elim
    intro ended member
    obtain ⟨one, own, rfl⟩ := List.mem_map.mp member
    exact drains.endedAt_eq prompt one (List.mem_filter.mp own).1

/-- With callbacks that return, register no timers and take no time, a call that runs what
is due returns where the grid of every timer that is due stays on the scale: it runs no more
than two timers for each that there is, and leaves none that is due.  Where the grid of one
does not, the call never returns if callbacks leave the scheduler alone. -/
theorem runPending_returns_on_scale {engine : Engine ε} (inUse : engine.InUse)
    (thread : ThreadId) :
    (behaviour.Still → engine.DueOnScale →
      ∀ bound, 2 * engine.scheduler.timers.length < bound →
        ∃ count after, engine.runPending behaviour bound thread = some (count, after) ∧
          count ≤ 2 * engine.scheduler.timers.length ∧
          after.context.now = engine.context.now ∧
          ∀ id timer, after.scheduler.timer? id = some timer →
            ¬ timer.Due engine.context.now) ∧
    (behaviour.Aloof → behaviour.Prompt → ¬ engine.DueOnScale →
      ∀ bound, engine.runPending behaviour bound thread = none) := by
  refine ⟨?_, ?_⟩
  · intro still onScale bound enough
    exact inUse.exists_runPending still thread onScale enough
  · intro aloof prompt leaves bound
    exact inUse.runPending_eq_none aloof prompt leaves bound

theorem prompt_doNothing : doNothing.Prompt where
  returns := fun _ _ engine => ⟨.done, engine, rfl, rfl⟩
  sink := fun _ _ => rfl

/-- A late timer, whose callback runs what is due itself. -/
theorem runPending_returns_on_scale_late :
    lateTimer.DueOnScale ∧ ∃ count after,
      lateTimer.runPending doNothing.runningDue 3 0 = some (count, after) ∧ count ≤ 2 ∧
      ∀ id timer, after.scheduler.timer? id = some timer → ¬ timer.Due lateTimer.context.now := by
  have still := (prompt_doNothing.still aloof_doNothing).runningDue
  have inUse := onTime_lateTimer.1
  have onScale : lateTimer.DueOnScale := by
    intro id timer found due
    refine Timer.staysOnScale_of_add? (Int.le_trans ?_ due.2) ?_
    · exact (inUse.reachable.sound found).inOrder
    · intro period repeating
      cases id with
      | zero =>
        cases found
        cases repeating
        decide
      | succ id => cases found
  obtain ⟨count, after, ran, few, -, idle⟩ :=
    (runPending_returns_on_scale inUse 0).1 still onScale 3 (by decide)
  exact ⟨onScale, count, after, ran, few, idle⟩

/-- A timer that is due at once, with the longest period. -/
def rareTimer : Engine Unit :=
  let surroundings : Engine Unit := { context := ⟨.origin, 0, {}, #[], ()⟩ }
  (surroundings.register (.after .zero) (some .longest)).2

theorem runPending_hangs_where_grid_leaves_scale :
    ¬ ∀ (behaviour : Behaviour Unit) (engine : Engine Unit) (thread : ThreadId),
      behaviour.Aloof → behaviour.Prompt → engine.InUse →
      ∃ bound result, engine.runPending behaviour bound thread = some result := by
  intro returns
  have inUse : rareTimer.InUse := (Operated.onTime steady_doNothing (.register (.new _) _ _)).1
  have leaves : ¬ rareTimer.DueOnScale := by
    intro onScale
    obtain ⟨next, fits, -⟩ := onScale 0 _ rfl (by decide) .longest rfl
    have off : Instant.origin.add? .longest = none := by decide
    cases off.symm.trans fits
  obtain ⟨bound, result, ran⟩ :=
    returns doNothing rareTimer 0 aloof_doNothing prompt_doNothing inUse
  rw [inUse.runPending_eq_none aloof_doNothing prompt_doNothing leaves] at ran
  cases ran

end Engine

end TimeSync
