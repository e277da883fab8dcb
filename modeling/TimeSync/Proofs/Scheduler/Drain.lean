import TimeSync.Proofs.Scheduler.EngineTimeline
import TimeSync.Proofs.Scheduler.QueueStatus
import TimeSync.Proofs.Scheduler.Workshop

/-!
# Running all that is due

`Drains` follows a call that runs timers from one timer to the next, and keeps which timers
it has run and when each run ended.  Where callbacks leave the scheduler to those who run
them, this list is all that the call does to timers: the record of each timer is what its
own runs have made of it, whatever other timers were run in between.
-/

namespace TimeSync

namespace Timer

/-- A timer after runs that ended at these instants. -/
def afterRuns (timer : Timer) (ends : List Instant) : Timer := ends.foldl afterRun timer

theorem afterRuns_append (timer : Timer) (earlier later : List Instant) :
    timer.afterRuns (earlier ++ later) = (timer.afterRuns earlier).afterRuns later :=
  List.foldl_append

/-- Whether a timer waits, and will wait again after each run. -/
structure Repeats (timer : Timer) : Prop where
  pending : timer.status = .pending
  wanted : timer.cancelRequested = false
  period : timer.period ≠ none

theorem Repeats.afterRun {timer : Timer} (repeats : timer.Repeats) (now : Instant) :
    (timer.afterRun now).Repeats := by
  have again : (timer.afterRun now).status = .pending := by
    rw [status_afterRun, repeats.wanted, if_neg Bool.false_ne_true, if_neg repeats.period]
  obtain ⟨period, repeating, after⟩ := afterRun_of_pending again
  rw [after]
  exact ⟨rfl, repeats.wanted, repeats.period⟩

theorem Repeats.afterRuns {timer : Timer} (repeats : timer.Repeats) (ends : List Instant) :
    (timer.afterRuns ends).Repeats := by
  induction ends generalizing timer with
  | nil => exact repeats
  | cons ended ends induction => exact induction (repeats.afterRun ended)

theorem afterRun_of_running (timer : Timer) (now : Instant) :
    { timer with status := .running }.afterRun now = timer.afterRun now := by
  obtain ⟨period, status, cancelRequested, fireAt, phase⟩ := timer
  cases cancelRequested with
  | true => rfl
  | false => cases period <;> rfl

/-- Whether a timer waits for an instant that has come. -/
def Due (timer : Timer) (now : Instant) : Prop :=
  timer.status = .pending ∧ timer.fireAt ≤ now

/-- What a call that runs all that is due does to one timer: it runs as long as it is due,
and only then. -/
def Drains (cutoff : Instant) (timer : Timer) : List Instant → Prop
  | [] => ¬ timer.Due cutoff
  | ended :: ends => timer.Due cutoff ∧ Drains cutoff (timer.afterRun ended) ends

theorem Drains.eq_nil {cutoff : Instant} {timer : Timer} {ends : List Instant}
    (drains : Drains cutoff timer ends) (idle : timer.status ≠ .pending) : ends = [] := by
  cases ends with
  | nil => rfl
  | cons ended ends => exact (idle drains.1.1).elim

theorem Drains.once {cutoff deadline : Instant} {earlier ends : List Instant}
    (before : earlier.length ≤ 1)
    (drains : Drains cutoff ((waiting deadline none).afterRuns earlier) ends) :
    (earlier ++ ends).length ≤ 1 := by
  have completed : ∀ ended, ((waiting deadline none).afterRun ended).status ≠ .pending := by
    intro ended
    simp [status_afterRun, waiting]
  cases earlier with
  | nil =>
    cases ends with
    | nil => exact Nat.zero_le 1
    | cons ended ends =>
      rw [drains.2.eq_nil (completed ended)]
      exact Nat.le_refl 1
  | cons ended rest =>
    obtain rfl : rest = [] :=
      List.length_eq_zero_iff.mp (Nat.le_zero.mp (Nat.le_of_succ_le_succ before))
    rw [drains.eq_nil (completed ended)]
    exact Nat.le_refl 1

end Timer

/-- A timer that was run, and the end of the run. -/
structure Ran where
  timer : TimerId
  endedAt : Instant
deriving DecidableEq

def Ran.ends (ran : List Ran) (id : TimerId) : List Instant :=
  (ran.filter fun one => one.timer = id).map Ran.endedAt

theorem Ran.ends_cons_self (one : Ran) (ran : List Ran) :
    Ran.ends (one :: ran) one.timer = one.endedAt :: Ran.ends ran one.timer := by
  simp [ends]

theorem Ran.ends_cons_of_ne {one : Ran} {id : TimerId} (other : one.timer ≠ id)
    (ran : List Ran) : Ran.ends (one :: ran) id = Ran.ends ran id := by
  simp [ends, other]

theorem Ran.ends_append (earlier later : List Ran) (id : TimerId) :
    Ran.ends (earlier ++ later) id = Ran.ends earlier id ++ Ran.ends later id := by
  simp [ends]

/-- Callbacks that leave the scheduler alone. -/
def Behaviour.Aloof {ε : Type} (behaviour : Behaviour ε) : Prop :=
  ∀ thread id (engine : Engine ε) ending after,
    behaviour.call thread id engine = some (ending, after) →
    after.scheduler = engine.scheduler

/-- Callbacks that always return, and take no time. -/
structure Behaviour.Prompt {ε : Type} (behaviour : Behaviour ε) : Prop where
  returns : ∀ thread id (engine : Engine ε), ∃ ending after,
    behaviour.call thread id engine = some (ending, after) ∧
      after.context.now = engine.context.now
  sink : ∀ failure context, (behaviour.sink failure context).now = context.now

theorem Behaviour.Aloof.lawful {ε : Type} {behaviour : Behaviour ε} (aloof : behaviour.Aloof) :
    behaviour.Lawful :=
  fun thread id engine ending after inUse called =>
    inUse.advances (aloof thread id engine ending after called)

namespace Engine

variable {ε : Type}

def ranDue (behaviour : Behaviour ε) (thread : ThreadId) (cutoff : Instant) :
    Nat → Engine ε → List Ran
  | 0, _ => []
  | bound + 1, engine =>
    match engine.takeDue thread cutoff with
    | (none, _) => []
    | (some execution, engine) =>
      match engine.fire behaviour execution with
      | none => []
      | some engine =>
        ⟨execution.timer, engine.context.now⟩ :: ranDue behaviour thread cutoff bound engine

/-- Timers are taken and fired one after another until none is due any more. -/
inductive Drains (behaviour : Behaviour ε) (thread : ThreadId) (cutoff : Instant) :
    Engine ε → List Ran → Engine ε → Prop where
  | rest {engine after : Engine ε} : engine.takeDue thread cutoff = (none, after) →
      Drains behaviour thread cutoff engine [] after
  | fire {engine taken fired last : Engine ε} {execution : Execution} {ran : List Ran} :
      engine.takeDue thread cutoff = (some execution, taken) →
      taken.fire behaviour execution = some fired →
      Drains behaviour thread cutoff fired ran last →
      Drains behaviour thread cutoff engine
        (⟨execution.timer, fired.context.now⟩ :: ran) last

variable {behaviour : Behaviour ε} {thread : ThreadId} {cutoff : Instant}

theorem drains_of_runDue {engine after : Engine ε} {bound count : Nat}
    (run : engine.runDue behaviour thread cutoff bound = some (count, after)) :
    Drains behaviour thread cutoff engine (engine.ranDue behaviour thread cutoff bound) after ∧
      (engine.ranDue behaviour thread cutoff bound).length = count ∧ count < bound := by
  induction bound generalizing engine count with
  | zero => cases run
  | succ bound induction =>
    unfold runDue at run
    unfold ranDue
    cases found : engine.takeDue thread cutoff with
    | mk answer taken =>
      rw [found] at run
      cases answer with
      | none =>
        cases run
        exact ⟨.rest found, rfl, Nat.zero_lt_succ bound⟩
      | some execution =>
        simp only [Option.bind_eq_bind, Option.bind_eq_some_iff, Option.pure_def,
          Option.some.injEq] at run
        obtain ⟨fired, firing, ⟨further, last⟩, rest, same⟩ := run
        cases same
        obtain ⟨drains, length, enough⟩ := induction rest
        simp only [firing]
        exact ⟨.fire found firing drains, congrArg Nat.succ length, Nat.succ_lt_succ enough⟩

theorem runDue_of_drains {engine after : Engine ε} {ran : List Ran}
    (drains : Drains behaviour thread cutoff engine ran after) {bound : Nat}
    (enough : ran.length < bound) :
    engine.runDue behaviour thread cutoff bound = some (ran.length, after) ∧
      engine.ranDue behaviour thread cutoff bound = ran := by
  induction drains generalizing bound with
  | rest found =>
    obtain ⟨bound, rfl⟩ := Nat.exists_eq_add_one_of_ne_zero (Nat.ne_of_gt enough)
    simp [runDue, ranDue, found]
  | fire found firing _ induction =>
    obtain ⟨bound, rfl⟩ := Nat.exists_eq_add_one_of_ne_zero
      (Nat.ne_of_gt (Nat.zero_lt_of_lt enough))
    obtain ⟨runs, same⟩ := induction (Nat.lt_of_succ_lt_succ enough)
    simp [runDue, ranDue, found, firing, same, runs]

theorem InUse.takes {engine taken : Engine ε} (inUse : engine.InUse) {execution : Execution}
    (found : engine.takeDue thread cutoff = (some execution, taken)) :
    Scheduler.Takes engine.scheduler execution cutoff taken.scheduler := by
  have answer : (engine.scheduler.takeDue thread cutoff).execution = some execution :=
    congrArg Prod.fst found
  have scheduler : taken.scheduler = (engine.scheduler.takeDue thread cutoff).scheduler :=
    congrArg (fun result => result.2.scheduler) found.symm
  rw [scheduler]
  exact (inUse.coupled.takes inUse.present answer).2

theorem InUse.due_of_takeDue {engine taken : Engine ε} (inUse : engine.InUse)
    {execution : Execution} (found : engine.takeDue thread cutoff = (some execution, taken)) :
    ∃ timer, engine.scheduler.timer? execution.timer = some timer ∧ timer.Due cutoff := by
  have takes := inUse.takes found
  obtain ⟨timer, present, pending, fireAt⟩ := takes.waits inUse.coupled inUse.present
  exact ⟨timer, present, pending, fireAt ▸ Int.not_lt.mp takes.due⟩

theorem scheduler_fire (aloof : behaviour.Aloof) {engine fired : Engine ε}
    {execution : Execution} (firing : engine.fire behaviour execution = some fired) :
    fired.scheduler = engine.scheduler.settle execution fired.context.now := by
  obtain ⟨begun, ending, called, closing, calling, rfl, -, -⟩ := fire_eq_some firing
  have same : called.scheduler = engine.scheduler :=
    aloof _ _ { engine with context := begun } _ _ calling
  rw [scheduler_settle, now_settle]
  exact congrArg (fun scheduler => scheduler.settle execution closing.now) same

theorem InUse.fire_effect (aloof : behaviour.Aloof) {engine taken fired : Engine ε}
    (inUse : engine.InUse) {execution : Execution}
    (found : engine.takeDue thread cutoff = (some execution, taken))
    (firing : taken.fire behaviour execution = some fired) :
    ∃ timer, engine.scheduler.timer? execution.timer = some timer ∧ timer.Due cutoff ∧
      fired.scheduler.timer? execution.timer = some (timer.afterRun fired.context.now) ∧
      ∀ id, id ≠ execution.timer →
        fired.scheduler.timer? id = engine.scheduler.timer? id := by
  have takes := inUse.takes found
  obtain ⟨timer, present, due⟩ := inUse.due_of_takeDue found
  rw [scheduler_fire aloof firing]
  refine ⟨timer, present, due, ?_, ?_⟩
  · rw [Scheduler.timer?_settle (takes.timer? present), Timer.afterRun_of_running]
  · intro id other
    rw [(Scheduler.sameAt_settle _ other).timer, (takes.sameAt other).timer]

theorem InUse.not_due_of_takeDue {engine after : Engine ε} (inUse : engine.InUse)
    (found : engine.takeDue thread cutoff = (none, after)) :
    after.scheduler = engine.scheduler ∧
      ∀ id timer, engine.scheduler.timer? id = some timer → ¬ timer.Due cutoff := by
  have answer : (engine.scheduler.takeDue thread cutoff).execution = none :=
    congrArg Prod.fst found
  have same : after.scheduler = (engine.scheduler.takeDue thread cutoff).scheduler :=
    congrArg (fun result => result.2.scheduler) found.symm
  refine ⟨same.trans (inUse.coupled.takeDue_eq_self inUse.present answer), ?_⟩
  rintro id timer present ⟨pending, due⟩
  have queued : ⟨timer.fireAt, id⟩ ∈ engine.scheduler.queue :=
    ((inUse.coupled.timers id).queued inUse.present _).mpr ⟨timer, present, pending, rfl⟩
  have ordered := inUse.coupled.ordered
  rw [inUse.coupled.takeDue_eq inUse.present] at answer
  cases queue : engine.scheduler.queue with
  | nil =>
    rw [queue] at queued
    cases queued
  | cons key rest =>
    rw [queue] at queued ordered answer
    dsimp only at answer
    split at answer
    · rename_i early
      have least : key.dueAt ≤ timer.fireAt := by
        rcases List.mem_cons.mp queued with first | later
        · exact Int.le_of_eq (congrArg (fun key => key.dueAt.nanos) first.symm)
        · have before := QueueKey.before_iff.mp ((List.pairwise_cons.mp ordered).1 _ later)
          simp only [Instant.le_def]
          dsimp only at before
          omega
      simp only [Instant.le_def, Instant.lt_def] at due least early
      omega
    · cases answer

theorem Drains.timer (aloof : behaviour.Aloof) {engine last : Engine ε} {ran : List Ran}
    (drains : Drains behaviour thread cutoff engine ran last) (inUse : engine.InUse)
    {id : TimerId} {timer : Timer} (present : engine.scheduler.timer? id = some timer) :
    timer.Drains cutoff (Ran.ends ran id) ∧
      last.scheduler.timer? id = some (timer.afterRuns (Ran.ends ran id)) := by
  induction drains generalizing timer with
  | rest found =>
    obtain ⟨same, idle⟩ := inUse.not_due_of_takeDue found
    rw [same]
    exact ⟨idle id timer present, present⟩
  | @fire engine taken fired last execution ran found firing _ induction =>
    obtain ⟨own, known, due, changed, others⟩ := inUse.fire_effect aloof found firing
    have firedInUse := (inUse.advances_fire aloof.lawful found firing).inUse inUse
    by_cases same : execution.timer = id
    · subst same
      cases known.symm.trans present
      obtain ⟨later, after⟩ := induction firedInUse changed
      rw [Ran.ends_cons_self ⟨execution.timer, fired.context.now⟩]
      exact ⟨⟨due, later⟩, after⟩
    · rw [Ran.ends_cons_of_ne same]
      exact induction firedInUse ((others id (Ne.symm same)).trans present)

theorem Drains.advances (aloof : behaviour.Aloof) {engine last : Engine ε} {ran : List Ran}
    (drains : Drains behaviour thread cutoff engine ran last) (inUse : engine.InUse) :
    Advances thread engine last := by
  induction drains with
  | rest found => exact inUse.takeDue_none found
  | fire found firing _ induction =>
    have first := inUse.advances_fire aloof.lawful found firing
    exact first.trans (induction (first.inUse inUse))

theorem Drains.known (aloof : behaviour.Aloof) {engine last : Engine ε} {ran : List Ran}
    (drains : Drains behaviour thread cutoff engine ran last) (inUse : engine.InUse) :
    last.scheduler.timers.length = engine.scheduler.timers.length ∧
      ∀ one ∈ ran, one.timer < engine.scheduler.timers.length := by
  induction drains with
  | rest found =>
    rw [(inUse.not_due_of_takeDue found).1]
    exact ⟨rfl, fun one member => nomatch member⟩
  | @fire engine taken fired last execution ran found firing _ induction =>
    obtain ⟨timer, known, -⟩ := inUse.due_of_takeDue found
    obtain ⟨length, later⟩ :=
      induction ((inUse.advances_fire aloof.lawful found firing).inUse inUse)
    have kept : fired.scheduler.timers.length = engine.scheduler.timers.length := by
      rw [scheduler_fire aloof firing, Scheduler.length_timers_settle,
        (inUse.takes found).length_timers]
    refine ⟨length.trans kept, List.forall_mem_cons.mpr ⟨?_, ?_⟩⟩
    · exact (List.getElem?_eq_some_iff.mp known).1
    · exact kept ▸ later

theorem Drains.pending (aloof : behaviour.Aloof) {engine last : Engine ε} {ran : List Ran}
    (drains : Drains behaviour thread cutoff engine ran last) (inUse : engine.InUse)
    {one : Ran} (member : one ∈ ran) :
    engine.scheduler.status? one.timer = some .pending := by
  have known := (drains.known aloof inUse).2 one member
  have present := List.getElem?_eq_getElem known
  have runs := (drains.timer aloof inUse present).1
  refine Scheduler.status?_eq_some_iff.mpr ⟨_, present, ?_⟩
  by_contra idle
  have ended : one.endedAt ∈ Ran.ends ran one.timer :=
    List.mem_map_of_mem (List.mem_filter.mpr ⟨member, decide_eq_true rfl⟩)
  rw [runs.eq_nil idle] at ended
  cases ended

theorem exists_fire (prompt : behaviour.Prompt) (engine : Engine ε) (execution : Execution) :
    ∃ fired, engine.fire behaviour execution = some fired ∧
      fired.context.now = engine.context.now := by
  obtain ⟨ending, after, called, now⟩ :=
    prompt.returns execution.thread execution.timer (engine.announce execution).2
  refine ⟨_, fire_of_call called, ?_⟩
  rw [now_settle, now_report prompt.sink, now, now_announce]

theorem now_takeDue {engine after : Engine ε} {answer : Option Execution}
    (found : engine.takeDue thread cutoff = (answer, after)) :
    after.context.now = engine.context.now := by
  obtain rfl := congrArg Prod.snd found
  exact now_afterTaking ..

theorem now_fire (prompt : behaviour.Prompt) {engine taken fired : Engine ε}
    {execution : Execution} (found : engine.takeDue thread cutoff = (some execution, taken))
    (firing : taken.fire behaviour execution = some fired) :
    fired.context.now = engine.context.now := by
  obtain ⟨after, fires, now⟩ := exists_fire prompt taken execution
  cases firing.symm.trans fires
  exact now.trans (now_takeDue found)

/-- A timer that shows the same in two engines, in one of which it is the only one. -/
structure Beside (own : TimerId) (engine alone : Engine ε) : Prop where
  inUse : engine.InUse
  aloneInUse : alone.InUse
  only : ∀ id, id ≠ own → alone.scheduler.timer? id = none
  timer : alone.scheduler.timer? own = engine.scheduler.timer? own
  now : alone.context.now = engine.context.now

theorem Beside.takeDue {own : TimerId} {engine alone : Engine ε} (beside : Beside own engine alone)
    {execution : Execution} {taken : Engine ε}
    (found : alone.takeDue thread cutoff = (some execution, taken)) :
    execution.timer = own ∧
      ∃ timer, engine.scheduler.timer? own = some timer ∧ timer.Due cutoff := by
  obtain ⟨timer, known, due⟩ := beside.aloneInUse.due_of_takeDue found
  have same : execution.timer = own := by
    by_contra other
    cases (beside.only _ other).symm.trans known
  subst same
  exact ⟨rfl, timer, beside.timer.symm.trans known, due⟩

theorem Beside.fire (aloof : behaviour.Aloof) (prompt : behaviour.Prompt)
    {engine taken fired alone : Engine ε} {execution : Execution}
    (beside : Beside execution.timer engine alone)
    (found : engine.takeDue thread cutoff = (some execution, taken))
    (firing : taken.fire behaviour execution = some fired) :
    ∃ other takenAlone firedAlone, alone.takeDue thread cutoff = (some other, takenAlone) ∧
      takenAlone.fire behaviour other = some firedAlone ∧ other.timer = execution.timer ∧
      Beside execution.timer fired firedAlone := by
  obtain ⟨timer, present, due, changed, -⟩ := beside.inUse.fire_effect aloof found firing
  have here := beside.timer.trans present
  cases foundAlone : alone.takeDue thread cutoff with
  | mk answer takenAlone =>
    cases answer with
    | none =>
      exact ((beside.aloneInUse.not_due_of_takeDue foundAlone).2 _ timer here due).elim
    | some other =>
      obtain ⟨own, -⟩ := beside.takeDue foundAlone
      obtain ⟨firedAlone, firingAlone, -⟩ := exists_fire prompt takenAlone other
      obtain ⟨_, presentAlone, -, changedAlone, othersAlone⟩ :=
        beside.aloneInUse.fire_effect aloof foundAlone firingAlone
      rw [own] at presentAlone changedAlone othersAlone
      cases presentAlone.symm.trans here
      have now : firedAlone.context.now = fired.context.now := by
        rw [now_fire prompt foundAlone firingAlone, now_fire prompt found firing, beside.now]
      refine ⟨other, takenAlone, firedAlone, rfl, firingAlone, own, ?_⟩
      exact {
        inUse := (beside.inUse.advances_fire aloof.lawful found firing).inUse beside.inUse
        aloneInUse := (beside.aloneInUse.advances_fire aloof.lawful foundAlone
          firingAlone).inUse beside.aloneInUse
        only := fun id different => (othersAlone id different).trans (beside.only id different)
        timer := by rw [changed, changedAlone, now]
        now }

theorem Beside.fire_other (aloof : behaviour.Aloof) (prompt : behaviour.Prompt)
    {own : TimerId} {engine taken fired alone : Engine ε} {execution : Execution}
    (beside : Beside own engine alone) (other : execution.timer ≠ own)
    (found : engine.takeDue thread cutoff = (some execution, taken))
    (firing : taken.fire behaviour execution = some fired) : Beside own fired alone := by
  obtain ⟨_, -, -, -, others⟩ := beside.inUse.fire_effect aloof found firing
  exact {
    inUse := (beside.inUse.advances_fire aloof.lawful found firing).inUse beside.inUse
    aloneInUse := beside.aloneInUse
    only := beside.only
    timer := beside.timer.trans (others own (Ne.symm other)).symm
    now := beside.now.trans (now_fire prompt found firing).symm }

/-- Other timers, whose callbacks take no time, make no difference to a timer. -/
theorem Drains.beside (aloof : behaviour.Aloof) (prompt : behaviour.Prompt) {own : TimerId}
    {engine last alone : Engine ε} {ran : List Ran}
    (drains : Drains behaviour thread cutoff engine ran last)
    (beside : Beside own engine alone) :
    ∃ lastAlone, Drains behaviour thread cutoff alone
        (ran.filter fun one => one.timer = own) lastAlone ∧
      Beside own last lastAlone := by
  induction drains generalizing alone with
  | @rest engine last found =>
    obtain ⟨same, idle⟩ := beside.inUse.not_due_of_takeDue found
    cases foundAlone : alone.takeDue thread cutoff with
    | mk answer lastAlone =>
      cases answer with
      | some execution =>
        obtain ⟨-, timer, present, due⟩ := beside.takeDue foundAlone
        exact (idle own timer present due).elim
      | none =>
        obtain ⟨sameAlone, -⟩ := beside.aloneInUse.not_due_of_takeDue foundAlone
        refine ⟨lastAlone, .rest foundAlone, ?_⟩
        exact {
          inUse := (beside.inUse.takeDue_none found).inUse beside.inUse
          aloneInUse := (beside.aloneInUse.takeDue_none foundAlone).inUse beside.aloneInUse
          only := sameAlone ▸ beside.only
          timer := by rw [same, sameAlone, beside.timer]
          now := by rw [now_takeDue found, now_takeDue foundAlone, beside.now] }
  | @fire engine taken fired last execution ran found firing _ induction =>
    by_cases same : execution.timer = own
    · subst same
      obtain ⟨other, takenAlone, firedAlone, foundAlone, firingAlone, timer, besideFired⟩ :=
        beside.fire aloof prompt found firing
      obtain ⟨lastAlone, drainsAlone, besideLast⟩ := induction besideFired
      refine ⟨lastAlone, ?_, besideLast⟩
      rw [List.filter_cons_of_pos (by simp), ← timer, ← besideFired.now]
      exact .fire foundAlone firingAlone (timer ▸ drainsAlone)
    · obtain ⟨lastAlone, drainsAlone, besideLast⟩ :=
        induction (beside.fire_other aloof prompt same found firing)
      refine ⟨lastAlone, ?_, besideLast⟩
      rw [List.filter_cons_of_neg (by simpa using same)]
      exact drainsAlone

end Engine

end TimeSync
