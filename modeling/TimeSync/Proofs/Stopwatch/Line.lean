import Mathlib
import TimeSync.Stopwatch.Deadline

/-!
# Deadlines on a line with an end

A deadline that is not stopped is a point of the line of instants, which has one further point
beyond the last of them, for deadlines that are never reached.  What changes a deadline moves
its point, and a point that would leave the instants becomes the one beyond.  So what holds of
such points holds of deadlines, after any changes.
-/

namespace TimeSync

def Instant.last : Instant := ⟨9223372036854775807999999999, by omega, by omega⟩

theorem Instant.le_last (instant : Instant) : instant ≤ Instant.last :=
  Int.lt_add_one_iff.mp instant.notAfter

namespace Deadline

/-- A point that is beyond the last instant is never reached. -/
def reach : WithTop ℤ → WithTop ℤ
  | ⊤ => ⊤
  | (nanos : ℤ) => if nanos ≤ Instant.last.nanos then nanos else ⊤

/-- Where a deadline lies, if it is not stopped. -/
def point? : Deadline → Option (WithTop ℤ)
  | stopped => none
  | .finite instant => some (instant.nanos : WithTop ℤ)
  | forever => some ⊤

theorem reach_coe (nanos : ℤ) :
    reach nanos = if nanos ≤ Instant.last.nanos then (nanos : WithTop ℤ) else ⊤ := rfl

theorem le_reach (point : WithTop ℤ) : point ≤ reach point := by
  cases point with
  | top => exact le_rfl
  | coe nanos =>
    rw [reach_coe]
    split
    · exact le_rfl
    · exact le_top

/-- Where a point is moved on twice from the same instant, the way is the sum of both. -/
theorem reach_reach (point : WithTop ℤ) (now : ℤ) {first second : ℤ} (forward : 0 ≤ first)
    (further : 0 ≤ second) :
    reach (max (reach (max point now + first)) now + second) =
      reach (max point now + (first + second : ℤ)) := by
  cases point with
  | top => rfl
  | coe nanos =>
    have moved (way : ℤ) : max (nanos : WithTop ℤ) now + way = (max nanos now + way : ℤ) := rfl
    rw [moved, moved, reach_coe (max nanos now + first)]
    split
    · have same : max (max nanos now + first) now + second =
          max nanos now + (first + second) := by omega
      rw [← same]
      rfl
    · rename_i beyond
      rw [reach_coe, if_neg (by omega)]
      rfl

theorem point?_injective : Function.Injective point? := by
  intro first second same
  cases first <;> cases second <;> simp_all [point?, Instant.ext_iff]

theorem point?_after (instant : Instant) (duration : Duration) :
    (after instant duration).point? = some (reach (instant.nanos + duration.nanos : ℤ)) := by
  unfold after
  split
  · rename_i deadline found
    rw [Instant.add?_eq_some_iff] at found
    rw [← found, reach_coe, if_pos (Instant.le_def.mp deadline.le_last)]
    rfl
  · rename_i beyond
    rw [Instant.add?_eq_none_iff] at beyond
    rw [reach_coe, if_neg (by simp only [Instant.last]; omega)]
    rfl

theorem point?_extend (deadline : Deadline) (duration : Duration) (now : Instant) :
    (deadline.extend duration now).point? = deadline.point?.map fun point =>
      reach (max point (now.nanos : WithTop ℤ) + (duration.nanos : ℤ)) := by
  cases deadline with
  | stopped => rfl
  | finite instant =>
    rw [extend, point?_after, Instant.nanos_later]
    rfl
  | forever => rfl

/-- What is done to a deadline, with the clock's reading where it counts. -/
inductive Change where
  | start (timeout : Duration) (now : Instant)
  | startAt (instant : Instant)
  | stop
  | setForever
  | extend (duration : Duration) (now : Instant)

def changed (deadline : Deadline) : Change → Deadline
  | .start timeout now => .after now timeout
  | .startAt instant => .finite instant
  | .stop => .stopped
  | .setForever => .forever
  | .extend duration now => deadline.extend duration now

def Change.move (point? : Option (WithTop ℤ)) : Change → Option (WithTop ℤ)
  | .start timeout now => some (reach (now.nanos + timeout.nanos : ℤ))
  | .startAt instant => some (instant.nanos : WithTop ℤ)
  | .stop => none
  | .setForever => some ⊤
  | .extend duration now => point?.map fun point =>
    reach (max point (now.nanos : WithTop ℤ) + (duration.nanos : ℤ))

def replay (changes : List Change) : Deadline := changes.foldl changed .stopped

theorem point?_changed (deadline : Deadline) (change : Change) :
    (deadline.changed change).point? = change.move deadline.point? := by
  cases change with
  | start timeout now => exact point?_after now timeout
  | startAt instant => rfl
  | stop => rfl
  | setForever => rfl
  | extend duration now => exact point?_extend deadline duration now

theorem point?_foldl_changed (deadline : Deadline) (changes : List Change) :
    (changes.foldl changed deadline).point? = changes.foldl Change.move deadline.point? := by
  induction changes generalizing deadline with
  | nil => rfl
  | cons change changes induction =>
    rw [List.foldl_cons, List.foldl_cons, induction, point?_changed]

theorem expired_iff {deadline : Deadline} {time : Instant} :
    deadline.expired time = true ↔ ∃ point ∈ deadline.point?, point ≤ (time.nanos : WithTop ℤ) := by
  cases deadline with
  | stopped => simp [expired, point?]
  | finite instant => simp [expired, point?, Instant.le_def]
  | forever => simp [expired, point?]

theorem expired_iff_remaining {deadline : Deadline} {time : Instant} :
    deadline.expired time = true ↔
      (∃ instant, deadline = .finite instant) ∧ deadline.remaining time = .zero := by
  cases deadline with
  | stopped => simp [expired]
  | finite instant =>
    have spent : instant.since time = .zero ↔ instant ≤ time := by
      simp only [Duration.ext_iff, Instant.nanos_since, Duration.zero, Instant.le_def]
      omega
    simp [expired, remaining, spent]
  | forever => simp [expired]

theorem expired_of_le {deadline : Deadline} {time later : Instant} (order : time ≤ later)
    (ended : deadline.expired time = true) : deadline.expired later = true := by
  obtain ⟨point, lies, reached⟩ := expired_iff.mp ended
  exact expired_iff.mpr ⟨point, lies, reached.trans (WithTop.coe_le_coe.mpr order)⟩

theorem expired_of_extend {deadline : Deadline} {duration : Duration} {now time : Instant}
    (ended : (deadline.extend duration now).expired time = true) :
    deadline.expired time = true := by
  obtain ⟨point, lies, reached⟩ := expired_iff.mp ended
  rw [point?_extend] at lies
  obtain ⟨earlier, was, rfl⟩ := Option.map_eq_some_iff.mp lies
  refine expired_iff.mpr ⟨earlier, was, ?_⟩
  have onwards : (0 : WithTop ℤ) ≤ (duration.nanos : ℤ) :=
    WithTop.coe_le_coe.mpr (Int.natCast_nonneg _)
  calc
    earlier ≤ max earlier (now.nanos : WithTop ℤ) := le_max_left _ _
    _ ≤ max earlier (now.nanos : WithTop ℤ) + (duration.nanos : ℤ) := le_add_of_nonneg_right onwards
    _ ≤ reach (max earlier (now.nanos : WithTop ℤ) + (duration.nanos : ℤ)) := le_reach _
    _ ≤ (time.nanos : WithTop ℤ) := reached

theorem extend_eq_self {deadline : Deadline} (nowhere : deadline.instant? = none)
    (duration : Duration) (now : Instant) : deadline.extend duration now = deadline := by
  cases deadline with
  | stopped => rfl
  | finite instant => cases nowhere
  | forever => rfl

theorem extend_extend (deadline : Deadline) (now : Instant) {first second both : Duration}
    (sum : both.nanos = first.nanos + second.nanos) :
    (deadline.extend first now).extend second now = deadline.extend both now := by
  apply point?_injective
  rw [point?_extend, point?_extend, point?_extend, Option.map_map, sum]
  refine congrArg (deadline.point?.map ·) (funext fun point => ?_)
  exact reach_reach point now.nanos (Int.natCast_nonneg _) (Int.natCast_nonneg _)

theorem le_remaining_after {instant now : Instant} (order : now ≤ instant)
    (duration : Duration) : duration ≤ (after instant duration).remaining now := by
  unfold after
  split
  · rename_i deadline found
    rw [Instant.add?_eq_some_iff] at found
    rw [Instant.le_def] at order
    rw [remaining, Duration.le_def, Instant.nanos_since]
    omega
  · exact duration.le_longest

theorem le_remaining_extend {deadline : Deadline} (runs : deadline.running = true)
    (duration : Duration) (now : Instant) :
    duration ≤ (deadline.extend duration now).remaining now := by
  cases deadline with
  | stopped => cases runs
  | finite instant =>
    apply le_remaining_after
    rw [Instant.le_def, Instant.nanos_later]
    exact le_max_right _ _
  | forever => exact duration.le_longest

theorem after_eq_forever_iff {instant : Instant} {duration : Duration} :
    after instant duration = .forever ↔
      Instant.last.nanos < instant.nanos + duration.nanos := by
  unfold after
  split
  · rename_i deadline found
    have within := Instant.le_def.mp deadline.le_last
    rw [Instant.add?_eq_some_iff] at found
    constructor
    · nofun
    · omega
  · rename_i beyond
    rw [Instant.add?_eq_none_iff] at beyond
    simp only [Instant.last, true_iff]
    omega

/-- A deadline is a point of the line of instants and the one beyond them, or stopped, and every
change moves this point.  It has expired exactly where it is an instant and nothing remains, and
then at every later time.  Extending it never lets it expire earlier, does nothing unless it is
an instant, and leaves at least as much time as it was extended by; extending it twice at one
reading of the clock is extending it once by the sum.  It comes to lie beyond the instants
exactly if the sum does. -/
theorem moves_on_the_line (changes : List Change) :
    let deadline := replay changes
    deadline.point? = changes.foldl Change.move none ∧
    (∀ time, deadline.expired time = true ↔
      (∃ instant, deadline = .finite instant) ∧ deadline.remaining time = .zero) ∧
    (∀ time later, time ≤ later → deadline.expired time = true →
      deadline.expired later = true) ∧
    (∀ duration now time, (deadline.changed (.extend duration now)).expired time = true →
      deadline.expired time = true) ∧
    (∀ duration now, deadline = .stopped ∨ deadline = .forever →
      deadline.changed (.extend duration now) = deadline) ∧
    (∀ duration now, deadline.running = true →
      duration ≤ (deadline.changed (.extend duration now)).remaining now) ∧
    (∀ first second both now, both.nanos = first.nanos + second.nanos →
      (deadline.changed (.extend first now)).changed (.extend second now) =
        deadline.changed (.extend both now)) ∧
    (∀ timeout now, deadline.changed (.start timeout now) = .forever ↔
      Instant.last.nanos < now.nanos + timeout.nanos) ∧
    ∀ duration now instant, deadline = .finite instant →
      (deadline.changed (.extend duration now) = .forever ↔
        Instant.last.nanos < max instant.nanos now.nanos + duration.nanos) := by
  intro deadline
  refine ⟨point?_foldl_changed .stopped changes, fun _ => expired_iff_remaining,
    fun _ _ => expired_of_le, fun _ _ _ => expired_of_extend, ?_,
    fun duration now runs => le_remaining_extend runs duration now,
    fun _ _ _ now => extend_extend deadline now, fun _ _ => after_eq_forever_iff, ?_⟩
  · rintro duration now (stopped | forever)
    · exact extend_eq_self (congrArg instant? stopped) duration now
    · exact extend_eq_self (congrArg instant? forever) duration now
  · intro duration now instant lies
    rw [lies, ← Instant.nanos_later]
    exact after_eq_forever_iff

/-- Four nanoseconds before the last instant there is room for one extension by three, and not
for two. -/
theorem moves_on_the_line_saturating :
    let near : Instant := ⟨9223372036854775807999999995, by decide, by decide⟩
    let short : Duration := ⟨3, by decide⟩
    let long : Duration := ⟨6, by decide⟩
    let deadline := replay [.stop, .startAt near]
    let extended := deadline.changed (.extend short near)
    deadline.running = true ∧ short ≤ extended.remaining near ∧ extended ≠ .forever ∧
    extended.changed (.extend short near) = deadline.changed (.extend long near) ∧
    deadline.changed (.extend long near) = .forever := by
  intro near short long deadline extended
  obtain ⟨-, -, -, -, -, room, additive, -, ends⟩ := moves_on_the_line [.stop, .startAt near]
  refine ⟨rfl, room short near rfl, ?_, additive short short long near rfl, ?_⟩
  · rw [Ne, ends short near near rfl]
    decide
  · rw [ends long near near rfl]
    decide

end Deadline

end TimeSync
