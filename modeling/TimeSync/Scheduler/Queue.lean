import TimeSync.Scheduler.Timer

/-!
# The queue of waiting timers

The timers that wait are kept in the order of their deadlines, those with the
same deadline in the order of registration.
-/

namespace TimeSync

@[ext]
structure QueueKey where
  dueAt : Instant
  timer : TimerId
deriving DecidableEq

namespace QueueKey

def before (first second : QueueKey) : Bool :=
  first.dueAt < second.dueAt ∨
    (first.dueAt = second.dueAt ∧ first.timer < second.timer)

def insert (key : QueueKey) : List QueueKey → List QueueKey
  | [] => [key]
  | head :: tail =>
    if key.before head then
      key :: head :: tail
    else if key = head then
      head :: tail
    else
      head :: insert key tail

def remove (key : QueueKey) (queue : List QueueKey) : List QueueKey :=
  queue.filter (· ≠ key)

theorem mem_insert {key other : QueueKey} {queue : List QueueKey} :
    other ∈ insert key queue ↔ other = key ∨ other ∈ queue := by
  induction queue with
  | nil => simp [insert]
  | cons head tail ih =>
    unfold insert
    split
    · simp
    · split
      · rename_i same
        subst same
        simp
      · simp only [List.mem_cons, ih]
        constructor
        · rintro (first | first | first) <;> simp [first]
        · rintro (first | first | first) <;> simp [first]

theorem mem_remove {key other : QueueKey} {queue : List QueueKey} :
    other ∈ remove key queue ↔ other ∈ queue ∧ other ≠ key := by
  simp [remove]

theorem before_iff {first second : QueueKey} :
    first.before second = true ↔
      first.dueAt.nanos < second.dueAt.nanos ∨
        (first.dueAt.nanos = second.dueAt.nanos ∧
          @LT.lt Nat _ first.timer second.timer) := by
  simp only [before, Instant.lt_def, Instant.ext_iff, decide_eq_true_eq]

theorem before_trans {first second third : QueueKey}
    (earlier : first.before second = true) (later : second.before third = true) :
    first.before third = true := by
  rw [before_iff] at earlier later ⊢
  omega

theorem before_irrefl (key : QueueKey) : key.before key ≠ true := by
  rw [Ne, before_iff]
  omega

theorem before_of_not_before {first second : QueueKey}
    (notEarlier : ¬ first.before second = true) (different : first ≠ second) :
    second.before first = true := by
  have apart : ¬ (first.dueAt.nanos = second.dueAt.nanos ∧
      @Eq Nat first.timer second.timer) := by
    rintro ⟨sameDue, sameTimer⟩
    exact different (QueueKey.ext (Instant.ext sameDue) sameTimer)
  rw [before_iff] at notEarlier ⊢
  omega

/-- Whether every key of the queue comes before all that follow it. -/
def Ordered (queue : List QueueKey) : Prop :=
  queue.Pairwise fun first second => first.before second = true

theorem Ordered.insert {key : QueueKey} {queue : List QueueKey}
    (ordered : Ordered queue) : Ordered (QueueKey.insert key queue) := by
  induction queue with
  | nil => exact List.pairwise_singleton _ _
  | cons head tail ih =>
    obtain ⟨headFirst, tailOrdered⟩ := List.pairwise_cons.mp ordered
    unfold QueueKey.insert
    split
    · rename_i keyFirst
      refine List.pairwise_cons.mpr ⟨?_, ordered⟩
      intro other member
      rcases List.mem_cons.mp member with same | later
      · exact same ▸ keyFirst
      · exact before_trans keyFirst (headFirst other later)
    · rename_i notFirst
      split
      · exact ordered
      · rename_i different
        refine List.pairwise_cons.mpr ⟨?_, ih tailOrdered⟩
        intro other member
        rcases mem_insert.mp member with same | later
        · exact same ▸ before_of_not_before notFirst different
        · exact headFirst other later

theorem Ordered.remove {queue : List QueueKey} (ordered : Ordered queue)
    (key : QueueKey) : Ordered (QueueKey.remove key queue) :=
  List.Pairwise.filter _ ordered

theorem Ordered.tail {head : QueueKey} {tail : List QueueKey}
    (ordered : Ordered (head :: tail)) : Ordered tail :=
  (List.pairwise_cons.mp ordered).2

theorem Ordered.head_notMem {head : QueueKey} {tail : List QueueKey}
    (ordered : Ordered (head :: tail)) : head ∉ tail := fun member =>
  before_irrefl head ((List.pairwise_cons.mp ordered).1 head member)

theorem Ordered.nodup {queue : List QueueKey} (ordered : Ordered queue) :
    queue.Nodup := by
  apply List.Pairwise.imp _ ordered
  intro first second earlier same
  exact before_irrefl second (same ▸ earlier)

end QueueKey

end TimeSync
