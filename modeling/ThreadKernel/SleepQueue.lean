import ThreadKernel.Handle
import ThreadKernel.Word

/-!
# The sleep queue

Threads that wait for a tick, in the order they went to sleep.  `nextWake` is
the earliest tick anyone waits for, so that a tick at which nobody is due needs
no scan.  The ticks themselves are kept with the threads: `SleepQueue.wake` is
told them, and `Alarms` is a queue together with such a record.
-/

namespace ThreadKernel

structure SleepQueue where
  sleepers : List ThreadId := []
  /-- The earliest wake tick, the largest word when nobody sleeps. -/
  nextWake : Nat := maxWord
deriving DecidableEq

namespace SleepQueue

def size (q : SleepQueue) : Nat := q.sleepers.length

def isEmpty (q : SleepQueue) : Bool := q.sleepers.isEmpty

def contains (q : SleepQueue) (t : ThreadId) : Bool := q.sleepers.contains t

/-- Add a sleeper. -/
def push (q : SleepQueue) (t : ThreadId) (tick : Nat) : SleepQueue :=
  { sleepers := q.sleepers ++ [t], nextWake := min q.nextWake tick }

/-- Whether a scan at tick `now` may find someone. -/
def isDue (q : SleepQueue) (now : Nat) : Bool := q.nextWake ≤ now

/-- The earliest of `ticks`, the largest word when there is none. -/
def earliest : List Nat → Nat
  | [] => maxWord
  | tick :: rest => min tick (earliest rest)

/-- The sleepers due at `now`, in the order they went to sleep, and the queue
without them. -/
def wake (q : SleepQueue) (now : Nat) (tickOf : ThreadId → Nat) : List ThreadId × SleepQueue :=
  let due := fun t => decide (tickOf t ≤ now)
  let rest := q.sleepers.filter fun t => !due t
  (q.sleepers.filter due, { sleepers := rest, nextWake := earliest (rest.map tickOf) })

/-! ## Who sleeps, and until when -/

@[simp]
theorem mem_sleepers_push {q : SleepQueue} {t u : ThreadId} {tick : Nat} :
    u ∈ (q.push t tick).sleepers ↔ u ∈ q.sleepers ∨ u = t := by
  simp [push]

theorem mem_woken {q : SleepQueue} {now : Nat} {tickOf : ThreadId → Nat} {t : ThreadId} :
    t ∈ (q.wake now tickOf).1 ↔ t ∈ q.sleepers ∧ tickOf t ≤ now := by
  simp [wake]

theorem mem_sleepers_wake {q : SleepQueue} {now : Nat} {tickOf : ThreadId → Nat} {t : ThreadId} :
    t ∈ (q.wake now tickOf).2.sleepers ↔ t ∈ q.sleepers ∧ now < tickOf t := by
  simp [wake]

theorem wake_perm (q : SleepQueue) (now : Nat) (tickOf : ThreadId → Nat) :
    ((q.wake now tickOf).1 ++ (q.wake now tickOf).2.sleepers).Perm q.sleepers :=
  List.filter_append_perm _ _

theorem isDue_iff {q : SleepQueue} {now : Nat} : q.isDue now = true ↔ q.nextWake ≤ now := by
  simp [isDue]

/-- `earliest` is the greatest lower bound of the ticks and the largest word. -/
theorem le_earliest_iff {n : Nat} {ticks : List Nat} :
    n ≤ earliest ticks ↔ n ≤ maxWord ∧ ∀ tick ∈ ticks, n ≤ tick := by
  induction ticks with
  | nil => simp [earliest]
  | cons tick rest ih =>
    simp only [earliest, Nat.le_min, ih, List.forall_mem_cons]
    constructor
    · rintro ⟨a, b, c⟩; exact ⟨b, a, c⟩
    · rintro ⟨a, b, c⟩; exact ⟨b, a, c⟩

theorem earliest_perm {ticks ticks' : List Nat} (perm : ticks.Perm ticks') :
    earliest ticks = earliest ticks' := by
  apply Nat.le_antisymm
  · obtain ⟨word, below⟩ := le_earliest_iff.mp (Nat.le_refl (earliest ticks))
    exact le_earliest_iff.mpr ⟨word, fun tick among => below tick (perm.mem_iff.mpr among)⟩
  · obtain ⟨word, below⟩ := le_earliest_iff.mp (Nat.le_refl (earliest ticks'))
    exact le_earliest_iff.mpr ⟨word, fun tick among => below tick (perm.mem_iff.mp among)⟩

theorem earliest_append_singleton (ticks : List Nat) (tick : Nat) :
    earliest (ticks ++ [tick]) = min (earliest ticks) tick := by
  have swapped : earliest (ticks ++ [tick]) = min tick (earliest ticks) :=
    earliest_perm (List.perm_append_comm)
  rw [swapped, Nat.min_comm]

/-- The earliest tick is one of the ticks, unless none comes before the largest word. -/
theorem earliest_mem (ticks : List Nat) : earliest ticks = maxWord ∨ earliest ticks ∈ ticks := by
  induction ticks with
  | nil => exact .inl rfl
  | cons tick rest ih =>
    rw [earliest]
    rcases Nat.le_total tick (earliest rest) with first | later
    · rw [Nat.min_eq_left first]
      exact .inr List.mem_cons_self
    · rw [Nat.min_eq_right later]
      exact ih.imp_right (List.mem_cons_of_mem tick)

/-! ## Queues that were looked through -/

/-- The earliest tick of the sleepers that are not due at `now`. -/
def earliestAfter (q : SleepQueue) (now : Nat) (tickOf : ThreadId → Nat) : Nat :=
  earliest ((q.sleepers.filter fun t => now < tickOf t).map tickOf)

theorem sleepers_wake (q : SleepQueue) (now : Nat) (tickOf : ThreadId → Nat) :
    (q.wake now tickOf).2.sleepers = q.sleepers.filter fun t => now < tickOf t := by
  refine List.filter_congr fun t _ => ?_
  rw [← decide_not, decide_eq_decide, Nat.not_le]

theorem nextWake_wake (q : SleepQueue) (now : Nat) (tickOf : ThreadId → Nat) :
    (q.wake now tickOf).2.nextWake = q.earliestAfter now tickOf := by
  rw [earliestAfter, ← sleepers_wake]
  rfl

theorem earliestAfter_perm {q q' : SleepQueue} (perm : q.sleepers.Perm q'.sleepers) (now : Nat)
    (tickOf : ThreadId → Nat) : q.earliestAfter now tickOf = q'.earliestAfter now tickOf :=
  earliest_perm ((perm.filter _).map tickOf)

/-- To look through a queue in which nobody is due changes nothing. -/
theorem wake_of_undue {q : SleepQueue} {now : Nat} {tickOf : ThreadId → Nat}
    (ahead : ∀ t ∈ q.sleepers, now < tickOf t)
    (first : q.nextWake = earliest (q.sleepers.map tickOf)) : q.wake now tickOf = ([], q) := by
  have none : q.sleepers.filter (fun t => decide (tickOf t ≤ now)) = [] := by
    simpa using ahead
  have all : q.sleepers.filter (fun t => !decide (tickOf t ≤ now)) = q.sleepers := by
    simpa using ahead
  rw [wake, none, all, ← first]

/-- The same sleepers, perhaps in another order.  The earliest tick is as it was, or was taken
anew over those who were not due at some tick that has come. -/
structure Rescanned (q : SleepQueue) (now : Nat) (tickOf : ThreadId → Nat) (q' : SleepQueue) :
    Prop where
  perm : q'.sleepers.Perm q.sleepers
  nextWake : q'.nextWake = q.nextWake ∨ ∃ past ≤ now, q'.nextWake = q.earliestAfter past tickOf

theorem Rescanned.refl {now : Nat} {tickOf : ThreadId → Nat} (q : SleepQueue) :
    q.Rescanned now tickOf q :=
  ⟨.refl _, .inl rfl⟩

theorem Rescanned.trans {q q' q'' : SleepQueue} {now : Nat} {tickOf : ThreadId → Nat}
    (first : q.Rescanned now tickOf q') (second : q'.Rescanned now tickOf q'') :
    q.Rescanned now tickOf q'' := by
  refine ⟨second.perm.trans first.perm, ?_⟩
  rcases second.nextWake with same | ⟨past, come, anew⟩
  · rw [same]
    exact first.nextWake
  · exact .inr ⟨past, come, anew.trans (earliestAfter_perm first.perm past tickOf)⟩

end SleepQueue

/-- A sleep queue with the wake tick recorded for each thread. -/
structure Alarms where
  queue : SleepQueue := {}
  ticks : ThreadId → Nat := fun _ => 0

namespace Alarms

/-- Record `tick` for `t`, in place of any earlier one. -/
def record (a : Alarms) (t : ThreadId) (tick : Nat) : Alarms :=
  { a with ticks := fun u => if u = t then tick else a.ticks u }

/-- Put `t` to sleep until `tick`. -/
def push (a : Alarms) (t : ThreadId) (tick : Nat) : Alarms :=
  { a.record t tick with queue := a.queue.push t tick }

/-- Wake everyone due at `now`. -/
def wake (a : Alarms) (now : Nat) : List ThreadId × Alarms :=
  let (woken, queue) := a.queue.wake now a.ticks
  (woken, { a with queue })

end Alarms

end ThreadKernel
