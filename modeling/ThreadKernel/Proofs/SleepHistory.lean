import ThreadKernel.SleepQueue

/-!
# What a sleep queue holds, read off its history

A sleep queue keeps the threads only, and the earliest tick any of them waits for.  Which thread
waits for which tick follows from the calls: `asleep` lists the pushes that no later pass was late
enough for.

* `Holds` says that a queue agrees with such a list; a push and a pass keep it so (`Holds.push`,
  `Holds.wake`), and hence every run does (`holds_run`).
* `sleep_queue_exact` adds what a pass returns and leaves, and that the passes at which
  nobody is due may be left out.
-/

namespace ThreadKernel.SleepQueue

/-- What can be asked of a sleep queue.  A pass brings the ticks of the threads along. -/
inductive Call
  | push (t : ThreadId) (tick : Nat)
  | awake (now : Nat) (tickOf : ThreadId → Nat)

/-- What a call returns, and the queue it leaves. -/
def serve (q : SleepQueue) : Call → List ThreadId × SleepQueue
  | .push t tick => ([], q.push t tick)
  | .awake now tickOf => q.wake now tickOf

/-- The same, but a pass looks at nobody unless somebody may be due. -/
def serveDue (q : SleepQueue) : Call → List ThreadId × SleepQueue
  | .push t tick => ([], q.push t tick)
  | .awake now tickOf => if q.isDue now then q.wake now tickOf else ([], q)

/-- All that a new queue has returned after `calls`, latest first, and what it has become. -/
def run (serve : SleepQueue → Call → List ThreadId × SleepQueue) :
    List Call → List ThreadId × SleepQueue
  | [] => ([], {})
  | call :: earlier =>
    let (woken, q) := run serve earlier
    let (due, q') := serve q call
    (woken ++ due, q')

/-- Every push, in the order of the pushes. -/
def pushes : List Call → List (ThreadId × Nat)
  | [] => []
  | .push t tick :: earlier => pushes earlier ++ [(t, tick)]
  | .awake _ _ :: earlier => pushes earlier

/-- The pushes that no later pass was late enough for, in the order of the pushes. -/
def asleep : List Call → List (ThreadId × Nat)
  | [] => []
  | .push t tick :: earlier => asleep earlier ++ [(t, tick)]
  | .awake now _ :: earlier => (asleep earlier).filter fun entry => now < entry.2

/-- `tickOf` tells the ticks the threads were pushed with. -/
def Agrees (tickOf : ThreadId → Nat) (entries : List (ThreadId × Nat)) : Prop :=
  ∀ entry ∈ entries, tickOf entry.1 = entry.2

instance (tickOf : ThreadId → Nat) (entries : List (ThreadId × Nat)) :
    Decidable (Agrees tickOf entries) :=
  inferInstanceAs (Decidable (∀ _ ∈ _, _))

/-- No thread is pushed while it is asleep, and a thread keeps its tick until it is awake. -/
def Proper : List Call → Prop
  | [] => True
  | .push t tick :: earlier =>
    Proper earlier ∧ t ∉ (asleep earlier).map Prod.fst ∧ tick ≤ maxWord
  | .awake _ tickOf :: earlier => Proper earlier ∧ Agrees tickOf (asleep earlier)

instance Proper.decide : (calls : List Call) → Decidable (Proper calls)
  | [] => inferInstanceAs (Decidable True)
  | .push _ _ :: earlier =>
    have := Proper.decide earlier
    inferInstanceAs (Decidable (_ ∧ _ ∧ _))
  | .awake _ _ :: earlier =>
    have := Proper.decide earlier
    inferInstanceAs (Decidable (_ ∧ _))

/-- The queue holds the threads of `entries`, and the earliest of their ticks. -/
structure Holds (q : SleepQueue) (entries : List (ThreadId × Nat)) : Prop where
  sleepers : q.sleepers = entries.map Prod.fst
  nextWake : q.nextWake = earliest (entries.map Prod.snd)
  nodup : (entries.map Prod.fst).Nodup
  words : ∀ entry ∈ entries, entry.2 ≤ maxWord

variable {q : SleepQueue} {entries : List (ThreadId × Nat)} {calls : List Call} {t : ThreadId}
  {now tick : Nat} {tickOf : ThreadId → Nat}

/-- A test of the threads by their ticks is a test of the entries. -/
theorem Agrees.filter_map (agrees : Agrees tickOf entries) (test : Nat → Bool) :
    (entries.map Prod.fst).filter (fun t => test (tickOf t)) =
      (entries.filter fun entry => test entry.2).map Prod.fst := by
  rw [List.filter_map]
  refine congrArg (List.map Prod.fst) (List.filter_congr fun entry member => ?_)
  rw [Function.comp_apply, agrees entry member]

theorem Agrees.map_map (agrees : Agrees tickOf entries) :
    (entries.map Prod.fst).map tickOf = entries.map Prod.snd := by
  rw [List.map_map]
  exact List.map_congr_left agrees

theorem Agrees.filter (agrees : Agrees tickOf entries) (test : ThreadId × Nat → Bool) :
    Agrees tickOf (entries.filter test) :=
  fun entry member => agrees entry (List.mem_filter.mp member).1

namespace Holds

theorem fresh : Holds {} [] where
  sleepers := rfl
  nextWake := rfl
  nodup := List.Pairwise.nil
  words _ member := nomatch member

theorem push (holds : q.Holds entries) (absent : t ∉ entries.map Prod.fst)
    (word : tick ≤ maxWord) : (q.push t tick).Holds (entries ++ [(t, tick)]) where
  sleepers := by rw [SleepQueue.push, holds.sleepers, List.map_append, List.map_singleton]
  nextWake := by
    rw [SleepQueue.push, holds.nextWake, List.map_append, List.map_singleton,
      earliest_append_singleton]
  nodup := by
    rw [List.map_append, List.map_singleton, List.perm_append_singleton t _ |>.nodup_iff]
    exact List.nodup_cons.mpr ⟨absent, holds.nodup⟩
  words := List.forall_mem_append.mpr ⟨holds.words, List.forall_mem_singleton.mpr word⟩

/-- Who is due is returned, in the order of the pushes. -/
theorem woken_eq (holds : q.Holds entries) (agrees : Agrees tickOf entries) (now : Nat) :
    (q.wake now tickOf).1 = (entries.filter fun entry => entry.2 ≤ now).map Prod.fst := by
  rw [SleepQueue.wake, holds.sleepers]
  exact agrees.filter_map fun tick => tick ≤ now

theorem wake (holds : q.Holds entries) (agrees : Agrees tickOf entries) (now : Nat) :
    (q.wake now tickOf).2.Holds (entries.filter fun entry => now < entry.2) where
  sleepers := by
    rw [sleepers_wake, holds.sleepers]
    exact agrees.filter_map fun tick => now < tick
  nextWake := by
    rw [nextWake_wake, earliestAfter, holds.sleepers, agrees.filter_map fun tick => now < tick,
      (agrees.filter _).map_map]
  nodup := (List.filter_sublist.map Prod.fst).nodup holds.nodup
  words entry member := holds.words entry (List.mem_filter.mp member).1

/-! ### The earliest tick -/

theorem nextWake_le (holds : q.Holds entries) : ∀ entry ∈ entries, q.nextWake ≤ entry.2 := by
  intro entry member
  have least := le_earliest_iff.mp (Nat.le_of_eq holds.nextWake)
  exact least.2 entry.2 (List.mem_map_of_mem member)

theorem exists_nextWake (holds : q.Holds entries) (some : entries ≠ []) :
    ∃ entry ∈ entries, entry.2 = q.nextWake := by
  rcases earliest_mem (entries.map Prod.snd) with last | among
  · -- then every tick is the largest word
    rcases List.exists_mem_of_ne_nil entries some with ⟨entry, member⟩
    refine ⟨entry, member, Nat.le_antisymm ?_ (holds.nextWake_le entry member)⟩
    rw [holds.nextWake, last]
    exact holds.words entry member
  · rw [← holds.nextWake, List.mem_map] at among
    exact among

/-- Somebody may be due exactly if somebody is, until the last tick of all. -/
theorem isDue_iff (holds : q.Holds entries) (early : now < maxWord) :
    q.isDue now = true ↔ ∃ entry ∈ entries, entry.2 ≤ now := by
  rw [SleepQueue.isDue_iff]
  constructor
  · intro due
    have some : entries ≠ [] := by
      intro none
      rw [holds.nextWake, none] at due
      exact Nat.not_lt_of_le due early
    rcases holds.exists_nextWake some with ⟨entry, member, first⟩
    exact ⟨entry, member, first ▸ due⟩
  · intro ⟨entry, member, due⟩
    exact Nat.le_trans (holds.nextWake_le entry member) due

/-- A pass at which nobody may be due returns nobody and changes nothing. -/
theorem wake_of_not_isDue (holds : q.Holds entries) (agrees : Agrees tickOf entries)
    (idle : q.isDue now = false) : q.wake now tickOf = ([], q) := by
  have ahead : now < q.nextWake := by
    rw [← Nat.not_le, ← SleepQueue.isDue_iff, idle]
    exact Bool.false_ne_true
  apply wake_of_undue
  · intro t sleeps
    rw [holds.sleepers, List.mem_map] at sleeps
    rcases sleeps with ⟨entry, member, rfl⟩
    rw [agrees entry member]
    exact Nat.lt_of_lt_of_le ahead (holds.nextWake_le entry member)
  · rw [holds.sleepers, agrees.map_map, holds.nextWake]

/-- The pass is left out exactly if it would return nobody, until the last tick of all. -/
theorem isDue_iff_woken (holds : q.Holds entries) (agrees : Agrees tickOf entries)
    (early : now < maxWord) : q.isDue now = true ↔ (q.wake now tickOf).1 ≠ [] := by
  rw [holds.isDue_iff early, holds.woken_eq agrees, ne_eq, List.map_eq_nil_iff,
    List.filter_eq_nil_iff]
  simp

end Holds

/-! ## Runs -/

theorem holds_run (proper : Proper calls) : (run serve calls).2.Holds (asleep calls) := by
  induction calls with
  | nil => exact Holds.fresh
  | cons call earlier ih =>
    cases call with
    | push t tick =>
      rcases proper with ⟨proper, absent, word⟩
      exact (ih proper).push absent word
    | awake now tickOf =>
      rcases proper with ⟨proper, agrees⟩
      exact (ih proper).wake agrees now

/-- Each push is returned once, or its thread is still queued. -/
theorem run_perm (calls : List Call) :
    ((run serve calls).1 ++ (run serve calls).2.sleepers).Perm ((pushes calls).map Prod.fst) := by
  induction calls with
  | nil => exact .refl _
  | cons call earlier ih =>
    cases call with
    | push t tick =>
      rw [pushes, List.map_append, List.map_singleton]
      simp only [run, serve, push, List.append_nil]
      rw [← List.append_assoc]
      exact ih.append_right [t]
    | awake now tickOf =>
      simp only [run, serve]
      rw [List.append_assoc]
      exact ((wake_perm _ now tickOf).append_left _).trans ih

theorem run_serveDue (proper : Proper calls) : run serveDue calls = run serve calls := by
  induction calls with
  | nil => rfl
  | cons call earlier ih =>
    cases call with
    | push t tick => rw [run, run, ih proper.1]; rfl
    | awake now tickOf =>
      rcases proper with ⟨proper, agrees⟩
      rw [run, run, ih proper]
      simp only [serveDue, serve]
      split
      · rfl
      · next idle =>
        rw [(holds_run proper).wake_of_not_isDue agrees (Bool.not_eq_true _ ▸ idle)]

/-- Whatever was asked of a new queue, it holds who is asleep, each thread once, and the earliest
of their ticks, and every push was returned once unless its thread is still queued.  A pass returns
who is due and keeps the others, both in the order of the pushes.  The passes at which nobody may
be due can be left out: below the last tick of all they are just those that return nobody, and
without them the run returns the same and comes to the same queue. -/
theorem sleep_queue_exact {woken : List ThreadId} (proper : Proper calls)
    (ran : run serve calls = (woken, q)) :
    (q.sleepers = (asleep calls).map Prod.fst ∧ q.sleepers.Nodup) ∧
    ((asleep calls = [] → q.nextWake = maxWord) ∧
      (asleep calls ≠ [] → ∃ entry ∈ asleep calls, entry.2 = q.nextWake) ∧
      ∀ entry ∈ asleep calls, q.nextWake ≤ entry.2) ∧
    (woken ++ q.sleepers).Perm ((pushes calls).map Prod.fst) ∧
    (∀ now tickOf, Agrees tickOf (asleep calls) →
      (q.wake now tickOf).1 = ((asleep calls).filter fun entry => entry.2 ≤ now).map Prod.fst ∧
      (q.wake now tickOf).2.sleepers =
        ((asleep calls).filter fun entry => now < entry.2).map Prod.fst ∧
      (now < maxWord → (q.isDue now = true ↔ (q.wake now tickOf).1 ≠ []))) ∧
    run serveDue calls = (woken, q) := by
  have holds := holds_run proper
  have perm := run_perm calls
  rw [ran] at holds perm
  refine ⟨⟨holds.sleepers, ?_⟩, ⟨?_, holds.exists_nextWake, holds.nextWake_le⟩, perm, ?_, ?_⟩
  · rw [holds.sleepers]
    exact holds.nodup
  · intro none
    rw [holds.nextWake, none]
    rfl
  · intro now tickOf agrees
    exact ⟨holds.woken_eq agrees now, (holds.wake agrees now).sleepers,
      holds.isDue_iff_woken agrees⟩
  · rw [run_serveDue proper, ran]

/-- Threads 2, 3 and 4 wait for ticks 50, 30 and 70.  A pass at 30 returns thread 3, which goes to
sleep until 60; a pass at 40 may be left out; and a pass at 60 would return threads 2 and 3. -/
theorem sleep_queue_exact_of_three :
    let first : ThreadId → Nat := fun t => if t.index = 2 then 50 else if t.index = 3 then 30 else 70
    let second : ThreadId → Nat := fun t => if t.index = 3 then 60 else first t
    let calls := [.awake 40 second, .push ⟨3⟩ 60, .awake 30 first, .push ⟨4⟩ 70, .push ⟨3⟩ 30,
      .push ⟨2⟩ 50]
    ∃ q, run serve calls = ([⟨3⟩], q) ∧ Proper calls ∧ q.sleepers = [⟨2⟩, ⟨4⟩, ⟨3⟩] ∧
      q.nextWake = 50 ∧ q.isDue 40 = false ∧ (q.wake 60 second).1 = [⟨2⟩, ⟨3⟩] ∧
      run serveDue calls = ([⟨3⟩], q) := by
  intro first second calls
  have proper : Proper calls := by decide
  refine ⟨_, rfl, proper, ?_⟩
  rcases sleep_queue_exact proper rfl with ⟨⟨sleepers, _⟩, _, _, passes, same⟩
  exact ⟨sleepers, rfl, rfl, (passes 60 second (by decide)).1, same⟩

end ThreadKernel.SleepQueue
