import ThreadKernel.Proofs.Handover

/-!
# Trying and waiting

What a semaphore or a lock has to give can be asked for in two ways.  A try answers at once, and a
wait suspends the caller if there is nothing to be had.  For a semaphore both look at its value.
For a lock a try looks at the unit of its semaphore alone, and a wait at the holder first: that
these say the same, also of a free lock that others still queue for, is a fact about all kernels
that can be reached (`WaitGraph.unit`).
-/

namespace ThreadKernel

open Kernel

variable {d : Discipline} {k k' : Kernel} {s : SemaphoreId} {semaphore : Semaphore} {l : LockId}
  {lock : Lock}

/-- A try and a wait for the same thing agree: either gets it exactly if it is free, and they then
leave the same kernel.  A try that does not get it leaves the kernel as it was. -/
structure Kernel.Agree (k : Kernel) (tries : KernelM Bool) (waits : KernelM Wait) (free : Prop) :
    Prop where
  taken_iff : (∃ k', tries.run k = .ok (true, k')) ↔ free
  completed_iff : (∃ k', waits.run k = .ok (.completed, k')) ↔ free
  same : ∀ k', tries.run k = .ok (true, k') ↔ waits.run k = .ok (.completed, k')
  refused_iff : ∀ k', tries.run k = .ok (false, k') ↔ ¬ free ∧ k' = k

theorem Kernel.Agree.of_same {tries : KernelM Bool} {waits : KernelM Wait} {free : Prop}
    (takes : free → ∃ k', tries.run k = .ok (true, k'))
    (refuses : ¬ free → tries.run k = .ok (false, k))
    (same : ∀ k', tries.run k = .ok (true, k') ↔ waits.run k = .ok (.completed, k')) :
    k.Agree tries waits free := by
  have taken_iff : (∃ k', tries.run k = .ok (true, k')) ↔ free := by
    refine ⟨?_, takes⟩
    rintro ⟨k', ran⟩
    by_contra occupied
    cases (refuses occupied).symm.trans ran
  refine ⟨taken_iff, (exists_congr same).symm.trans taken_iff, same, fun k' => ⟨?_, ?_⟩⟩
  · intro ran
    have occupied : ¬ free := by
      intro free
      rcases takes free with ⟨_, ran'⟩
      cases ran.symm.trans ran'
    cases (refuses occupied).symm.trans ran
    exact ⟨occupied, rfl⟩
  · rintro ⟨occupied, rfl⟩
    exact refuses occupied

/-- Whoever waits if an attempt fails is done at once exactly if it succeeds. -/
theorem run_masked_wait_eq_completed_iff {attempt : KernelM Bool} :
    (masked (do
      if ← attempt then
        pure .completed
      else
        schedule
        pure .suspended : KernelM Wait)).run k = .ok (.completed, k') ↔
      (masked attempt).run k = .ok (true, k') := by
  rw [run_masked_eq_ok_iff, run_masked_eq_ok_iff]
  apply exists_congr
  intro last
  refine and_congr_left' ?_
  rw [run_bind_eq_ok_iff]
  constructor
  · rintro ⟨success, middle, ran, rest⟩
    cases success with
    | true =>
      cases rest
      exact ran
    | false =>
      rcases run_bind_eq_ok_iff.mp rest with ⟨_, _, _, suspends⟩
      cases suspends
  · intro ran
    exact ⟨true, last, ran, rfl⟩

/-! ## Semaphores -/

namespace SemaphoreId

/-- An attempt succeeds by taking a unit. -/
theorem run_attempt_eq_true_iff {retry : Pending} :
    (s.attempt retry).run k = .ok (true, k') ↔ s.take.run k = .ok (true, k') := by
  constructor
  · intro ran
    rcases run_bind_eq_ok_iff.mp ran with ⟨success, middle, took, rest⟩
    cases success with
    | true =>
      cases rest
      exact took
    | false =>
      rcases of_run_attempt_true ran with ⟨semaphore, found, positive, _⟩
      rcases of_run_take took with ⟨_, found', ⟨no, _⟩ | ⟨_, empty, _⟩⟩
      · cases no
      · cases found.symm.trans found'
        exact absurd empty (Nat.pos_iff_ne_zero.mp positive)
  · intro took
    rw [attempt, run_bind_of_ok took]
    rfl

theorem run_take_of_empty (found : k.semaphores.get? s = some semaphore)
    (empty : semaphore.value = 0) : s.take.run k = .ok (false, k) := by
  rw [take, run_bind_of_ok (run_findSemaphore_eq_ok_iff.mpr ⟨found, rfl⟩), empty]
  rfl

theorem run_take_of_pos (found : k.semaphores.get? s = some semaphore)
    (positive : 0 < semaphore.value) : s.take.run k = .ok (true, s.taken k) := by
  rcases succeeds_take found with ⟨⟨success, k'⟩, ran⟩
  rcases of_run_take (id ran) with ⟨_, found', ⟨rfl, _, rfl⟩ | ⟨_, empty, _⟩⟩
  · exact ran
  · cases found.symm.trans found'
    exact absurd empty (Nat.pos_iff_ne_zero.mp positive)

/-- Where interrupts are masked already a try is no more than to take a unit. -/
theorem run_tryDown_of_masked (masked : k.processor.level = .off) :
    s.tryDown.run k = s.take.run k := by
  have level : k.atLevel .off = k := by rw [← masked]; rfl
  rw [tryDown, run_masked, level, masked]
  cases ran : s.take.run k with
  | error fault => rfl
  | ok r =>
    rcases r with ⟨success, after⟩
    have still : after.atLevel .off = after := by
      rcases of_run_take ran with ⟨_, _, ⟨_, _, rfl⟩ | ⟨_, _, rfl⟩⟩
      · exact congrArg s.taken level
      · exact level
    rw [Except.map, still]

theorem agree (outside : k.inInterrupt = false) (found : k.semaphores.get? s = some semaphore) :
    k.Agree s.tryDown s.down (0 < semaphore.value) := by
  apply Agree.of_same
  · intro positive
    exact ⟨_, run_masked_eq_ok_iff.mpr ⟨_, run_take_of_pos found positive, rfl⟩⟩
  · intro occupied
    have empty := Nat.eq_zero_of_not_pos occupied
    exact run_masked_eq_ok_iff.mpr ⟨_, run_take_of_empty (k := k.atLevel .off) found empty, rfl⟩
  · intro k'
    rw [down, run_bind_of_ok (run_requireThreadContext .down outside),
      run_masked_wait_eq_completed_iff, tryDown, run_masked_eq_ok_iff, run_masked_eq_ok_iff]
    exact exists_congr fun last => and_congr_left' run_attempt_eq_true_iff.symm

end SemaphoreId

/-! ## Locks -/

namespace LockId

/-- Take a lock by its unit, without a look at its holder. -/
def takeUnit (l : LockId) (unit : SemaphoreId) : KernelM Bool := do
  if ← unit.take then
    l.hold
    pure true
  else
    pure false

/-- What is left of a try once it is known that the caller does not hold the lock. -/
theorem run_tryAcquire (found : k.locks.get? l = some lock) (other : lock.holder ≠ some k.current) :
    l.tryAcquire.run k = (masked (l.takeUnit lock.semaphore)).run k := by
  have finds : (findLock l).run (k.atLevel .off) = .ok (lock, k.atLevel .off) :=
    run_findLock_eq_ok_iff.mpr ⟨found, rfl⟩
  have tries : lock.semaphore.tryDown.run (k.atLevel .off) =
    lock.semaphore.take.run (k.atLevel .off) := SemaphoreId.run_tryDown_of_masked rfl
  rw [tryAcquire, run_bind_of_ok (run_requireNotHeld .tryAcquire found other), run_masked,
    run_masked, run_bind_of_ok finds, takeUnit, StateT.run_bind, StateT.run_bind, tries]

/-- A lock that nobody holds is taken by its unit. -/
theorem run_attempt_eq_true_iff (found : k.locks.get? l = some lock) (free : lock.holder = none) :
    l.attempt.run k = .ok (true, k') ↔
      (l.takeUnit lock.semaphore).run k = .ok (true, k') := by
  unfold attempt takeUnit
  rw [run_caller_bind, run_bind_of_ok (run_findLock_eq_ok_iff.mpr ⟨found, rfl⟩)]
  simp only [free]
  rw [run_bind_eq_ok_iff, run_bind_eq_ok_iff]
  refine exists_congr fun success => exists_congr fun middle => ?_
  cases success with
  | true => exact and_congr_left' SemaphoreId.run_attempt_eq_true_iff
  | false =>
    constructor
    · rintro ⟨_, no⟩
      cases no
    · rintro ⟨_, no⟩
      cases no

/-- A lock that somebody holds has no unit to be taken. -/
theorem run_takeUnit_of_held (graph : WaitGraph ⟨k, none⟩) (found : k.locks.get? l = some lock)
    (held : lock.holder ≠ none) : (l.takeUnit lock.semaphore).run k = .ok (false, k) := by
  rcases graph.unit l lock found with ⟨unit, foundUnit, _, value⟩
  rw [if_pos (Option.isSome_iff_ne_none.mpr held)] at value
  rw [takeUnit, run_bind_of_ok (SemaphoreId.run_take_of_empty foundUnit value)]
  rfl

theorem agree (regular : Regular d ⟨k.atLevel .off, none⟩) (named : d.plainHandles = true)
    (runs : (k.atLevel .off).Runs) (outside : k.inInterrupt = false)
    (found : k.locks.get? l = some lock) (other : lock.holder ≠ some k.current) :
    k.Agree l.tryAcquire l.acquire (lock.holder = none) := by
  have tries := run_tryAcquire found other
  have waits : ∀ k', l.acquire.run k = .ok (.completed, k') ↔
      (masked l.attempt).run k = .ok (true, k') := by
    intro k'
    rw [run_acquire outside found other]
    exact run_masked_wait_eq_completed_iff
  apply Agree.of_same
  · intro free
    rcases run_attempt_of_free regular named runs found free with ⟨last, takes, _⟩
    refine ⟨_, tries.trans (run_masked_eq_ok_iff.mpr ⟨last, ?_, rfl⟩)⟩
    exact (run_attempt_eq_true_iff (k := k.atLevel .off) found free).mp takes
  · intro held
    refine tries.trans (run_masked_eq_ok_iff.mpr ⟨k.atLevel .off, ?_, rfl⟩)
    exact run_takeUnit_of_held (regular.graph named) found held
  · intro k'
    rw [tries, waits, run_masked_eq_ok_iff, run_masked_eq_ok_iff]
    refine exists_congr fun last => and_congr_left' ?_
    by_cases free : lock.holder = none
    · exact (run_attempt_eq_true_iff (k := k.atLevel .off) found free).symm
    · have refuses := run_takeUnit_of_held (regular.graph named) found free
      rcases Option.ne_none_iff_exists'.mp free with ⟨h, holds⟩
      have held : (k.atLevel .off).holder? l = some h := (holder?_of_get? found).trans holds
      constructor
      · intro takes
        cases refuses.symm.trans takes
      · intro ran
        cases fails_of_run_attempt (regular.graph named) held ran

end LockId

/-- Trying and waiting for a semaphore agree, and so do trying and waiting for a lock that the
caller does not hold. -/
theorem tries_agree_with_waits (reachable : Reachable d k) (named : d.plainHandles = true)
    (outside : k.inInterrupt = false) :
    (∀ (s : SemaphoreId) semaphore, k.semaphores.get? s = some semaphore →
      k.Agree s.tryDown s.down (0 < semaphore.value)) ∧
    ∀ (l : LockId) lock, k.locks.get? l = some lock → lock.holder ≠ some k.current →
      k.Agree l.tryAcquire l.acquire (lock.holder = none) := by
  have steady := reachable.steady.masked
  exact ⟨fun s semaphore found => SemaphoreId.agree outside found, fun l lock found other =>
    LockId.agree steady.regular named steady.runs outside found other⟩

/-- The initial thread has given up one lock, for which thread 4 still queues, and another one is
held by thread 3.  One semaphore has a unit, and another one has none. -/
theorem tries_agree_with_waits_of_queue : ∃ k, Reachable { plainHandles := true } k ∧
    k.queueAt (.semaphore ⟨0⟩) = [⟨4⟩] ∧
    (∃ k', (LockId.tryAcquire ⟨0⟩).run k = .ok (true, k') ∧
      (LockId.acquire ⟨0⟩).run k = .ok (.completed, k')) ∧
    (LockId.tryAcquire ⟨1⟩).run k = .ok (false, k) ∧
    (∀ k', (LockId.acquire ⟨1⟩).run k ≠ .ok (.completed, k')) ∧
    (∃ k', (SemaphoreId.tryDown ⟨2⟩).run k = .ok (true, k') ∧
      (SemaphoreId.down ⟨2⟩).run k = .ok (.completed, k')) ∧
    (SemaphoreId.tryDown ⟨3⟩).run k = .ok (false, k) ∧
    ∀ k', (SemaphoreId.down ⟨3⟩).run k ≠ .ok (.completed, k') := by
  have ran : (Discipline.performAll { plainHandles := true }
      [.start, .createLock, .createLock, .createSemaphore 1, .createSemaphore 0, .acquire ⟨0⟩,
        .spawn { priority := 31 }, .yield, .acquire ⟨1⟩, .acquire ⟨0⟩,
        .spawn { priority := 31 }, .yield, .acquire ⟨0⟩, .release ⟨0⟩]
      (.fresh {} .stable)).bind (fun k => (k.locks.get? ⟨0⟩).bind fun free =>
        (k.locks.get? ⟨1⟩).bind fun held => (k.semaphores.get? ⟨2⟩).bind fun full =>
          (k.semaphores.get? ⟨3⟩).map fun empty =>
            decide (k.inInterrupt = false ∧ k.queueAt (.semaphore ⟨0⟩) = [⟨4⟩] ∧
              free.holder = none ∧ held.holder = some ⟨3⟩ ∧ k.current = .main ∧
              0 < full.value ∧ ¬ 0 < empty.value)) = some true := by decide +kernel
  rcases Option.bind_eq_some_iff.mp ran with ⟨k, performed, rest⟩
  rcases Option.bind_eq_some_iff.mp rest with ⟨free, foundFree, rest⟩
  rcases Option.bind_eq_some_iff.mp rest with ⟨held, foundHeld, rest⟩
  rcases Option.bind_eq_some_iff.mp rest with ⟨full, foundFull, rest⟩
  rcases Option.map_eq_some_iff.mp rest with ⟨empty, foundEmpty, told⟩
  rcases of_decide_eq_true told with
    ⟨outside, queue, unheld, holder, current, positive, occupied⟩
  have reachable := (Reachable.fresh {} .stable).performAll performed
  rcases tries_agree_with_waits reachable rfl outside with ⟨semaphores, locks⟩
  have untaken := locks ⟨0⟩ free foundFree (by rw [unheld]; exact nofun)
  have taken := locks ⟨1⟩ held foundHeld (by rw [holder, current]; decide)
  have filled := semaphores ⟨2⟩ full foundFull
  have emptied := semaphores ⟨3⟩ empty foundEmpty
  have kept : ¬ held.holder = none := by rw [holder]; exact nofun
  rcases untaken.taken_iff.mpr unheld with ⟨owning, owns⟩
  rcases filled.taken_iff.mpr positive with ⟨lowered, lowers⟩
  exact ⟨k, reachable, queue, ⟨owning, owns, (untaken.same owning).mp owns⟩,
    (taken.refused_iff k).mpr ⟨kept, rfl⟩,
    fun k' ran => kept (taken.completed_iff.mp ⟨k', ran⟩),
    ⟨lowered, lowers, (filled.same lowered).mp lowers⟩,
    (emptied.refused_iff k).mpr ⟨occupied, rfl⟩,
    fun k' ran => occupied (emptied.completed_iff.mp ⟨k', ran⟩)⟩

end ThreadKernel
