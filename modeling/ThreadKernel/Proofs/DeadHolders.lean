import ThreadKernel.Proofs.Dispatching

/-!
# Locks whose holder has exited

A thread may exit with a lock in hand, and the lock then stays held.  As long as the record of
such a holder is in the table the lock is like any other held lock: whoever asks for it is
suspended.  The record is reclaimed by the next dispatch, and from then on asking faults, for
the caller is to become a donor of a thread that is gone.
-/

namespace ThreadKernel

open Kernel

variable {d : Discipline} {k k' : Kernel} {h : ThreadId} {l : LockId} {lock : Lock}

/-! ## The checks in front -/

theorem run_requireThreadContext (operation : Operation) (outside : k.inInterrupt = false) :
    (requireThreadContext operation).run k = .ok ((), k) := by
  rw [requireThreadContext, run_get_bind, run_require_eq_ok_iff]
  exact ⟨by simp [outside], rfl⟩

theorem LockId.run_requireNotHeld (operation : Operation) (found : k.locks.get? l = some lock)
    (other : lock.holder ≠ some k.current) :
    (l.requireNotHeld operation).run k = .ok ((), k) := by
  have looked : l.isHeldByCaller.run k = .ok (false, k) := by
    rw [run_isHeldByCaller_eq_ok_iff]
    exact ⟨lock, found, by rw [decide_eq_false other]⟩
  rw [requireNotHeld, run_bind_of_ok looked, run_caller_bind, run_require_eq_ok_iff]
  exact ⟨Bool.false_ne_true, rfl⟩

theorem LockId.run_requireHeld (operation : Operation) (found : k.locks.get? l = some lock)
    (holds : lock.holder = some k.current) : (l.requireHeld operation).run k = .ok ((), k) := by
  have looked : l.isHeldByCaller.run k = .ok (true, k) := by
    rw [run_isHeldByCaller_eq_ok_iff]
    exact ⟨lock, found, by rw [decide_eq_true holds]⟩
  rw [requireHeld, run_bind_of_ok looked, run_caller_bind, run_require_eq_ok_iff]
  exact ⟨rfl, rfl⟩

/-- What is left of an `acquire` once it is known to be in order. -/
theorem LockId.run_acquire (outside : k.inInterrupt = false) (found : k.locks.get? l = some lock)
    (other : lock.holder ≠ some k.current) :
    l.acquire.run k = (masked (do
      if ← l.attempt then
        pure .completed
      else
        schedule
        pure .suspended : KernelM Wait)).run k := by
  rw [acquire, run_bind_of_ok (run_requireThreadContext .acquire outside),
    run_bind_of_ok (run_requireNotHeld .acquire found other)]

/-! ## Asking for the lock -/

/-- Once the holder's record is reclaimed there is nobody to donate to. -/
theorem LockId.run_attempt_of_missing (present : k.Present k.current)
    (found : k.locks.get? l = some lock) (holds : lock.holder = some h)
    (gone : k.threads.get? h = none) : l.attempt.run k = .error (.missing .thread h.index) := by
  have absent : (k.mapThread k.current fun old => { old with waitingOn := some l }).threads.get? h =
      none := by
    rw [mapThread_threads, Arena.get?_modify, gone]
    split <;> rfl
  unfold attempt
  rw [run_caller_bind, run_bind_of_ok (run_findLock_eq_ok_iff.mpr ⟨found, rfl⟩)]
  simp only [holds]
  rw [run_bind_of_ok (run_modifyThread_eq_ok_iff.mpr ⟨present, rfl⟩)]
  apply run_bind_of_error
  exact run_bind_of_error (run_findThread_of_missing absent)

/-- A lock that is held has no unit to give. -/
theorem LockId.fails_of_run_attempt {success : Bool} (graph : WaitGraph ⟨k, none⟩)
    (held : k.holder? l = some h) (ran : l.attempt.run k = .ok (success, k')) :
    success = false := by
  rcases Option.bind_eq_some_iff.mp held with ⟨lock, found, holds⟩
  rcases graph.unit l lock found with ⟨unit, foundUnit, _, value⟩
  rcases of_run_attempt ran with ⟨_, asking, _, found', asks, tries, _⟩
  cases found.symm.trans found'
  rcases SemaphoreId.of_run_attempt tries with ⟨unit', foundUnit', ⟨_, positive, _⟩ | ⟨rfl, _⟩⟩
  · rw [asks.retouched.semaphores] at foundUnit'
    cases foundUnit.symm.trans foundUnit'
    simp [value, holds] at positive
  · rfl

/-- While the holder is in the table the caller is queued, and the processor goes to a
thread that can run. -/
theorem LockId.suspends_of_present (reachable : Reachable d k) (named : d.plainHandles = true)
    (spares : d.sparesIdle) (idle : ∃ t, k.idle = some t) (busy : k.idles = false)
    (outside : k.inInterrupt = false) (held : k.holder? l = some h) (other : h ≠ k.current)
    (present : k.Present h)
    (outlasts : ∀ t ∈ k.ready.threads, ∀ p, k.pending? t = some p → k.Outlasts p) :
    ∃ k', l.acquire.run k = .ok (.suspended, k') := by
  have steady := reachable.steady.masked
  have regular := steady.regular
  have tended : (⟨k.atLevel .off, none⟩ : Machine).ledger.Tended := reachable.tended named
  rcases Option.bind_eq_some_iff.mp held with ⟨lock, found, holds⟩
  have grounded := regular.grounded named steady.runs.present
  have attempts : Succeeds l.attempt (k.atLevel .off) := by
    apply LockId.succeeds_attempt grounded
    · exact found
    · intro h' holds'
      cases holds.symm.trans holds'
      exact present
  rcases attempts with ⟨⟨success, tried⟩, ran⟩
  have fails := fails_of_run_attempt (regular.graph named) held ran
  subst fails
  have waits : d.sparesIdle → k.idle ≠ some k.current := by
    intro _ idles
    rw [idles_iff.mpr idles] at busy
    cases busy
  have tries : Tries d (some (.acquire l)) none (k.atLevel .off) false tried :=
    tries_of_run_attemptLock regular steady.runs (.direct waits) ran
  have schedules : Succeeds schedule tried := by
    apply succeeds_schedule_of_tries regular named spares tended steady.runs rfl idle _ tries
      (vain_of_run_attemptLock ran)
    intro t queued p pending
    have lasts := outlasts t queued p pending
    exact ⟨⟨lasts.feasible.semaphore, lasts.feasible.lock⟩, lasts.holder⟩
  rcases schedules with ⟨⟨_, k'⟩, scheduled⟩
  rw [run_acquire outside found (by rw [holds]; exact fun same => other (Option.some.inj same))]
  refine ⟨_, run_masked_eq_ok_iff.mpr ⟨k', ?_, rfl⟩⟩
  rw [run_bind_of_ok ran]
  exact run_bind_eq_ok_iff.mpr ⟨_, k', scheduled, rfl⟩

/-- What asking for the lock of an exited thread comes to: the caller is suspended if the
holder's record is still in the table, provided that no ready thread has something to finish
that cannot be tried, and otherwise the operation faults. -/
theorem acquire_of_dead_holder (reachable : Reachable d k) (named : d.plainHandles = true)
    (outside : k.inInterrupt = false) (held : k.holder? l = some h)
    (exited : ∀ thread, k.threads.get? h = some thread → thread.state = .dying) :
    (k.threads.get? h = none → l.acquire.run k = .error (.missing .thread h.index)) ∧
    (k.Present h → d.sparesIdle → (∃ t, k.idle = some t) → k.idles = false →
      (∀ t ∈ k.ready.threads, ∀ p, k.pending? t = some p → k.Outlasts p) →
      ∃ k', l.acquire.run k = .ok (.suspended, k')) := by
  have runs := reachable.steady.runs
  have other : h ≠ k.current := by
    rintro rfl
    rcases runs with ⟨thread, found, running, _⟩
    cases (exited thread found).symm.trans running
  constructor
  · intro gone
    rcases Option.bind_eq_some_iff.mp held with ⟨lock, found, holds⟩
    rw [LockId.run_acquire outside found (by rw [holds]; exact fun same => other (Option.some.inj same))]
    have faults : l.attempt.run (k.atLevel .off) = .error (.missing .thread h.index) := by
      apply LockId.run_attempt_of_missing reachable.steady.masked.runs.present
      · exact found
      · exact holds
      · exact gone
    rw [masked, run_setLevel_bind]
    exact run_bind_of_error (run_bind_of_error faults)
  · intro present spares idle busy outlasts
    exact LockId.suspends_of_present reachable named spares idle busy outside held other present
      outlasts

/-- A thread of priority 40 takes a lock and exits.  As long as its record is there the initial
thread is suspended by asking for the lock, and after a yield that faults. -/
theorem acquire_of_dead_holder_of_yield : ∃ k k',
    Reachable { plainHandles := true, idleNeverWaits := true, idleSpared := true } k ∧
    (Discipline.performAll { plainHandles := true, idleNeverWaits := true, idleSpared := true }
      [.yield] k = some k') ∧
    (k.holder? ⟨0⟩, k'.holder? ⟨0⟩) = (some ⟨3⟩, some ⟨3⟩) ∧
    (∃ waiting, (LockId.acquire ⟨0⟩).run k = .ok (.suspended, waiting)) ∧
    (LockId.acquire ⟨0⟩).run k' = .error (.missing .thread 3) := by
  have ran : ((Discipline.performAll
      { plainHandles := true, idleNeverWaits := true, idleSpared := true }
      [.start, .createLock, .spawn { name := "holder", priority := 40 }, .acquire ⟨0⟩, .exit]
      (.fresh {} .stable)).bind fun k => (Discipline.performAll
        { plainHandles := true, idleNeverWaits := true, idleSpared := true } [.yield] k).map fun k' =>
          decide (k.idle = some ⟨2⟩ ∧ k.idles = false ∧ k.inInterrupt = false ∧
            k.ready.threads = [] ∧ k.holder? ⟨0⟩ = some ⟨3⟩ ∧
            (k.threads.get? ⟨3⟩).map (·.state) = some .dying ∧ k'.inInterrupt = false ∧
            k'.holder? ⟨0⟩ = some ⟨3⟩ ∧ k'.threads.get? ⟨3⟩ = none)) = some true := by
    decide +kernel
  rcases Option.bind_eq_some_iff.mp ran with ⟨k, performed, rest⟩
  rcases Option.map_eq_some_iff.mp rest with ⟨k', yields, told⟩
  rcases of_decide_eq_true told with
    ⟨idle, busy, outside, empty, held, state, outside', held', gone⟩
  have reachable := (Reachable.fresh {} .stable).performAll performed
  rcases Option.map_eq_some_iff.mp state with ⟨holder, found, dying⟩
  refine ⟨k, k', reachable, yields, by rw [held, held'], ?_, ?_⟩
  · apply (acquire_of_dead_holder reachable rfl outside held _).2 ⟨holder, found⟩ ⟨rfl, rfl⟩
      ⟨_, idle⟩ busy
    · rw [empty]
      exact fun t queued => absurd queued List.not_mem_nil
    · intro thread found'
      cases found.symm.trans found'
      exact dying
  · apply (acquire_of_dead_holder (reachable.performAll yields) rfl outside' held' _).1 gone
    rw [gone]
    exact fun _ no => by cases no

/-- The same run, which ends in a fault although the lock's holder has only exited. -/
theorem acquire_faults_of_reclaimed : ∃ k,
    Reachable { plainHandles := true, idleNeverWaits := true, idleSpared := true } k ∧
    (k.idle, k.idles, k.inInterrupt) = (some ⟨2⟩, false, false) ∧
    k.holder? ⟨0⟩ = some ⟨3⟩ ∧ .exiting ⟨3⟩ "holder" ∈ k.events ∧
    (LockId.acquire ⟨0⟩).run k = .error (.missing .thread 3) := by
  have ran : ((Discipline.performAll
      { plainHandles := true, idleNeverWaits := true, idleSpared := true }
      [.start, .createLock, .spawn { name := "holder", priority := 40 }, .acquire ⟨0⟩, .exit, .yield]
      (.fresh {} .stable)).map fun k =>
        decide ((k.idle, k.idles, k.inInterrupt) = (some ⟨2⟩, false, false) ∧
          k.holder? ⟨0⟩ = some ⟨3⟩ ∧ .exiting ⟨3⟩ "holder" ∈ k.events ∧
          (LockId.acquire ⟨0⟩).run k = .error (.missing .thread 3))) = some true := by
    decide +kernel
  rcases Option.map_eq_some_iff.mp ran with ⟨k, performed, told⟩
  rcases of_decide_eq_true told with ⟨started, held, exits, faults⟩
  exact ⟨k, (Reachable.fresh {} .stable).performAll performed, started, held, exits, faults⟩

end ThreadKernel
