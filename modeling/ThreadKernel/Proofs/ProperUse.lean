import ThreadKernel.Proofs.Availability

/-!
# Proper use

`Request.Proper` is what an operation requires of whoever asks for it.  What is asked of a
started kernel properly is done: none of the kernel's checks fails, neither in the operation
itself nor in what other threads finish when they are switched to on the way.
-/

namespace ThreadKernel

open Kernel

variable {k k' : Kernel} {r : Request} {o : Occurrence}

/-- Semaphore operations keep to the semaphores made for callers, the idle thread neither waits
nor is unblocked, and nothing is taken away that is still needed. -/
def Discipline.proper : Discipline where
  plainHandles := true
  idleNeverWaits := true
  idleSpared := true
  careful := true

theorem Discipline.strict_proper : Discipline.proper.Strict := ⟨rfl, ⟨rfl, rfl⟩, rfl⟩

/-! ## What the operations require -/

/-- What an operation requires of the kernel it is asked of. -/
def Request.Proper (k : Kernel) : Request → Prop
  | .spawn blueprint => blueprint.priority.Valid
  | .setPriority priority => priority.Valid
  | .yield => k.inInterrupt = false
  | .block => k.inInterrupt = false ∧ k.processor.level = .off
  | .exit => k.inInterrupt = false ∧ k.idles = false ∧ k.heldBy k.current = []
  | .sleepUntil _ | .sleep _ | .sleepFor _ => k.inInterrupt = false ∧ k.idles = false
  | .unblock t => k.isIdle t = false ∧
      ∃ thread ∈ k.threads.get? t, thread.state = .blocked ∧ thread.place = .detached
  | .timer count => (0 < count → k.inInterrupt = false ∧ k.processor.level = .on) ∧
      k.clock.ticks + count ≤ maxWord
  | .tryDown s | .semaphoreValue s | .semaphoreWaiters s =>
      ∃ semaphore ∈ k.semaphores.get? s, semaphore.purpose = .plain
  | .down s => (k.inInterrupt = false ∧ k.idles = false) ∧
      ∃ semaphore ∈ k.semaphores.get? s, semaphore.purpose = .plain
  | .up s => ∃ semaphore ∈ k.semaphores.get? s,
      semaphore.purpose = .plain ∧ semaphore.value < maxHalfWord
  | .destroySemaphore s => (∃ semaphore ∈ k.semaphores.get? s,
        semaphore.purpose = .plain ∧ semaphore.waiters = []) ∧
      ∀ entry ∈ k.threads.entries, entry.2.pending ≠ some (.unit s)
  | .tryAcquire l => ∃ lock ∈ k.locks.get? l, lock.holder ≠ some k.current
  | .acquire l => (k.inInterrupt = false ∧ k.idles = false) ∧
      ∃ lock ∈ k.locks.get? l, lock.holder ≠ some k.current
  | .release l => ∃ lock ∈ k.locks.get? l, lock.holder = some k.current
  | .lockHolder l | .lockHeldByCaller l | .lockWaiters l => k.locks.contains l = true
  | .destroyLock l => (∃ lock ∈ k.locks.get? l, lock.holder = none ∧
        ∃ unit ∈ k.semaphores.get? lock.semaphore, unit.waiters = []) ∧
      ∀ entry ∈ k.threads.entries, ∀ p ∈ entry.2.pending, p.lock? ≠ some l
  | .wait c l => (k.inInterrupt = false ∧ k.idles = false) ∧
      (∃ lock ∈ k.locks.get? l, lock.holder = some k.current) ∧
      k.conditions.contains c = true
  | .signal c l | .broadcast c l => k.inInterrupt = false ∧
      (∃ lock ∈ k.locks.get? l, lock.holder = some k.current) ∧
      k.conditions.contains c = true
  | .destroyCondition c => ∃ condition ∈ k.conditions.get? c, condition.waiters = []
  | .conditionWaiters c => k.conditions.contains c = true
  | .start | .preempt | .observe _ | .setLevel _ | .elapsed _ | .reportUsage | .createSemaphore _
  | .createLock | .createCondition | .summary | .profile _ | .setNiceness _ => True

/-- An interrupt is delivered unmasked and outside of a handler, and only a handler returns. -/
def Occurrence.Proper (k : Kernel) : Occurrence → Prop
  | .request r => r.Proper k
  | .enter => k.inInterrupt = false ∧ k.processor.level = .on
  | .leave => k.inInterrupt = true

/-- Each operation is proper when its turn comes. -/
def Kernel.ProperRun : Kernel → List Occurrence → Prop
  | _, [] => True
  | k, first :: rest => first.Proper k ∧ ∀ k' ∈ Discipline.proper.occur k first, k'.ProperRun rest

instance (k : Kernel) : ∀ r : Request, Decidable (r.Proper k)
  | .spawn _ | .setPriority _ => inferInstanceAs (Decidable (Priority.Valid _))
  | .yield | .lockHolder _ | .lockHeldByCaller _ | .lockWaiters _ | .conditionWaiters _ =>
    inferInstanceAs (Decidable (_ = _))
  | .exit | .sleepUntil _ | .sleep _ | .sleepFor _ | .block | .unblock _ | .timer _ | .down _
  | .destroySemaphore _ | .acquire _ | .destroyLock _ | .wait _ _ | .signal _ _ | .broadcast _ _ =>
    inferInstanceAs (Decidable (_ ∧ _))
  | .tryDown _ | .semaphoreValue _ | .semaphoreWaiters _ | .up _ | .tryAcquire _ | .release _
  | .destroyCondition _ => inferInstanceAs (Decidable (∃ _, _ ∧ _))
  | .start | .preempt | .observe _ | .setLevel _ | .elapsed _ | .reportUsage | .createSemaphore _
  | .createLock | .createCondition | .summary | .profile _ | .setNiceness _ =>
    inferInstanceAs (Decidable True)

instance (k : Kernel) : ∀ o : Occurrence, Decidable (o.Proper k)
  | .request r => inferInstanceAs (Decidable (r.Proper k))
  | .enter => inferInstanceAs (Decidable (_ ∧ _))
  | .leave => inferInstanceAs (Decidable (_ = _))

instance decidableProperRun : ∀ (k : Kernel) (rest : List Occurrence), Decidable (k.ProperRun rest)
  | _, [] => .isTrue trivial
  | _, _ :: rest =>
    have : DecidablePred (Kernel.ProperRun · rest) := (decidableProperRun · rest)
    inferInstanceAs (Decidable (_ ∧ ∀ _ ∈ _, _))

theorem Request.Proper.obeys (proper : r.Proper k) : r.Obeys .proper k := by
  constructor
  case plain =>
    intro _ s named semaphore found
    have plain : ∃ semaphore ∈ k.semaphores.get? s, semaphore.purpose = .plain := by
      cases r with
      | tryDown | semaphoreValue | semaphoreWaiters =>
        cases named
        exact proper
      | down =>
        cases named
        exact proper.2
      | up =>
        cases named
        rcases proper with ⟨stock, known, plain, _⟩
        exact ⟨stock, known, plain⟩
      | destroySemaphore =>
        cases named
        rcases proper.1 with ⟨stock, known, plain, _⟩
        exact ⟨stock, known, plain⟩
      | _ => cases named
    rcases plain with ⟨stock, known, plain⟩
    cases Option.mem_unique found known
    exact plain
  case idles =>
    intro _ may
    cases r with
    | down | acquire | wait => exact proper.1.2
    | _ => cases may
  case spared =>
    intro _ t named
    cases r with
    | unblock =>
      cases named
      exact proper.1
    | _ => cases named
  case unblocks => exact fun never => by cases never
  case awaits => exact fun never => by cases never
  case careful =>
    intro _
    refine ⟨?_, ?_, ?_⟩
    · rintro rfl
      exact proper.2.2
    · intro s destroyed
      cases r with
      | destroySemaphore =>
        cases destroyed
        exact proper.2
      | _ => cases destroyed
    · intro l destroyed
      cases r with
      | destroyLock =>
        cases destroyed
        exact proper.2
      | _ => cases destroyed

/-! ## Looking things up -/

theorem Kernel.Succeeds.map {α β : Type} {x : KernelM α} (ends : Succeeds x k) (f : α → β) :
    Succeeds (do return f (← x)) k :=
  ends.bind fun _ _ _ => succeeds_pure _

theorem succeeds_findSemaphore {s : SemaphoreId} {semaphore : Semaphore}
    (found : k.semaphores.get? s = some semaphore) : Succeeds (findSemaphore s) k :=
  ⟨(semaphore, k), run_findSemaphore_eq_ok_iff.mpr ⟨found, rfl⟩⟩

namespace LockId

variable {l : LockId} (live : k.locks.contains l = true)

include live

theorem succeeds_holder : Succeeds l.holder k := by
  rcases Arena.contains_iff.mp live with ⟨lock, found⟩
  exact Succeeds.findLock found (succeeds_pure _)

theorem succeeds_isHeldByCaller : Succeeds l.isHeldByCaller k := by
  rcases Arena.contains_iff.mp live with ⟨lock, found⟩
  exact ⟨_, run_isHeldByCaller_eq_ok_iff.mpr ⟨lock, found, rfl⟩⟩

theorem succeeds_waiters (grounded : k.Grounded) : Succeeds l.waiters k := by
  rcases Arena.contains_iff.mp live with ⟨lock, found⟩
  rcases grounded.units l lock found with ⟨unit, foundUnit⟩
  apply Succeeds.findLock found
  exact (succeeds_findSemaphore foundUnit).map _

end LockId

theorem ConditionId.succeeds_waiters {c : ConditionId} (live : k.conditions.contains c = true) :
    Succeeds c.waiters k := by
  rcases Arena.contains_iff.mp live with ⟨condition, found⟩
  exact Succeeds.findCondition found (succeeds_pure _)

theorem ConditionId.succeeds_destroy {c : ConditionId} {condition : Condition}
    (found : k.conditions.get? c = some condition) (unawaited : condition.waiters = []) :
    Succeeds c.destroy k := by
  apply Succeeds.findCondition found
  exact Succeeds.require unawaited ⟨_, rfl⟩

/-- The current thread of a kernel that runs one has its record shown. -/
theorem succeeds_summary (runs : k.Runs) : Succeeds summary k := by
  rcases runs with ⟨thread, found, runs, _⟩
  have record : currentRecord.run k = .ok (thread, k) := by
    rw [currentRecord, run_caller_bind, run_findThread_bind_eq_ok_iff]
    refine ⟨thread, found, ?_⟩
    rw [run_require_bind_eq_ok_iff]
    exact ⟨runs, rfl⟩
  exact Succeeds.after record ⟨_, rfl⟩

/-- The accounts add up to the clock, so their total is a word. -/
theorem succeeds_reportUsage (timely : k.Timely) (charged : k.Charged) :
    Succeeds Request.reportUsage.perform k := by
  have fits : k.usage.total = .ok k.clock.ticks :=
    Usage.total_eq_ok_iff.mpr ⟨charged.symm, timely.ticks⟩
  have noted : Kernel.reportUsage.run k =
      .ok ((), k.withEvents (.charged k.usage :: k.events)) := rfl
  apply Succeeds.after noted
  apply Succeeds.map
  exact ⟨(k.clock.ticks, _), run_lift_eq_ok_iff.mpr ⟨fits, rfl⟩⟩

/-! ## One operation -/

/-- A second start is refused, which is no fault. -/
theorem succeeds_start_again {idle : ThreadId} (started : k.idle = some idle) :
    Succeeds start k := by
  unfold start
  apply Succeeds.get
  rw [started]
  exact ⟨_, rfl⟩

/-- What is asked properly is done. -/
theorem succeeds_perform {d : Discipline} (poised : Poised d k) (strict : d.Strict)
    (timely : k.Timely) (charged : k.Charged) (slices : k.config.timeSlice ≤ maxHalfWord)
    (proper : r.Proper k) : Succeeds r.perform k := by
  cases r with
  | start =>
    rcases poised.secure.started with ⟨idle, started⟩
    exact (succeeds_start_again started).map _
  | spawn blueprint => exact (succeeds_spawn poised strict proper).map _
  | exit =>
    rcases proper with ⟨outside, busy, empty⟩
    exact (succeeds_exit poised strict outside busy empty).map _
  | block => exact (succeeds_block poised strict proper.1 proper.2).map _
  | yield => exact (succeeds_yield poised.secure strict poised.runs.running proper).map _
  | preempt => exact (succeeds_preempt poised.secure strict poised.runs.running).map _
  | unblock t =>
    rcases proper.2 with ⟨thread, found, blocked, detached⟩
    have absent := poised.secure.placed.not_mem_of_detached found detached .ready
    exact (succeeds_unblock found blocked detached absent).map _
  | setPriority p => exact (succeeds_setPriority poised strict proper).map _
  | observe | setLevel | createSemaphore | createLock | createCondition | elapsed | profile
  | setNiceness => exact ⟨_, rfl⟩
  | timer count =>
    exact (succeeds_timerInterrupts strict poised timely slices proper.1 proper.2).map _
  | sleepUntil tick => exact (succeeds_sleepUntil poised strict proper.1 proper.2 tick).map _
  | sleep ticks => exact (succeeds_sleep poised strict proper.1 proper.2 ticks).map _
  | sleepFor duration =>
    exact (succeeds_sleepFor poised strict proper.1 proper.2 duration).map _
  | reportUsage => exact succeeds_reportUsage timely charged
  | destroySemaphore s =>
    rcases proper.1 with ⟨semaphore, found, _, unawaited⟩
    exact (SemaphoreId.succeeds_destroy found unawaited).map _
  | down s =>
    rcases proper with ⟨⟨outside, busy⟩, semaphore, found, plain⟩
    exact (succeeds_down poised strict outside busy found plain).map _
  | tryDown s =>
    rcases proper with ⟨semaphore, found, _⟩
    exact (Succeeds.masked (SemaphoreId.succeeds_take (k := k.atLevel .off) found)).map _
  | up s =>
    rcases proper with ⟨semaphore, found, plain, room⟩
    exact (succeeds_up poised.secure strict poised.runs.running found plain room).map _
  | semaphoreValue s | semaphoreWaiters s =>
    rcases proper with ⟨semaphore, found, _⟩
    exact ((succeeds_findSemaphore found).map _).map _
  | destroyLock l =>
    rcases proper.1 with ⟨lock, found, free, unit, foundUnit, unawaited⟩
    exact (succeeds_destroyLock found free foundUnit unawaited).map _
  | acquire l =>
    rcases proper with ⟨⟨outside, busy⟩, lock, found, other⟩
    exact (succeeds_acquire poised strict outside busy found other).map _
  | tryAcquire l =>
    rcases proper with ⟨lock, found, other⟩
    exact (succeeds_tryAcquire poised strict found other).map _
  | release l =>
    rcases proper with ⟨lock, found, holds⟩
    exact (succeeds_release poised.secure strict poised.runs.running found holds).map _
  | lockHolder l => exact (LockId.succeeds_holder proper).map _
  | lockHeldByCaller l => exact (LockId.succeeds_isHeldByCaller proper).map _
  | lockWaiters l => exact (LockId.succeeds_waiters proper (grounded poised strict)).map _
  | destroyCondition c =>
    rcases proper with ⟨condition, found, unawaited⟩
    exact (ConditionId.succeeds_destroy found unawaited).map _
  | wait c l =>
    rcases proper with ⟨⟨outside, busy⟩, ⟨lock, foundLock, holds⟩, live⟩
    rcases Arena.contains_iff.mp live with ⟨condition, found⟩
    exact (succeeds_wait poised strict outside busy foundLock holds found).map _
  | signal c l =>
    rcases proper with ⟨outside, ⟨lock, foundLock, holds⟩, live⟩
    rcases Arena.contains_iff.mp live with ⟨condition, found⟩
    exact (succeeds_signal poised strict outside foundLock holds found).map _
  | broadcast c l =>
    rcases proper with ⟨outside, ⟨lock, foundLock, holds⟩, live⟩
    rcases Arena.contains_iff.mp live with ⟨condition, found⟩
    exact (succeeds_broadcast poised strict outside foundLock holds found).map _
  | conditionWaiters c => exact (ConditionId.succeeds_waiters proper).map _
  | summary => exact (succeeds_summary poised.runs).map _

theorem exists_of_succeeds {α : Type} {x : KernelM α} (ends : Succeeds x k) :
    ∃ k', (x.run k).toOption.map Prod.snd = some k' := by
  rcases ends with ⟨⟨a, k'⟩, ran⟩
  rw [ran]
  exact ⟨k', rfl⟩

/-! ## Every run -/

/-- A started kernel in between the operations of a run that has been proper so far. -/
structure Kernel.Served (k : Kernel) : Prop where
  reachable : Reachable .proper k
  started : k.idle.isSome = true
  slices : k.config.timeSlice ≤ maxHalfWord

theorem Kernel.Served.poised (served : k.Served) : Poised .proper k :=
  ⟨served.reachable.secure Discipline.strict_proper (Option.isSome_iff_exists.mp served.started),
    served.reachable.steady.runs⟩

/-- What happens properly can happen. -/
theorem Kernel.Served.exists_occur (served : k.Served) (proper : o.Proper k) :
    ∃ k', Discipline.proper.occur k o = some k' := by
  have poised := served.poised
  have strict := Discipline.strict_proper
  cases o with
  | request r =>
    rw [Discipline.occur, if_pos (Request.Proper.obeys proper)]
    exact exists_of_succeeds (succeeds_perform poised strict served.reachable.timely
      served.reachable.charged served.slices proper)
  | enter => exact exists_of_succeeds (succeeds_enterInterrupt proper.1 proper.2)
  | leave =>
    have inside : k.inInterrupt = true := proper
    rw [Discipline.occur, if_pos inside]
    exact exists_of_succeeds (succeeds_leaveInterrupt poised strict)

theorem Kernel.Served.occurs (served : k.Served) (h : Discipline.proper.occur k o = some k') :
    k'.Served := by
  have steady := served.reachable.steady
  rcases steps_of_occur steady h with ⟨deeds, steps, _⟩
  constructor
  case reachable => exact served.reachable.step (transit_of_occur h)
  case started =>
    have secure := served.poised.secure.moves Discipline.strict_proper steps.moves
    exact Option.isSome_iff_exists.mpr secure.started
  case slices =>
    have config : k'.config = k.config := steps.moves.config steady.regular
    rw [config]
    exact served.slices

theorem Kernel.Served.exists_occurAll (served : k.Served) {occurrences : List Occurrence}
    (proper : k.ProperRun occurrences) :
    ∃ k', Discipline.proper.occurAll occurrences k = some k' := by
  induction occurrences generalizing k with
  | nil => exact ⟨k, rfl⟩
  | cons first rest ih =>
    rcases proper with ⟨proper, others⟩
    rcases served.exists_occur proper with ⟨middle, occurs⟩
    rcases ih (served.occurs occurs) (others middle occurs) with ⟨last, ends⟩
    exact ⟨last, Option.bind_eq_some_iff.mpr ⟨middle, occurs, ends⟩⟩

/-- A run of a started kernel in which each operation is asked for properly goes on to its end.
The length of a slice is a half word. -/
theorem no_operation_faults (reachable : Reachable .proper k) (started : k.idle.isSome = true)
    (slices : k.config.timeSlice ≤ maxHalfWord) {occurrences : List Occurrence}
    (proper : k.ProperRun occurrences) :
    ∃ k', Discipline.proper.occurAll occurrences k = some k' :=
  Kernel.Served.exists_occurAll ⟨reachable, started, slices⟩ proper

/-- Two threads contend for a lock, wait and signal, are interrupted and exit. -/
theorem no_operation_faults_of_contention : ∃ k k',
    Reachable .proper k ∧ k.idle = some ⟨2⟩ ∧
    Discipline.proper.occurAll
      [.request .createLock, .request .createCondition, .request (.acquire ⟨0⟩),
        .request (.spawn { name := "rival", priority := 40 }), .request (.acquire ⟨0⟩),
        .request (.wait ⟨0⟩ ⟨0⟩), .request (.signal ⟨0⟩ ⟨0⟩), .request (.release ⟨0⟩), .enter,
        .request (.spawn { name := "late", priority := 50 }), .leave, .request .exit,
        .request (.timer 9), .request .exit, .request (.release ⟨0⟩),
        .request (.destroyLock ⟨0⟩), .request (.destroyCondition ⟨0⟩)] k = some k' := by
  have ran : ((Discipline.proper.performAll [.start] (.fresh {} .requeue)).map fun k =>
      decide (k.idle = some ⟨2⟩ ∧ k.config.timeSlice ≤ maxHalfWord ∧ k.ProperRun
        [.request .createLock, .request .createCondition, .request (.acquire ⟨0⟩),
          .request (.spawn { name := "rival", priority := 40 }), .request (.acquire ⟨0⟩),
          .request (.wait ⟨0⟩ ⟨0⟩), .request (.signal ⟨0⟩ ⟨0⟩), .request (.release ⟨0⟩), .enter,
          .request (.spawn { name := "late", priority := 50 }), .leave, .request .exit,
          .request (.timer 9), .request .exit, .request (.release ⟨0⟩),
          .request (.destroyLock ⟨0⟩), .request (.destroyCondition ⟨0⟩)])) = some true := by
    decide +kernel
  rcases Option.map_eq_some_iff.mp ran with ⟨k, performed, told⟩
  rcases of_decide_eq_true told with ⟨idle, slices, proper⟩
  have reachable := (Reachable.fresh {} .requeue).performAll performed
  have started : k.idle.isSome = true := by rw [idle]; rfl
  rcases no_operation_faults reachable started slices proper with ⟨k', ends⟩
  exact ⟨k, k', reachable, idle, ends⟩

end ThreadKernel
