import ThreadKernel.Proofs.DispatchLoop
import ThreadKernel.Proofs.Reclamation

/-!
# Every operation ends

Whatever is asked of a kernel whose idle thread has nothing to finish, the dispatcher does not run
for ever, and afterwards the idle thread has nothing to finish either: `Request.ends_perform`.  The
one exception is an idle thread that waits itself.

`dispatcher_terminates` is about the dispatcher, wherever it is entered.
-/

namespace ThreadKernel

open Kernel

variable {k k' : Kernel} {t : ThreadId} {s : SemaphoreId} {l : LockId} {c : ConditionId}
  {idle : Option ThreadId}

namespace Kernel

/-! ## The dispatcher -/

theorem unburdened_erase (k : Kernel) (t : ThreadId) :
    k.Unburdened { k with threads := k.threads.erase t } := by
  refine ⟨rfl, rfl, fun u free => ?_⟩
  rw [pending?, Arena.get?_erase]
  split
  · rfl
  · exact free

theorem tame_reclaim (k : Kernel) : Tame reclaim k := by
  apply EndsIn.get
  apply Tame.bind (tame_set (by rfl) (by rfl))
  intro _ k'
  apply tame_forM
  intro t k
  apply EndsIn.get
  cases k.threads.get? t with
  | none => exact tame_pure ()
  | some thread =>
    apply Tame.bind (endsIn_of_run rfl (unburdened_erase k t))
    exact fun _ k' => tame_note _ k'

theorem ends_schedule (undue : k.Undue idle) : EndsIn (Undue idle) schedule k := by
  apply EndsIn.get
  apply undue.after (tame_require (by simp))
  intro _ k' undue
  apply undue.after (tame_reclaim k')
  intro _ k' undue
  apply EndsIn.get
  exact ends_dispatch undue

/-! ## Giving up the processor -/

theorem tame_requireThreadContext (operation : Operation) (k : Kernel) :
    Tame (requireThreadContext operation) k :=
  .get (tame_require (by simp))

theorem ends_block (undue : k.Undue idle) : EndsIn (Undue idle) block k := by
  apply undue.after (tame_requireThreadContext _ k)
  intro _ k' undue
  apply EndsIn.get
  apply undue.after (tame_require (by simp))
  intro _ k' undue
  apply undue.after (tame_caller k')
  intro t k' undue
  apply undue.after (tame_modifyThread t _ k' fun _ => by exact id)
  exact fun _ _ undue => ends_schedule undue

theorem ends_yield (undue : k.Undue idle) : EndsIn (Undue idle) yield k := by
  apply undue.after (tame_requireThreadContext _ k)
  intro _ k' undue
  apply undue.masked
  intro k undue
  apply EndsIn.get
  apply EndsIn.ite
  · apply undue.after (tame_modifyThread _ _ _ fun _ => by exact id)
    exact fun _ _ undue => ends_schedule undue
  · apply undue.after (tame_makeReady _ _)
    exact fun _ _ undue => ends_schedule undue

theorem ends_preempt (undue : k.Undue idle) : EndsIn (Undue idle) preempt k := by
  apply EndsIn.get
  apply EndsIn.ite
  · apply EndsIn.ite
    · exact Tame.undue (tame_set (by rfl) (by rfl)) undue
    · exact ends_yield undue
  · exact endsIn_pure undue ()

theorem ends_setPriority (priority : Priority) (undue : k.Undue idle) :
    EndsIn (Undue idle) (setPriority priority) k := by
  apply undue.after (tame_require (by simp))
  intro _ k' undue
  apply undue.masked
  intro k undue
  apply undue.after (tame_caller _)
  intro t k' undue
  apply undue.after (tame_modifyThread t _ k' fun _ => by exact id)
  intro _ k' undue
  apply undue.after (tame_refresh t k')
  exact fun _ _ undue => ends_preempt undue

theorem ends_exit (undue : k.Undue idle) : EndsIn (Undue idle) exit k := by
  apply undue.after (tame_requireThreadContext _ k)
  intro _ k' undue
  apply EndsIn.get
  apply undue.after (tame_require (by simp))
  intro _ k'' undue
  apply undue.after (tame_announce _ k'')
  intro _ k'' undue
  have leaves : ∀ k'', k''.Undue idle → EndsIn (Undue idle) (masked do
      note (.exiting k'.current (← findThread k'.current).name)
      modifyThread k'.current fun thread => { thread with state := .dying }
      schedule) k'' := by
    intro k'' undue
    apply undue.masked
    intro k undue
    apply undue.after (tame_findThread _ k)
    intro thread k undue
    apply undue.after (tame_note _ k)
    intro _ k undue
    apply undue.after (tame_modifyThread _ _ k fun _ => by exact id)
    exact fun _ _ undue => ends_schedule undue
  dsimp only
  apply EndsIn.ite
  · apply undue.after (tame_note _ k'')
    exact fun _ k'' undue => leaves k'' undue
  · exact leaves k'' undue

/-! ## New threads -/

theorem unburdened_push {thread : Thread} (free : thread.pending = none) :
    k.Unburdened { k with threads := k.threads.push thread } := by
  refine ⟨rfl, rfl, fun u undue => ?_⟩
  rw [pending?, Arena.get?_push]
  split
  · exact free
  · exact undue

theorem tame_enroll {thread : Thread} (free : thread.pending = none) (k : Kernel) :
    Tame (enroll thread) k := by
  apply EndsIn.get
  apply EndsIn.ite
  · apply Tame.bind (endsIn_of_run rfl (unburdened_push free))
    exact fun _ _ => tame_pure _
  · exact tame_pure _

/-- A new idle thread has nothing to finish. -/
theorem ends_start (undue : k.Undue k.idle) : EndsIn (fun k' => k'.Undue k'.idle) start k := by
  apply EndsIn.get
  apply EndsIn.ite
  · exact endsIn_of_run rfl undue
  · apply EndsIn.bind (tame_enroll rfl k)
    intro issued k' ran _
    rcases enrolled_of_run ran with ⟨rfl, rfl⟩ | ⟨rfl, rfl⟩
    · exact endsIn_of_run rfl undue
    · refine endsIn_of_run rfl ⟨rfl, fun t idles => ?_⟩
      cases idles
      have record : (k.threads.push { name := "idle", base := .lowest }).get? k.threads.next =
          some { name := "idle", base := .lowest } := by rw [Arena.get?_push, if_pos rfl]
      exact congrArg (·.bind (·.pending)) record

theorem ends_spawn (blueprint : Blueprint) (undue : k.Undue idle) :
    EndsIn (Undue idle) (spawn blueprint) k := by
  apply undue.after (tame_require (by simp))
  intro _ k' undue
  apply EndsIn.get
  apply EndsIn.ite
  · exact endsIn_pure undue _
  · apply undue.after (tame_enroll rfl k')
    intro issued k' undue
    cases issued with
    | none => exact endsIn_pure undue _
    | some t =>
      apply undue.after (tame_note _ k')
      intro _ k' undue
      apply undue.after (tame_unblock t k')
      intro _ k' undue
      apply EndsIn.bind (ends_preempt undue)
      exact fun _ _ _ undue => endsIn_pure undue _

/-! ## Interrupts, the timer and timed sleep -/

theorem tame_enterInterrupt (k : Kernel) : Tame enterInterrupt k := by
  apply EndsIn.get
  apply (tame_require (by simp)).bind
  intro _ k'
  apply (tame_require (by simp)).bind
  intro _ k'
  apply (tame_setLevel .off k').bind
  exact fun _ _ => tame_modify (by rfl) (by rfl)

theorem ends_leaveInterrupt (undue : k.Undue idle) : EndsIn (Undue idle) leaveInterrupt k := by
  have returns : ∀ k, k.Undue idle → EndsIn (Undue idle) (do let _ ← setLevel .on; pure ()) k :=
    fun k undue => undue.after (tame_setLevel .on k) fun _ _ undue => endsIn_pure undue ()
  apply EndsIn.get
  apply undue.after (tame_set (by rfl) (by rfl))
  intro _ k' undue
  dsimp only
  apply EndsIn.ite
  · apply EndsIn.bind (ends_yield undue)
    exact fun _ k' _ undue => returns k' undue
  · exact returns k' undue

theorem tame_awaken (now : Nat) (k : Kernel) : Tame (awaken now) k := by
  apply EndsIn.get
  have exist : ∀ t k, Tame (do let _ ← findThread t) k := fun t k =>
    (tame_findThread t k).bind fun _ _ => tame_pure _
  apply EndsIn.bind (tame_forM exist)
  intro _ k' looks _
  rcases run_forM_findThread looks with ⟨_, rfl⟩
  apply Tame.bind (tame_set (by rfl) (by rfl))
  intro _ k'
  apply tame_forM
  intro t k
  apply (tame_note _ k).bind
  intro _ k'
  apply (tame_modifyThread t _ k' fun _ => by exact id).bind
  exact fun _ k' => tame_unblock t k'

theorem ends_sleepUntil (wakeTick : Nat) (undue : k.Undue idle) :
    EndsIn (Undue idle) (sleepUntil wakeTick) k := by
  apply undue.after (tame_requireThreadContext _ k)
  intro _ k' undue
  apply EndsIn.get
  apply undue.after (tame_require (by simp))
  intro _ k'' undue
  apply EndsIn.ite
  · exact endsIn_pure undue _
  · apply undue.masked
    intro k undue
    apply undue.after (tame_modifyThread _ _ k fun _ => by exact id)
    intro _ k undue
    apply undue.after (tame_modify (by rfl) (by rfl))
    intro _ k undue
    apply undue.after (tame_note _ k)
    intro _ k undue
    apply EndsIn.bind (ends_schedule undue)
    exact fun _ _ _ undue => endsIn_pure undue _

theorem tame_chargeTick (k : Kernel) : Tame chargeTick k := by
  apply EndsIn.get
  apply EndsIn.ite
  · exact tame_set (by rfl) (by rfl)
  · apply EndsIn.findThread
    intro thread _
    apply EndsIn.ite
    · exact tame_set (by rfl) (by rfl)
    · exact tame_set (by rfl) (by rfl)

theorem tame_countSlice (k : Kernel) : Tame countSlice k := by
  apply EndsIn.get
  apply EndsIn.bind (tame_require (by simp))
  intro _ k' ran _
  cases (run_require_eq_ok_iff.mp ran).2
  exact tame_set (by rfl) (by rfl)

theorem advance_error {clock : Clock} {fault : Fault} (fails : clock.advance = .error fault) :
    fault ≠ .idleWaits := by
  rw [Clock.advance] at fails
  split at fails
  · cases fails
    simp
  · cases fails

theorem ends_timerTick (undue : k.Undue idle) : EndsIn (Undue idle) timerTick k := by
  apply EndsIn.get
  apply undue.after (tame_lift fun _ => advance_error)
  intro clock k' undue
  apply undue.after (tame_modify (by rfl) (by rfl))
  intro _ k' undue
  apply undue.after (tame_chargeTick k')
  intro _ k' undue
  apply undue.after (tame_countSlice k')
  intro _ k' undue
  apply EndsIn.get
  apply EndsIn.ite
  · apply undue.after (tame_awaken _ k')
    exact fun _ _ undue => ends_preempt undue
  · exact endsIn_pure undue ()

theorem ends_timerInterrupt (undue : k.Undue idle) : EndsIn (Undue idle) timerInterrupt k := by
  apply undue.after (tame_enterInterrupt k)
  intro _ k' undue
  apply EndsIn.bind (ends_timerTick undue)
  intro _ k' _ undue
  apply EndsIn.bind (ends_leaveInterrupt undue)
  exact fun _ _ _ undue => endsIn_pure undue ()

theorem ends_timerInterrupts (count : Nat) (undue : k.Undue idle) :
    EndsIn (Undue idle) (timerInterrupts count) k := by
  induction count generalizing k with
  | zero => exact endsIn_pure undue ()
  | succ count ih => exact EndsIn.bind (ends_timerInterrupt undue) fun _ _ _ undue => ih undue

end Kernel

/-! ## Semaphores -/

/-- Whoever fails in an attempt gives up the processor. -/
theorem ends_try {attempt : KernelM Bool} (tries : EndsIn (Busy idle t) attempt k) :
    EndsIn (Undue idle) (do
      if ← attempt then
        pure Wait.completed
      else
        schedule
        pure Wait.suspended) k := by
  apply tries.bind
  intro taken k' _ busy
  apply EndsIn.ite
  · exact endsIn_pure busy.undue _
  · apply EndsIn.bind (ends_schedule busy.undue)
    exact fun _ _ _ undue => endsIn_pure undue _

theorem SemaphoreId.ends_down (busy : k.Busy idle t) : EndsIn (Undue idle) s.down k := by
  apply busy.after (tame_requireThreadContext _ k)
  intro _ k' busy
  apply busy.masked
  exact fun k busy => ends_try (ends_attempt busy)

theorem SemaphoreId.ends_up (undue : k.Undue idle) : EndsIn (Undue idle) s.up k := by
  apply undue.masked
  intro k undue
  apply undue.after (tame_wake s k)
  exact fun _ _ undue => ends_preempt undue

/-! ## Locks -/

theorem LockId.ends_acquire (busy : k.Busy idle t) : EndsIn (Undue idle) l.acquire k := by
  apply busy.after (tame_requireThreadContext _ k)
  intro _ k' busy
  apply busy.after (tame_requireNotHeld l _ k')
  intro _ k' busy
  apply busy.masked
  exact fun k busy => ends_try (ends_attempt busy)

theorem LockId.ends_release (undue : k.Undue idle) : EndsIn (Undue idle) l.release k := by
  apply undue.after (tame_requireHeld l _ k)
  intro _ k' undue
  apply undue.masked
  intro k undue
  apply undue.after (tame_caller k)
  intro t k undue
  apply undue.after (tame_dropDonors l k)
  intro _ k undue
  apply undue.after (tame_modifyLock l _ k)
  intro _ k undue
  apply undue.after (tame_note _ k)
  intro _ k undue
  apply undue.after (tame_findLock l k)
  exact fun lock k undue => SemaphoreId.ends_up undue

theorem tame_createLock (k : Kernel) : Tame Lock.create k := by
  apply (Semaphore.tame_create _ _ k).bind
  intro s k'
  apply EndsIn.get
  apply Tame.bind (tame_set (by rfl) (by rfl))
  exact fun _ _ => tame_pure _

/-! ## Conditions -/

theorem tame_createCondition (k : Kernel) : Tame Condition.create k := by
  apply EndsIn.get
  apply Tame.bind (tame_set (by rfl) (by rfl))
  exact fun _ _ => tame_pure _

theorem ConditionId.ends_wait (busy : k.Busy idle t) : EndsIn (Undue idle) (c.wait l) k := by
  apply busy.after (tame_requireThreadContext _ k)
  intro _ k' busy
  apply busy.after (LockId.tame_requireHeld l _ k')
  intro _ k' busy
  apply busy.masked
  intro k busy
  apply busy.caller
  apply busy.after (Semaphore.tame_create _ _ k)
  intro signal k' busy
  apply busy.after (tame_enlist c signal k')
  intro _ k' busy
  apply EndsIn.bind (busy.modifyThread _)
  intro _ k' _ busy
  apply EndsIn.bind (LockId.ends_release busy.undue)
  intro _ k' _ undue
  apply EndsIn.caller
  split
  · exact endsIn_pure undue _
  · next back =>
    have busy : k'.Busy idle t := ⟨undue, Decidable.not_not.mp back, busy.other⟩
    apply busy.after (tame_modifyThread t _ k' fun _ _ => rfl)
    exact fun _ k' busy => ends_try (LockId.ends_reacquire busy)

theorem ConditionId.ends_signal (undue : k.Undue idle) : EndsIn (Undue idle) (c.signal l) k := by
  apply undue.after (tame_requireThreadContext _ k)
  intro _ k' undue
  apply undue.after (LockId.tame_requireHeld l _ k')
  intro _ k' undue
  apply undue.masked
  intro k undue
  apply undue.after (tame_wakeFirst c k)
  intro woke k' undue
  apply EndsIn.ite
  · exact ends_preempt undue
  · exact endsIn_pure undue ()

theorem ConditionId.ends_broadcast (undue : k.Undue idle) :
    EndsIn (Undue idle) (c.broadcast l) k := by
  apply undue.after (tame_requireThreadContext _ k)
  intro _ k' undue
  apply undue.after (LockId.tame_requireHeld l _ k')
  intro _ k' undue
  apply undue.masked
  intro k undue
  apply undue.after (tame_findCondition c k)
  intro condition k' undue
  apply undue.after (tame_wakeMany c _ k')
  intro _ k' undue
  apply EndsIn.ite
  · exact ends_preempt undue
  · exact endsIn_pure undue ()

/-! ## All requests -/

theorem tame_summary (k : Kernel) : Tame summary k := by
  have record : Tame currentRecord k := by
    apply (tame_caller k).bind
    intro t k'
    apply (tame_findThread t k').bind
    intro thread k'
    apply (tame_require (by simp)).bind
    exact fun _ _ => tame_pure thread
  exact record.bind fun _ _ => .get (tame_pure _)

theorem total_error {usage : Usage} {fault : Fault} (fails : usage.total = .error fault) :
    fault ≠ .idleWaits := by
  rw [Usage.total] at fails
  split at fails
  · cases fails
  · cases fails
    simp

namespace Request

theorem tame_perform_of_looks {r : Request} (looks : r.looks = true) (k : Kernel) :
    Tame r.perform k := by
  cases r with
  | elapsed | profile => exact .get (tame_pure _)
  | semaphoreValue s => exact ((tame_findSemaphore s k).answer _).answer _
  | semaphoreWaiters s => exact ((tame_findSemaphore s k).answer _).answer _
  | lockHolder l => exact ((tame_findLock l k).answer _).answer _
  | lockHeldByCaller l => exact (LockId.tame_isHeldByCaller l k).answer _
  | lockWaiters l =>
    refine EndsIn.answer ((tame_findLock l k).bind ?_) _
    exact fun lock k' => (tame_findSemaphore _ k').answer _
  | conditionWaiters c => exact ((tame_findCondition c k).answer _).answer _
  | summary => exact (tame_summary k).answer _
  | setNiceness => exact (tame_pure ()).bind fun _ k' => (tame_pure _).answer _
  | _ => cases looks

/-- Whatever is asked of a kernel comes to an end, unless the idle thread waits itself. -/
theorem ends_perform (r : Request) (undue : k.Undue k.idle)
    (waits : r.mayWait = true → k.idles = false) :
    EndsIn (fun k' => k'.Undue k'.idle) r.perform k := by
  have ends : ∀ {α : Type} {x : KernelM α} {f : α → Reply}, EndsIn (Undue k.idle) x k →
      EndsIn (fun k' => k'.Undue k'.idle) (do return f (← x)) k :=
    fun ends => (ends.imp fun _ undue => undue.self).answer _
  have tame : ∀ {α : Type} {x : KernelM α} {f : α → Reply}, Tame x k →
      EndsIn (fun k' => k'.Undue k'.idle) (do return f (← x)) k :=
    fun tame => ends (tame.undue undue)
  have busy : r.mayWait = true → k.Busy k.idle k.current := fun may =>
    ⟨undue, rfl, fun idles => by cases (waits may).symm.trans (idles_iff.mpr idles)⟩
  by_cases looks : r.looks = true
  · exact ((tame_perform_of_looks looks k).undue undue).imp fun _ undue => undue.self
  cases r with
  | elapsed | semaphoreValue | semaphoreWaiters | lockHolder | lockHeldByCaller | lockWaiters
  | conditionWaiters | summary | profile | setNiceness => exact absurd rfl looks
  | start => exact (ends_start undue).answer _
  | spawn blueprint => exact ends (ends_spawn blueprint undue)
  | exit => exact ends (ends_exit undue)
  | block => exact ends (ends_block undue)
  | yield => exact ends (ends_yield undue)
  | preempt => exact ends (ends_preempt undue)
  | unblock t => exact tame (tame_unblock t k)
  | setPriority p => exact ends (ends_setPriority p undue)
  | observe observer => exact endsIn_of_run rfl ⟨rfl, undue.free⟩
  | setLevel level => exact tame (tame_setLevel level k)
  | timer count => exact ends (ends_timerInterrupts count undue)
  | sleepUntil tick => exact ends (ends_sleepUntil tick undue)
  | sleep ticks => exact ends (.get (ends_sleepUntil _ undue))
  | sleepFor duration => exact ends (.get (.get (ends_sleepUntil _ undue)))
  | reportUsage =>
    apply undue.after (EndsIn.get (tame_note _ k))
    intro _ k' undue
    apply EndsIn.get
    have ends : EndsIn (Undue k.idle) (liftM k'.usage.total : KernelM Nat) k' :=
      (tame_lift fun _ => total_error).undue undue
    exact (ends.imp fun _ undue => undue.self).answer _
  | createSemaphore value => exact tame (Semaphore.tame_create value .plain k)
  | destroySemaphore s => exact tame (SemaphoreId.tame_destroy s k)
  | down s => exact ends (SemaphoreId.ends_down (busy rfl))
  | tryDown s => exact tame (Tame.masked (SemaphoreId.tame_take s) k)
  | up s => exact ends (SemaphoreId.ends_up undue)
  | createLock => exact tame (tame_createLock k)
  | destroyLock l => exact tame (LockId.tame_destroy l k)
  | acquire l => exact ends (LockId.ends_acquire (busy rfl))
  | tryAcquire l => exact tame (LockId.tame_tryAcquire l k)
  | release l => exact ends (LockId.ends_release undue)
  | createCondition => exact tame (tame_createCondition k)
  | destroyCondition c => exact tame (ConditionId.tame_destroy c k)
  | wait c l => exact ends (ConditionId.ends_wait (busy rfl))
  | signal c l => exact ends (ConditionId.ends_signal undue)
  | broadcast c l => exact ends (ConditionId.ends_broadcast undue)

end Request

/-! ## Wherever the dispatcher is entered -/

/-- Entered from `k`, the dispatcher drops the records of those that have exited and then picks at
most as often as there are ready threads, and once more.  A higher bound would make no difference. -/
def Kernel.Schedules (k : Kernel) (result : Except Fault (Unit × Kernel)) : Prop :=
  ∃ reclaimed count, reclaim.run k = .ok ((), reclaimed) ∧ reclaimed.ready = k.ready ∧
    reclaimed.Dispatches count result ∧ count ≤ k.ready.size + 1 ∧
    ∀ picks, count ≤ picks → (dispatch picks).run reclaimed = result

theorem Kernel.Undue.schedules (undue : k.Undue idle) (masked : k.processor.level = .off) :
    k.Schedules (schedule.run k) := by
  rcases run_schedule k with ⟨reclaimed, ran, _, _, schedules⟩
  have ready : reclaimed.ready = k.ready := by
    rcases of_run_reclaim (id ran) with ⟨_, _, _, _, _, rfl⟩
    rfl
  rcases (((tame_reclaim k).undue undue).ok _ _ ran).dispatches with ⟨count, result, loop, bound⟩
  rw [if_pos masked, loop.run bound] at schedules
  rw [schedules]
  rw [ready] at bound
  exact ⟨reclaimed, count, ran, ready, loop, bound, fun _ enough => loop.run enough⟩

/-- The dispatcher comes to an end wherever it is entered while the idle thread has nothing to
finish.  No operation on such a kernel runs it for ever, and afterwards the idle thread has nothing
to finish either, unless it waits itself. -/
theorem dispatcher_terminates (free : ∀ t, k.idle = some t → k.pending? t = none) :
    (k.processor.level = .off → k.Schedules (schedule.run k)) ∧
    (k.processor.level ≠ .off → schedule.run k = .error (.interruptsEnabled .schedule)) ∧
    (∀ r : Request, (r.mayWait = true → k.idles = false) →
      EndsIn (fun k' => k'.Undue k'.idle) r.perform k) ∧
    EndsIn (fun k' => k'.Undue k'.idle) enterInterrupt k ∧
    EndsIn (fun k' => k'.Undue k'.idle) leaveInterrupt k := by
  have undue : k.Undue k.idle := ⟨rfl, free⟩
  refine ⟨undue.schedules, fun unmasked => ?_, fun r => r.ends_perform undue, ?_, ?_⟩
  · rcases run_schedule k with ⟨_, _, _, _, schedules⟩
    rw [schedules, if_neg unmasked]
  · exact ((tame_enterInterrupt k).undue undue).imp fun _ undue => undue.self
  · exact (ends_leaveInterrupt undue).imp fun _ undue => undue.self

/-- Two threads were woken, but the units were taken before they ran.  The initial thread goes, both
are picked in vain, and the idle thread is picked last. -/
theorem dispatcher_terminates_of_stolen_units : ∃ k halted, Reachable {} k ∧
    halted = (k.atLevel .off).mapThread k.current (fun old => { old with state := .blocked }) ∧
    halted.queueAt .ready = [⟨3⟩, ⟨4⟩] ∧
    (∀ t, halted.idle = some t → halted.pending? t = none) ∧
    (schedule.run halted).toOption.map (fun step =>
      (step.2.current, step.2.queueAt (.semaphore ⟨0⟩))) = some (⟨2⟩, [⟨3⟩, ⟨4⟩]) ∧
    halted.Schedules (schedule.run halted) := by
  have ran : (Discipline.performAll {}
      [.start, .createSemaphore 0, .spawn { priority := 10 }, .spawn { priority := 10 },
        .setPriority 5, .down ⟨0⟩, .down ⟨0⟩, .setPriority 31, .up ⟨0⟩, .tryDown ⟨0⟩, .up ⟨0⟩,
        .tryDown ⟨0⟩] (.fresh {} .stable)).map (fun k =>
      let halted := (k.atLevel .off).mapThread k.current fun old => { old with state := .blocked }
      (halted.queueAt .ready, halted.idle.bind halted.pending?,
        (schedule.run halted).toOption.map fun step =>
          (step.2.current, step.2.queueAt (.semaphore ⟨0⟩)))) =
        some ([⟨3⟩, ⟨4⟩], none, some (⟨2⟩, [⟨3⟩, ⟨4⟩])) := by decide +kernel
  rcases Option.map_eq_some_iff.mp ran with ⟨k, performed, seen⟩
  have reachable := (Reachable.fresh {} .stable).performAll performed
  simp only [Prod.mk.injEq] at seen
  rcases seen with ⟨ready, pending, ends⟩
  have free : ∀ t, k.idle = some t → Kernel.pending? ((k.atLevel .off).mapThread k.current
      fun old => { old with state := .blocked }) t = none := by
    intro t idles
    rwa [mapThread_idle, atLevel_idle, idles] at pending
  exact ⟨k, _, reachable, rfl, ready, free, ends, (dispatcher_terminates free).1 rfl⟩

end ThreadKernel
