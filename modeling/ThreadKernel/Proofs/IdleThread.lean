import ThreadKernel.Proofs.Termination

/-!
# The idle thread

The dispatcher falls back on the idle thread without looking at its state, so that thread has to stay
able to run.  It can neither exit nor sleep.  If it waits for nothing it is in no semaphore's wait
list and the dispatcher never runs for ever; if nobody unblocks it by name either, it is in no list
at all.

Nothing makes it keep to that: unblocked by name it is queued, and if it waits while nothing is
ready the dispatcher does not come to an end.
-/

namespace ThreadKernel

open Kernel

variable {d : Discipline} {k k' : Kernel} {t : ThreadId} {thread : Thread}

/-! ## What it may not do -/

/-- The name of the operation, if the caller leaves by it for good or until some tick. -/
def Request.departure? : Request → Option Operation
  | .exit => some .exit
  | .sleepUntil _ | .sleep _ | .sleepFor _ => some .sleep
  | _ => none

theorem run_of_idles {α : Type} {operation : Operation} {rest : Kernel → KernelM α}
    (idles : k.idles = true) :
    (do requireThreadContext operation
        let k ← get
        require (¬ k.idles) (.idleThread operation)
        rest k : KernelM α).run k =
      .error (if k.inInterrupt then .inInterrupt operation else .idleThread operation) := by
  split
  · next inside =>
    apply run_bind_of_error
    rw [requireThreadContext, run_get_bind, require, if_neg (not_not.mpr inside)]
    rfl
  · next outside =>
    have passes : (requireThreadContext operation).run k = .ok ((), k) := by
      rw [requireThreadContext, run_get_bind, require, if_pos outside]
      rfl
    rw [run_bind_of_ok passes, run_get_bind]
    apply run_bind_of_error
    rw [require, if_neg (not_not.mpr idles)]
    rfl

/-- The idle thread does not depart. -/
theorem run_of_departure {r : Request} {operation : Operation} (idles : k.idles = true)
    (departs : r.departure? = some operation) :
    r.perform.run k =
      .error (if k.inInterrupt then .inInterrupt operation else .idleThread operation) := by
  have sleeps : ∀ tick, (sleepUntil tick).run k =
      .error (if k.inInterrupt then .inInterrupt .sleep else .idleThread .sleep) :=
    fun tick => run_of_idles idles
  cases r with
  | exit =>
    cases departs
    exact run_bind_of_error (run_of_idles idles)
  | sleepUntil tick =>
    cases departs
    exact run_bind_of_error (sleeps tick)
  | sleep ticks =>
    cases departs
    apply run_bind_of_error
    rw [run_sleep, sleeps]
  | sleepFor duration =>
    cases departs
    apply run_bind_of_error
    rw [run_sleepFor, sleeps]
  | _ => cases departs

/-! ## What it is spared -/

/-- An idle thread that never waits has nothing to finish. -/
theorem Reachable.undue (reachable : Reachable d k) (never : d.idleNeverWaits = true) :
    k.Undue k.idle := by
  induction reachable with
  | fresh => exact ⟨rfl, fun t _ => pending?_fresh _ _ t⟩
  | step before transit undue =>
    cases transit with
    | request obeys ran => exact (Request.ends_perform _ undue (obeys.idles never)).ok _ _ ran
    | enter ran => exact (((tame_enterInterrupt _).undue undue).ok _ _ ran).self
    | leave inside ran => exact ((ends_leaveInterrupt undue).ok _ _ ran).self

/-- Who waits for a semaphore is to try it again. -/
theorem not_mem_semaphore (attended : Attended ⟨k, none⟩) (free : k.pending? t = none)
    (s : SemaphoreId) : t ∉ k.queueAt (.semaphore s) := by
  intro waits
  rw [queueAt] at waits
  cases found : k.semaphores.get? s with
  | none =>
    rw [found] at waits
    exact List.not_mem_nil waits
  | some semaphore =>
    rw [found, Option.elim_some] at waits
    have aims := attended.retries s semaphore found t waits
    rw [aim?, free] at aims
    cases aims

/-- Unblocked by name, a blocked thread that is in no list is queued, whichever thread it is. -/
theorem exists_run_unblock (placed : k.Placed) (found : k.threads.get? t = some thread)
    (blocked : thread.state = .blocked) (detached : thread.place = .detached) :
    ∃ k', (unblock t).run k = .ok ((), k') ∧ t ∈ k'.queueAt .ready := by
  have absent := placed.not_mem_of_detached found detached .ready
  rcases succeeds_unblock found blocked detached absent with ⟨⟨_, k'⟩, ran⟩
  refine ⟨k', ran, ?_⟩
  rcases of_run_unblock (id ran) with ⟨thread', _, _, _, _, rfl⟩
  exact (ReadyQueue.threads_insert_perm k.ready t thread'.priority).mem_iff.mpr (.head _)

/-- The idle thread stays in the table, is never asleep, and is refused whatever it could depart by.
While it waits for nothing it is in no semaphore's wait list, and nothing that is asked of the kernel
runs the dispatcher for ever.  If it is not unblocked by name either, it is in no list.  But it can be
unblocked by name, and is queued then. -/
theorem idle_thread_stays_out (reachable : Reachable d k) (idle : k.idle = some t) :
    (∃ thread, k.threads.get? t = some thread ∧ thread.state ≠ .dying) ∧
    t ∉ k.queueAt .sleep ∧
    (k.current = t → ∀ r operation, Request.departure? r = some operation → r.perform.run k =
      .error (if k.inInterrupt then .inInterrupt operation else .idleThread operation)) ∧
    (d.idleNeverWaits = true → (∀ s, t ∉ k.queueAt (.semaphore s)) ∧
      (∀ r : Request, r.Obeys d k → r.perform.run k ≠ .error .idleWaits) ∧
      enterInterrupt.run k ≠ .error .idleWaits ∧ leaveInterrupt.run k ≠ .error .idleWaits) ∧
    (d.idleNeverWaits = true → d.idleSpared = true → ∀ p, t ∉ k.queueAt p) ∧
    (∀ thread, k.threads.get? t = some thread → thread.state = .blocked →
      thread.place = .detached → ∃ k', (unblock t).run k = .ok ((), k') ∧ t ∈ k'.queueAt .ready) := by
  have regular := reachable.steady.regular
  have placed : k.Placed := regular.placed
  rcases placed.idle t idle with ⟨thread, found, alive, awake⟩
  refine ⟨⟨thread, found, alive⟩, ?_, ?_, fun never => ?_, fun never spared p => ?_, ?_⟩
  · intro asleep
    rcases placed.exists_of_mem asleep with ⟨_, thread', found', there⟩
    cases found.symm.trans found'
    exact awake there
  · intro here r operation departs
    exact run_of_departure (idles_iff.mpr (idle.trans (congrArg some here.symm))) departs
  · have undue := reachable.undue never
    refine ⟨not_mem_semaphore regular.attended (undue.free t idle), fun r obeys fails => ?_,
      fun fails => ?_, fun fails => ?_⟩
    · exact (r.ends_perform undue (obeys.idles never)).fault _ fails rfl
    · exact (tame_enterInterrupt k).fault _ fails rfl
    · exact (ends_leaveInterrupt undue).fault _ fails rfl
  · rcases regular.idle ⟨never, spared⟩ t idle with ⟨thread', found', detached, _⟩
    exact placed.not_mem_of_detached found' detached p
  · exact fun thread found blocked detached => exists_run_unblock placed found blocked detached

/-- One thread waits for a unit and the initial one sleeps, so the idle thread runs. -/
theorem idle_thread_stays_out_of_waits : ∃ k,
    Reachable { idleNeverWaits := true, idleSpared := true } k ∧ k.idle = some ⟨2⟩ ∧
    k.queueAt (.semaphore ⟨0⟩) = [⟨3⟩] ∧ k.queueAt .sleep = [.main] ∧
    Request.exit.perform.run k = .error (.idleThread .exit) ∧ (∀ p, ⟨2⟩ ∉ k.queueAt p) ∧
    ∀ r : Request, r.Obeys { idleNeverWaits := true, idleSpared := true } k →
      r.perform.run k ≠ .error .idleWaits := by
  have ran : (Discipline.performAll { idleNeverWaits := true, idleSpared := true }
      [.start, .createSemaphore 0, .spawn { priority := 40 }, .down ⟨0⟩, .sleepUntil 10]
      (.fresh {} .stable)).map (fun k =>
        (k.idle, k.current, k.queueAt (.semaphore ⟨0⟩), k.queueAt .sleep, k.inInterrupt)) =
          some (some ⟨2⟩, ⟨2⟩, [⟨3⟩], [.main], false) := by decide +kernel
  rcases Option.map_eq_some_iff.mp ran with ⟨k, performed, seen⟩
  have reachable := (Reachable.fresh {} .stable).performAll performed
  simp only [Prod.mk.injEq] at seen
  rcases seen with ⟨idle, current, waiters, sleepers, outside⟩
  rcases idle_thread_stays_out reachable idle with ⟨_, _, refused, spared, unlisted, _⟩
  have refused := refused current .exit .exit rfl
  rw [outside] at refused
  exact ⟨k, reachable, idle, waiters, sleepers, refused, unlisted rfl rfl, (spared rfl).2.1⟩

/-- Nothing keeps the idle thread from being queued by name, nor from waiting for a unit.  In the
one run it is in the ready queue, in the other the dispatcher never comes to an end. -/
theorem idle_thread_queued_of_unblock :
    (∃ k, Reachable {} k ∧ k.idle = some ⟨2⟩ ∧ ⟨2⟩ ∈ k.queueAt .ready) ∧
    ∃ k, Reachable {} k ∧ k.idles = true ∧
      (Request.down ⟨0⟩).perform.run k = .error .idleWaits := by
  constructor
  · have ran : (Discipline.performAll {} [.start, .unblock ⟨2⟩] (.fresh {} .stable)).map
        (fun k => (k.idle, k.queueAt .ready)) = some (some ⟨2⟩, [⟨2⟩]) := by decide +kernel
    rcases Option.map_eq_some_iff.mp ran with ⟨k, performed, seen⟩
    rcases Prod.mk.inj seen with ⟨idle, ready⟩
    refine ⟨k, (Reachable.fresh {} .stable).performAll performed, idle, ?_⟩
    rw [ready]
    exact .head _
  · have ran : (Discipline.performAll {} [.start, .createSemaphore 0, .sleepUntil 10]
        (.fresh {} .stable)).map (fun k =>
          (k.idles, decide ((SemaphoreId.down ⟨0⟩).run k = .error .idleWaits))) =
            some (true, true) := by decide +kernel
    rcases Option.map_eq_some_iff.mp ran with ⟨k, performed, seen⟩
    rcases Prod.mk.inj seen with ⟨idles, waits⟩
    exact ⟨k, (Reachable.fresh {} .stable).performAll performed, idles,
      run_bind_of_error (of_decide_eq_true waits)⟩

end ThreadKernel
