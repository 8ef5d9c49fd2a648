import ThreadKernel.Kernel.Spawn
import ThreadKernel.Proofs.Move

/-!
# What the operations do

`ThreadKernel/Proofs/Effects.lean` says what the parts do that operations are made of.  Here is one
inversion for each operation that is made of them, and for each part of an interrupt: from a run that
ends well to the checks it has passed, and to the runs of its parts, each from the kernel that the
one before it has left.

* `Kernel.of_run_yield`, `of_run_setPriority`, `of_run_spawn` and `of_run_start` for threads.
* `of_run_enterInterrupt`, `of_run_timerTick`, `Kernel.of_run_leaveInterrupt` for an interrupt, and
  `of_run_timerInterrupt` for all of it.
* `SemaphoreId.of_run_up`; `LockId.of_run_release`, `of_run_destroyLock`.
* `ConditionId.of_run_wait`, `ConditionId.of_run_signal`, `ConditionId.of_run_broadcast`.
-/

namespace ThreadKernel

open Kernel

variable {k k' : Kernel} {t : ThreadId} {s : SemaphoreId} {l : LockId} {c : ConditionId} {u : Unit}

/-! ## Checks -/

section Checks

variable {operation : Operation} {β : Type} {rest : Unit → KernelM β} {r : β × Kernel}

theorem run_requireThreadContext_bind_eq_ok_iff :
    (requireThreadContext operation >>= rest).run k = .ok r ↔
      k.inInterrupt = false ∧ (rest ()).run k = .ok r := by
  have edits : ∀ {r : Unit × Kernel}, (requireThreadContext operation).run k = .ok r ↔
      k.inInterrupt = false ∧ r = ((), k) := by
    intro r
    rw [requireThreadContext, run_get_bind, run_require_eq_ok_iff, Bool.not_eq_true]
  exact run_bind_eq_ok_iff_of_edits edits

theorem run_isHeldByCaller_eq_ok_iff {r : Bool × Kernel} : l.isHeldByCaller.run k = .ok r ↔
    ∃ lock, k.locks.get? l = some lock ∧ r = (decide (lock.holder = some k.current), k) := by
  rw [LockId.isHeldByCaller, LockId.holder]
  simp only [bind_assoc, run_findLock_bind_eq_ok_iff, run_pure_bind, run_caller_bind,
    run_pure_eq_ok_iff]

theorem run_requireHeld_bind_eq_ok_iff : (l.requireHeld operation >>= rest).run k = .ok r ↔
    (∃ lock, k.locks.get? l = some lock ∧ lock.holder = some k.current) ∧
      (rest ()).run k = .ok r := by
  refine run_bind_eq_ok_iff_of_edits fun {r} => ?_
  rw [LockId.requireHeld, run_bind_eq_ok_iff]
  simp only [run_isHeldByCaller_eq_ok_iff, run_caller_bind, run_require_eq_ok_iff]
  constructor
  · rintro ⟨_, _, ⟨lock, found, same⟩, holds, rfl⟩
    cases same
    exact ⟨⟨lock, found, of_decide_eq_true holds⟩, rfl⟩
  · rintro ⟨⟨lock, found, holds⟩, rfl⟩
    exact ⟨_, _, ⟨lock, found, rfl⟩, decide_eq_true holds, rfl⟩

theorem run_requireNotHeld_bind_eq_ok_iff : (l.requireNotHeld operation >>= rest).run k = .ok r ↔
    (∃ lock, k.locks.get? l = some lock ∧ lock.holder ≠ some k.current) ∧
      (rest ()).run k = .ok r := by
  refine run_bind_eq_ok_iff_of_edits fun {r} => ?_
  rw [LockId.requireNotHeld, run_bind_eq_ok_iff]
  simp only [run_isHeldByCaller_eq_ok_iff, run_caller_bind, run_require_eq_ok_iff]
  constructor
  · rintro ⟨_, _, ⟨lock, found, same⟩, free, rfl⟩
    cases same
    exact ⟨⟨lock, found, fun holds => free (decide_eq_true holds)⟩, rfl⟩
  · rintro ⟨⟨lock, found, free⟩, rfl⟩
    exact ⟨_, _, ⟨lock, found, rfl⟩, fun holds => free (of_decide_eq_true holds), rfl⟩

end Checks

/-! ## Threads -/

namespace Kernel

/-- The current thread stands by for another: it is ready to go on, unless it is the idle thread. -/
inductive StandsBy (k : Kernel) : Kernel → Prop
  | idle (idles : k.idles = true) :
      StandsBy k (k.mapThread k.current fun thread => { thread with state := .blocked })
  | ready {thread : Thread} (busy : k.idles = false)
      (found : k.threads.get? k.current = some thread) :
      StandsBy k (k.readied k.current thread.priority)

theorem of_run_yield (h : yield.run k = .ok (u, k')) :
    ∃ aside last, (k.atLevel .off).StandsBy aside ∧ schedule.run aside = .ok ((), last) ∧
      k' = last.atLevel k.processor.level := by
  rw [yield, run_requireThreadContext_bind_eq_ok_iff] at h
  obtain ⟨last, ran, rfl⟩ := run_masked_eq_ok_iff.mp h.2
  rw [run_get_bind] at ran
  split at ran
  · next idles =>
    rw [run_modifyThread_bind_eq_ok_iff] at ran
    exact ⟨_, last, .idle idles, ran.2, rfl⟩
  · next busy =>
    obtain ⟨_, aside, readies, ran⟩ := run_bind_eq_ok_iff.mp ran
    obtain ⟨thread, found, _, rfl⟩ := of_run_makeReady readies
    exact ⟨_, last, .ready (Bool.eq_false_iff.mpr busy) found, ran, rfl⟩

theorem StandsBy.get?_of_ne (aside : k.StandsBy k') (other : t ≠ k.current) :
    k'.threads.get? t = k.threads.get? t := by
  cases aside <;> exact Arena.get?_modify_of_ne _ (Ne.symm other)

end Kernel

theorem of_run_setPriority {base : Priority} (h : (setPriority base).run k = .ok (u, k')) :
    ∃ refreshed last, (refresh k.current).run ((k.atLevel .off).mapThread k.current fun old =>
        { old with base }) = .ok ((), refreshed) ∧
      preempt.run refreshed = .ok ((), last) ∧ k' = last.atLevel k.processor.level := by
  rw [setPriority, run_require_bind_eq_ok_iff] at h
  obtain ⟨last, ran, rfl⟩ := run_masked_eq_ok_iff.mp h.2
  rw [run_caller_bind, run_modifyThread_bind_eq_ok_iff] at ran
  obtain ⟨_, refreshed, refreshes, preempts⟩ := run_bind_eq_ok_iff.mp ran.2
  exact ⟨refreshed, last, refreshes, preempts, rfl⟩

/-- A new thread changes nothing for those that are there. -/
theorem enrolled_of_run {thread : Thread} {issued : Option ThreadId}
    (h : (enroll thread).run k = .ok (issued, k')) :
    issued = none ∧ k' = k ∨
      issued = some k.threads.next ∧ k' = { k with threads := k.threads.push thread } := by
  rw [enroll, run_get_bind] at h
  split at h
  · cases h
    exact .inr ⟨rfl, rfl⟩
  · cases h
    exact .inl ⟨rfl, rfl⟩

/-- The record of the thread that `blueprint` asks for. -/
def Blueprint.record (blueprint : Blueprint) : Thread where
  name := Name.clip blueprint.name
  base := blueprint.priority
  user := blueprint.user
  argument := blueprint.argument

/-- The kernel in which the thread that `blueprint` asks for has been created. -/
def Blueprint.enrolled (blueprint : Blueprint) (k : Kernel) : Kernel :=
  { k with threads := k.threads.push blueprint.record }.withEvents
    (.created k.threads.next (Name.clip blueprint.name) blueprint.priority :: k.events)

/-- A thread is refused, or created, made ready and given the processor if it outranks the caller. -/
inductive Blueprint.Spawns (blueprint : Blueprint) (k : Kernel) :
    Except SpawnRefusal ThreadId → Kernel → Prop
  | refused (refusal : SpawnRefusal) : Spawns blueprint k (.error refusal) k
  | made {unblocked k' : Kernel} (room : k.threads.liveCount < k.config.maxThreads)
      (unblocks : (unblock k.threads.next).run (blueprint.enrolled k) = .ok ((), unblocked))
      (preempts : preempt.run unblocked = .ok ((), k')) :
      Spawns blueprint k (.ok k.threads.next) k'

theorem of_run_spawn {blueprint : Blueprint} {result : Except SpawnRefusal ThreadId}
    (h : (spawn blueprint).run k = .ok (result, k')) : blueprint.Spawns k result k' := by
  rw [spawn, run_require_bind_eq_ok_iff, run_get_bind] at h
  obtain ⟨_, h⟩ := h
  split at h
  · cases h
    exact .refused _
  · next room =>
    obtain ⟨issued, enrolled, ran, rest⟩ := run_bind_eq_ok_iff.mp h
    obtain ⟨rfl, rfl⟩ | ⟨rfl, rfl⟩ := enrolled_of_run ran
    · cases rest
      exact .refused _
    · dsimp only at rest
      rw [run_note_bind] at rest
      obtain ⟨_, unblocked, unblocks, rest⟩ := run_bind_eq_ok_iff.mp rest
      obtain ⟨_, last, preempts, rest⟩ := run_bind_eq_ok_iff.mp rest
      cases rest
      exact .made (Nat.lt_of_not_le room) unblocks preempts

/-- The kernel with an idle thread, and interrupts let in. -/
def Kernel.started (k : Kernel) : Kernel :=
  ({ k with
    threads := k.threads.push { name := "idle", base := Priority.lowest }
    idle := some k.threads.next }.withEvents (.started k.threads.next :: k.events)).atLevel .on

theorem of_run_start {result : Except Refusal ThreadId} (h : start.run k = .ok (result, k')) :
    k' = k ∨ k.idle = none ∧ k' = k.started := by
  rw [start, run_get_bind] at h
  split at h
  · cases h
    exact .inl rfl
  · next unstarted =>
    obtain ⟨issued, enrolled, ran, rest⟩ := run_bind_eq_ok_iff.mp h
    obtain ⟨rfl, rfl⟩ | ⟨rfl, rfl⟩ := enrolled_of_run ran
    · cases rest
      exact .inl rfl
    · cases rest
      exact .inr ⟨Option.not_isSome_iff_eq_none.mp unstarted, rfl⟩

/-! ## Interrupts and the timer -/

theorem of_run_enterInterrupt (h : enterInterrupt.run k = .ok (u, k')) :
    k.inInterrupt = false ∧ k' = { k.atLevel .off with inInterrupt := true } := by
  rw [enterInterrupt, run_get_bind, run_require_bind_eq_ok_iff] at h
  obtain ⟨outside, h⟩ := h
  rw [run_require_bind_eq_ok_iff, run_setLevel_bind, run_modify_eq_ok_iff, Prod.mk.injEq] at h
  exact ⟨Bool.eq_false_iff.mpr outside, h.2.2⟩

namespace Kernel

/-- The kernel in which the handler has ended, and what it has put off is no more owed. -/
def resumed (k : Kernel) : Kernel := { k with inInterrupt := false, yieldDue := false }

/-- A handler returns, and the interrupted thread yields if there is reason to. -/
inductive Returns (k : Kernel) : Kernel → Prop
  | resumes (settled : (k.yieldDue || (k.idles && !k.ready.isEmpty)) = false) :
      Returns k (k.resumed.atLevel .on)
  | yields {last : Kernel} (ran : yield.run k.resumed = .ok ((), last)) :
      Returns k (last.atLevel .on)

theorem of_run_leaveInterrupt (h : leaveInterrupt.run k = .ok (u, k')) : k.Returns k' := by
  rw [leaveInterrupt, run_get_bind, run_set_bind] at h
  split at h
  · obtain ⟨_, last, ran, h⟩ := run_bind_eq_ok_iff.mp h
    cases h
    exact .yields ran
  · next settled =>
    cases h
    exact .resumes (Bool.eq_false_iff.mpr settled)

end Kernel

theorem of_run_chargeTick (h : chargeTick.run k = .ok (u, k')) :
    ∃ usage, (usage = k.usage.chargeIdle ∨ usage = k.usage.chargeUser ∨
      usage = k.usage.chargeKernel) ∧ k' = { k with usage } := by
  rw [chargeTick, run_get_bind] at h
  split at h
  · cases h
    exact ⟨_, .inl rfl, rfl⟩
  · rw [run_findThread_bind_eq_ok_iff] at h
    obtain ⟨_, _, h⟩ := h
    split at h
    · cases h
      exact ⟨_, .inr (.inl rfl), rfl⟩
    · cases h
      exact ⟨_, .inr (.inr rfl), rfl⟩

/-- A tick is charged, and then sleepers are woken if any can be due. -/
theorem of_run_timerTick (h : timerTick.run k = .ok (u, k')) :
    k.clock.ticks ≠ maxWord ∧ ∃ usage, (usage = k.usage.chargeIdle ∨ usage = k.usage.chargeUser ∨
        usage = k.usage.chargeKernel) ∧
      (k.clock.ticks + 1 < k.sleepers.nextWake ∧ k' = k.ticked usage ∨
        k.sleepers.nextWake ≤ k.clock.ticks + 1 ∧ ∃ woken,
          (awaken (k.clock.ticks + 1)).run (k.ticked usage) = .ok ((), woken) ∧
            preempt.run woken = .ok ((), k')) := by
  rw [timerTick, run_get_bind, run_lift_bind_eq_ok_iff] at h
  obtain ⟨clock, advances, h⟩ := h
  have later := Clock.ticks_of_advance advances
  rw [Clock.advance] at advances
  split at advances
  · cases advances
  · next room =>
    cases advances
    rw [run_modify_bind] at h
    obtain ⟨_, charged, charges, h⟩ := run_bind_eq_ok_iff.mp h
    obtain ⟨usage, account, rfl⟩ := of_run_chargeTick charges
    obtain ⟨_, counted, counts, h⟩ := run_bind_eq_ok_iff.mp h
    rw [countSlice, run_get_bind, run_require_bind_eq_ok_iff, run_set_eq_ok_iff,
      Prod.mk.injEq] at counts
    obtain ⟨_, _, rfl⟩ := counts
    refine ⟨room, usage, account, ?_⟩
    rw [run_get_bind] at h
    split at h
    · next due =>
      obtain ⟨_, woken, wakes, h⟩ := run_bind_eq_ok_iff.mp h
      exact .inr ⟨SleepQueue.isDue_iff.mp due, woken, wakes, h⟩
    · next undue =>
      cases h
      exact .inl ⟨Nat.lt_of_not_le fun due => undue (SleepQueue.isDue_iff.mpr due), rfl⟩

theorem of_run_timerInterrupt (h : timerInterrupt.run k = .ok (u, k')) :
    ∃ entered handled, enterInterrupt.run k = .ok ((), entered) ∧
      timerTick.run entered = .ok ((), handled) ∧ leaveInterrupt.run handled = .ok ((), k') := by
  obtain ⟨_, entered, enters, h⟩ := run_bind_eq_ok_iff.mp h
  obtain ⟨_, handled, ticks, h⟩ := run_bind_eq_ok_iff.mp h
  obtain ⟨_, last, leaves, h⟩ := run_bind_eq_ok_iff.mp h
  cases h
  exact ⟨entered, handled, enters, ticks, leaves⟩

/-! ## Semaphores and locks -/

theorem of_run_createSemaphore {value : Nat} {purpose : Purpose}
    (h : (Semaphore.create value purpose).run k = .ok (s, k')) :
    s = k.semaphores.next ∧
      k' = { k with semaphores := k.semaphores.push { value, purpose } } := by
  cases h
  exact ⟨rfl, rfl⟩

theorem SemaphoreId.of_run_up (h : s.up.run k = .ok (u, k')) :
    ∃ woken last, s.wake.run (k.atLevel .off) = .ok ((), woken) ∧
      preempt.run woken = .ok ((), last) ∧ k' = last.atLevel k.processor.level := by
  obtain ⟨last, ran, rfl⟩ := run_masked_eq_ok_iff.mp h
  obtain ⟨_, woken, wakes, preempts⟩ := run_bind_eq_ok_iff.mp ran
  exact ⟨woken, last, wakes, preempts, rfl⟩

theorem of_run_destroyLock (h : l.destroy.run k = .ok (u, k')) :
    ∃ lock, k.locks.get? l = some lock ∧ lock.holder = none ∧
      lock.semaphore.destroy.run { k with locks := k.locks.erase l } = .ok ((), k') := by
  rw [LockId.destroy, run_findLock_bind_eq_ok_iff] at h
  obtain ⟨lock, found, h⟩ := h
  split at h
  · cases h
  · next free => exact ⟨lock, found, free, h⟩

theorem locks_of_run_dropDonors (h : l.dropDonors.run k = .ok (u, k')) : k'.locks = k.locks := by
  rw [LockId.dropDonors, run_get_bind, run_modifyThread_bind_eq_ok_iff] at h
  obtain ⟨_, _, _, _, _, _, rfl⟩ := of_run_refresh h.2
  rfl

/-- The donors are given back, the lock is freed, and its unit returned. -/
theorem LockId.of_run_release (h : l.release.run k = .ok (u, k')) :
    ∃ lock dropped last, k.locks.get? l = some lock ∧ lock.holder = some k.current ∧
      l.dropDonors.run (k.atLevel .off) = .ok ((), dropped) ∧
      lock.semaphore.up.run ((dropped.mapLock l fun old => { old with holder := none }).withEvents
        (.releases k.current l :: dropped.events)) = .ok ((), last) ∧
      k' = last.atLevel k.processor.level := by
  rw [LockId.release, run_requireHeld_bind_eq_ok_iff] at h
  obtain ⟨⟨lock, found, holds⟩, h⟩ := h
  obtain ⟨last, ran, rfl⟩ := run_masked_eq_ok_iff.mp h
  rw [run_caller_bind] at ran
  obtain ⟨_, dropped, drops, ran⟩ := run_bind_eq_ok_iff.mp ran
  simp only [run_modifyLock_bind_eq_ok_iff, run_note_bind, run_findLock_bind_eq_ok_iff] at ran
  obtain ⟨_, freed, foundFreed, ups⟩ := ran
  -- the locks are as they were, so it is the same unit that is given back
  have kept : dropped.locks.get? l = some lock := by rwa [locks_of_run_dropDonors drops]
  cases (Arena.get?_modify_self _ kept).symm.trans foundFreed
  exact ⟨lock, dropped, last, found, holds, drops, ups, rfl⟩

/-! ## Conditions -/

theorem of_run_createCondition (h : Condition.create.run k = .ok (c, k')) :
    c = k.conditions.next ∧ k' = { k with conditions := k.conditions.push {} } := by
  cases h
  exact ⟨rfl, rfl⟩

theorem of_run_destroyCondition (h : c.destroy.run k = .ok (u, k')) :
    ∃ condition, k.conditions.get? c = some condition ∧ condition.waiters = [] ∧
      k' = { k with conditions := k.conditions.erase c } := by
  simp only [ConditionId.destroy, run_findCondition_bind_eq_ok_iff, run_require_bind_eq_ok_iff,
    run_modify_eq_ok_iff, Prod.mk.injEq] at h
  obtain ⟨condition, found, unawaited, _, rfl⟩ := h
  exact ⟨condition, found, unawaited, rfl⟩

namespace ConditionId

/-- What becomes of a wait of `t` when the lock has been released: another thread runs, or `t` takes
the signal and the lock at once, or it gives up the processor for want of them. -/
inductive Concludes (t : ThreadId) (s : SemaphoreId) (l : LockId) (left : Kernel) :
    Wait → Kernel → Prop
  | away (switched : left.current ≠ t) : Concludes t s l left .suspended left
  | retaken {k' : Kernel} (stays : left.current = t)
      (reacquires : (l.reacquire s).run (left.mapThread t fun old => { old with pending := none }) =
        .ok (true, k')) : Concludes t s l left .completed k'
  | waits {tried k' : Kernel} (stays : left.current = t)
      (reacquires : (l.reacquire s).run (left.mapThread t fun old => { old with pending := none }) =
        .ok (false, tried))
      (schedules : schedule.run tried = .ok ((), k')) : Concludes t s l left .suspended k'

/-- The wait is queued, the lock released, and the rest depends on who runs then. -/
theorem of_run_wait {result : Wait} (h : (c.wait l).run k = .ok (result, k')) :
    ∃ condition waiters left last, k.holder? l = some k.current ∧
      k.conditions.get? c = some condition ∧
      waiters = Ranked.join k.worth ⟨k.semaphores.next, k.current⟩ condition.waiters ∧
      l.release.run (c.joined l waiters (k.atLevel .off)) = .ok ((), left) ∧
      Concludes k.current k.semaphores.next l left result last ∧
      k' = last.atLevel k.processor.level := by
  rw [wait, run_requireThreadContext_bind_eq_ok_iff, run_requireHeld_bind_eq_ok_iff] at h
  obtain ⟨_, ⟨lock, foundLock, holds⟩, h⟩ := h
  obtain ⟨last, ran, rfl⟩ := run_masked_eq_ok_iff.mp h
  rw [run_caller_bind] at ran
  obtain ⟨s, created, creates, ran⟩ := run_bind_eq_ok_iff.mp ran
  obtain ⟨rfl, rfl⟩ := of_run_createSemaphore creates
  obtain ⟨_, queued, enlists, ran⟩ := run_bind_eq_ok_iff.mp ran
  obtain ⟨condition, waiters, found, ranked, rfl⟩ := of_run_enlist enlists
  rw [run_modifyThread_bind_eq_ok_iff] at ran
  obtain ⟨_, left, releases, ran⟩ := run_bind_eq_ok_iff.mp ran.2
  refine ⟨condition, waiters, left, last, Option.bind_eq_some_iff.mpr ⟨lock, foundLock, holds⟩,
    found, ranked, releases, ?_, rfl⟩
  rw [run_caller_bind] at ran
  split at ran
  · next switched =>
    cases ran
    exact .away switched
  · next stays =>
    have stays := Decidable.not_not.mp stays
    rw [run_modifyThread_bind_eq_ok_iff] at ran
    obtain ⟨success, tried, reacquires, ran⟩ := run_bind_eq_ok_iff.mp ran.2
    cases success with
    | true =>
      cases ran
      exact .retaken stays reacquires
    | false =>
      obtain ⟨_, given, schedules, ran⟩ := run_bind_eq_ok_iff.mp ran
      cases ran
      exact .waits stays reacquires schedules

theorem of_run_signal (h : (c.signal l).run k = .ok (u, k')) :
    ∃ woke woken last, c.wakeFirst.run (k.atLevel .off) = .ok (woke, woken) ∧
      (if woke then preempt else pure () : KernelM Unit).run woken = .ok ((), last) ∧
      k' = last.atLevel k.processor.level := by
  rw [signal, run_requireThreadContext_bind_eq_ok_iff, run_requireHeld_bind_eq_ok_iff] at h
  obtain ⟨last, ran, rfl⟩ := run_masked_eq_ok_iff.mp h.2.2
  obtain ⟨woke, woken, wakes, rest⟩ := run_bind_eq_ok_iff.mp ran
  exact ⟨woke, woken, last, wakes, rest, rfl⟩

theorem of_run_broadcast (h : (c.broadcast l).run k = .ok (u, k')) :
    ∃ count woken last, (c.wakeMany count).run (k.atLevel .off) = .ok ((), woken) ∧
      (if 0 < count then preempt else pure () : KernelM Unit).run woken = .ok ((), last) ∧
      k' = last.atLevel k.processor.level := by
  rw [broadcast, run_requireThreadContext_bind_eq_ok_iff, run_requireHeld_bind_eq_ok_iff] at h
  obtain ⟨last, ran, rfl⟩ := run_masked_eq_ok_iff.mp h.2.2
  rw [run_findCondition_bind_eq_ok_iff] at ran
  obtain ⟨condition, _, ran⟩ := ran
  obtain ⟨_, woken, wakes, rest⟩ := run_bind_eq_ok_iff.mp ran
  exact ⟨condition.waiters.length, woken, last, wakes, rest, rfl⟩

end ConditionId

end ThreadKernel
