import ThreadKernel.Proofs.Handlers
import ThreadKernel.Proofs.Handover
import ThreadKernel.Proofs.Secure
import ThreadKernel.Proofs.Timekeeping

/-!
# Operations that end well

Each operation of a secure kernel ends well if what it asks of its caller is the case.  The
lemmas go through the operations and say what that is.  An operation that gives up the
processor in the middle goes on from a machine that is as secure as the one it started from.
-/

namespace ThreadKernel

open Kernel

variable {d : Discipline} {k k' : Kernel} {t : ThreadId} {thread : Thread} {s : SemaphoreId}
  {semaphore : Semaphore} {l : LockId} {lock : Lock} {c : ConditionId} {u : Unit}

/-- A secure kernel in between operations. -/
structure Poised (d : Discipline) (k : Kernel) : Prop where
  secure : Secure d ⟨k, none⟩
  runs : k.Runs

namespace Poised

theorem steady (poised : Poised d k) : Steady d k := ⟨poised.secure.toRegular, poised.runs⟩

theorem steps {deeds : List Deed} {before : Prop} (poised : Poised d k) (strict : d.Strict)
    (steps : Steps d deeds before k k') : Poised d k' :=
  ⟨poised.secure.moves strict steps.moves, steps.runs⟩

theorem masked (poised : Poised d k) (strict : d.Strict) : Poised d (k.atLevel .off) :=
  ⟨poised.secure.move strict (.quiet (sameWork_atLevel .off)), poised.runs⟩

end Poised

theorem ne_idle_of_busy (busy : k.idles = false) : k.idle ≠ some k.current := by
  intro idles
  rw [idles_iff.mpr idles] at busy
  cases busy

/-! ## Giving up the processor -/

section Secure

variable (secure : Secure d ⟨k, none⟩) (strict : d.Strict) (running : k.Running)

include secure strict running

theorem succeeds_yield (outside : k.inInterrupt = false) : Succeeds yield k := by
  unfold yield
  apply Succeeds.after (run_requireThreadContext .yield outside)
  apply Succeeds.masked
  apply Succeeds.get
  have unleft := unleft_of_running secure.placed running
  have secure := secure.move strict (.quiet (sameWork_atLevel .off))
  rcases running with ⟨thread, found, runs⟩
  split
  · next idles =>
    have halts : Move d none ⟨k.atLevel .off, none⟩ ⟨(k.atLevel .off).mapThread k.current
        fun thread => { thread with state := .blocked }, none⟩ :=
      .halt ⟨thread, found, runs⟩ (.inr (idles_iff.mp idles)) (.inl rfl)
    have present : (k.atLevel .off).Present k.current := ⟨thread, found⟩
    apply Succeeds.modifyThread present
    apply (secure.move strict halts).succeeds_schedule strict rfl rfl _ unleft
    exact ⟨_, Arena.get?_modify_self _ found, by simp⟩
  · next other =>
    have unqueued : k.current ∉ k.ready.threads := secure.placed.not_mem_of_detached found
      (secure.placed.detached_of_running found runs) .ready
    apply Succeeds.bind (succeeds_makeReady (k := k.atLevel .off) ⟨thread, found⟩ unqueued)
    intro _ yielded readies
    rcases of_run_makeReady readies with ⟨thread', found', _, rfl⟩
    cases found.symm.trans found'
    have readies : Move d none ⟨k.atLevel .off, none⟩
        ⟨(k.atLevel .off).readied k.current thread.priority, none⟩ :=
      .ready found runs fun idles => other (idles_iff.mpr idles)
    apply (secure.move strict readies).succeeds_schedule strict rfl rfl _ unleft
    exact ⟨_, Arena.get?_modify_self _ found, by simp⟩

theorem succeeds_preempt : Succeeds preempt k := by
  unfold preempt
  apply Succeeds.get
  split
  · split
    · exact ⟨_, rfl⟩
    · next outside =>
      exact succeeds_yield secure strict running (Bool.eq_false_iff.mpr outside)
  · exact succeeds_pure ()

end Secure

section Poised

variable (poised : Poised d k) (strict : d.Strict)

include poised strict

/-- The processor can be given up once the current thread has left the running state. -/
theorem succeeds_schedule_of_halted {halted : Kernel} (move : Move d none ⟨k, none⟩ ⟨halted, none⟩)
    (masked : halted.processor.level = .off) (current : halted.current = k.current)
    (dying : halted.dying = k.dying)
    (stopped : ∃ thread, halted.threads.get? k.current = some thread ∧ thread.state ≠ .running) :
    Succeeds schedule halted := by
  apply (poised.secure.move strict move).succeeds_schedule strict rfl masked
  · rwa [current]
  · rw [current, dying]
    exact unleft_of_running poised.secure.placed poised.runs.running

theorem succeeds_block (outside : k.inInterrupt = false) (masked : k.processor.level = .off) :
    Succeeds block k := by
  unfold block
  apply Succeeds.after (run_requireThreadContext .block outside)
  apply Succeeds.get
  apply Succeeds.require masked
  apply Succeeds.caller
  rcases id poised.runs with ⟨thread, found, _⟩
  apply Succeeds.modifyThread ⟨thread, found⟩
  have halts : Move d none ⟨k, none⟩
      ⟨k.mapThread k.current fun thread => { thread with state := .blocked }, none⟩ :=
    .halt poised.runs.running (.inl poised.runs) (.inl rfl)
  apply succeeds_schedule_of_halted poised strict halts masked rfl rfl
  exact ⟨_, Arena.get?_modify_self _ found, by simp⟩

theorem succeeds_exit (outside : k.inInterrupt = false) (busy : k.idles = false)
    (empty : k.heldBy k.current = []) : Succeeds exit k := by
  unfold exit
  apply Succeeds.after (run_requireThreadContext .exit outside)
  apply Succeeds.get
  apply Succeeds.require (by simp [busy])
  rcases run_announce (k := k) (.leaving · k.current) fun _ => rfl with ⟨events, grown, announced⟩
  apply Succeeds.after announced
  rw [empty]
  apply Succeeds.masked
  rcases id poised.runs with ⟨thread, found, _⟩
  apply Succeeds.findThread (k := (k.withEvents events).atLevel .off) found
  apply Succeeds.note
  have noted : k.SameWork ((k.atLevel .off).withEvents (.exiting k.current thread.name :: events)) :=
    sameWork_of_remarks (grown.trans (.cons _ _ rfl)) (.refl _) (fun _ => rfl) rfl
  have poised : Poised d ((k.atLevel .off).withEvents (.exiting k.current thread.name :: events)) :=
    ⟨poised.secure.move strict (.quiet noted), poised.runs⟩
  apply Succeeds.modifyThread poised.runs.present
  have dies : RunState.dying = .blocked ∨ RunState.dying = .dying ∧ k.idle ≠ some k.current ∧
      (d.careful = true → ∀ l, k.holder? l ≠ some k.current) :=
    .inr ⟨rfl, ne_idle_of_busy busy, fun _ => holder?_ne_of_heldBy empty⟩
  apply succeeds_schedule_of_halted poised strict
    (.halt poised.runs.running (.inl poised.runs) dies) rfl rfl rfl
  exact ⟨_, Arena.get?_modify_self _ found, by simp⟩

theorem succeeds_sleepUntil (outside : k.inInterrupt = false) (busy : k.idles = false)
    (tick : Nat) : Succeeds (sleepUntil tick) k := by
  unfold sleepUntil
  apply Succeeds.after (run_requireThreadContext .sleep outside)
  apply Succeeds.get
  apply Succeeds.require (by simp [busy])
  split
  · exact ⟨_, rfl⟩
  · next ahead =>
    apply Succeeds.masked
    have poised := poised.masked strict
    rcases id poised.runs with ⟨thread, found, _⟩
    apply Succeeds.modifyThread ⟨thread, found⟩
    apply Succeeds.after rfl
    apply Succeeds.note
    have other := ne_idle_of_busy busy
    apply Succeeds.bind
    · apply succeeds_schedule_of_halted poised strict
        (.doze poised.runs other (.cons (.sleeps k.current tick) _ rfl) (Nat.lt_of_not_le ahead))
          rfl rfl rfl
      exact ⟨_, Arena.get?_modify_self _ found, by simp⟩
    · exact fun _ _ _ => ⟨_, rfl⟩

theorem succeeds_sleep (outside : k.inInterrupt = false) (busy : k.idles = false)
    (ticks : Nat) : Succeeds (sleep ticks) k := by
  unfold sleep
  apply Succeeds.get
  exact succeeds_sleepUntil poised strict outside busy _

theorem succeeds_sleepFor (outside : k.inInterrupt = false) (busy : k.idles = false)
    (duration : Duration) : Succeeds (sleepFor duration) k := by
  unfold sleepFor
  apply Succeeds.get
  exact succeeds_sleep poised strict outside busy _

/-! ## Threads and their priorities -/

theorem succeeds_spawn {blueprint : Blueprint} (valid : blueprint.priority.Valid) :
    Succeeds (spawn blueprint) k := by
  have placed : k.Placed := poised.secure.placed
  unfold spawn
  apply Succeeds.require valid
  apply Succeeds.get
  split
  · exact ⟨_, rfl⟩
  · apply Succeeds.bind
    · unfold enroll
      apply Succeeds.get
      split
      · exact ⟨_, rfl⟩
      · exact ⟨_, rfl⟩
    · intro issued enrolled ran
      rcases enrolled_of_run ran with ⟨rfl, _⟩ | ⟨rfl, rfl⟩
      · exact ⟨_, rfl⟩
      · apply Succeeds.note
        have poised := poised.steps strict (steps_of_enrolled poised.steady blueprint)
        have new : (blueprint.enrolled k).threads.get? k.threads.next = some blueprint.record := by
          rw [Blueprint.enrolled, withEvents_threads, Arena.get?_push, if_pos rfl]
        apply Succeeds.bind (k := blueprint.enrolled k)
        · exact succeeds_unblock new rfl rfl (poised.secure.placed.not_mem_of_detached new rfl .ready)
        · intro _ unblocked unblocks
          have spared := idle_ne_next placed
          have poised := poised.steps strict
            (steps_of_run_unblock poised.steady (fun _ => spared) unblocks)
          apply Succeeds.bind (succeeds_preempt poised.secure strict poised.runs.running)
          exact fun _ _ _ => ⟨_, rfl⟩

theorem succeeds_setPriority {priority : Priority} (valid : priority.Valid) :
    Succeeds (setPriority priority) k := by
  unfold setPriority
  apply Succeeds.require valid
  apply Succeeds.masked
  have poised := poised.masked strict
  generalize k.atLevel .off = k at poised
  apply Succeeds.caller
  have present := poised.runs.present
  apply Succeeds.modifyThread present
  apply Succeeds.bind (succeeds_refresh (present_mapThread.mpr present))
  intro _ refreshed refreshes
  have poised := poised.steps strict (steps_of_run_rebase poised.steady refreshes)
  exact succeeds_preempt poised.secure strict poised.runs.running

/-! ## Interrupts and the timer -/

theorem succeeds_leaveInterrupt : Succeeds leaveInterrupt k := by
  unfold leaveInterrupt
  apply Succeeds.get
  apply Succeeds.after rfl
  have secure := poised.secure.move strict (.quiet (sameWork_resumed k))
  split
  · apply Succeeds.bind (succeeds_yield secure strict poised.runs.running rfl)
    exact fun _ _ _ => ⟨_, rfl⟩
  · exact ⟨_, rfl⟩

end Poised

theorem succeeds_enterInterrupt (outside : k.inInterrupt = false)
    (unmasked : k.processor.level = .on) : Succeeds enterInterrupt k := by
  unfold enterInterrupt
  apply Succeeds.get
  apply Succeeds.require (by simp [outside])
  apply Succeeds.require unmasked
  exact ⟨_, rfl⟩

/-- Sleepers that are all off the queue already are made ready one after the other. -/
theorem succeeds_forM_awaken {woken : List ThreadId} {rest : SleepQueue} {now : Nat}
    (steady : Steady d (k.withSleepers { rest with sleepers := woken ++ rest.sleepers }))
    (come : now ≤ k.clock.ticks)
    (due : ∀ t ∈ woken, ∀ thread, k.threads.get? t = some thread → thread.wakeTick ≤ now) :
    Succeeds (woken.forM fun t => do
      note (.awakens t now)
      modifyThread t fun thread => { thread with place := .detached }
      unblock t : KernelM PUnit) (k.withSleepers rest) := by
  induction woken generalizing k with
  | nil => exact succeeds_pure ()
  | cons t woken ih =>
    have placed := steady.regular.placed
    rcases (placed.mem_queueAt (p := .sleep) (by simp) t).mp List.mem_cons_self with
      ⟨thread, found, asleep⟩
    have blocked : thread.state = .blocked :=
      placed.blocked found (by simp [asleep]) (by simp [asleep])
    have absent : t ∉ k.ready.threads := by
      intro queued
      rcases (placed.mem_queueAt (p := .ready) (by simp) t).mp queued with ⟨thread', found', ready⟩
      cases found.symm.trans found'
      cases asleep.symm.trans ready
    unfold List.forM
    apply Succeeds.bind
    · apply Succeeds.note
      have present : ((k.withSleepers rest).withEvents (.awakens t now :: k.events)).Present t :=
        ⟨thread, found⟩
      apply Succeeds.modifyThread present
      exact succeeds_unblock (Arena.get?_modify_self _ found) blocked rfl absent
    · intro _ middle ran
      rcases of_run_rise ran with ⟨thread', found', _, rfl⟩
      cases found.symm.trans found'
      have rises := steps_of_risen now steady found blocked
        (Nat.le_trans (due t List.mem_cons_self thread found) come)
      apply ih (rises.steady steady)
      · exact come
      · intro t' later record foundLater
        rcases wakeTick_of_risen foundLater with ⟨old, foundOld, same⟩
        rw [← same]
        exact due t' (List.mem_cons_of_mem _ later) old foundOld

theorem succeeds_forM_findThread {sleepers : List ThreadId}
    (present : ∀ t ∈ sleepers, k.Present t) :
    (sleepers.forM fun t => do
      let _ ← findThread t : KernelM PUnit).run k = .ok ((), k) := by
  induction sleepers with
  | nil => rfl
  | cons t rest ih =>
    rcases List.forall_mem_cons.mp present with ⟨⟨thread, found⟩, others⟩
    apply run_forM_cons_eq_ok_iff.mpr
    refine ⟨k, ?_, ih others⟩
    rw [run_bind_of_ok (run_findThread_eq_ok_iff.mpr ⟨found, rfl⟩)]
    rfl

/-- Where nobody is due, nobody is woken. -/
theorem run_awaken_of_undue {now : Nat} (placed : k.Placed)
    (ahead : ∀ t ∈ k.sleepers.sleepers, now < k.wakeTickOf t)
    (first : k.sleepers.nextWake = SleepQueue.earliest (k.sleepers.sleepers.map k.wakeTickOf)) :
    (awaken now).run k = .ok ((), k) := by
  have present : ∀ t ∈ k.sleepers.sleepers, k.Present t := by
    intro t asleep
    rcases placed.exists_of_mem (p := .sleep) asleep with ⟨_, thread, found, _⟩
    exact ⟨thread, found⟩
  have none : (k.sleepers.wake now fun t => (k.threads.get? t).elim 0 (·.wakeTick)) =
      ([], k.sleepers) := SleepQueue.wake_of_undue ahead first
  rw [awaken, run_get_bind, run_bind_of_ok (succeeds_forM_findThread present), none, run_set_bind]
  rfl

theorem exists_run_chargeTick (present : k.Present k.current) :
    ∃ usage, (usage = k.usage.chargeIdle ∨ usage = k.usage.chargeUser ∨
      usage = k.usage.chargeKernel) ∧ chargeTick.run k = .ok ((), { k with usage }) := by
  have ends : Succeeds chargeTick k := by
    unfold chargeTick
    apply Succeeds.get
    split
    · exact ⟨_, rfl⟩
    · rcases present with ⟨thread, found⟩
      apply Succeeds.findThread
      · exact found
      · split
        · exact ⟨_, rfl⟩
        · exact ⟨_, rfl⟩
  rcases ends with ⟨⟨_, charged⟩, ran⟩
  rcases of_run_chargeTick ran with ⟨usage, account, rfl⟩
  exact ⟨usage, account, ran⟩

/-- What the timer's handler does when neither counter outgrows its word. -/
theorem exists_run_timerTick (present : k.Present k.current) (room : k.clock.ticks < maxWord)
    (counts : k.slice < maxHalfWord) :
    ∃ usage, (usage = k.usage.chargeIdle ∨ usage = k.usage.chargeUser ∨
      usage = k.usage.chargeKernel) ∧ timerTick.run k =
        (if k.sleepers.isDue (k.clock.ticks + 1) then do
          awaken (k.clock.ticks + 1)
          preempt
        else pure () : KernelM Unit).run (k.ticked usage) := by
  let later : Kernel := { k with clock := { k.clock with ticks := k.clock.ticks + 1 } }
  rcases exists_run_chargeTick (k := later) present with ⟨usage, account, charges⟩
  have advances : (liftM k.clock.advance : KernelM Clock).run k = .ok (later.clock, k) := by
    rw [run_lift_eq_ok_iff, Clock.advance, if_neg (Nat.ne_of_lt room)]
    exact ⟨rfl, rfl⟩
  have counted : countSlice.run { later with usage } = .ok ((), k.ticked usage) := by
    rw [countSlice, run_get_bind, run_require_bind_eq_ok_iff]
    exact ⟨counts, rfl⟩
  refine ⟨usage, account, ?_⟩
  rw [timerTick, run_get_bind, run_bind_of_ok advances, run_modify_bind, run_bind_of_ok charges,
    run_bind_of_ok counted, run_get_bind]
  rfl

theorem succeeds_awaken {now : Nat} (steady : Steady d k) (come : now ≤ k.clock.ticks) :
    Succeeds (awaken now) k := by
  unfold awaken
  apply Succeeds.get
  have placed : k.Placed := steady.regular.placed
  have present : ∀ t ∈ k.sleepers.sleepers, k.Present t := by
    intro t asleep
    rcases (placed.mem_queueAt (p := .sleep) (by simp) t).mp asleep with ⟨thread, found, _⟩
    exact ⟨thread, found⟩
  apply Succeeds.after (succeeds_forM_findThread present)
  rcases k.exists_wake come with ⟨woken, rest, wakes, same, due⟩
  rw [wakes]
  apply Succeeds.after rfl
  exact succeeds_forM_awaken (d := d) ⟨steady.regular.move (.quiet same), steady.runs⟩ come due

/-- The timer's handler ends well unless one of the counters is full. -/
theorem succeeds_timerTick (steady : Steady d k) (inside : k.inInterrupt = true)
    (room : k.clock.ticks < maxWord) (counts : k.slice < maxHalfWord) : Succeeds timerTick k := by
  rcases exists_run_timerTick steady.runs.present room counts with ⟨usage, account, ran⟩
  rw [Succeeds, ran]
  split
  · have ticked : Steady d (k.ticked usage) := ⟨steady.regular.move (.tick account), steady.runs⟩
    apply Succeeds.bind (succeeds_awaken ticked (Nat.le_refl _))
    intro _ woken wakes
    exact ⟨_, run_preempt_inside ((handler_of_run_awaken wakes).1.trans inside)⟩
  · exact ⟨_, rfl⟩

section Poised

variable (poised : Poised d k) (strict : d.Strict)

include poised strict

theorem succeeds_timerInterrupt (outside : k.inInterrupt = false)
    (unmasked : k.processor.level = .on) (room : k.clock.ticks < maxWord)
    (counts : k.slice < maxHalfWord) : Succeeds timerInterrupt k := by
  apply Succeeds.bind (succeeds_enterInterrupt outside unmasked)
  intro _ entered enters
  have inside := poised.steps strict (steps_of_run_enterInterrupt poised.steady enters)
  apply Succeeds.bind
  · rcases of_run_enterInterrupt enters with ⟨_, rfl⟩
    exact succeeds_timerTick inside.steady rfl room counts
  · intro _ ticked ticks
    have ticked := inside.steps strict (steps_of_run_timerTick inside.steady ticks)
    apply Succeeds.bind (succeeds_leaveInterrupt ticked strict)
    exact fun _ _ _ => succeeds_pure ()

omit poised in
/-- However many interrupts come, as long as the clock does not outgrow its word. -/
theorem succeeds_timerInterrupts {count : Nat} (poised : Poised d k) (timely : k.Timely)
    (slices : k.config.timeSlice ≤ maxHalfWord)
    (free : 0 < count → k.inInterrupt = false ∧ k.processor.level = .on)
    (room : k.clock.ticks + count ≤ maxWord) : Succeeds (timerInterrupts count) k := by
  induction count generalizing k with
  | zero => exact succeeds_pure ()
  | succ count ih =>
    rcases free (Nat.succ_pos count) with ⟨outside, unmasked⟩
    have counts := timely.counts slices
    apply Succeeds.bind (succeeds_timerInterrupt poised strict outside unmasked (by omega) counts)
    intro _ middle first
    rcases steps_of_run_timerInterrupt poised.steady first with ⟨_, steps⟩
    have returned := returned_of_run_timerInterrupt poised.steady first
    apply ih (poised.steps strict steps) (returned.timely timely)
    · rw [returned.config]
      exact slices
    · exact fun _ => ⟨returned.inInterrupt strict.plainHandles, returned.level⟩
    · rw [returned.clock]
      omega

/-! ## Semaphores -/

/-- What is tried can be tried, and the processor given up if that is in vain. -/
theorem succeeds_try (act : Option Act) {attempt : KernelM Bool}
    (attempts : Succeeds attempt (k.atLevel .off))
    (tries : ∀ {success k'}, attempt.run (k.atLevel .off) = .ok (success, k') →
      Tries d act none (k.atLevel .off) success k')
    (vain : ∀ {k'}, attempt.run (k.atLevel .off) = .ok (false, k') →
      (k.atLevel .off).Vain none k') :
    Succeeds (Kernel.masked (do
      if ← attempt then
        pure .completed
      else
        schedule
        pure .suspended : KernelM Wait)) k := by
  apply Succeeds.masked
  apply Succeeds.bind attempts
  intro success tried ran
  cases success with
  | true => exact ⟨_, rfl⟩
  | false =>
    have masked := poised.masked strict
    apply Succeeds.bind
    · exact masked.secure.succeeds_schedule_of_tries strict masked.runs rfl (tries ran) (vain ran)
    · exact fun _ _ _ => ⟨_, rfl⟩

theorem grounded : k.Grounded :=
  poised.secure.grounded strict.plainHandles poised.runs.present

theorem succeeds_down (outside : k.inInterrupt = false) (busy : k.idles = false)
    (found : k.semaphores.get? s = some semaphore) (plain : semaphore.purpose = .plain) :
    Succeeds s.down k := by
  have masked := poised.masked strict
  have grounded := grounded masked strict
  unfold SemaphoreId.down
  apply Succeeds.after (run_requireThreadContext .down outside)
  apply succeeds_try poised strict (some (.down s))
  · exact SemaphoreId.succeeds_attempt (k := k.atLevel .off) found
      (grounded.waiters s semaphore found) grounded.current _
  · exact tries_of_run_attempt masked.runs (fun _ => madeFor_of_get? found plain)
      (.direct fun _ => ne_idle_of_busy busy)
  · exact vain_of_run_attempt

end Poised

section Secure

variable (secure : Secure d ⟨k, none⟩) (strict : d.Strict) (running : k.Running)

include secure strict running

theorem succeeds_up (found : k.semaphores.get? s = some semaphore)
    (plain : semaphore.purpose = .plain) (room : semaphore.value < maxHalfWord) :
    Succeeds s.up k := by
  have secure := secure.move strict (.quiet (sameWork_atLevel .off))
  apply Succeeds.masked
  apply Succeeds.bind (SemaphoreId.succeeds_wake secure.placed found room)
  intro _ woken wakes
  have wakes' : Move d none ⟨k.atLevel .off, none⟩ ⟨woken, none⟩ :=
    .wake (fun _ => madeFor_of_get? found plain) wakes
  apply succeeds_preempt (secure.move strict wakes') strict
  exact (keepsCurrent_of_run_wake (k := k.atLevel .off) running wakes).running running

/-! ## Locks -/

omit running in
/-- The unit of a held lock is out. -/
theorem exists_unit_of_held (found : k.locks.get? l = some lock)
    (holds : lock.holder = some k.current) :
    ∃ unit, k.semaphores.get? lock.semaphore = some unit ∧ unit.value = 0 := by
  rcases (secure.graph strict.plainHandles).unit l lock found with ⟨unit, foundUnit, _, value⟩
  refine ⟨unit, foundUnit, ?_⟩
  rw [value, holds]
  rfl

omit secure strict running in
/-- A release leaves the interrupt level as it was. -/
theorem level_of_run_release (h : l.release.run k = .ok (u, k')) :
    k'.processor.level = k.processor.level := by
  rw [LockId.release, run_requireHeld_bind_eq_ok_iff] at h
  exact level_of_run_masked h.2

theorem succeeds_release (found : k.locks.get? l = some lock)
    (holds : lock.holder = some k.current) : Succeeds l.release k := by
  have masked := secure.move strict (.quiet (sameWork_atLevel .off))
  rcases exists_unit_of_held masked strict found holds with ⟨unit, foundUnit, empty⟩
  rcases id running with ⟨thread, foundCurrent, runs⟩
  have unqueued := secure.placed.unqueued_of_running foundCurrent runs
  rcases LockId.exists_givesUp secure.toRegular strict.plainHandles found holds foundCurrent runs
    with ⟨donors, priority, events, drops, gives⟩
  have rest : Succeeds (do (← findLock l).semaphore.up : KernelM Unit)
      (l.freed donors priority events (k.atLevel .off)) := by
    apply Succeeds.findLock (Arena.get?_modify_self _ found)
    apply Succeeds.masked
    apply Succeeds.bind
    · apply SemaphoreId.succeeds_wake
      · exact LockId.placed_freed masked.toSound foundCurrent runs
      · exact foundUnit
      · rw [empty]
        decide
    · intro _ released wakes
      -- interrupts are masked already when the unit is returned
      have releases : Move d (some (.release l)) ⟨k.atLevel .off, none⟩ ⟨released, none⟩ :=
        .release running found holds drops wakes
      apply succeeds_preempt (masked.move strict releases) strict
      exact (keepsCurrent_of_releases (k := k.atLevel .off) unqueued foundCurrent runs drops
        wakes).running running
  rcases rest with ⟨_, ran⟩
  exact ⟨_, gives.rest.trans (congrArg _ ran)⟩

end Secure

section Poised

variable (poised : Poised d k) (strict : d.Strict)

include poised strict

omit strict in
theorem present_of_holds (holds : k.holder? l = some t) : k.Present t := by
  rcases poised.secure.holders l t holds with ⟨_, posted, _⟩
  rcases Option.map_eq_some_iff.mp posted with ⟨thread, found, _⟩
  exact ⟨thread, found⟩

theorem succeeds_acquire (outside : k.inInterrupt = false) (busy : k.idles = false)
    (found : k.locks.get? l = some lock) (other : lock.holder ≠ some k.current) :
    Succeeds l.acquire k := by
  have masked := poised.masked strict
  unfold Succeeds
  rw [LockId.run_acquire outside found other]
  apply succeeds_try poised strict (some (.acquire l))
  · apply LockId.succeeds_attempt (k := k.atLevel .off) (grounded masked strict) found
    intro h holds
    exact present_of_holds masked (Option.bind_eq_some_iff.mpr ⟨lock, found, holds⟩)
  · exact tries_of_run_attemptLock masked.secure.toRegular masked.runs
      (.direct fun _ => ne_idle_of_busy busy)
  · exact vain_of_run_attemptLock

theorem succeeds_tryAcquire (found : k.locks.get? l = some lock)
    (other : lock.holder ≠ some k.current) : Succeeds l.tryAcquire k := by
  have grounded := grounded (poised.masked strict) strict
  rcases grounded.units l lock found with ⟨unit, foundUnit⟩
  unfold LockId.tryAcquire
  apply Succeeds.after (LockId.run_requireNotHeld .tryAcquire found other)
  apply Succeeds.masked
  apply Succeeds.findLock (k := k.atLevel .off) found
  apply Succeeds.bind
  · apply Succeeds.masked
    exact SemaphoreId.succeeds_take foundUnit
  · intro success tried tries
    rcases run_masked_eq_ok_iff.mp tries with ⟨taken, takes, rfl⟩
    rcases SemaphoreId.of_run_take takes with ⟨_, _, ⟨rfl, _, rfl⟩ | ⟨rfl, _, rfl⟩⟩
    · apply Succeeds.bind
      · exact LockId.succeeds_hold (SemaphoreId.grounded_taken grounded) found
      · exact fun _ _ _ => succeeds_pure true
    · exact succeeds_pure false

omit poised strict in
theorem succeeds_destroyLock (found : k.locks.get? l = some lock) (free : lock.holder = none)
    (foundUnit : k.semaphores.get? lock.semaphore = some semaphore)
    (unawaited : semaphore.waiters = []) : Succeeds l.destroy k := by
  unfold LockId.destroy
  apply Succeeds.findLock found
  rw [free]
  apply Succeeds.after rfl
  exact SemaphoreId.succeeds_destroy foundUnit unawaited

/-! ## Conditions -/

omit strict in
/-- Whoever waits on a condition is in the table. -/
theorem present_of_enlisted {w : Waiter} (listed : w ∈ k.enlisted c) : k.Present w.thread := by
  rcases poised.secure.tended.left c w listed with ⟨l, left⟩
  rcases Option.bind_eq_some_iff.mp ((Machine.work?_none k _).symm.trans left) with
    ⟨thread, found, _⟩
  exact ⟨thread, found⟩

end Poised

namespace ConditionId

theorem run_ranked {condition : Condition} (found : k.conditions.get? c = some condition)
    (present : ∀ w ∈ condition.waiters, k.Present w.thread) :
    c.ranked.run k =
      .ok (Ranked.sort (fun w => k.priorityOf w.thread) condition.waiters, k) := by
  have sorts : Ranked.sortWith (fun w : Waiter => k.threads.rank w.thread) condition.waiters =
      .ok (Ranked.sort (fun w => k.priorityOf w.thread) condition.waiters) :=
    Ranked.sortWith_eq fun w member => rank_of_present (present w member)
  rw [ranked, run_ranks_bind, run_findCondition_bind_eq_ok_iff]
  exact ⟨condition, found, run_lift_eq_ok_iff.mpr ⟨sorts, rfl⟩⟩

theorem succeeds_enlist {condition : Condition} (found : k.conditions.get? c = some condition)
    (current : k.Present k.current) (present : ∀ w ∈ condition.waiters, k.Present w.thread) :
    Succeeds (c.enlist s) k := by
  unfold enlist
  apply Succeeds.caller
  apply Succeeds.ranks
  apply Succeeds.after (run_ranked found present)
  have inserts : Ranked.insertWith (fun w : Waiter => k.threads.rank w.thread) ⟨s, k.current⟩
      (Ranked.sort (fun w => k.priorityOf w.thread) condition.waiters) =
        .ok (Ranked.insert (fun w => k.priorityOf w.thread) ⟨s, k.current⟩
          (Ranked.sort (fun w => k.priorityOf w.thread) condition.waiters)) :=
    Ranked.insertWith_eq (rank_of_present current) fun w member =>
      rank_of_present (present w (Ranked.mem_sort.mp member))
  apply Succeeds.lift inserts
  apply Succeeds.modifyCondition found
  exact ⟨_, rfl⟩

/-- Calling a waiter takes no condition away. -/
theorem live_of_run_wakeFirst {woke : Bool} (h : c.wakeFirst.run k = .ok (woke, k')) :
    ∃ condition, k'.conditions.get? c = some condition := by
  rcases of_run_wakeFirst h with ⟨condition, found, ⟨_, _, rfl⟩ | ⟨waiter, rest, _, _, wakes⟩⟩
  · exact ⟨_, Arena.get?_modify_self _ found⟩
  · rcases SemaphoreId.of_run_wake wakes with ⟨_, _, ⟨_, rfl⟩ | ⟨_, _, _, woken⟩⟩
    · exact ⟨_, Arena.get?_modify_self _ found⟩
    · rcases of_run_unblock woken with ⟨_, _, _, _, _, rfl⟩
      exact ⟨_, Arena.get?_modify_self _ found⟩

end ConditionId

section Poised

variable (poised : Poised d k)

include poised

/-- The private semaphore of a wait in the queue has room for the signal. -/
theorem succeeds_wakeFirst {condition : Condition}
    (found : k.conditions.get? c = some condition) : Succeeds c.wakeFirst k := by
  have listed : ∀ w ∈ condition.waiters, w ∈ k.enlisted c := by
    intro w member
    rwa [enlisted_of_get? found]
  unfold ConditionId.wakeFirst
  apply Succeeds.after
  · exact ConditionId.run_ranked found fun w member => present_of_enlisted poised (listed w member)
  apply Succeeds.modifyCondition found
  split
  · exact succeeds_pure false
  · next waiter rest queued =>
    have member : waiter ∈ condition.waiters := by
      rw [← Ranked.mem_sort, queued]
      exact List.mem_cons_self
    rcases Option.map_eq_some_iff.mp
      (poised.secure.tended.empty_of_mem (listed waiter member)).1 with ⟨signal, foundSignal, stock⟩
    have placed : k.Placed := poised.secure.placed
    apply Succeeds.note
    apply Succeeds.bind
    · apply SemaphoreId.succeeds_wake
      · exact placed.of_same_queues rfl rfl (fun p => by cases p <;> rfl) rfl rfl rfl
      · exact foundSignal
      · have empty : signal.value = 0 := congrArg Prod.fst stock
        rw [empty]
        decide
    · exact fun _ _ _ => succeeds_pure true

variable (strict : d.Strict)

include strict

theorem succeeds_wakeMany {count : Nat} {condition : Condition}
    (found : k.conditions.get? c = some condition) : Succeeds (c.wakeMany count) k := by
  induction count generalizing k condition with
  | zero => exact succeeds_pure ()
  | succ count ih =>
    apply Succeeds.bind (succeeds_wakeFirst poised found)
    intro woke woken wakes
    rcases ConditionId.live_of_run_wakeFirst wakes with ⟨condition', found'⟩
    have poised : Poised d woken := by
      rcases steps_of_run_wakeFirst poised.steady wakes with ⟨_, ⟨_, first⟩ | ⟨_, first⟩⟩
      · exact poised.steps strict first
      · exact poised.steps strict first
    exact ih poised found'

theorem succeeds_signal {condition : Condition} (outside : k.inInterrupt = false)
    (foundLock : k.locks.get? l = some lock) (holds : lock.holder = some k.current)
    (found : k.conditions.get? c = some condition) : Succeeds (c.signal l) k := by
  have masked := poised.masked strict
  unfold ConditionId.signal
  apply Succeeds.after (run_requireThreadContext .signal outside)
  apply Succeeds.after (LockId.run_requireHeld .signal foundLock holds)
  apply Succeeds.masked
  apply Succeeds.bind (succeeds_wakeFirst (k := k.atLevel .off) masked found)
  intro woke woken wakes
  rcases steps_of_run_wakeFirst masked.steady wakes with ⟨_, ⟨rfl, _⟩ | ⟨rfl, first⟩⟩
  · exact succeeds_pure ()
  · have poised := masked.steps strict first
    exact succeeds_preempt poised.secure strict poised.runs.running

theorem succeeds_broadcast {condition : Condition} (outside : k.inInterrupt = false)
    (foundLock : k.locks.get? l = some lock) (holds : lock.holder = some k.current)
    (found : k.conditions.get? c = some condition) : Succeeds (c.broadcast l) k := by
  have masked := poised.masked strict
  unfold ConditionId.broadcast
  apply Succeeds.after (run_requireThreadContext .broadcast outside)
  apply Succeeds.after (LockId.run_requireHeld .broadcast foundLock holds)
  apply Succeeds.masked
  apply Succeeds.findCondition (k := k.atLevel .off) found
  apply Succeeds.bind (succeeds_wakeMany (k := k.atLevel .off) masked strict found)
  intro _ woken wakes
  split
  · rcases steps_of_run_wakeMany masked.steady wakes with ⟨_, steps, _⟩
    have poised := masked.steps strict steps
    exact succeeds_preempt poised.secure strict poised.runs.running
  · exact succeeds_pure ()

/-- The lock can be released, and whether or not that gives the processor away, the wait goes
on. -/
theorem succeeds_wait {condition : Condition} (outside : k.inInterrupt = false)
    (busy : k.idles = false) (foundLock : k.locks.get? l = some lock)
    (holds : lock.holder = some k.current) (found : k.conditions.get? c = some condition) :
    Succeeds (c.wait l) k := by
  have masked := poised.masked strict
  have present : ∀ w ∈ condition.waiters, k.Present w.thread := by
    intro w member
    apply present_of_enlisted poised (c := c)
    rwa [enlisted_of_get? found]
  unfold ConditionId.wait
  apply Succeeds.after (run_requireThreadContext .wait outside)
  apply Succeeds.after (LockId.run_requireHeld .wait foundLock holds)
  apply Succeeds.masked
  apply Succeeds.caller
  apply Succeeds.after rfl
  apply Succeeds.bind
  · exact ConditionId.succeeds_enlist found poised.runs.present present
  intro _ queued enlists
  rcases ConditionId.of_run_enlist enlists with ⟨condition', waiters, found', ranked, rfl⟩
  cases found.symm.trans found'
  apply Succeeds.modifyThread
  · exact poised.runs.present
  have joins := moves_of_joined poised.steady (fun _ => ne_idle_of_busy busy)
    (Option.bind_eq_some_iff.mpr ⟨lock, foundLock, holds⟩) found ranked
  have joined := poised.secure.moves strict joins
  have running : (c.joined l waiters (k.atLevel .off)).Running := running_joined poised.runs
  apply Succeeds.bind
  · exact succeeds_release joined strict running foundLock holds
  intro _ left leaves
  rcases exists_releases (k := c.joined l waiters (k.atLevel .off)) joined.toRegular running
    leaves with ⟨released, releases⟩
  apply Succeeds.caller
  split
  · exact succeeds_pure _
  · next stays =>
    have stays : left.current = k.current := Decidable.not_not.mp stays
    rcases undertakes_of_releases masked.secure.tidy masked.runs releases stays with
      ⟨same, undertakes, runs, _⟩
    have secure := joined.moves strict
      ((releases.moves.silent (.quiet same)).trans (.single undertakes))
    have masked : left.processor.level = .off := level_of_run_release leaves
    apply Succeeds.modifyThread
    · exact present_mapThread.mp (stays ▸ runs.present)
    apply Succeeds.bind
    · exact secure.succeeds_finish strict runs
    · intro success tried reacquires
      cases success with
      | true => exact succeeds_pure _
      | false =>
        have tries := tries_of_run_reacquire secure.toRegular runs reacquires
        apply Succeeds.bind
        · exact secure.succeeds_schedule_of_tries strict runs masked tries
            (vain_of_run_finish reacquires)
        · exact fun _ _ _ => ⟨_, rfl⟩

end Poised

end ThreadKernel
