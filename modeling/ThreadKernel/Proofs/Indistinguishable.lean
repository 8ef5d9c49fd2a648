import ThreadKernel.Proofs.EveryRun
import ThreadKernel.Proofs.Neutrality

/-!
# The rules cannot be told apart

Wherever an operation looks for another thread to run, nothing is out of place, so every
operation is neutral at every kernel in between operations.  By induction a run goes the same
way under either rule, step by step and up to its end or its fault.
-/

namespace ThreadKernel

open Kernel

variable {d : Discipline} {k k' : Kernel} {t : ThreadId} {s : SemaphoreId} {l : LockId}
  {c : ConditionId} {rule : Reposition}

/-! ## Giving up the processor -/

theorem Kernel.Neutral.inThread {β : Type} {operation : Operation} {f : Unit → KernelM β}
    (rest : Neutral (f ()) k) : Neutral (requireThreadContext operation >>= f) k := by
  apply Neutral.bind
  · exact Neutral.get (fun _ => rfl) (neutral_require _)
  · intro _ k' checked
    rw [requireThreadContext, run_get_bind, run_require_eq_ok_iff] at checked
    cases checked.2
    exact rest

/-- Nothing is out of place where a move has led to. -/
theorem neutral_schedule_of_move {act : Option Act} (regular : Regular d ⟨k, none⟩)
    (move : Move d act ⟨k, none⟩ ⟨k', none⟩) : Neutral schedule k' :=
  neutral_schedule (regular.move move).placed

section Processor

variable (regular : Regular d ⟨k, none⟩) (running : k.Running)

include regular running

theorem neutral_yield : Neutral yield k := by
  have regular : Regular d ⟨k.atLevel .off, none⟩ := regular.move (.quiet (sameWork_atLevel .off))
  unfold yield
  apply Neutral.inThread
  apply Neutral.masked
  apply Neutral.get (fun _ => rfl)
  split
  · next idles =>
    apply Neutral.modifyThread
    intro _ _
    have halts : (k.atLevel .off).Running := running
    exact neutral_schedule_of_move regular (.halt halts (.inr (idles_iff.mp idles)) (.inl rfl))
  · next other =>
    apply (neutral_makeReady _ _).bind
    intro _ yielded readies
    rcases running with ⟨thread, found, runs⟩
    rcases of_run_makeReady readies with ⟨thread', found', _, rfl⟩
    cases found.symm.trans found'
    exact neutral_schedule_of_move regular
      (.ready found runs fun idles => other (idles_iff.mpr idles))

theorem neutral_preempt : Neutral preempt k := by
  intro rule
  have outranked : (k.ruled rule).outranked = k.outranked := rfl
  have inInterrupt : (k.ruled rule).inInterrupt = k.inInterrupt := rfl
  rw [preempt, run_get_bind, run_get_bind, outranked, inInterrupt]
  split
  · split
    · rfl
    · exact neutral_yield regular running rule
  · rfl

end Processor

/-! ## What needs no order -/

theorem neutral_enroll (thread : Thread) : Neutral (enroll thread) k := by
  intro rule
  have same : (k.ruled rule).threads = k.threads := rfl
  rw [enroll, run_get_bind, run_get_bind, same]
  split
  · rfl
  · rfl

theorem neutral_start : Neutral start k := by
  unfold start
  apply Neutral.get (fun _ => rfl)
  split
  · exact neutral_pure _
  · apply (neutral_enroll _).bind
    intro issued enrolled _
    split
    · exact neutral_pure _
    · apply (neutral_modify fun _ => rfl).bind
      intro _ appointed _
      apply Neutral.note
      exact fun _ => rfl

theorem neutral_enterInterrupt : Neutral enterInterrupt k := by
  unfold enterInterrupt
  apply Neutral.get (fun _ => rfl)
  apply Neutral.require
  intro _
  apply Neutral.require
  intro _
  apply Neutral.bind (fun _ => rfl)
  exact fun _ _ _ => neutral_modify fun _ => rfl

theorem neutral_awaken (now : Nat) : Neutral (awaken now) k := by
  have looks : Neutral (k.sleepers.sleepers.forM fun t => do
      let _ ← findThread t : KernelM PUnit) k :=
    neutral_forM fun t k => (neutral_findThread t k).bind fun _ _ _ => neutral_pure _
  have rises : ∀ woken : List ThreadId, ∀ k, Neutral (woken.forM fun t => do
      note (.awakens t now)
      modifyThread t fun thread => { thread with place := .detached }
      unblock t : KernelM PUnit) k := fun woken k =>
    neutral_forM fun t k => Neutral.note (Neutral.modifyThread fun _ _ => neutral_unblock t _)
  intro rule
  rw [awaken, run_get_bind, run_get_bind]
  apply looks.run_bind
  intro _ k' _
  exact rises (k.sleepers.wake now fun t => (k.threads.get? t).elim 0 (·.wakeTick)).1
    (k.withSleepers
      (k.sleepers.wake now fun t => (k.threads.get? t).elim 0 (·.wakeTick)).2) rule

theorem neutral_chargeTick : Neutral chargeTick k := by
  intro rule
  have idles : (k.ruled rule).idles = k.idles := rfl
  rw [chargeTick, run_get_bind, run_get_bind, idles]
  split
  · rfl
  · apply (neutral_findThread k.current k).run_bind
    intro thread k' _
    split
    · rfl
    · rfl

theorem neutral_countSlice : Neutral countSlice k := by
  intro rule
  rw [countSlice, run_get_bind, run_get_bind]
  exact (neutral_require _).run_bind fun _ _ _ => rfl

/-! ## Operations of the current thread -/

theorem aloof_of_regular {due : Option Pending} (regular : Regular d ⟨k, due⟩)
    (running : k.Running) : k.Aloof := by
  have placed : k.Placed := regular.placed
  rcases running with ⟨thread, found, runs⟩
  have detached := placed.detached_of_running found runs
  exact ⟨placed.inLine, placed.not_mem_of_detached found detached .ready⟩

section Steady

variable (steady : Steady {} k)

include steady

theorem neutral_block : Neutral block k := by
  unfold block
  apply Neutral.inThread
  apply Neutral.get (fun _ => rfl)
  apply Neutral.require
  intro _
  apply Neutral.caller
  apply Neutral.modifyThread
  intro _ _
  exact neutral_schedule_of_move steady.regular
    (.halt steady.runs.running (.inl steady.runs) (.inl rfl))

theorem neutral_exit : Neutral exit k := by
  unfold exit
  apply Neutral.inThread
  apply Neutral.get (fun _ => rfl)
  apply Neutral.require
  intro busy
  have other : k.idle ≠ some k.current := fun idles => busy (idles_iff.mpr idles)
  have leaves : ∀ events, Remarks k.events events → Neutral (Kernel.masked (do
      note (.exiting k.current (← findThread k.current).name)
      modifyThread k.current fun thread => { thread with state := .dying }
      schedule)) (k.withEvents events) := by
    intro events grown
    apply Neutral.masked
    apply Neutral.findThread
    intro thread _
    apply Neutral.note
    apply Neutral.modifyThread
    intro _ _
    have noted : k.SameWork (((k.withEvents events).atLevel .off).withEvents
        (.exiting k.current thread.name :: events)) :=
      sameWork_of_remarks (grown.trans (.cons _ _ rfl)) (.refl _) (fun _ => rfl) rfl
    have runs := noted.runs steady.runs
    exact neutral_schedule_of_move (steady.regular.move (.quiet noted))
      (.halt runs.running (.inl runs) (.inr ⟨rfl, other, fun careful => by cases careful⟩))
  rcases run_announce (k := k) (.leaving · k.current) (fun _ => rfl) with ⟨events, grown, announced⟩
  apply (neutral_announce _ k).bind
  intro _ told tells
  rw [announced, Except.ok.injEq, Prod.mk.injEq] at tells
  rcases tells with ⟨_, rfl⟩
  dsimp only
  split
  · apply Neutral.note
    exact leaves _ (grown.trans (.cons _ _ rfl))
  · exact leaves _ grown

theorem neutral_spawn (blueprint : Blueprint) : Neutral (spawn blueprint) k := by
  unfold spawn
  apply Neutral.require
  intro _
  apply Neutral.get (fun _ => rfl)
  split
  · exact neutral_pure _
  · apply (neutral_enroll _).bind
    intro issued enrolled ran
    rcases enrolled_of_run ran with ⟨rfl, _⟩ | ⟨rfl, rfl⟩
    · exact neutral_pure _
    · apply Neutral.note
      have spared := idle_ne_next steady.regular.placed
      have steady := (steps_of_enrolled steady blueprint).steady steady
      apply (neutral_unblock _ _).bind
      intro _ unblocked unblocks
      have steady := (steps_of_run_unblock steady (fun _ => spared) unblocks).steady steady
      apply (neutral_preempt steady.regular steady.runs.running).bind
      exact fun _ _ _ => neutral_pure _

theorem neutral_setPriority (priority : Priority) : Neutral (setPriority priority) k := by
  unfold setPriority
  apply Neutral.require
  intro _
  apply Neutral.masked
  have steady := steady.masked
  generalize k.atLevel .off = k at steady
  have aloof := aloof_of_regular steady.regular steady.runs.running
  apply Neutral.caller
  apply Neutral.modifyThread
  intro _ _
  apply (even_refresh aloof.mapCurrent).neutral.bind
  intro _ refreshed refreshes
  have steady := (steps_of_run_rebase steady refreshes).steady steady
  exact neutral_preempt steady.regular steady.runs.running

theorem neutral_leaveInterrupt : Neutral leaveInterrupt k := by
  have yields : Neutral (do
      if k.yieldDue || (k.idles && !k.ready.isEmpty) then yield
      let _ ← setLevel .on
      pure ()) k.resumed := by
    split
    · apply (neutral_yield (steady.regular.move (.quiet (sameWork_resumed k)))
        steady.runs.running).bind
      exact fun _ _ _ _ => rfl
    · exact fun _ => rfl
  intro rule
  rw [leaveInterrupt, run_get_bind, run_get_bind, run_set_bind, run_set_bind]
  exact yields rule

theorem neutral_timerTick : Neutral timerTick k := by
  unfold timerTick
  apply Neutral.get (fun _ => rfl)
  apply Neutral.lift
  intro clock advances
  apply (neutral_modify fun _ => rfl).bind
  intro _ advanced ran
  cases ran
  apply neutral_chargeTick.bind
  intro _ charged charges
  rcases of_run_chargeTick charges with ⟨usage, account, rfl⟩
  apply neutral_countSlice.bind
  intro _ counted counts
  rw [countSlice, run_get_bind, run_require_bind_eq_ok_iff, run_set_eq_ok_iff, Prod.mk.injEq]
    at counts
  rcases counts with ⟨_, _, rfl⟩
  rw [Clock.advance] at advances
  split at advances
  · cases advances
  · cases advances
    have ticked : Steady {} (k.ticked usage) := ⟨steady.regular.move (.tick account), steady.runs⟩
    apply Neutral.get (fun _ => rfl)
    split
    · apply (neutral_awaken _).bind
      intro _ woken wakes
      have steady := (steps_of_run_awaken ticked (Nat.le_refl _) wakes).steady ticked
      exact neutral_preempt steady.regular steady.runs.running
    · exact neutral_pure ()

theorem neutral_timerInterrupt : Neutral timerInterrupt k := by
  unfold timerInterrupt interrupt
  apply neutral_enterInterrupt.bind
  intro _ entered enters
  have steady := (steps_of_run_enterInterrupt steady enters).steady steady
  apply (neutral_timerTick steady).bind
  intro _ ticked ticks
  have steady := (steps_of_run_timerTick steady ticks).steady steady
  exact (neutral_leaveInterrupt steady).bind fun _ _ _ => neutral_pure ()

theorem neutral_timerInterrupts (count : Nat) : Neutral (timerInterrupts count) k := by
  induction count generalizing k with
  | zero => exact neutral_pure ()
  | succ count ih =>
    apply (neutral_timerInterrupt steady).bind
    intro _ middle first
    rcases steps_of_run_timerInterrupt steady first with ⟨_, steps⟩
    exact ih (steps.steady steady)

theorem neutral_sleepUntil (tick : Nat) : Neutral (sleepUntil tick) k := by
  unfold sleepUntil
  apply Neutral.inThread
  apply Neutral.get (fun _ => rfl)
  apply Neutral.require
  intro busy
  split
  · exact neutral_pure _
  · next ahead =>
    apply Neutral.masked
    have steady := steady.masked
    apply Neutral.modifyThread
    intro _ _
    apply (neutral_modify fun _ => rfl).bind
    intro _ dozing dozes
    cases dozes
    apply Neutral.note
    have other : k.idle ≠ some k.current := fun idles => busy (idles_iff.mpr idles)
    apply Neutral.bind
    · exact neutral_schedule_of_move steady.regular
        (.doze steady.runs other (.cons (.sleeps k.current tick) _ rfl) (Nat.lt_of_not_le ahead))
    · exact fun _ _ _ => neutral_pure _

theorem neutral_sleep (ticks : Nat) : Neutral (sleep ticks) k := by
  unfold sleep
  apply Neutral.get (fun _ => rfl)
  exact neutral_sleepUntil steady _

theorem neutral_sleepFor (duration : Duration) : Neutral (sleepFor duration) k := by
  unfold sleepFor
  apply Neutral.get (fun _ => rfl)
  exact neutral_sleep steady _

/-! ## Semaphores -/

/-- What is tried, and gives up the processor if in vain. -/
theorem neutral_try {act : Option Act} {attempt : KernelM Bool}
    (neutral : Neutral attempt (k.atLevel .off))
    (tries : ∀ {success k'}, attempt.run (k.atLevel .off) = .ok (success, k') →
      Tries {} act none (k.atLevel .off) success k') :
    Neutral (Kernel.masked (do
      if ← attempt then
        pure .completed
      else
        schedule
        pure .suspended : KernelM Wait)) k := by
  apply Neutral.masked
  apply neutral.bind
  intro success tried ran
  split
  · exact neutral_pure _
  · have placed := (steady.masked.regular.moves (tries ran).moves).placed
    exact (neutral_schedule placed).bind fun _ _ _ => neutral_pure _

theorem neutral_down : Neutral s.down k := by
  unfold SemaphoreId.down
  apply Neutral.inThread
  apply neutral_try steady (SemaphoreId.neutral_attempt s _ _)
  exact tries_of_run_attempt steady.masked.runs (fun named => by cases named)
    (.direct fun spares => by cases spares.1)

theorem neutral_up : Neutral s.up k := by
  have masked := steady.masked
  apply Neutral.masked
  apply (SemaphoreId.neutral_wake s _).bind
  intro _ woken wakes
  have wakes' : Move {} none ⟨k.atLevel .off, none⟩ ⟨woken, none⟩ :=
    .wake (fun named => by cases named) wakes
  apply neutral_preempt (masked.regular.move wakes')
  exact (keepsCurrent_of_run_wake masked.runs.running wakes).running masked.runs.running

end Steady

/-! ## Locks -/

namespace LockId

theorem neutral_holder (l : LockId) (k : Kernel) : Neutral l.holder k :=
  (neutral_findLock l k).map Lock.holder

theorem neutral_isHeldByCaller (l : LockId) (k : Kernel) : Neutral l.isHeldByCaller k := by
  apply (neutral_holder l k).bind
  intro holder k' _
  exact Neutral.caller (neutral_pure _)

theorem neutral_check {p : Bool → Prop} [DecidablePred p] (l : LockId) (k : Kernel)
    (fault : ThreadId → Fault) :
    Neutral (do require (p (← l.isHeldByCaller)) (fault (← caller))) k := by
  apply (neutral_isHeldByCaller l k).bind
  intro held k' _
  exact Neutral.caller (neutral_require _)

theorem neutral_requireHeld {operation : Operation} {β : Type} {f : Unit → KernelM β}
    (rest : ∀ lock, k.locks.get? l = some lock → lock.holder = some k.current → Neutral (f ()) k) :
    Neutral (l.requireHeld operation >>= f) k := by
  have checks : Neutral (l.requireHeld operation) k := neutral_check (p := (· = true)) l k _
  apply checks.bind
  intro _ k' ran
  rw [← bind_pure (l.requireHeld operation), run_requireHeld_bind_eq_ok_iff] at ran
  rcases ran with ⟨⟨lock, found, holds⟩, same⟩
  cases same
  exact rest lock found holds

theorem neutral_requireNotHeld {operation : Operation} {β : Type} {f : Unit → KernelM β}
    (rest : Neutral (f ()) k) : Neutral (l.requireNotHeld operation >>= f) k := by
  have checks : Neutral (l.requireNotHeld operation) k := neutral_check (p := (¬ · = true)) l k _
  apply checks.bind
  intro _ k' ran
  rw [← bind_pure (l.requireNotHeld operation), run_requireNotHeld_bind_eq_ok_iff] at ran
  cases ran.2
  exact rest

theorem neutral_waiters (l : LockId) (k : Kernel) : Neutral l.waiters k := by
  apply Neutral.findLock
  intro lock _
  exact (neutral_findSemaphore lock.semaphore k).map Semaphore.waiters

theorem neutral_destroy (l : LockId) (k : Kernel) : Neutral l.destroy k := by
  unfold destroy
  apply Neutral.findLock
  intro lock _
  split
  · exact neutral_throw _
  · apply (neutral_modify fun _ => rfl).bind
    exact fun _ k' _ => SemaphoreId.neutral_destroy lock.semaphore k'

theorem neutral_acquire (steady : Steady {} k) (l : LockId) : Neutral l.acquire k := by
  have masked := steady.masked
  unfold acquire
  apply Neutral.inThread
  apply neutral_requireNotHeld
  apply neutral_try steady
  · exact (even_attempt (aloof_of_regular masked.regular masked.runs.running) l).neutral
  · exact tries_of_run_attemptLock masked.regular masked.runs
      (.direct fun spares => by cases spares.1)

theorem neutral_tryAcquire (steady : Steady {} k) (l : LockId) : Neutral l.tryAcquire k := by
  have masked := steady.masked
  unfold tryAcquire
  apply neutral_requireNotHeld
  apply Neutral.masked
  apply Neutral.findLock
  intro lock _
  apply (Neutral.masked (SemaphoreId.neutral_take lock.semaphore _)).bind
  intro success tried tries
  rcases run_masked_eq_ok_iff.mp tries with ⟨taken, takes, rfl⟩
  split
  · have aloof : (taken.atLevel (k.atLevel .off).processor.level).Aloof := by
      have aloof := aloof_of_regular masked.regular masked.runs.running
      rcases SemaphoreId.of_run_take takes with ⟨_, _, ⟨_, _, rfl⟩ | ⟨_, _, rfl⟩⟩
      · exact aloof.beside rfl rfl rfl
      · exact aloof.beside rfl rfl rfl
    exact (even_hold aloof l).neutral.bind fun _ _ _ => neutral_pure true
  · exact neutral_pure false

theorem neutral_release (regular : Regular d ⟨k, none⟩) (running : k.Running) (l : LockId) :
    Neutral l.release k := by
  have masked : Regular d ⟨k.atLevel .off, none⟩ := regular.move (.quiet (sameWork_atLevel .off))
  rcases id running with ⟨thread, foundCurrent, runs⟩
  have unqueued := masked.placed.unqueued_of_running foundCurrent runs
  unfold release
  apply neutral_requireHeld
  intro lock found holds
  apply Neutral.masked
  apply Neutral.caller
  apply Neutral.bind
  · unfold dropDonors
    apply Neutral.get (fun _ => rfl)
    apply Neutral.modifyThread
    intro _ _
    exact (even_refresh (aloof_of_regular masked running).mapCurrent).neutral
  · intro _ dropped drops
    rcases of_run_dropDonors (k := k.atLevel .off) foundCurrent unqueued (id drops) with
      ⟨donors, events, _, _, _, _, same⟩
    have foundDropped : dropped.locks.get? l = some lock := by rw [same]; exact found
    apply Neutral.modifyLock
    apply Neutral.note
    apply Neutral.findLock
    intro freed foundFreed
    cases (Arena.get?_modify_self _ foundDropped).symm.trans foundFreed
    subst same
    apply Neutral.masked
    apply (SemaphoreId.neutral_wake lock.semaphore _).bind
    intro _ released wakes
    -- interrupts are masked already when the unit is returned
    have releases : Move d (some (.release l)) ⟨k.atLevel .off, none⟩ ⟨released, none⟩ :=
      .release running found holds drops wakes
    apply neutral_preempt (masked.move releases)
    exact (keepsCurrent_of_releases (k := k.atLevel .off) unqueued foundCurrent runs drops
      wakes).running running

end LockId

/-! ## Conditions -/

namespace ConditionId

theorem neutral_waiters (c : ConditionId) (k : Kernel) : Neutral c.waiters k :=
  (neutral_findCondition c k).map fun condition => condition.waiters.map Waiter.thread

theorem neutral_destroy (c : ConditionId) (k : Kernel) : Neutral c.destroy k := by
  apply (neutral_findCondition c k).bind
  intro condition k' _
  apply Neutral.require
  exact fun _ => neutral_modify fun _ => rfl

theorem neutral_ranked (c : ConditionId) (k : Kernel) : Neutral c.ranked k := by
  apply (neutral_ranks k).bind
  intro rank k' _
  apply (neutral_findCondition c k').bind
  exact fun condition k' _ => neutral_lift _

theorem neutral_enlist (c : ConditionId) (s : SemaphoreId) (k : Kernel) :
    Neutral (c.enlist s) k := by
  unfold enlist
  apply Neutral.caller
  apply (neutral_ranks k).bind
  intro rank k' _
  apply (neutral_ranked c k').bind
  intro queued k' _
  apply Neutral.lift
  intro waiters _
  apply (neutral_modifyCondition c _ k').bind
  exact fun _ k' _ => neutral_note _ k'

theorem neutral_wakeFirst (c : ConditionId) (k : Kernel) : Neutral c.wakeFirst k := by
  unfold wakeFirst
  apply (neutral_ranked c k).bind
  intro queued k' _
  apply (neutral_modifyCondition c _ k').bind
  intro _ k' _
  rcases queued with _ | ⟨waiter, rest⟩
  · exact neutral_pure false
  · apply Neutral.note
    exact (SemaphoreId.neutral_wake waiter.semaphore _).bind fun _ _ _ => neutral_pure true

theorem neutral_wakeMany (c : ConditionId) (count : Nat) (k : Kernel) :
    Neutral (c.wakeMany count) k := by
  induction count generalizing k with
  | zero => exact neutral_pure ()
  | succ count ih =>
    apply (neutral_wakeFirst c k).bind
    exact fun _ k' _ => ih k'

section Steady

variable (steady : Steady {} k)

include steady

theorem neutral_signal (c : ConditionId) (l : LockId) : Neutral (c.signal l) k := by
  have masked := steady.masked
  unfold signal
  apply Neutral.inThread
  apply LockId.neutral_requireHeld
  intro _ _ _
  apply Neutral.masked
  apply (neutral_wakeFirst c _).bind
  intro woke woken wakes
  split
  · have steady : Steady {} woken := by
      rcases steps_of_run_wakeFirst masked wakes with ⟨_, ⟨_, steps⟩ | ⟨_, steps⟩⟩
      · exact steps.steady masked
      · exact steps.steady masked
    exact neutral_preempt steady.regular steady.runs.running
  · exact neutral_pure ()

theorem neutral_broadcast (c : ConditionId) (l : LockId) : Neutral (c.broadcast l) k := by
  have masked := steady.masked
  unfold broadcast
  apply Neutral.inThread
  apply LockId.neutral_requireHeld
  intro _ _ _
  apply Neutral.masked
  apply Neutral.findCondition
  intro condition _
  apply (neutral_wakeMany c _ _).bind
  intro _ woken wakes
  split
  · rcases steps_of_run_wakeMany masked wakes with ⟨_, steps, _⟩
    have steady := steps.steady masked
    exact neutral_preempt steady.regular steady.runs.running
  · exact neutral_pure ()

theorem neutral_wait (c : ConditionId) (l : LockId) : Neutral (c.wait l) k := by
  have masked := steady.masked
  unfold wait
  apply Neutral.inThread
  apply LockId.neutral_requireHeld
  intro lock foundLock holds
  apply Neutral.masked
  apply Neutral.caller
  apply Neutral.bind (fun _ => rfl)
  intro signal _ creates
  cases creates
  apply (neutral_enlist c _ _).bind
  intro _ queued enlists
  rcases of_run_enlist enlists with ⟨condition, waiters, found, ranked, rfl⟩
  apply Neutral.modifyThread
  intro _ _
  have joins := moves_of_joined steady (fun waits => by rcases waits with no | no <;> cases no)
    (Option.bind_eq_some_iff.mpr ⟨lock, foundLock, holds⟩) found ranked
  have joined := steady.regular.moves joins
  have running : (c.joined l waiters (k.atLevel .off)).Running := running_joined steady.runs
  apply Neutral.bind
  · exact LockId.neutral_release joined running l
  intro _ left leaves
  rcases exists_releases (k := c.joined l waiters (k.atLevel .off)) joined running leaves with
    ⟨released, releases⟩
  apply Neutral.caller
  split
  · exact neutral_pure _
  · next stays =>
    have stays : left.current = k.current := Decidable.not_not.mp stays
    rcases undertakes_of_releases masked.regular.tidy masked.runs releases stays with
      ⟨same, undertakes, runs, _⟩
    have regular := joined.moves ((releases.moves.silent (.quiet same)).trans (.single undertakes))
    apply Neutral.modifyThread
    intro _ _
    have aloof := aloof_of_regular regular runs.running
    apply (LockId.even_reacquire aloof l _).neutral.bind
    intro success tried reacquires
    split
    · exact neutral_pure _
    · have tries := tries_of_run_reacquire regular runs reacquires
      exact (neutral_schedule (regular.moves tries.moves).placed).bind fun _ _ _ => neutral_pure _

end Steady

end ConditionId

/-! ## Whole operations -/

/-- The same reply, with the ready queue that it shows under `rule`. -/
def Reply.ruled (rule : Reposition) : Reply → Reply
  | .summary shown => .summary { shown with ready := shown.ready.ruled rule }
  | reply => reply

/-- What `x` does and answers at `k` it does and answers under every rule. -/
def Kernel.Unswayed (x : KernelM Reply) (k : Kernel) : Prop :=
  ∀ rule, x.run (k.ruled rule) = (x.run k).map fun r => (r.1.ruled rule, r.2.ruled rule)

/-- An answer that shows no queue. -/
theorem Kernel.Neutral.answers {α : Type} {x : KernelM α} {f : α → Reply} (neutral : Neutral x k)
    (blind : ∀ a rule, (f a).ruled rule = f a) : Unswayed (do return f (← x)) k := by
  intro rule
  rw [StateT.run_bind, StateT.run_bind, neutral rule]
  cases x.run k with
  | error fault => rfl
  | ok r => exact congrArg (fun reply => Except.ok (reply, r.2.ruled rule)) (blind r.1 rule).symm

theorem neutral_currentRecord (k : Kernel) : Neutral currentRecord k := by
  apply Neutral.caller
  apply Neutral.findThread
  intro thread _
  apply Neutral.require
  exact fun _ => neutral_pure thread

/-- The queue that a summary shows is the kernel's. -/
theorem unswayed_summary (k : Kernel) : Unswayed (do return .summary (← summary)) k := by
  intro rule
  rw [summary, bind_assoc, StateT.run_bind, StateT.run_bind, neutral_currentRecord k rule]
  cases currentRecord.run k with
  | error fault => rfl
  | ok found => rfl

theorem neutral_total (k : Kernel) : Neutral (do (← get).usage.total : KernelM Nat) k :=
  .get (fun _ => rfl) (neutral_lift _)

theorem unswayed_perform (steady : Steady {} k) (r : Request) : Unswayed r.perform k := by
  cases r with
  | start => exact neutral_start.answers fun _ _ => rfl
  | spawn blueprint => exact (neutral_spawn steady blueprint).answers fun _ _ => rfl
  | exit => exact (neutral_exit steady).answers fun _ _ => rfl
  | block => exact (neutral_block steady).answers fun _ _ => rfl
  | yield => exact (neutral_yield steady.regular steady.runs.running).answers fun _ _ => rfl
  | preempt => exact (neutral_preempt steady.regular steady.runs.running).answers fun _ _ => rfl
  | unblock t => exact (neutral_unblock t k).answers fun _ _ => rfl
  | setPriority p => exact (neutral_setPriority steady p).answers fun _ _ => rfl
  | observe observer => exact fun _ => rfl
  | setLevel level => exact fun _ => rfl
  | timer count => exact (neutral_timerInterrupts steady count).answers fun _ _ => rfl
  | sleepUntil tick => exact (neutral_sleepUntil steady tick).answers fun _ _ => rfl
  | sleep ticks => exact (neutral_sleep steady ticks).answers fun _ _ => rfl
  | sleepFor duration => exact (neutral_sleepFor steady duration).answers fun _ _ => rfl
  | elapsed since => exact fun _ => rfl
  | reportUsage =>
    intro rule
    exact (neutral_total (k.withEvents (.charged k.usage :: k.events))).answers
      (f := .number) (fun _ _ => rfl) rule
  | createSemaphore value => exact fun _ => rfl
  | destroySemaphore s => exact (s.neutral_destroy k).answers fun _ _ => rfl
  | down s => exact (neutral_down steady).answers fun _ _ => rfl
  | tryDown s => exact (Neutral.masked (s.neutral_take _)).answers fun _ _ => rfl
  | up s => exact (neutral_up steady).answers fun _ _ => rfl
  | semaphoreValue s => exact ((neutral_findSemaphore s k).map _).answers fun _ _ => rfl
  | semaphoreWaiters s => exact ((neutral_findSemaphore s k).map _).answers fun _ _ => rfl
  | createLock => exact fun _ => rfl
  | destroyLock l => exact (l.neutral_destroy k).answers fun _ _ => rfl
  | acquire l => exact (l.neutral_acquire steady).answers fun _ _ => rfl
  | tryAcquire l => exact (l.neutral_tryAcquire steady).answers fun _ _ => rfl
  | release l => exact (l.neutral_release steady.regular steady.runs.running).answers fun _ _ => rfl
  | lockHolder l => exact (l.neutral_holder k).answers fun _ _ => rfl
  | lockHeldByCaller l => exact (l.neutral_isHeldByCaller k).answers fun _ _ => rfl
  | lockWaiters l => exact (l.neutral_waiters k).answers fun _ _ => rfl
  | createCondition => exact fun _ => rfl
  | destroyCondition c => exact (c.neutral_destroy k).answers fun _ _ => rfl
  | wait c l => exact (c.neutral_wait steady l).answers fun _ _ => rfl
  | signal c l => exact (c.neutral_signal steady l).answers fun _ _ => rfl
  | broadcast c l => exact (c.neutral_broadcast steady l).answers fun _ _ => rfl
  | conditionWaiters c => exact (c.neutral_waiters k).answers fun _ _ => rfl
  | summary => exact unswayed_summary k
  | profile t => exact fun _ => rfl
  | setNiceness n => exact fun _ => rfl

/-! ## Whole runs -/

/-- Carry out what happens in a run. -/
def Occurrence.perform : Occurrence → KernelM Reply
  | .request r => r.perform
  | .enter => do enterInterrupt; pure .done
  | .leave => do leaveInterrupt; pure .done

/-- What comes of each operation of a run, its answer and the kernel that it leaves.  A fault
is the last that comes. -/
def Kernel.history (k : Kernel) : List Occurrence → List (Except Fault (Reply × Kernel))
  | [] => []
  | first :: rest =>
    match first.perform.run k with
    | .error fault => [.error fault]
    | .ok (reply, k') => .ok (reply, k') :: k'.history rest

/-- Nothing is asked for. -/
theorem unswayed_occurrence (steady : Steady {} k) (o : Occurrence) : Unswayed o.perform k := by
  cases o with
  | request r => exact unswayed_perform steady r
  | enter => exact neutral_enterInterrupt.answers fun _ _ => rfl
  | leave => exact (neutral_leaveInterrupt steady).answers fun _ _ => rfl

theorem steady_of_run_occurrence {o : Occurrence} {reply : Reply} (steady : Steady {} k)
    (h : o.perform.run k = .ok (reply, k')) : Steady {} k' := by
  cases o with
  | request r =>
    rcases steps_of_run_perform steady (r.obeys_nothing k) h with ⟨_, steps, _⟩
    exact steps.steady steady
  | enter =>
    rcases run_bind_eq_ok_iff.mp h with ⟨_, entered, enters, h⟩
    cases h
    exact (steps_of_run_enterInterrupt steady enters).steady steady
  | leave =>
    rcases run_bind_eq_ok_iff.mp h with ⟨_, left, leaves, h⟩
    cases h
    exact (steps_of_run_leaveInterrupt steady leaves).steady steady

theorem history_ruled (steady : Steady {} k) (occurrences : List Occurrence) :
    (k.ruled rule).history occurrences =
      (k.history occurrences).map (Except.map fun r => (r.1.ruled rule, r.2.ruled rule)) := by
  induction occurrences generalizing k with
  | nil => rfl
  | cons first rest ih =>
    rw [history, history, unswayed_occurrence steady first rule]
    cases ran : first.perform.run k with
    | error fault => rfl
    | ok r =>
      have same := ih (steady_of_run_occurrence steady ran)
      exact congrArg (List.cons (.ok (r.1.ruled rule, r.2.ruled rule))) same

/-- Under either rule a run gets the same answers and comes to the same fault, if any, and leaves
kernels that differ in the rule alone.  Yet the rules need not move a thread to the same place if
its priority drops, or drops by nothing. -/
theorem rules_indistinguishable (config : Config) (occurrences : List Occurrence) :
    (fresh config .requeue).history occurrences =
        ((fresh config .stable).history occurrences).map
          (Except.map fun r => (r.1.ruled .requeue, r.2.ruled .requeue)) ∧
      ∀ (p : Priority) (drop : Nat), ∃ (q : ReadyQueue) (t : ThreadId), q.Ordered ∧
        q.threads.Nodup ∧ q.priority? t = some (p + drop) ∧
        (q.ruled .requeue).reprioritize t p ≠
          ((q.ruled .stable).reprioritize t p).ruled .requeue := by
  constructor
  · exact history_ruled (steady_fresh config .stable) occurrences
  · intro p drop
    -- the thread in front comes down to the one behind it
    have ordered : ReadyQueue.Ordered { entries := [(.main, p + drop), (⟨2⟩, p)] } := by
      simp [ReadyQueue.Ordered, Ranked.Descending]
    have once : (ReadyQueue.threads { entries := [(.main, p + drop), (⟨2⟩, p)] }).Nodup := by
      simp [ReadyQueue.threads, ThreadId.main]
    have entries : ReadyQueue.entries { entries := [(.main, p + drop), (⟨2⟩, p)] } =
      [] ++ (.main, p + drop) :: [(⟨2⟩, p)] := rfl
    refine ⟨_, .main, ordered, once, rfl, fun same => ?_⟩
    exact (ReadyQueue.requeue_eq_stable_iff ordered once entries).mp same (⟨2⟩, p)
      List.mem_cons_self rfl

end ThreadKernel
