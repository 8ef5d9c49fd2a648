import ThreadKernel.Proofs.SharedTicks

/-!
# The interrupt level

An operation that needs interrupts masked restores the level it found, however deep it is in
others that do, and the dispatcher, which checks that they are masked, never finds them let in.

`Restores` says both of a part that is started at a given level.  It is closed under sequences, so
each part has one lemma.  The parts that never dispatch restore every level, the dispatcher restores
`off`, and `masked` makes an operation that restores `off` one that restores every level
(`Restores.masked`); what dispatches does it in there, or in the return from a handler.
-/

namespace ThreadKernel

namespace Kernel

variable {α β : Type} {k k' : Kernel} {level : Level} {fault : Fault}

/-- Started with interrupts at `level`, `x` leaves them there, and it does not enter the dispatcher
while they are let in. -/
structure Restores (level : Level) (x : KernelM α) : Prop where
  guarded : ∀ k, k.processor.level = level → x.run k ≠ .error (.interruptsEnabled .schedule)
  ends : ∀ k a k', k.processor.level = level → x.run k = .ok (a, k') → k'.processor.level = level

/-! ## Sequences -/

section Sequences

variable {x y : KernelM α} {f : α → KernelM β}

theorem guarded_of_run {a : α} (ran : x.run k = .ok (a, k')) :
    x.run k ≠ .error (.interruptsEnabled .schedule) := fun fails => by
  cases ran.symm.trans fails

theorem restores_pure (a : α) : Restores level (pure a) where
  guarded _ _ := guarded_of_run rfl
  ends _ _ _ found ran := by
    cases ran
    exact found

theorem restores_throw (other : fault ≠ .interruptsEnabled .schedule) :
    Restores level (throw fault : KernelM α) where
  guarded _ _ fails := other (Except.error.inj fails)
  ends _ _ _ _ ran := by cases ran

theorem guarded_bind (first : x.run k ≠ .error (.interruptsEnabled .schedule))
    (rest : ∀ a k', x.run k = .ok (a, k') →
      (f a).run k' ≠ .error (.interruptsEnabled .schedule)) :
    (x >>= f).run k ≠ .error (.interruptsEnabled .schedule) := by
  intro fails
  cases ran : x.run k with
  | error early =>
    rw [run_bind_of_error ran] at fails
    cases fails
    exact first ran
  | ok step =>
    rw [run_bind_of_ok ran] at fails
    exact rest step.1 step.2 ran fails

theorem Restores.bind (first : Restores level x) (rest : ∀ a, Restores level (f a)) :
    Restores level (x >>= f) where
  guarded k found := guarded_bind (first.guarded k found) fun a middle ran =>
    (rest a).guarded middle (first.ends k a middle found ran)
  ends k b last found h := by
    obtain ⟨a, middle, ran, h⟩ := run_bind_eq_ok_iff.mp h
    exact (rest a).ends middle b last (first.ends k a middle found ran) h

theorem Restores.get {f : Kernel → KernelM β}
    (rest : ∀ k, k.processor.level = level → Restores level (f k)) :
    Restores level (MonadState.get >>= f) where
  guarded k found := (rest k found).guarded k found
  ends k b last found := (rest k found).ends k b last found

theorem Restores.ite {p : Prop} [Decidable p] (yes : Restores level x) (no : Restores level y) :
    Restores level (if p then x else y) := by
  split
  · exact yes
  · exact no

theorem Restores.answer (restores : Restores level x) (g : α → β) :
    Restores level (do return g (← x)) :=
  restores.bind fun a => restores_pure (g a)

theorem restores_set {next : Kernel} (same : next.processor.level = level) :
    Restores level (set next) where
  guarded _ _ := guarded_of_run rfl
  ends _ _ _ _ ran := by
    cases ran
    exact same

theorem restores_modify {g : Kernel → Kernel}
    (same : ∀ k, (g k).processor.level = k.processor.level) : Restores level (modify g) where
  guarded _ _ := guarded_of_run rfl
  ends k _ _ found ran := by
    cases ran
    exact (same k).trans found

theorem restores_require {p : Prop} [Decidable p] (other : fault ≠ .interruptsEnabled .schedule) :
    Restores level (require p fault) := by
  unfold require
  exact .ite (restores_pure ()) (restores_throw other)

/-- What comes after a check may rely on it. -/
theorem Restores.require {p : Prop} [Decidable p] {f : Unit → KernelM β}
    (other : fault ≠ .interruptsEnabled .schedule) (rest : p → Restores level (f ())) :
    Restores level (require p fault >>= f) := by
  by_cases holds : p
  · rw [Kernel.require, if_pos holds]
    exact (restores_pure ()).bind fun _ => rest holds
  · rw [Kernel.require, if_neg holds]
    exact ⟨fun _ _ fails => other (Except.error.inj fails), fun _ _ _ _ ran => by cases ran⟩

theorem restores_lift {x : Except Fault α} (other : x ≠ .error (.interruptsEnabled .schedule)) :
    Restores level (liftM x : KernelM α) := by
  cases x with
  | error fault => exact restores_throw fun same => other (congrArg Except.error same)
  | ok a => exact restores_pure a

theorem restores_forM {list : List α} {f : α → KernelM PUnit} (each : ∀ a, Restores level (f a)) :
    Restores level (list.forM f) := by
  induction list with
  | nil => exact restores_pure ()
  | cons a rest ih => exact (each a).bind fun _ => ih

/-- What restores the level `off` restores every level when it is run with interrupts masked. -/
theorem Restores.masked (body : Restores .off x) : Restores level (masked x) where
  guarded k _ := by
    rw [Kernel.masked, run_bind_of_ok (run_setLevel .off)]
    exact guarded_bind (body.guarded _ rfl) fun _ _ _ => guarded_of_run rfl
  ends k a k' found h := by
    obtain ⟨last, _, rfl⟩ := run_masked_eq_ok_iff.mp h
    exact found

end Sequences

/-! ## Records, the journal and the ready queue -/

section Parts

variable {t : ThreadId}

theorem find_ne_unguarded {kind : Kind} {a : Arena kind α} {h : Handle kind} :
    a.find h ≠ .error (.interruptsEnabled .schedule) := by
  rw [Arena.find]
  split <;> simp

theorem restores_caller : Restores level caller := .get fun _ _ => restores_pure _

theorem restores_findThread (t : ThreadId) : Restores level (findThread t) :=
  .get fun _ _ => restores_lift find_ne_unguarded

theorem restores_findSemaphore (s : SemaphoreId) : Restores level (findSemaphore s) :=
  .get fun _ _ => restores_lift find_ne_unguarded

theorem restores_findLock (l : LockId) : Restores level (findLock l) :=
  .get fun _ _ => restores_lift find_ne_unguarded

theorem restores_findCondition (c : ConditionId) : Restores level (findCondition c) :=
  .get fun _ _ => restores_lift find_ne_unguarded

theorem restores_modifyThread (t : ThreadId) (f : Thread → Thread) :
    Restores level (modifyThread t f) :=
  (restores_findThread t).bind fun _ => restores_modify fun _ => by rfl

theorem restores_modifySemaphore (s : SemaphoreId) (f : Semaphore → Semaphore) :
    Restores level (modifySemaphore s f) :=
  (restores_findSemaphore s).bind fun _ => restores_modify fun _ => by rfl

theorem restores_modifyLock (l : LockId) (f : Lock → Lock) : Restores level (modifyLock l f) :=
  (restores_findLock l).bind fun _ => restores_modify fun _ => by rfl

theorem restores_modifyCondition (c : ConditionId) (f : Condition → Condition) :
    Restores level (modifyCondition c f) :=
  (restores_findCondition c).bind fun _ => restores_modify fun _ => by rfl

theorem restores_note (event : Event) : Restores level (note event) :=
  restores_modify fun _ => by rfl

theorem restores_announce (event : String → Event) : Restores level (announce event) := by
  apply Restores.get
  intro k _
  cases k.observer.bind Observer.label with
  | none => exact restores_pure ()
  | some label => exact restores_note _

/-- To put a list in order is to look up priorities. -/
theorem Restores.ranks {f : (ThreadId → Except Fault Priority) → KernelM β}
    (rest : ∀ rank : ThreadId → Except Fault Priority,
      (∀ t, rank t ≠ .error (.interruptsEnabled .schedule)) → Restores level (f rank)) :
    Restores level (Kernel.ranks >>= f) := by
  have looked : ∀ (k : Kernel) t, k.threads.rank t ≠ .error (.interruptsEnabled .schedule) := by
    intro k t fails
    rw [ThreadTable.rank] at fails
    cases found : k.threads.find t with
    | error early =>
      rw [found] at fails
      cases fails
      exact find_ne_unguarded found
    | ok thread =>
      rw [found] at fails
      cases fails
  constructor
  · intro k found fails
    exact (rest _ (looked k)).guarded k found (run_ranks_bind.symm.trans fails)
  · intro k b last found ends
    exact (rest _ (looked k)).ends k b last found (run_ranks_bind.symm.trans ends)

theorem restores_sortWith {rank : α → Except Fault Priority} {list : List α}
    (looked : ∀ a, rank a ≠ .error (.interruptsEnabled .schedule)) :
    Restores level (liftM (Ranked.sortWith rank list)) := by
  apply restores_lift
  intro fails
  obtain ⟨a, _, missing⟩ := Ranked.sortWith_error fails
  exact looked a missing

theorem restores_insertWith {rank : α → Except Fault Priority} {a : α} {list : List α}
    (looked : ∀ a, rank a ≠ .error (.interruptsEnabled .schedule)) :
    Restores level (liftM (Ranked.insertWith rank a list)) := by
  apply restores_lift
  intro fails
  obtain ⟨a, _, missing⟩ := Ranked.insertWith_error fails
  exact looked a missing

theorem restores_setEffective (t : ThreadId) (p : Priority) :
    Restores level (setEffective t p) := by
  apply (restores_findThread t).bind
  intro thread
  apply (restores_modifyThread t _).bind
  intro _
  apply Restores.ite
  · exact restores_modify fun _ => by rfl
  · exact restores_pure ()

theorem restores_donateFrom (start : ThreadId) (depth : Nat) (visited : List ThreadId)
    (donor : ThreadId) : Restores level (donateFrom start depth visited donor) := by
  induction depth generalizing visited donor with
  | zero =>
    apply Restores.get
    intro k _
    cases k.blockingHolder donor with
    | none => exact restores_pure ()
    | some beyond => exact restores_note _
  | succ depth ih =>
    apply Restores.get
    intro k _
    cases k.blockingHolder donor with
    | none => exact restores_pure ()
    | some holder =>
      apply Restores.ite
      · apply (restores_note _).bind
        intro _
        exact (restores_setEffective _ _).bind fun _ => ih _ _
      · exact ih _ _

theorem restores_donate : Restores level donate := .get fun _ _ => restores_donateFrom _ _ _ _

theorem restores_refresh (t : ThreadId) : Restores level (refresh t) := by
  apply Restores.get
  intro k _
  apply (restores_findThread t).bind
  intro thread
  apply (restores_modifyThread t _).bind
  intro _
  apply Restores.ite
  · exact (restores_note _).bind fun _ => restores_setEffective t _
  · exact restores_setEffective t _

theorem restores_addDonor (holder donor : ThreadId) : Restores level (addDonor holder donor) := by
  apply (restores_findThread holder).bind
  intro thread
  apply Restores.ite
  · exact restores_pure ()
  · apply Restores.ranks
    intro rank looked
    exact (restores_insertWith looked).bind fun _ => restores_modifyThread holder _

theorem restores_makeReady (t : ThreadId) : Restores level (makeReady t) := by
  apply (restores_modifyThread t _).bind
  intro _
  apply Restores.get
  intro k found
  apply (restores_lift _).bind
  · exact fun ready => restores_set (by exact found)
  · rw [ReadyQueue.enqueue]
    split <;> simp

theorem restores_unblock (t : ThreadId) : Restores level (unblock t) := by
  apply Restores.masked
  apply (restores_findThread t).bind
  intro thread
  apply (restores_require (by simp)).bind
  intro _
  apply (restores_require (by simp)).bind
  exact fun _ => restores_makeReady t

end Parts

end Kernel

open Kernel

variable {level : Level} {s : SemaphoreId} {l : LockId} {c : ConditionId}

/-! ## Attempts, locks and conditions -/

theorem Semaphore.restores_create (value : Nat) (purpose : Purpose) :
    Restores level (Semaphore.create value purpose) := by
  apply Restores.get
  intro k found
  exact Restores.bind (restores_set (by exact found)) fun _ => restores_pure _

namespace SemaphoreId

theorem restores_destroy (s : SemaphoreId) : Restores level s.destroy := by
  apply (restores_findSemaphore s).bind
  intro semaphore
  apply (restores_require (by simp)).bind
  exact fun _ => restores_modify fun _ => by rfl

theorem restores_take (s : SemaphoreId) : Restores level s.take := by
  apply (restores_findSemaphore s).bind
  intro semaphore
  apply Restores.ite
  · apply (restores_modifySemaphore s _).bind
    intro _
    apply restores_caller.bind
    intro thread
    exact (restores_note _).bind fun _ => restores_pure true
  · exact restores_pure false

theorem restores_attempt (s : SemaphoreId) (retry : Pending) :
    Restores level (s.attempt retry) := by
  apply (restores_take s).bind
  intro taken
  apply Restores.ite
  · exact restores_pure true
  · apply restores_caller.bind
    intro thread
    apply Restores.ranks
    intro rank looked
    apply (restores_findSemaphore s).bind
    intro semaphore
    apply (restores_sortWith looked).bind
    intro queued
    apply (restores_insertWith looked).bind
    intro waiters
    apply (restores_modifySemaphore s _).bind
    intro _
    apply (restores_modifyThread thread _).bind
    intro _
    exact (restores_note _).bind fun _ => restores_pure false

theorem restores_wake (s : SemaphoreId) : Restores level s.wake := by
  apply (restores_findSemaphore s).bind
  intro semaphore
  apply Restores.ranks
  intro rank looked
  apply (restores_sortWith looked).bind
  intro queued
  apply (restores_require (by simp)).bind
  intro _
  apply (restores_modifySemaphore s _).bind
  intro _
  apply (restores_note _).bind
  intro _
  cases queued with
  | nil => exact restores_pure ()
  | cons t rest =>
    apply (restores_note _).bind
    intro _
    exact (restores_modifyThread t _).bind fun _ => restores_unblock t

end SemaphoreId

namespace LockId

theorem restores_hold (l : LockId) : Restores level l.hold := by
  apply restores_caller.bind
  intro thread
  apply (restores_modifyThread thread _).bind
  intro _
  apply (restores_modifyLock l _).bind
  intro _
  apply (restores_note _).bind
  intro _
  apply (restores_findLock l).bind
  intro lock
  apply (restores_findSemaphore _).bind
  intro semaphore
  apply Restores.ite
  · exact restores_pure ()
  · exact (restores_forM (restores_addDonor thread)).bind fun _ => restores_refresh thread

theorem restores_attempt (l : LockId) : Restores level l.attempt := by
  apply restores_caller.bind
  intro thread
  apply (restores_findLock l).bind
  intro lock
  have settles : Restores level (do
      if ← lock.semaphore.attempt (.lock l) then
        l.hold
        pure true
      else
        pure false) := by
    apply (SemaphoreId.restores_attempt _ _).bind
    intro taken
    apply Restores.ite
    · exact (restores_hold l).bind fun _ => restores_pure true
    · exact restores_pure false
  cases lock.holder with
  | none => exact settles
  | some holder =>
    apply (restores_modifyThread thread _).bind
    intro _
    apply (restores_addDonor holder thread).bind
    intro _
    exact restores_donate.bind fun _ => settles

theorem restores_reacquire (l : LockId) (s : SemaphoreId) : Restores level (l.reacquire s) := by
  apply (SemaphoreId.restores_attempt _ _).bind
  intro taken
  apply Restores.ite
  · exact (SemaphoreId.restores_destroy s).bind fun _ => restores_attempt l
  · exact restores_pure false

theorem restores_isHeldByCaller (l : LockId) : Restores level l.isHeldByCaller := by
  apply ((restores_findLock l).answer _).bind
  exact fun holder => restores_caller.answer _

theorem restores_requireHeld (l : LockId) (operation : Operation) :
    Restores level (l.requireHeld operation) := by
  apply (restores_isHeldByCaller l).bind
  intro held
  exact restores_caller.bind fun _ => restores_require (by simp)

theorem restores_requireNotHeld (l : LockId) (operation : Operation) :
    Restores level (l.requireNotHeld operation) := by
  apply (restores_isHeldByCaller l).bind
  intro held
  exact restores_caller.bind fun _ => restores_require (by simp)

theorem restores_tryAcquire (l : LockId) : Restores level l.tryAcquire := by
  apply (restores_requireNotHeld l _).bind
  intro _
  apply Restores.masked
  apply (restores_findLock l).bind
  intro lock
  apply (Restores.masked (SemaphoreId.restores_take lock.semaphore)).bind
  intro taken
  apply Restores.ite
  · exact (restores_hold l).bind fun _ => restores_pure true
  · exact restores_pure false

theorem restores_destroy (l : LockId) : Restores level l.destroy := by
  apply (restores_findLock l).bind
  intro lock
  cases lock.holder with
  | some holder => exact restores_throw nofun
  | none =>
    exact Restores.bind (restores_modify fun _ => by rfl) fun _ => SemaphoreId.restores_destroy _

theorem restores_dropDonors (l : LockId) : Restores level l.dropDonors := by
  apply Restores.get
  intro k _
  exact (restores_modifyThread _ _).bind fun _ => restores_refresh _

end LockId

namespace ConditionId

theorem restores_ranked (c : ConditionId) : Restores level c.ranked := by
  apply Restores.ranks
  intro rank looked
  apply (restores_findCondition c).bind
  exact fun condition => restores_sortWith fun waiter => looked waiter.thread

theorem restores_enlist (c : ConditionId) (s : SemaphoreId) : Restores level (c.enlist s) := by
  apply restores_caller.bind
  intro thread
  apply Restores.ranks
  intro rank looked
  apply (restores_ranked c).bind
  intro queue
  apply Restores.bind (restores_insertWith (by exact fun waiter => looked waiter.thread))
  intro waiters
  exact (restores_modifyCondition c _).bind fun _ => restores_note _

theorem restores_wakeFirst (c : ConditionId) : Restores level c.wakeFirst := by
  apply (restores_ranked c).bind
  intro queued
  apply (restores_modifyCondition c _).bind
  intro _
  cases queued with
  | nil => exact restores_pure false
  | cons waiter rest =>
    apply (restores_note _).bind
    intro _
    exact (SemaphoreId.restores_wake waiter.semaphore).bind fun _ => restores_pure true

theorem restores_wakeMany (c : ConditionId) (count : Nat) : Restores level (c.wakeMany count) := by
  induction count with
  | zero => exact restores_pure ()
  | succ count ih => exact (restores_wakeFirst c).bind fun _ => ih

theorem restores_destroy (c : ConditionId) : Restores level c.destroy := by
  apply (restores_findCondition c).bind
  intro condition
  apply (restores_require (by simp)).bind
  exact fun _ => restores_modify fun _ => by rfl

end ConditionId

namespace Kernel

/-! ## The dispatcher -/

theorem restores_reclaim : Restores level reclaim := by
  apply Restores.get
  intro k found
  apply Restores.bind (restores_set (by exact found))
  intro _
  apply restores_forM
  intro t
  apply Restores.get
  intro k found
  cases k.threads.get? t with
  | none => exact restores_pure ()
  | some thread => exact Restores.bind (restores_set (by exact found)) fun _ => restores_note _

theorem restores_pickNext : Restores level pickNext := by
  apply Restores.get
  intro k found
  split
  · apply Restores.bind (restores_set (by exact found))
    intro _
    exact (restores_modifyThread _ _).bind fun _ => restores_pure _
  · exact restores_pure _
  · exact restores_throw nofun

theorem restores_switchTo (previous next : ThreadId) : Restores level (switchTo previous next) := by
  apply (restores_findThread previous).bind
  intro thread
  have switches : Restores level (do
      modify fun k => { k with current := next, processor := k.processor.switched }
      note (.switched previous next)) :=
    Restores.bind (restores_modify fun _ => by rfl) fun _ => restores_note _
  apply Restores.ite
  · exact Restores.bind (restores_modify fun _ => by rfl) fun _ => switches
  · exact switches

theorem restores_resume : Restores level resume := by
  apply restores_caller.bind
  intro t
  apply (restores_findThread t).bind
  intro thread
  apply (restores_modifyThread t _).bind
  intro _
  cases thread.pending with
  | none => exact restores_pure true
  | some due =>
    cases due with
    | unit s => exact SemaphoreId.restores_attempt s _
    | lock l => exact LockId.restores_attempt l
    | signal s l => exact LockId.restores_reacquire l s

/-- Between two picks the level stays what it is. -/
theorem restores_dispatchOnce : Restores level dispatchOnce := by
  apply restores_caller.bind
  intro previous
  apply (restores_findThread previous).bind
  intro thread
  apply (restores_require (by simp)).bind
  intro _
  apply restores_pickNext.bind
  intro next
  apply (restores_modifyThread next _).bind
  intro _
  apply Restores.bind (restores_modify fun _ => by rfl)
  intro _
  apply (restores_announce _).bind
  intro _
  apply Restores.ite
  · exact (restores_switchTo previous next).bind fun _ => restores_resume
  · exact restores_resume

theorem restores_dispatch (picks : Nat) : Restores level (dispatch picks) := by
  induction picks with
  | zero => exact restores_throw nofun
  | succ picks ih =>
    apply restores_dispatchOnce.bind
    intro runs
    exact .ite (restores_pure ()) ih

/-- The dispatcher wants interrupts masked. -/
theorem restores_schedule : Restores .off schedule := by
  apply Restores.get
  intro k masked
  rw [require, if_pos masked]
  apply Restores.bind (restores_pure _)
  intro _
  apply restores_reclaim.bind
  exact fun _ => .get fun _ _ => restores_dispatch _

/-! ## Giving up the processor -/

theorem restores_requireThreadContext (operation : Operation) :
    Restores level (requireThreadContext operation) :=
  .get fun _ _ => restores_require (by simp)

/-- A thread that would block with interrupts let in is told so before it gets to the dispatcher. -/
theorem restores_block : Restores level block := by
  apply (restores_requireThreadContext _).bind
  intro _
  apply Restores.get
  intro k found
  apply Restores.require (by simp)
  intro masked
  cases found.symm.trans masked
  apply restores_caller.bind
  intro t
  exact (restores_modifyThread t _).bind fun _ => restores_schedule

theorem restores_yield : Restores level yield := by
  apply (restores_requireThreadContext _).bind
  intro _
  apply Restores.masked
  apply Restores.get
  intro k _
  apply Restores.ite
  · exact (restores_modifyThread _ _).bind fun _ => restores_schedule
  · exact (restores_makeReady _).bind fun _ => restores_schedule

theorem restores_preempt : Restores level preempt := by
  apply Restores.get
  intro k found
  apply Restores.ite
  · exact .ite (restores_set (by exact found)) restores_yield
  · exact restores_pure ()

theorem restores_setPriority (priority : Priority) : Restores level (setPriority priority) := by
  apply (restores_require (by simp)).bind
  intro _
  apply Restores.masked
  apply restores_caller.bind
  intro t
  apply (restores_modifyThread t _).bind
  intro _
  exact (restores_refresh t).bind fun _ => restores_preempt

theorem restores_exit : Restores level exit := by
  apply (restores_requireThreadContext _).bind
  intro _
  apply Restores.get
  intro k _
  apply (restores_require (by simp)).bind
  intro _
  apply (restores_announce _).bind
  intro _
  have leaves : Restores level (masked do
      note (.exiting k.current (← findThread k.current).name)
      modifyThread k.current fun thread => { thread with state := .dying }
      schedule) := by
    apply Restores.masked
    apply (restores_findThread _).bind
    intro thread
    apply (restores_note _).bind
    intro _
    exact (restores_modifyThread _ _).bind fun _ => restores_schedule
  dsimp only
  apply Restores.ite
  · exact (restores_note _).bind fun _ => leaves
  · exact leaves

theorem restores_enroll (thread : Thread) : Restores level (enroll thread) := by
  apply Restores.get
  intro k found
  apply Restores.ite
  · exact Restores.bind (restores_set (by exact found)) fun _ => restores_pure _
  · exact restores_pure _

theorem restores_spawn (blueprint : Blueprint) : Restores level (spawn blueprint) := by
  apply (restores_require (by simp)).bind
  intro _
  apply Restores.get
  intro k _
  apply Restores.ite
  · exact restores_pure _
  · apply (restores_enroll _).bind
    intro issued
    cases issued with
    | none => exact restores_pure _
    | some t =>
      apply (restores_note _).bind
      intro _
      apply (restores_unblock t).bind
      intro _
      exact restores_preempt.answer _

theorem restores_sleepUntil (wakeTick : Nat) : Restores level (sleepUntil wakeTick) := by
  apply (restores_requireThreadContext _).bind
  intro _
  apply Restores.get
  intro k _
  apply (restores_require (by simp)).bind
  intro _
  apply Restores.ite
  · exact restores_pure _
  · apply Restores.masked
    apply (restores_modifyThread _ _).bind
    intro _
    apply Restores.bind (restores_modify fun _ => by rfl)
    intro _
    apply (restores_note _).bind
    intro _
    exact restores_schedule.bind fun _ => restores_pure _

/-! ## Interrupts and the timer -/

theorem restores_awaken (now : Nat) : Restores level (awaken now) := by
  apply Restores.get
  intro k found
  have exist : ∀ t, Restores level (do let _ ← findThread t) := fun t =>
    (restores_findThread t).bind fun _ => restores_pure _
  apply (restores_forM exist).bind
  intro _
  apply Restores.bind (restores_set (by exact found))
  intro _
  apply restores_forM
  intro t
  apply (restores_note _).bind
  intro _
  exact (restores_modifyThread t _).bind fun _ => restores_unblock t

theorem restores_chargeTick : Restores level chargeTick := by
  apply Restores.get
  intro k found
  apply Restores.ite
  · exact restores_set (by exact found)
  · apply (restores_findThread _).bind
    intro thread
    exact .ite (restores_set (by exact found)) (restores_set (by exact found))

theorem restores_countSlice : Restores level countSlice := by
  apply Restores.get
  intro k found
  exact (restores_require (by simp)).bind fun _ => restores_set (by exact found)

theorem restores_timerTick : Restores level timerTick := by
  apply Restores.get
  intro k _
  apply (restores_lift _).bind
  · intro clock
    apply Restores.bind (restores_modify fun _ => by rfl)
    intro _
    apply restores_chargeTick.bind
    intro _
    apply restores_countSlice.bind
    intro _
    apply Restores.get
    intro k _
    apply Restores.ite
    · exact (restores_awaken _).bind fun _ => restores_preempt
    · exact restores_pure ()
  · rw [Clock.advance]
    split <;> simp

/-- Whatever a handler does to the level, interrupts are let in when it returns, as they were when
it was entered. -/
theorem level_of_run_interrupt {handler : KernelM α} {a : α}
    (h : (interrupt handler).run k = .ok (a, k')) :
    k'.processor.level = k.processor.level := by
  obtain ⟨_, entered, enters, h⟩ := run_bind_eq_ok_iff.mp h
  obtain ⟨_, handled, _, h⟩ := run_bind_eq_ok_iff.mp h
  obtain ⟨_, left, leaves, h⟩ := run_bind_eq_ok_iff.mp h
  cases h
  rw [level_of_run_enterInterrupt enters]
  exact congrArg Frame.level (frame_of_run_leaveInterrupt leaves)

theorem guarded_enterInterrupt (k : Kernel) :
    enterInterrupt.run k ≠ .error (.interruptsEnabled .schedule) := by
  apply guarded_bind (x := get) (guarded_of_run rfl)
  intro k _ _
  apply guarded_bind ((restores_require (by simp)).guarded _ rfl)
  intro _ _ _
  apply guarded_bind ((restores_require (by simp)).guarded _ rfl)
  exact fun _ _ _ => guarded_of_run rfl

/-- A yield that was put off masks interrupts itself. -/
theorem guarded_leaveInterrupt (k : Kernel) :
    leaveInterrupt.run k ≠ .error (.interruptsEnabled .schedule) := by
  rw [leaveInterrupt, run_get_bind, run_set_bind]
  split
  · exact guarded_bind (restores_yield.guarded _ rfl) fun _ _ _ => guarded_of_run rfl
  · exact guarded_of_run rfl

/-- A handler may change the level, so what is asked of it is only that it does not itself run into
an unmasked dispatcher. -/
theorem restores_interrupt {handler : KernelM α}
    (guarded : ∀ k, handler.run k ≠ .error (.interruptsEnabled .schedule)) :
    Restores level (interrupt handler) where
  guarded k _ := by
    apply guarded_bind (guarded_enterInterrupt k)
    intro _ entered _
    apply guarded_bind (guarded entered)
    intro _ handled _
    exact guarded_bind (guarded_leaveInterrupt handled) fun _ _ _ => guarded_of_run rfl
  ends k a k' found ran := (level_of_run_interrupt ran).trans found

theorem restores_timerInterrupts (count : Nat) : Restores level (timerInterrupts count) := by
  induction count with
  | zero => exact restores_pure ()
  | succ count ih =>
    have tick : Restores level timerInterrupt :=
      restores_interrupt fun k => restores_timerTick.guarded k rfl
    exact tick.bind fun _ => ih

end Kernel

/-! ## Semaphores, locks and conditions that are waited for -/

/-- Whoever fails in an attempt gives up the processor, with interrupts masked. -/
theorem restores_try {attempt : KernelM Bool} (tries : Restores .off attempt) :
    Restores .off (do
      if ← attempt then
        pure Wait.completed
      else
        schedule
        pure Wait.suspended) := by
  apply tries.bind
  intro taken
  apply Restores.ite
  · exact restores_pure _
  · exact restores_schedule.bind fun _ => restores_pure _

theorem SemaphoreId.restores_down (s : SemaphoreId) : Restores level s.down := by
  apply (restores_requireThreadContext _).bind
  intro _
  exact (restores_try (restores_attempt s _)).masked

theorem SemaphoreId.restores_up (s : SemaphoreId) : Restores level s.up := by
  apply Restores.masked
  exact (restores_wake s).bind fun _ => restores_preempt

theorem LockId.restores_acquire (l : LockId) : Restores level l.acquire := by
  apply (restores_requireThreadContext _).bind
  intro _
  apply (restores_requireNotHeld l _).bind
  intro _
  exact (restores_try (restores_attempt l)).masked

theorem LockId.restores_release (l : LockId) : Restores level l.release := by
  apply (restores_requireHeld l _).bind
  intro _
  apply Restores.masked
  apply restores_caller.bind
  intro t
  apply (restores_dropDonors l).bind
  intro _
  apply (restores_modifyLock l _).bind
  intro _
  apply (restores_note _).bind
  intro _
  exact (restores_findLock l).bind fun _ => SemaphoreId.restores_up _

theorem Lock.restores_create : Restores level Lock.create := by
  apply (Semaphore.restores_create _ _).bind
  intro s
  apply Restores.get
  intro k found
  exact Restores.bind (restores_set (by exact found)) fun _ => restores_pure _

theorem Condition.restores_create : Restores level Condition.create := by
  apply Restores.get
  intro k found
  exact Restores.bind (restores_set (by exact found)) fun _ => restores_pure _

namespace ConditionId

/-- The release in the middle has a masked part of its own, which leaves interrupts masked for
the rest of the wait. -/
theorem restores_wait (c : ConditionId) (l : LockId) : Restores level (c.wait l) := by
  apply (restores_requireThreadContext _).bind
  intro _
  apply (LockId.restores_requireHeld l _).bind
  intro _
  apply Restores.masked
  apply restores_caller.bind
  intro thread
  apply (Semaphore.restores_create _ _).bind
  intro signal
  apply (restores_enlist c signal).bind
  intro _
  apply (restores_modifyThread thread _).bind
  intro _
  apply (LockId.restores_release l).bind
  intro _
  apply restores_caller.bind
  intro now
  apply Restores.ite
  · exact restores_pure _
  · apply (restores_modifyThread thread _).bind
    exact fun _ => restores_try (LockId.restores_reacquire l signal)

theorem restores_signal (c : ConditionId) (l : LockId) : Restores level (c.signal l) := by
  apply (restores_requireThreadContext _).bind
  intro _
  apply (LockId.restores_requireHeld l _).bind
  intro _
  apply Restores.masked
  apply (restores_wakeFirst c).bind
  intro woke
  exact .ite restores_preempt (restores_pure ())

theorem restores_broadcast (c : ConditionId) (l : LockId) : Restores level (c.broadcast l) := by
  apply (restores_requireThreadContext _).bind
  intro _
  apply (LockId.restores_requireHeld l _).bind
  intro _
  apply Restores.masked
  apply (restores_findCondition c).bind
  intro condition
  apply (restores_wakeMany c _).bind
  intro _
  exact .ite restores_preempt (restores_pure ())

end ConditionId

/-! ## All requests -/

namespace Request

/-- What is asked for is a change of the interrupt level. -/
def setsLevel : Request → Bool
  | .start | .setLevel _ => true
  | _ => false

theorem restores_perform {r : Request} (other : r.setsLevel = false) :
    Restores level r.perform := by
  cases r with
  | start | setLevel => cases other
  | spawn blueprint => exact (restores_spawn blueprint).answer _
  | exit => exact restores_exit.answer _
  | block => exact restores_block.answer _
  | yield => exact restores_yield.answer _
  | preempt => exact restores_preempt.answer _
  | unblock t => exact (restores_unblock t).answer _
  | setPriority p => exact (restores_setPriority p).answer _
  | observe observer =>
    exact (Restores.get fun k found =>
      Restores.bind (restores_set (by exact found)) fun _ => restores_pure _).answer _
  | timer count => exact (restores_timerInterrupts count).answer _
  | sleepUntil tick => exact (restores_sleepUntil tick).answer _
  | sleep ticks => exact (Restores.get fun k _ => restores_sleepUntil _).answer _
  | sleepFor duration =>
    exact (Restores.get fun k _ => .get fun k _ => restores_sleepUntil _).answer _
  | elapsed | profile => exact .get fun _ _ => restores_pure _
  | reportUsage =>
    apply (Restores.get fun k _ => restores_note _).bind
    intro _
    apply Restores.get
    intro k _
    apply Restores.answer (restores_lift _)
    rw [Usage.total]
    split <;> simp
  | createSemaphore value => exact (Semaphore.restores_create value .plain).answer _
  | destroySemaphore s => exact (SemaphoreId.restores_destroy s).answer _
  | down s => exact (SemaphoreId.restores_down s).answer _
  | tryDown s => exact (SemaphoreId.restores_take s).masked.answer _
  | up s => exact (SemaphoreId.restores_up s).answer _
  | semaphoreValue s => exact ((restores_findSemaphore s).answer _).answer _
  | semaphoreWaiters s => exact ((restores_findSemaphore s).answer _).answer _
  | createLock => exact Lock.restores_create.answer _
  | destroyLock l => exact (LockId.restores_destroy l).answer _
  | acquire l => exact (LockId.restores_acquire l).answer _
  | tryAcquire l => exact (LockId.restores_tryAcquire l).answer _
  | release l => exact (LockId.restores_release l).answer _
  | lockHolder l => exact ((restores_findLock l).answer _).answer _
  | lockHeldByCaller l => exact (LockId.restores_isHeldByCaller l).answer _
  | lockWaiters l =>
    refine Restores.answer ((restores_findLock l).bind fun lock => ?_) _
    exact (restores_findSemaphore _).answer _
  | createCondition => exact Condition.restores_create.answer _
  | destroyCondition c => exact (ConditionId.restores_destroy c).answer _
  | wait c l => exact (ConditionId.restores_wait c l).answer _
  | signal c l => exact (ConditionId.restores_signal c l).answer _
  | broadcast c l => exact (ConditionId.restores_broadcast c l).answer _
  | conditionWaiters c => exact ((restores_findCondition c).answer _).answer _
  | summary =>
    have record : Restores level currentRecord := by
      apply restores_caller.bind
      intro t
      apply (restores_findThread t).bind
      intro thread
      exact (restores_require (by simp)).bind fun _ => restores_pure thread
    exact (record.bind fun _ => .get fun _ _ => restores_pure _).answer _
  | setNiceness => exact (restores_pure ()).bind fun _ => (restores_pure _).answer _

theorem guarded_perform (r : Request) (k : Kernel) :
    r.perform.run k ≠ .error (.interruptsEnabled .schedule) := by
  by_cases other : r.setsLevel = false
  · exact (restores_perform other).guarded k rfl
  · cases r with
    | start =>
      have begins : Kernel.start.run k ≠ .error (.interruptsEnabled .schedule) := by
        apply guarded_bind (x := get) (guarded_of_run rfl)
        intro k _ _
        split
        · exact guarded_of_run rfl
        · apply guarded_bind ((restores_enroll _).guarded _ rfl)
          rintro (_ | t) _ _
          · exact guarded_of_run rfl
          · exact guarded_of_run rfl
      exact guarded_bind begins fun _ _ _ => guarded_of_run rfl
    | setLevel level => exact guarded_of_run rfl
    | _ => exact absurd rfl other

end Request

/-! ## Where the level ends up -/

/-- Whatever is done under the lock of a shared kernel, the level found is restored. -/
theorem SharedKernel.level_of_run_withKernel {α : Type} {body : SharedM α} {a : α}
    {shared shared' : SharedKernel} (h : (withKernel body).run shared = .ok (a, shared')) :
    shared'.kernel.processor.level = shared.kernel.processor.level := by
  obtain ⟨_, taken, takes, h⟩ := run_seq_eq_ok_iff.mp h
  cases takes
  obtain ⟨found, masked, masks, h⟩ := run_seq_eq_ok_iff.mp h
  obtain ⟨_, sets, rfl⟩ := run_onKernel_eq_ok_iff.mp masks
  cases sets
  obtain ⟨_, used, _, h⟩ := run_seq_eq_ok_iff.mp h
  obtain ⟨_, restored, restores, h⟩ := run_seq_eq_ok_iff.mp h
  obtain ⟨_, sets, rfl⟩ := run_onKernel_eq_ok_iff.mp restores
  cases sets
  cases h
  rfl

/-- Every operation that is not meant to change the interrupt level leaves it as it was, and so do
an interrupt, whatever its handler does to it, and the use of a shared kernel, whatever is done with
it.  The dispatcher refuses to run while interrupts are let in, no operation ever has it refuse, and
from one pick to the next the level does not change. -/
theorem interrupt_level_restored (k : Kernel) :
    (∀ (r : Request) reply k', r.setsLevel = false → r.perform.run k = .ok (reply, k') →
      k'.processor.level = k.processor.level) ∧
    (∀ {α : Type} (handler : KernelM α) a k', (interrupt handler).run k = .ok (a, k') →
      k'.processor.level = k.processor.level) ∧
    (∀ {α : Type} (body : SharedM α) missed busy a shared',
      (SharedKernel.withKernel body).run ⟨k, missed, busy⟩ = .ok (a, shared') →
      shared'.kernel.processor.level = k.processor.level) ∧
    (schedule.run k = .error (.interruptsEnabled .schedule) ↔ k.processor.level ≠ .off) ∧
    (∀ r : Request, r.perform.run k ≠ .error (.interruptsEnabled .schedule)) ∧
    enterInterrupt.run k ≠ .error (.interruptsEnabled .schedule) ∧
    leaveInterrupt.run k ≠ .error (.interruptsEnabled .schedule) ∧
    (∀ runs k', dispatchOnce.run k = .ok (runs, k') →
      k'.processor.level = k.processor.level) := by
  have refuses : k.processor.level ≠ .off →
      schedule.run k = .error (.interruptsEnabled .schedule) := by
    intro unmasked
    rw [schedule, run_get_bind, require, if_neg unmasked]
    rfl
  refine ⟨fun r reply k' other => (r.restores_perform other).ends k reply k' rfl,
    fun _ _ _ => level_of_run_interrupt, fun _ _ _ _ _ => SharedKernel.level_of_run_withKernel,
    ⟨fun fails masked => restores_schedule.guarded k masked fails, refuses⟩,
    fun r => r.guarded_perform k, guarded_enterInterrupt k, guarded_leaveInterrupt k,
    fun runs k' => restores_dispatchOnce.ends k runs k' rfl⟩

/-- A thread of higher priority waits for a unit.  It gets the processor in three ways: the unit is
given with interrupts masked, by a handler that lets interrupts in, and under the lock by somebody
who does. -/
theorem interrupt_level_restored_of_switches : ∃ k masked given handled shared,
    Reachable {} k ∧ Reachable {} masked ∧ k.processor.level = .on ∧ masked.processor.level = .off ∧
    (Request.perform (.up ⟨0⟩)).run masked = .ok (.done, given) ∧ given.current ≠ masked.current ∧
    given.processor.level = masked.processor.level ∧
    (interrupt (do let _ ← setLevel .on; SemaphoreId.up ⟨0⟩)).run k = .ok ((), handled) ∧
    handled.current ≠ k.current ∧ handled.processor.level = k.processor.level ∧
    (SharedKernel.withKernel (SharedKernel.onKernel (do
      let _ ← setLevel .on
      SemaphoreId.up ⟨0⟩))).run ⟨masked, 0, false⟩ = .ok ((), shared) ∧
    shared.kernel.current ≠ masked.current ∧
    shared.kernel.processor.level = masked.processor.level := by
  have ran : (Discipline.performAll {} [.start, .createSemaphore 0, .spawn { priority := 40 },
      .down ⟨0⟩] (.fresh {} .stable)).bind (fun k =>
        (Discipline.performAll {} [.setLevel .off] k).bind fun masked =>
          ((SemaphoreId.up ⟨0⟩).run masked).toOption.bind fun given =>
            ((interrupt (do let _ ← setLevel .on; SemaphoreId.up ⟨0⟩)).run k).toOption.bind
              fun handled => ((SharedKernel.withKernel (SharedKernel.onKernel (do
                let _ ← setLevel .on
                SemaphoreId.up ⟨0⟩))).run ⟨masked, 0, false⟩).toOption.map fun shared =>
                  ([k.processor.level, masked.processor.level], [k.current, masked.current],
                    [given.2.current, handled.2.current, shared.2.kernel.current])) =
      some ([.on, .off], [.main, .main], [⟨3⟩, ⟨3⟩, ⟨3⟩]) := by decide +kernel
  rcases Option.bind_eq_some_iff.mp ran with ⟨k, performed, rest⟩
  rcases Option.bind_eq_some_iff.mp rest with ⟨masked, masks, rest⟩
  rcases Option.bind_eq_some_iff.mp rest with ⟨⟨_, given⟩, gives, rest⟩
  rcases Option.bind_eq_some_iff.mp rest with ⟨⟨_, handled⟩, handles, rest⟩
  rcases Option.map_eq_some_iff.mp rest with ⟨⟨_, shared⟩, shares, told⟩
  simp only [Prod.mk.injEq, List.cons.injEq, and_true] at told
  rcases told with ⟨⟨on, off⟩, ⟨here, stillHere⟩, toGiven, toHandled, toShared⟩
  have reachable := (Reachable.fresh {} .stable).performAll performed
  have up : (Request.perform (.up ⟨0⟩)).run masked = .ok (.done, given) :=
    run_bind_eq_ok_iff.mpr ⟨_, given, ok_of_toOption gives, rfl⟩
  have whileHandled := ok_of_toOption handles
  have whileShared := ok_of_toOption shares
  have away : (⟨3⟩ : ThreadId) ≠ ThreadId.main := by decide
  refine ⟨k, masked, given, handled, shared, reachable, reachable.performAll masks, on, off, up, ?_,
    (interrupt_level_restored masked).1 (.up ⟨0⟩) _ _ rfl up, whileHandled, ?_,
    (interrupt_level_restored k).2.1 _ _ _ whileHandled, whileShared, ?_,
    (interrupt_level_restored masked).2.2.1 _ _ _ _ _ whileShared⟩
  · rwa [toGiven, stillHere]
  · rwa [toHandled, here]
  · rwa [toShared, stillHere]

end ThreadKernel
