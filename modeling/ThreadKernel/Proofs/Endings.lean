import ThreadKernel.Proofs.Sound

/-!
# Parts of operations that come to an end

A dispatcher that would pick an idle thread for ever ends in the fault `idleWaits`.  `EndsIn` says
that an operation does not, and what holds of the kernel that it leaves.

The parts that never dispatch end because they do not contain a loop, and they give nobody anything
to do (`Tame`).  What queues the current thread does, so it has to be another thread than the idle
one (`Kernel.Busy`) if that is to stay with nothing to finish (`Kernel.Undue`).
-/

namespace ThreadKernel

namespace Kernel

variable {α β : Type} {k k' k'' : Kernel} {t : ThreadId} {thread : Thread} {fault : Fault}
  {idle : Option ThreadId} {post mid : Kernel → Prop}

/-- `idle` is the idle thread, if there is one, and it has nothing to finish. -/
structure Undue (idle : Option ThreadId) (k : Kernel) : Prop where
  appointed : k.idle = idle
  free : ∀ t, idle = some t → k.pending? t = none

/-- The same thread has the processor, the same one is to run when nothing else is ready, and nobody
has been given anything to do. -/
structure Unburdened (k k' : Kernel) : Prop where
  current : k'.current = k.current
  idle : k'.idle = k.idle
  pending : ∀ t, k.pending? t = none → k'.pending? t = none

theorem Unburdened.refl (k : Kernel) : k.Unburdened k := ⟨rfl, rfl, fun _ => id⟩

theorem Unburdened.trans (first : k.Unburdened k') (second : k'.Unburdened k'') :
    k.Unburdened k'' where
  current := second.current.trans first.current
  idle := second.idle.trans first.idle
  pending t free := second.pending t (first.pending t free)

theorem Unburdened.undue (same : k.Unburdened k') (undue : k.Undue idle) : k'.Undue idle where
  appointed := same.idle.trans undue.appointed
  free t idles := same.pending t (undue.free t idles)

theorem Undue.pending_eq_none (undue : k.Undue idle) (idles : k.idle = some t)
    (found : k.threads.get? t = some thread) : thread.pending = none :=
  (pending?_of_get? found).symm.trans (undue.free t (undue.appointed.symm.trans idles))

theorem Undue.self (undue : k.Undue idle) : k.Undue k.idle :=
  ⟨rfl, fun t idles => undue.free t (undue.appointed.symm.trans idles)⟩

theorem unburdened_of_threads (threads : k'.threads = k.threads)
    (rest : (k'.current, k'.idle) = (k.current, k.idle)) : k.Unburdened k' := by
  rcases Prod.mk.inj rest with ⟨current, idle⟩
  refine ⟨current, idle, fun t free => ?_⟩
  rw [pending?, threads]
  exact free

theorem unburdened_mapThread {f : Thread → Thread}
    (gives : ∀ x, x.pending = none → (f x).pending = none) : k.Unburdened (k.mapThread t f) := by
  refine ⟨rfl, rfl, fun u free => ?_⟩
  rw [pending?, mapThread_threads, Arena.get?_modify]
  split
  · next here =>
    subst here
    cases found : k.threads.get? t with
    | none => rfl
    | some thread =>
      rw [pending?_of_get? found] at free
      exact gives thread free
  · exact free

/-- Run from `k`, `x` does not run for ever, and if it ends well it leaves a kernel with `post`. -/
structure EndsIn (post : Kernel → Prop) (x : KernelM α) (k : Kernel) : Prop where
  fault : ∀ fault, x.run k = .error fault → fault ≠ .idleWaits
  ok : ∀ a k', x.run k = .ok (a, k') → post k'

/-- Run from `k`, `x` ends, and gives nobody anything to do. -/
abbrev Tame (x : KernelM α) (k : Kernel) : Prop := EndsIn k.Unburdened x k

/-! ## Sequences -/

section Sequences

variable {x : KernelM α} {f : α → KernelM β}

theorem endsIn_of_run {a : α} (ran : x.run k = .ok (a, k')) (holds : post k') : EndsIn post x k where
  fault fault fails := by cases ran.symm.trans fails
  ok b last ends := by
    cases ran.symm.trans ends
    exact holds

theorem endsIn_throw (other : fault ≠ .idleWaits) : EndsIn post (throw fault : KernelM α) k where
  fault fault fails := by
    cases fails
    exact other
  ok _ _ ends := by cases ends

theorem EndsIn.imp {post' : Kernel → Prop} (ends : EndsIn post x k)
    (weaker : ∀ k', post k' → post' k') : EndsIn post' x k :=
  ⟨ends.fault, fun a k' ran => weaker k' (ends.ok a k' ran)⟩

theorem EndsIn.bind (first : EndsIn mid x k)
    (rest : ∀ a k', x.run k = .ok (a, k') → mid k' → EndsIn post (f a) k') :
    EndsIn post (x >>= f) k where
  fault fault fails := by
    cases ran : x.run k with
    | error early =>
      rw [run_bind_of_error ran] at fails
      cases fails
      exact first.fault _ ran
    | ok step =>
      rw [run_bind_of_ok ran] at fails
      exact (rest step.1 step.2 ran (first.ok _ _ ran)).fault fault fails
  ok b last h := by
    rcases run_bind_eq_ok_iff.mp h with ⟨a, k', ran, h⟩
    exact (rest a k' ran (first.ok a k' ran)).ok b last h

theorem EndsIn.bind_of_run {a : α} (ran : x.run k = .ok (a, k')) (rest : EndsIn post (f a) k') :
    EndsIn post (x >>= f) k :=
  ⟨fun fault fails => rest.fault fault ((run_bind_of_ok ran).symm.trans fails),
    fun b last ends => rest.ok b last ((run_bind_of_ok ran).symm.trans ends)⟩

theorem tame_pure (a : α) : Tame (pure a) k := endsIn_of_run rfl (.refl k)

theorem Tame.bind (first : Tame x k) (rest : ∀ a k', Tame (f a) k') : Tame (x >>= f) k :=
  EndsIn.bind first fun a k' _ same => (rest a k').imp fun _ later => same.trans later

theorem Tame.undue (tame : Tame x k) (undue : k.Undue idle) : EndsIn (Undue idle) x k :=
  tame.imp fun _ same => same.undue undue

theorem endsIn_pure (holds : post k) (a : α) : EndsIn post (pure a) k := endsIn_of_run rfl holds

theorem EndsIn.answer (ends : EndsIn post x k) (g : α → β) : EndsIn post (do return g (← x)) k :=
  ends.bind fun a _ _ holds => endsIn_pure holds (g a)

/-- What comes first gives nobody anything to do. -/
theorem Undue.after (undue : k.Undue idle) (first : Tame x k)
    (rest : ∀ a k', k'.Undue idle → EndsIn post (f a) k') : EndsIn post (x >>= f) k :=
  EndsIn.bind first fun a k' _ same => rest a k' (same.undue undue)

theorem EndsIn.get {f : Kernel → KernelM β} (rest : EndsIn post (f k) k) :
    EndsIn post (MonadState.get >>= f) k :=
  .bind_of_run rfl rest

theorem EndsIn.ite {p : Prop} [Decidable p] {y : KernelM α} (yes : EndsIn post x k)
    (no : EndsIn post y k) : EndsIn post (if p then x else y) k := by
  split
  · exact yes
  · exact no

-- Where these are used the equations are left to `by rfl`, which waits until the edit is known.
theorem tame_set {next : Kernel} (threads : next.threads = k.threads)
    (rest : (next.current, next.idle) = (k.current, k.idle)) : Tame (set next) k :=
  endsIn_of_run rfl (unburdened_of_threads threads rest)

theorem tame_modify {g : Kernel → Kernel} (threads : (g k).threads = k.threads)
    (rest : ((g k).current, (g k).idle) = (k.current, k.idle)) : Tame (modify g) k :=
  endsIn_of_run rfl (unburdened_of_threads threads rest)

theorem tame_require {p : Prop} [Decidable p] (other : fault ≠ .idleWaits) :
    Tame (require p fault) k := by
  unfold require
  exact .ite (tame_pure ()) (endsIn_throw other)

theorem tame_lift {x : Except Fault α} (fails : ∀ fault, x = .error fault → fault ≠ .idleWaits) :
    Tame (liftM x : KernelM α) k := by
  cases x with
  | error fault => exact endsIn_throw (fails fault rfl)
  | ok a => exact tame_pure a

theorem tame_forM {list : List α} {f : α → KernelM PUnit} (each : ∀ a k, Tame (f a) k) :
    Tame (list.forM f) k := by
  induction list generalizing k with
  | nil => exact tame_pure ()
  | cons a rest ih =>
    exact (each a k).bind fun _ _ => ih

end Sequences

/-! ## Records, the journal and the interrupt level -/

theorem find_error {kind : Kind} {a : Arena kind α} {h : Handle kind}
    (fails : a.find h = .error fault) : fault ≠ .idleWaits := by
  rw [Arena.find] at fails
  split at fails
  · cases fails
  · cases fails
    simp

theorem tame_findThread (t : ThreadId) (k : Kernel) : Tame (findThread t) k :=
  .get (tame_lift fun _ => find_error)

theorem tame_findSemaphore (s : SemaphoreId) (k : Kernel) : Tame (findSemaphore s) k :=
  .get (tame_lift fun _ => find_error)

theorem tame_findLock (l : LockId) (k : Kernel) : Tame (findLock l) k :=
  .get (tame_lift fun _ => find_error)

theorem tame_findCondition (c : ConditionId) (k : Kernel) : Tame (findCondition c) k :=
  .get (tame_lift fun _ => find_error)

theorem EndsIn.findThread {f : Thread → KernelM β}
    (rest : ∀ thread, k.threads.get? t = some thread → EndsIn post (f thread) k) :
    EndsIn post (Kernel.findThread t >>= f) k := by
  apply EndsIn.bind (tame_findThread t k)
  intro thread k' ran _
  rcases run_findThread_eq_ok_iff.mp ran with ⟨found, rfl⟩
  exact rest thread found

theorem tame_modifyThread (t : ThreadId) (f : Thread → Thread) (k : Kernel)
    (gives : ∀ x, x.pending = none → (f x).pending = none) : Tame (modifyThread t f) k :=
  (tame_findThread t k).bind fun _ _ => endsIn_of_run rfl (unburdened_mapThread gives)

theorem tame_modifySemaphore (s : SemaphoreId) (f : Semaphore → Semaphore) (k : Kernel) :
    Tame (modifySemaphore s f) k :=
  (tame_findSemaphore s k).bind fun _ _ => tame_modify (by rfl) (by rfl)

theorem tame_modifyLock (l : LockId) (f : Lock → Lock) (k : Kernel) : Tame (modifyLock l f) k :=
  (tame_findLock l k).bind fun _ _ => tame_modify (by rfl) (by rfl)

theorem tame_modifyCondition (c : ConditionId) (f : Condition → Condition) (k : Kernel) :
    Tame (modifyCondition c f) k :=
  (tame_findCondition c k).bind fun _ _ => tame_modify (by rfl) (by rfl)

theorem tame_caller (k : Kernel) : Tame caller k := endsIn_of_run rfl (.refl k)

theorem tame_note (event : Event) (k : Kernel) : Tame (note event) k :=
  tame_modify rfl rfl

theorem tame_announce (event : String → Event) (k : Kernel) : Tame (announce event) k := by
  apply EndsIn.get
  cases k.observer.bind Observer.label with
  | none => exact tame_pure ()
  | some label => exact tame_note _ k

theorem tame_setLevel (level : Level) (k : Kernel) : Tame (setLevel level) k :=
  endsIn_of_run (run_setLevel level) (unburdened_of_threads rfl rfl)

theorem Tame.masked {x : KernelM α} (body : ∀ k, Tame x k) (k : Kernel) : Tame (masked x) k := by
  apply (tame_setLevel .off k).bind
  intro level k'
  apply (body k').bind
  intro a k'
  exact (tame_setLevel level k').bind fun _ _ => tame_pure a

theorem EndsIn.masked {x : KernelM α} (body : EndsIn (Undue idle) x (k.atLevel .off)) :
    EndsIn (Undue idle) (masked x) k := by
  apply EndsIn.bind_of_run (run_setLevel .off)
  apply body.bind
  intro a k' _ undue
  apply undue.after (tame_setLevel k.processor.level k')
  exact fun _ _ undue => endsIn_pure undue a

theorem Undue.masked {x : KernelM α} (undue : k.Undue idle)
    (body : ∀ k, k.Undue idle → EndsIn (Undue idle) x k) : EndsIn (Undue idle) (masked x) k :=
  .masked (body (k.atLevel .off) ⟨undue.appointed, undue.free⟩)

/-! ## Priorities -/

theorem rank_error {table : ThreadTable} (fails : table.rank t = .error fault) :
    fault ≠ .idleWaits := by
  rw [ThreadTable.rank] at fails
  cases found : table.find t with
  | error early =>
    rw [found] at fails
    cases fails
    exact find_error found
  | ok thread =>
    rw [found] at fails
    cases fails

theorem EndsIn.caller {f : ThreadId → KernelM β} (rest : EndsIn post (f k.current) k) :
    EndsIn post (Kernel.caller >>= f) k :=
  .bind_of_run rfl rest

theorem EndsIn.ranks {f : (ThreadId → Except Fault Priority) → KernelM β}
    (rest : EndsIn post (f k.threads.rank) k) : EndsIn post (Kernel.ranks >>= f) k :=
  ⟨fun fault fails => rest.fault fault (run_ranks_bind.symm.trans fails),
    fun b last ends => rest.ok b last (run_ranks_bind.symm.trans ends)⟩

/-- To sort a list is to look up priorities. -/
theorem tame_sortWith {rank : α → Except Fault Priority} {list : List α}
    (looks : ∀ a fault, rank a = .error fault → fault ≠ .idleWaits) :
    Tame (liftM (Ranked.sortWith rank list)) k := by
  apply tame_lift
  intro fault fails
  rcases Ranked.sortWith_error fails with ⟨a, _, looked⟩
  exact looks a fault looked

theorem tame_insertWith {rank : α → Except Fault Priority} {a : α} {list : List α}
    (looks : ∀ a fault, rank a = .error fault → fault ≠ .idleWaits) :
    Tame (liftM (Ranked.insertWith rank a list)) k := by
  apply tame_lift
  intro fault fails
  rcases Ranked.insertWith_error fails with ⟨a, _, looked⟩
  exact looks a fault looked

theorem tame_setEffective (t : ThreadId) (p : Priority) (k : Kernel) :
    Tame (setEffective t p) k := by
  apply (tame_findThread t k).bind
  intro thread k'
  apply (tame_modifyThread t _ k' fun _ => by exact id).bind
  intro _ k'
  apply EndsIn.ite
  · exact tame_modify (by rfl) (by rfl)
  · exact tame_pure ()

theorem tame_donateFrom (start : ThreadId) (depth : Nat) (visited : List ThreadId)
    (donor : ThreadId) (k : Kernel) : Tame (donateFrom start depth visited donor) k := by
  induction depth generalizing k visited donor with
  | zero =>
    apply EndsIn.get
    cases k.blockingHolder donor with
    | none => exact tame_pure ()
    | some beyond => exact tame_note _ k
  | succ depth ih =>
    apply EndsIn.get
    cases k.blockingHolder donor with
    | none => exact tame_pure ()
    | some holder =>
      apply EndsIn.ite
      · apply (tame_note _ k).bind
        intro _ k'
        apply (tame_setEffective _ _ k').bind
        exact fun _ k' => ih _ _ k'
      · exact ih _ _ k

theorem tame_donate (k : Kernel) : Tame donate k := .get (tame_donateFrom _ _ _ _ k)

theorem tame_refresh (t : ThreadId) (k : Kernel) : Tame (refresh t) k := by
  apply EndsIn.get
  apply (tame_findThread t k).bind
  intro thread k'
  apply (tame_modifyThread t _ k' fun _ => by exact id).bind
  intro _ k'
  apply EndsIn.ite
  · apply (tame_note _ k').bind
    exact fun _ k' => tame_setEffective t _ k'
  · exact tame_setEffective t _ k'

theorem tame_addDonor (holder donor : ThreadId) (k : Kernel) : Tame (addDonor holder donor) k := by
  apply (tame_findThread holder k).bind
  intro thread k'
  apply EndsIn.ite
  · exact tame_pure ()
  · apply EndsIn.ranks
    apply (tame_insertWith fun _ _ => rank_error).bind
    exact fun donors k' => tame_modifyThread holder _ k' fun _ => by exact id

theorem tame_makeReady (t : ThreadId) (k : Kernel) : Tame (makeReady t) k := by
  apply (tame_modifyThread t _ k fun _ => by exact id).bind
  intro _ k'
  apply EndsIn.get
  have once : ∀ fault, k'.ready.enqueue t (k'.priorityOf t) = .error fault → fault ≠ .idleWaits := by
    intro fault fails
    rw [ReadyQueue.enqueue] at fails
    split at fails
    · cases fails
      simp
    · cases fails
  apply EndsIn.bind (tame_lift once)
  intro ready k'' ran _
  rcases run_lift_eq_ok_iff.mp ran with ⟨_, rfl⟩
  exact tame_set (by rfl) (by rfl)

theorem tame_unblock (t : ThreadId) (k : Kernel) : Tame (unblock t) k := by
  apply Tame.masked
  intro k
  apply (tame_findThread t k).bind
  intro thread k'
  apply (tame_require (by simp)).bind
  intro _ k'
  apply (tame_require (by simp)).bind
  exact fun _ k' => tame_makeReady t k'

end Kernel

open Kernel

variable {k k' : Kernel} {t : ThreadId} {s : SemaphoreId} {l : LockId} {due : Option Pending}
  {idle : Option ThreadId}

/-! ## Semaphores, locks and conditions -/

theorem Semaphore.tame_create (value : Nat) (purpose : Purpose) (k : Kernel) :
    Tame (Semaphore.create value purpose) k := by
  apply EndsIn.get
  apply Tame.bind (tame_set (by rfl) (by rfl))
  exact fun _ _ => tame_pure _

namespace SemaphoreId

theorem tame_take (s : SemaphoreId) (k : Kernel) : Tame s.take k := by
  apply (tame_findSemaphore s k).bind
  intro semaphore k'
  apply EndsIn.ite
  · apply (tame_modifySemaphore s _ k').bind
    intro _ k'
    apply (tame_caller k').bind
    intro thread k'
    apply (tame_note _ k').bind
    exact fun _ _ => tame_pure true
  · exact tame_pure false

theorem tame_destroy (s : SemaphoreId) (k : Kernel) : Tame s.destroy k := by
  apply (tame_findSemaphore s k).bind
  intro semaphore k'
  apply (tame_require (by simp)).bind
  exact fun _ k' => tame_modify (by rfl) (by rfl)

theorem tame_wake (s : SemaphoreId) (k : Kernel) : Tame s.wake k := by
  apply (tame_findSemaphore s k).bind
  intro semaphore k'
  apply EndsIn.ranks
  apply (tame_sortWith fun _ _ => rank_error).bind
  intro queued k'
  apply (tame_require (by simp)).bind
  intro _ k'
  apply (tame_modifySemaphore s _ k').bind
  intro _ k'
  apply (tame_note _ k').bind
  intro _ k'
  cases queued with
  | nil => exact tame_pure ()
  | cons t rest =>
    apply (tame_note _ k').bind
    intro _ k'
    apply (tame_modifyThread t _ k' fun _ => by exact id).bind
    exact fun _ k' => tame_unblock t k'

end SemaphoreId

namespace LockId

theorem tame_hold (l : LockId) (k : Kernel) : Tame l.hold k := by
  apply (tame_caller k).bind
  intro thread k'
  apply (tame_modifyThread thread _ k' fun _ => by exact id).bind
  intro _ k'
  apply (tame_modifyLock l _ k').bind
  intro _ k'
  apply (tame_note _ k').bind
  intro _ k'
  apply (tame_findLock l k').bind
  intro lock k'
  apply (tame_findSemaphore _ k').bind
  intro semaphore k'
  dsimp only
  apply EndsIn.ite
  · exact tame_pure ()
  · apply (tame_forM fun waiter k => tame_addDonor thread waiter k).bind
    exact fun _ k' => tame_refresh thread k'

theorem tame_dropDonors (l : LockId) (k : Kernel) : Tame l.dropDonors k := by
  apply EndsIn.get
  dsimp only
  apply (tame_modifyThread _ _ k fun _ => by exact id).bind
  exact fun _ k' => tame_refresh _ k'

theorem tame_destroy (l : LockId) (k : Kernel) : Tame l.destroy k := by
  apply (tame_findLock l k).bind
  intro lock k'
  cases lock.holder with
  | some holder => exact endsIn_throw (by simp)
  | none =>
    apply Tame.bind (tame_modify (by rfl) (by rfl))
    exact fun _ k' => SemaphoreId.tame_destroy _ k'

theorem tame_isHeldByCaller (l : LockId) (k : Kernel) : Tame l.isHeldByCaller k := by
  have holder : ∀ k, Tame l.holder k := fun k => (tame_findLock l k).bind fun _ _ => tame_pure _
  apply (holder k).bind
  intro holder k'
  exact (tame_caller k').bind fun _ _ => tame_pure _

theorem tame_requireHeld (l : LockId) (operation : Operation) (k : Kernel) :
    Tame (l.requireHeld operation) k := by
  apply (tame_isHeldByCaller l k).bind
  intro held k'
  exact (tame_caller k').bind fun _ _ => tame_require (by simp)

theorem tame_requireNotHeld (l : LockId) (operation : Operation) (k : Kernel) :
    Tame (l.requireNotHeld operation) k := by
  apply (tame_isHeldByCaller l k).bind
  intro held k'
  exact (tame_caller k').bind fun _ _ => tame_require (by simp)

theorem tame_tryAcquire (l : LockId) (k : Kernel) : Tame l.tryAcquire k := by
  apply (tame_requireNotHeld l _ k).bind
  intro _ k'
  apply Tame.masked _ k'
  intro k
  apply (tame_findLock l k).bind
  intro lock k'
  apply (Tame.masked (SemaphoreId.tame_take lock.semaphore) k').bind
  intro taken k'
  apply EndsIn.ite
  · exact (tame_hold l k').bind fun _ _ => tame_pure true
  · exact tame_pure false

end LockId

namespace ConditionId

variable {c : ConditionId}

theorem tame_ranked (c : ConditionId) (k : Kernel) : Tame c.ranked k := by
  apply EndsIn.ranks
  apply (tame_findCondition c k).bind
  exact fun condition k' => tame_sortWith fun _ _ => rank_error

theorem tame_enlist (c : ConditionId) (s : SemaphoreId) (k : Kernel) : Tame (c.enlist s) k := by
  apply (tame_caller k).bind
  intro thread k'
  apply EndsIn.ranks
  apply (tame_ranked c k').bind
  intro queue k''
  apply (tame_insertWith fun _ _ => rank_error).bind
  intro waiters k''
  apply (tame_modifyCondition c _ k'').bind
  exact fun _ k' => tame_note _ k'

theorem tame_wakeFirst (c : ConditionId) (k : Kernel) : Tame c.wakeFirst k := by
  apply (tame_ranked c k).bind
  intro queued k'
  apply (tame_modifyCondition c _ k').bind
  intro _ k'
  cases queued with
  | nil => exact tame_pure false
  | cons waiter rest =>
    apply (tame_note _ k').bind
    intro _ k'
    apply (SemaphoreId.tame_wake waiter.semaphore k').bind
    exact fun _ _ => tame_pure true

theorem tame_wakeMany (c : ConditionId) (count : Nat) (k : Kernel) : Tame (c.wakeMany count) k := by
  induction count generalizing k with
  | zero => exact tame_pure ()
  | succ count ih => exact (tame_wakeFirst c k).bind fun _ k' => ih k'

theorem tame_destroy (c : ConditionId) (k : Kernel) : Tame c.destroy k := by
  apply (tame_findCondition c k).bind
  intro condition k'
  apply (tame_require (by simp)).bind
  exact fun _ _ => tame_modify (by rfl) (by rfl)

end ConditionId

/-! ## Attempts -/

/-- The idle thread has nothing to finish, and the processor is with another thread, `t`. -/
structure Kernel.Busy (idle : Option ThreadId) (t : ThreadId) (k : Kernel) : Prop where
  undue : k.Undue idle
  current : k.current = t
  other : idle ≠ some t

theorem Kernel.Unburdened.busy (same : k.Unburdened k') (busy : k.Busy idle t) : k'.Busy idle t :=
  ⟨same.undue busy.undue, same.current.trans busy.current, busy.other⟩

namespace Kernel.Busy

variable {α β : Type} {x : KernelM α} {f : α → KernelM β} {post : Kernel → Prop}

theorem after (busy : k.Busy idle t) (first : Tame x k)
    (rest : ∀ a k', k'.Busy idle t → EndsIn post (f a) k') : EndsIn post (x >>= f) k :=
  EndsIn.bind first fun a k' _ same => rest a k' (same.busy busy)

theorem masked {x : KernelM α} (busy : k.Busy idle t)
    (body : ∀ k, k.Busy idle t → EndsIn (Undue idle) x k) : EndsIn (Undue idle) (masked x) k :=
  .masked (body (k.atLevel .off) ⟨⟨busy.undue.appointed, busy.undue.free⟩, busy.current, busy.other⟩)

theorem caller {f : ThreadId → KernelM β} (busy : k.Busy idle t) (rest : EndsIn post (f t) k) :
    EndsIn post (Kernel.caller >>= f) k := by
  apply EndsIn.caller
  rwa [busy.current]

/-- What `t` has to do is not the idle thread's. -/
theorem modifyThread (busy : k.Busy idle t) (f : Thread → Thread) :
    EndsIn (Busy idle t) (modifyThread t f) k := by
  apply busy.after (tame_findThread t k)
  intro thread k' busy
  refine endsIn_of_run rfl ⟨⟨busy.undue.appointed, fun u idles => ?_⟩, busy.current, busy.other⟩
  have apart : u ≠ t := by
    rintro rfl
    exact busy.other idles
  exact (pending?_mapThread_of_ne (k := k') apart).trans (busy.undue.free u idles)

end Kernel.Busy

theorem SemaphoreId.ends_attempt {retry : Pending} (busy : k.Busy idle t) :
    EndsIn (Busy idle t) (s.attempt retry) k := by
  apply busy.after (tame_take s k)
  intro taken k' busy
  apply EndsIn.ite
  · exact endsIn_pure busy true
  · apply busy.caller
    apply EndsIn.ranks
    apply busy.after (tame_findSemaphore s k')
    intro semaphore k' busy
    apply busy.after (tame_sortWith fun _ _ => rank_error)
    intro queued k' busy
    apply busy.after (tame_insertWith fun _ _ => rank_error)
    intro waiters k' busy
    apply busy.after (tame_modifySemaphore s _ k')
    intro _ k' busy
    apply EndsIn.bind (busy.modifyThread _)
    intro _ k' _ busy
    apply busy.after (tame_note _ k')
    exact fun _ _ busy => endsIn_pure busy false

theorem LockId.ends_attempt (busy : k.Busy idle t) : EndsIn (Busy idle t) l.attempt k := by
  apply busy.after (tame_caller k)
  intro thread k' busy
  apply busy.after (tame_findLock l k')
  intro lock k' busy
  have settles : ∀ k', k'.Busy idle t → EndsIn (Busy idle t) (do
      if ← lock.semaphore.attempt (.lock l) then
        l.hold
        pure true
      else
        pure false) k' := by
    intro k' busy
    apply EndsIn.bind (SemaphoreId.ends_attempt busy)
    intro taken k' _ busy
    apply EndsIn.ite
    · exact busy.after (tame_hold l k') fun _ _ busy => endsIn_pure busy true
    · exact endsIn_pure busy false
  cases lock.holder with
  | none => exact settles k' busy
  | some holder =>
    apply busy.after (tame_modifyThread thread _ k' fun _ => by exact id)
    intro _ k' busy
    apply busy.after (tame_addDonor holder thread k')
    intro _ k' busy
    apply busy.after (tame_donate k')
    exact fun _ k' busy => settles k' busy

theorem LockId.ends_reacquire (busy : k.Busy idle t) : EndsIn (Busy idle t) (l.reacquire s) k := by
  apply EndsIn.bind (SemaphoreId.ends_attempt busy)
  intro taken k' _ busy
  apply EndsIn.ite
  · apply busy.after (SemaphoreId.tame_destroy s k')
    exact fun _ k' busy => ends_attempt busy
  · exact endsIn_pure busy false

end ThreadKernel
