import ThreadKernel.Proofs.EveryRun

/-!
# What operations leave alone

Some of a kernel only the operations meant for it change: the identities issued, the interrupt
level, what a handler has put off, the units given back.  That is a kernel's `Frame`.  Who has the
processor, and whether a yield is put off, is its `Seat`; only the dispatcher and a look for
preemption change that.

`Keeps` says that an operation leaves a view of the kernel as it is.  It is closed under sequences,
so each part of an operation has one lemma.  The parts that never dispatch keep frame and seat
(`Still`), the others the frame, but for the units that `wake` gives back.  `alters_of_run_perform`
says what that comes to for each request, and `Reachable.settled` that no handler leaves a yield
behind.
-/

namespace ThreadKernel

/-- The semaphore that a unit was given back to, if that is what happened. -/
def Event.gift? : Event → Option SemaphoreId
  | .gives s => some s
  | _ => none

theorem Event.gift?_of_isRemark {event : Event} (remark : event.isRemark = true) :
    event.gift? = none := by
  cases event with
  | gives s => cases remark
  | _ => rfl

namespace Kernel

/-- The semaphores that units were given back to, latest first. -/
def gifts (k : Kernel) : List SemaphoreId := k.events.filterMap Event.gift?

/-- What an operation changes only if it is meant to. -/
@[ext]
structure Frame where
  /-- The identity issued next. -/
  next : ThreadId
  level : Level
  inInterrupt : Bool
  /-- A yield is put off though no handler runs. -/
  overdue : Bool
  gifts : List SemaphoreId

/-- Units have been given back, to the semaphores of `gifts`, the latest first. -/
@[simps]
def Frame.give (gifts : List SemaphoreId) (frame : Frame) : Frame :=
  { frame with gifts := gifts ++ frame.gifts }

/-- Who has the processor, and whether it is to be given up later. -/
structure Seat where
  current : ThreadId
  switches : Nat
  yieldDue : Bool

@[simps]
def frame (k : Kernel) : Frame where
  next := k.threads.next
  level := k.processor.level
  inInterrupt := k.inInterrupt
  overdue := k.yieldDue && !k.inInterrupt
  gifts := k.gifts

@[simps]
def seat (k : Kernel) : Seat where
  current := k.current
  switches := k.processor.switches
  yieldDue := k.yieldDue

/-- All that a part which does not dispatch leaves alone. -/
def stance (k : Kernel) : Frame × Seat := (k.frame, k.seat)

variable {α β δ : Type} {k k' : Kernel} {t : ThreadId} {view : Kernel → δ}

/-- Run from `k`, `x` leaves what `view` shows as it is. -/
def Keeps (view : Kernel → δ) (x : KernelM α) (k : Kernel) : Prop :=
  ∀ a k', x.run k = .ok (a, k') → view k' = view k

/-- Run from `k`, `x` gives no processor up, and none of the units. -/
abbrev Still (x : KernelM α) (k : Kernel) : Prop := Keeps stance x k

/-! ## Sequences -/

section Sequences

variable {x y : KernelM α} {f : α → KernelM β}

theorem keeps_of_run {a : α} (ran : x.run k = .ok (a, k')) (same : view k' = view k) :
    Keeps view x k := fun _ _ ends => by
  cases ran.symm.trans ends
  exact same

theorem keeps_of_looks (looks : Looks x) (k : Kernel) : Keeps view x k := fun _ _ ran => by
  rw [looks.eq_of_run ran]

theorem keeps_pure (a : α) : Keeps view (pure a) k := keeps_of_looks (looks_pure a) k

theorem keeps_throw (fault : Fault) : Keeps view (throw fault : KernelM α) k :=
  fun _ _ ran => by cases ran

theorem Keeps.bind (first : Keeps view x k) (rest : ∀ a k', Keeps view (f a) k') :
    Keeps view (x >>= f) k := fun b last h => by
  obtain ⟨a, middle, ran, h⟩ := run_bind_eq_ok_iff.mp h
  exact (rest a middle b last h).trans (first a middle ran)

/-- What has been looked up is known to the rest, and the kernel is the same. -/
theorem Keeps.look (looks : Looks x) (rest : ∀ a, Keeps view (f a) k) :
    Keeps view (x >>= f) k := fun b last h => by
  obtain ⟨a, middle, ran, h⟩ := run_bind_eq_ok_iff.mp h
  cases looks.eq_of_run ran
  exact rest a b last h

theorem Keeps.get {f : Kernel → KernelM β} (rest : Keeps view (f k) k) :
    Keeps view (MonadState.get >>= f) k := rest

theorem Keeps.ite {p : Prop} [Decidable p] (yes : Keeps view x k) (no : Keeps view y k) :
    Keeps view (if p then x else y) k := by
  split
  · exact yes
  · exact no

theorem Keeps.answer (keeps : Keeps view x k) (g : α → β) : Keeps view (do return g (← x)) k :=
  keeps.bind fun _ _ => keeps_pure _

-- Where these are used the equation is left to `by rfl`, which waits until the edit is known.
theorem keeps_set {next : Kernel} (same : view next = view k) : Keeps view (set next) k :=
  keeps_of_run rfl same

theorem keeps_modify {g : Kernel → Kernel} (same : view (g k) = view k) : Keeps view (modify g) k :=
  keeps_of_run rfl same

theorem keeps_forM {list : List α} {f : α → KernelM PUnit} (each : ∀ a k, Keeps view (f a) k) :
    Keeps view (list.forM f) k := by
  induction list generalizing k with
  | nil => exact keeps_pure ()
  | cons a rest ih => exact (each a k).bind fun _ _ => ih

theorem Keeps.frame (still : Still x k) : Keeps frame x k := fun a k' ran =>
  congrArg Prod.fst (still a k' ran)

theorem Keeps.seat (still : Still x k) : Keeps seat x k := fun a k' ran =>
  congrArg Prod.snd (still a k' ran)

/-- Masking interrupts for a while leaves in the frame what the masked part does to it. -/
theorem frame_of_masked {last : Kernel} {g : List SemaphoreId}
    (given : last.frame = (k.atLevel .off).frame.give g) :
    (last.atLevel k.processor.level).frame = k.frame.give g := by
  change { last.frame with level := k.processor.level } = _
  rw [given]
  rfl

theorem Keeps.masked {x : KernelM α} (body : ∀ k, Keeps Kernel.frame x k) (k : Kernel) :
    Keeps Kernel.frame (Kernel.masked x) k := fun a k' h => by
  obtain ⟨last, ran, rfl⟩ := run_masked_eq_ok_iff.mp h
  exact frame_of_masked (g := []) (body _ a last ran)

theorem Still.masked {x : KernelM α} (body : ∀ k, Still x k) (k : Kernel) :
    Still (Kernel.masked x) k := fun a k' h => by
  obtain ⟨last, ran, rfl⟩ := run_masked_eq_ok_iff.mp h
  have still := Prod.mk.inj (body _ a last ran)
  exact Prod.ext (frame_of_masked (g := []) still.1) still.2

end Sequences

/-! ## Records, the journal and the interrupt level -/

theorem frame_withEvents {events : List Event} (told : events.filterMap Event.gift? = k.gifts) :
    (k.withEvents events).frame = k.frame :=
  Frame.ext rfl rfl rfl rfl told

theorem stance_withEvents {events : List Event} (told : events.filterMap Event.gift? = k.gifts) :
    (k.withEvents events).stance = k.stance :=
  Prod.ext (frame_withEvents told) rfl

theorem gifts_cons {event : Event} (other : event.gift? = none) :
    (event :: k.events).filterMap Event.gift? = k.gifts := by
  rw [List.filterMap_cons, other]
  rfl

theorem gifts_of_remarks {events : List Event} (told : Remarks k.events events) :
    events.filterMap Event.gift? = k.gifts := by
  obtain ⟨new, rfl, remarks⟩ := told
  have none : new.filterMap Event.gift? = [] :=
    List.filterMap_eq_nil_iff.mpr fun event member => Event.gift?_of_isRemark (remarks event member)
  rw [List.filterMap_append, none]
  rfl

theorem stance_of_threads {threads : ThreadTable} (same : threads.next = k.threads.next) :
    stance { k with threads } = k.stance :=
  Prod.ext (Frame.ext same rfl rfl rfl rfl) rfl

theorem stance_mapThread (t : ThreadId) (f : Thread → Thread) :
    (k.mapThread t f).stance = k.stance :=
  stance_of_threads (Arena.next_modify _ _ _)

theorem frame_mapThread (t : ThreadId) (f : Thread → Thread) : (k.mapThread t f).frame = k.frame :=
  congrArg Prod.fst (stance_mapThread t f)

theorem still_modifyThread (t : ThreadId) (f : Thread → Thread) (k : Kernel) :
    Still (modifyThread t f) k :=
  .look (looks_findThread t) fun _ => keeps_modify (stance_mapThread t f)

theorem still_modifyLock (l : LockId) (f : Lock → Lock) (k : Kernel) : Still (modifyLock l f) k :=
  .look (looks_findLock l) fun _ => keeps_modify (by rfl)

theorem still_note {event : Event} (other : event.gift? = none) (k : Kernel) : Still (note event) k :=
  keeps_of_run rfl (stance_withEvents (gifts_cons other))

theorem still_announce {event : String → Event} (remark : ∀ label, (event label).isRemark = true)
    (k : Kernel) : Still (announce event) k := by
  obtain ⟨events, told, ran⟩ := run_announce (k := k) event remark
  exact keeps_of_run ran (stance_withEvents (gifts_of_remarks told))

/-! ## Priorities -/

theorem still_setEffective (t : ThreadId) (p : Priority) (k : Kernel) : Still (setEffective t p) k := by
  apply Keeps.look (looks_findThread t)
  intro thread
  apply (still_modifyThread t _ k).bind
  intro _ k
  apply Keeps.ite
  · exact keeps_modify (by rfl)
  · exact keeps_pure ()

theorem still_donate (k : Kernel) : Still donate k := fun _ _ donated =>
  donate_induction (motive := fun later => later.stance = k.stance)
    (fun _ _ remark same => (stance_withEvents (gifts_cons (Event.gift?_of_isRemark remark))).trans same)
    (fun _ _ _ _ same ran => (still_setEffective _ _ _ () _ ran).trans same) rfl donated

theorem still_refresh (t : ThreadId) (k : Kernel) : Still (refresh t) k := by
  apply Keeps.get
  apply Keeps.look (looks_findThread t)
  intro thread
  apply (still_modifyThread t _ k).bind
  intro _ k
  apply Keeps.ite
  · apply (still_note rfl k).bind
    exact fun _ k => still_setEffective t _ k
  · exact still_setEffective t _ k

theorem still_addDonor (holder donor : ThreadId) (k : Kernel) : Still (addDonor holder donor) k :=
    fun _ _ ran => by
  obtain ⟨_, _, _, _, rfl⟩ := of_run_addDonor ran
  exact stance_mapThread _ _

theorem still_makeReady (t : ThreadId) (k : Kernel) : Still (makeReady t) k := fun _ _ ran => by
  obtain ⟨_, _, _, rfl⟩ := of_run_makeReady ran
  exact stance_mapThread _ _

theorem still_unblock (t : ThreadId) (k : Kernel) : Still (unblock t) k := fun _ _ ran => by
  obtain ⟨_, _, _, _, _, rfl⟩ := of_run_unblock ran
  exact stance_mapThread _ _

end Kernel

open Kernel

variable {k k' : Kernel} {u : Unit} {s : SemaphoreId} {l : LockId} {c : ConditionId}

/-! ## Semaphores -/

theorem Semaphore.still_create (value : Nat) (purpose : Purpose) (k : Kernel) :
    Still (Semaphore.create value purpose) k := by
  apply Keeps.get
  apply Keeps.bind (keeps_set (by rfl))
  exact fun _ _ => keeps_pure _

namespace SemaphoreId

theorem still_destroy (s : SemaphoreId) (k : Kernel) : Still s.destroy k := fun _ _ ran => by
  obtain ⟨_, _, _, rfl⟩ := of_run_destroy ran
  rfl

theorem still_take (s : SemaphoreId) (k : Kernel) : Still s.take k := fun _ _ ran => by
  obtain ⟨_, _, ⟨_, _, rfl⟩ | ⟨_, _, rfl⟩⟩ := of_run_take ran
  · exact stance_withEvents (gifts_cons rfl)
  · rfl

theorem still_attempt (s : SemaphoreId) (retry : Pending) (k : Kernel) : Still (s.attempt retry) k :=
    fun _ _ ran => by
  obtain ⟨_, _, ⟨_, _, rfl⟩ | ⟨_, _, waiters, _, rfl⟩⟩ := of_run_attempt ran
  · exact stance_withEvents (gifts_cons rfl)
  · exact (stance_withEvents (gifts_cons rfl)).trans (stance_mapThread _ _)

/-- To wake is to give one unit back, and nothing else that shows in the frame. -/
theorem frame_of_run_wake (h : s.wake.run k = .ok (u, k')) :
    k'.frame = k.frame.give [s] ∧ k'.seat = k.seat ∧ k'.conditions = k.conditions := by
  obtain ⟨_, _, ⟨_, rfl⟩ | ⟨t, rest, _, ran⟩⟩ := of_run_wake h
  · exact ⟨rfl, rfl, rfl⟩
  · have roused : (s.roused t rest k).stance = (s.given rest k).stance :=
      (stance_withEvents (gifts_cons rfl)).trans (stance_mapThread (k := s.given rest k) t _)
    have same := Prod.mk.inj ((still_unblock t _ u k' ran).trans roused)
    obtain ⟨_, _, _, _, _, rfl⟩ := of_run_unblock ran
    exact ⟨same.1, same.2, rfl⟩

end SemaphoreId

/-! ## Locks -/

namespace LockId

theorem still_hold (l : LockId) (k : Kernel) : Still l.hold k := by
  apply Keeps.look looks_caller
  intro thread
  apply (still_modifyThread thread _ k).bind
  intro _ k
  apply (still_modifyLock l _ k).bind
  intro _ k
  apply (still_note rfl k).bind
  intro _ k
  apply Keeps.look (looks_findLock l)
  intro lock
  apply Keeps.look (looks_findSemaphore _)
  intro semaphore
  apply Keeps.ite
  · exact keeps_pure ()
  · apply (keeps_forM fun waiter k => still_addDonor thread waiter k).bind
    exact fun _ k => still_refresh thread k

theorem still_attempt (l : LockId) (k : Kernel) : Still l.attempt k := by
  have settles : ∀ (lock : Lock) k, Still (do
      if ← lock.semaphore.attempt (.lock l) then
        l.hold
        pure true
      else
        pure false) k := fun lock k => by
    apply (lock.semaphore.still_attempt _ k).bind
    intro taken k
    apply Keeps.ite
    · exact (still_hold l k).bind fun _ _ => keeps_pure true
    · exact keeps_pure false
  apply Keeps.look looks_caller
  intro thread
  apply Keeps.look (looks_findLock l)
  intro lock
  cases lock.holder with
  | none => exact settles lock k
  | some holder =>
    apply (still_modifyThread thread _ k).bind
    intro _ k
    apply (still_addDonor holder thread k).bind
    intro _ k
    apply (still_donate k).bind
    exact fun _ k => settles lock k

theorem still_reacquire (l : LockId) (s : SemaphoreId) (k : Kernel) : Still (l.reacquire s) k := by
  apply (s.still_attempt _ k).bind
  intro taken k
  apply Keeps.ite
  · apply (s.still_destroy k).bind
    exact fun _ k => still_attempt l k
  · exact keeps_pure false

theorem still_dropDonors (l : LockId) (k : Kernel) : Still l.dropDonors k := by
  apply Keeps.get
  apply (still_modifyThread _ _ k).bind
  exact fun _ k => still_refresh _ k

theorem still_destroy (l : LockId) (k : Kernel) : Still l.destroy k := by
  apply Keeps.look (looks_findLock l)
  intro lock
  cases lock.holder with
  | some holder => exact keeps_throw _
  | none =>
    apply Keeps.bind (keeps_modify (by rfl))
    exact fun _ k => lock.semaphore.still_destroy k

theorem looks_requireNotHeld (l : LockId) (operation : Operation) :
    Looks (l.requireNotHeld operation) :=
  (looks_isHeldByCaller l).bind fun _ => looks_caller.bind fun _ => looks_require _

theorem still_tryAcquire (l : LockId) (k : Kernel) : Still l.tryAcquire k := by
  apply Keeps.look (looks_requireNotHeld l _)
  intro _
  apply Still.masked
  intro k
  apply Keeps.look (looks_findLock l)
  intro lock
  apply (Still.masked lock.semaphore.still_take k).bind
  intro taken k
  apply Keeps.ite
  · exact (still_hold l k).bind fun _ _ => keeps_pure true
  · exact keeps_pure false

end LockId

theorem Lock.still_create (k : Kernel) : Still Lock.create k := by
  apply (Semaphore.still_create _ _ k).bind
  intro s k
  apply Keeps.get
  apply Keeps.bind (keeps_set (by rfl))
  exact fun _ _ => keeps_pure _

/-! ## Conditions -/

theorem Condition.still_create (k : Kernel) : Still Condition.create k := by
  apply Keeps.get
  apply Keeps.bind (keeps_set (by rfl))
  exact fun _ _ => keeps_pure _

namespace ConditionId

theorem still_destroy (c : ConditionId) (k : Kernel) : Still c.destroy k := by
  apply Keeps.look (looks_findCondition c)
  intro condition
  apply Keeps.look (looks_require _)
  exact fun _ => keeps_modify (by rfl)

/-- Some of the waits on `c` have been signalled, and each of those signals is a unit. -/
structure Signals (c : ConditionId) (k k' : Kernel) : Prop where
  frame : ∃ signals, k'.frame = k.frame.give signals ∧
    ∀ s ∈ signals, ∃ waiter ∈ k.enlisted c, waiter.semaphore = s
  seat : k'.seat = k.seat
  left : k'.enlisted c ⊆ k.enlisted c

theorem Signals.refl (k : Kernel) : c.Signals k k :=
  ⟨⟨[], rfl, List.forall_mem_nil _⟩, rfl, List.Subset.refl _⟩

theorem Signals.trans {k'' : Kernel} (first : c.Signals k k') (second : c.Signals k' k'') :
    c.Signals k k'' where
  frame := by
    obtain ⟨early, gave, before⟩ := first.frame
    obtain ⟨late, gives, after⟩ := second.frame
    refine ⟨late ++ early, ?_, fun s among => ?_⟩
    · rw [gives, gave, Frame.give, Frame.give, Frame.give, List.append_assoc]
    · rcases List.mem_append.mp among with among | among
      · obtain ⟨waiter, queued, rfl⟩ := after s among
        exact ⟨waiter, first.left queued, rfl⟩
      · exact before s among
  seat := second.seat.trans first.seat
  left := List.Subset.trans second.left first.left

theorem enlisted_mapCondition {condition : Condition} {waiters : List Waiter}
    (found : k.conditions.get? c = some condition) :
    (k.mapCondition c fun old => { old with waiters }).enlisted c = waiters :=
  enlisted_of_get? (Arena.get?_modify_self _ found)

theorem signals_of_run_wakeFirst {woke : Bool} (h : c.wakeFirst.run k = .ok (woke, k')) :
    c.Signals k k' := by
  obtain ⟨condition, found, ⟨none, _, rfl⟩ | ⟨waiter, rest, first, _, ran⟩⟩ := of_run_wakeFirst h
  · refine ⟨⟨[], rfl, List.forall_mem_nil _⟩, rfl, ?_⟩
    rw [enlisted_mapCondition found]
    exact List.nil_subset _
  · have perm := Ranked.perm_of_sort_eq_cons first
    obtain ⟨frame, seat, conditions⟩ := SemaphoreId.frame_of_run_wake ran
    have queued : k.enlisted c = condition.waiters := enlisted_of_get? found
    have called : (c.called waiter.thread rest k).stance = k.stance :=
      stance_withEvents (k := k.mapCondition c fun old => { old with waiters := rest }) (gifts_cons rfl)
    obtain ⟨sameFrame, sameSeat⟩ := Prod.mk.inj called
    refine ⟨⟨[waiter.semaphore], ?_, fun s among => ?_⟩, seat.trans sameSeat, ?_⟩
    · rw [frame, sameFrame]
    · obtain rfl := List.mem_singleton.mp among
      refine ⟨waiter, ?_, rfl⟩
      rw [queued]
      exact perm.mem_iff.mpr (List.mem_cons_self ..)
    · have left : k'.enlisted c = rest := by
        rw [enlisted, conditions]
        exact enlisted_mapCondition found
      rw [left, queued]
      exact fun waiter among => perm.mem_iff.mpr (List.mem_cons_of_mem _ among)

theorem signals_of_run_wakeMany {count : Nat} (h : (c.wakeMany count).run k = .ok (u, k')) :
    c.Signals k k' := by
  induction count generalizing k with
  | zero =>
    cases h
    exact .refl _
  | succ count ih =>
    obtain ⟨_, middle, ran, h⟩ := run_bind_eq_ok_iff.mp h
    exact (signals_of_run_wakeFirst ran).trans (ih h)

end ConditionId

/-! ## The dispatcher -/

namespace Kernel

theorem still_reclaim (k : Kernel) : Still reclaim k := fun _ _ ran => by
  obtain ⟨threads, events, told, issued, _, rfl⟩ := of_run_reclaim ran
  have erased : stance { k with dying := [], threads } = k.stance :=
    stance_of_threads (k := { k with dying := [] }) issued
  exact (stance_withEvents (k := { k with dying := [], threads }) (gifts_of_remarks told)).trans erased

theorem still_pickNext (k : Kernel) : Still pickNext k := by
  apply Keeps.get
  cases k.ready.pop? with
  | some front =>
    apply Keeps.bind (keeps_set (by rfl))
    intro _ k
    apply (still_modifyThread _ _ k).bind
    exact fun _ _ => keeps_pure _
  | none =>
    cases k.idle with
    | some idle => exact keeps_pure idle
    | none => exact keeps_throw _

theorem keeps_switchTo (previous next : ThreadId) (k : Kernel) :
    Keeps frame (switchTo previous next) k := by
  have hands : ∀ k, Keeps frame (do
      modify fun k => { k with current := next, processor := k.processor.switched }
      note (.switched previous next)) k := fun k =>
    .bind (keeps_modify (by rfl)) fun _ k => (still_note rfl k).frame
  apply Keeps.look (looks_findThread previous)
  intro thread
  apply Keeps.ite
  · apply Keeps.bind (keeps_modify (by rfl))
    exact fun _ k => hands k
  · exact hands k

theorem still_finish (work : Option Pending) (k : Kernel) : Still (finish work) k := by
  match work with
  | none => exact keeps_pure true
  | some (.unit s) => exact s.still_attempt _ k
  | some (.lock l) => exact l.still_attempt k
  | some (.signal s l) => exact l.still_reacquire s k

theorem still_resume (k : Kernel) : Still resume k := fun _ _ ran => by
  obtain ⟨thread, _, ran⟩ := of_run_resume ran
  exact (still_finish _ _ _ _ ran).trans (stance_mapThread _ _)

theorem keeps_dispatchOnce (k : Kernel) : Keeps frame dispatchOnce k := by
  apply Keeps.look looks_caller
  intro previous
  apply Keeps.look (looks_findThread previous)
  intro thread
  apply Keeps.look (looks_require _)
  intro _
  apply (still_pickNext k).frame.bind
  intro next k
  apply (still_modifyThread next _ k).frame.bind
  intro _ k
  apply Keeps.bind (keeps_modify (by rfl))
  intro _ k
  apply (still_announce (fun _ => rfl) k).frame.bind
  intro _ k
  apply Keeps.ite
  · apply (keeps_switchTo previous next k).bind
    exact fun _ k => (still_resume k).frame
  · exact (still_resume k).frame

theorem keeps_dispatch (picks : Nat) (k : Kernel) : Keeps frame (dispatch picks) k := by
  induction picks generalizing k with
  | zero => exact keeps_throw _
  | succ picks ih =>
    apply (keeps_dispatchOnce k).bind
    intro running k
    apply Keeps.ite
    · exact keeps_pure ()
    · exact ih k

theorem keeps_schedule (k : Kernel) : Keeps frame schedule k := by
  apply Keeps.get
  apply Keeps.look (looks_require _)
  intro _
  apply (still_reclaim k).frame.bind
  intro _ k
  exact .get (keeps_dispatch _ k)

/-! ## Scheduling -/

theorem looks_requireThreadContext (operation : Operation) :
    Looks (requireThreadContext operation) :=
  looks_get.bind fun _ => looks_require _

theorem keeps_block (k : Kernel) : Keeps frame block k := by
  apply Keeps.look (looks_requireThreadContext _)
  intro _
  apply Keeps.get
  apply Keeps.look (looks_require _)
  intro _
  apply Keeps.look looks_caller
  intro t
  apply (still_modifyThread t _ k).frame.bind
  exact fun _ k => keeps_schedule k

theorem keeps_yield (k : Kernel) : Keeps frame yield k := by
  apply Keeps.look (looks_requireThreadContext _)
  intro _
  apply Keeps.masked
  intro k
  apply Keeps.get
  apply Keeps.ite
  · apply (still_modifyThread _ _ k).frame.bind
    exact fun _ k => keeps_schedule k
  · apply (still_makeReady _ k).frame.bind
    exact fun _ k => keeps_schedule k

theorem keeps_preempt (k : Kernel) : Keeps frame preempt k := by
  apply Keeps.get
  apply Keeps.ite
  · split
    · next inside =>
      apply keeps_set
      exact Frame.ext rfl rfl rfl (by simp only [frame_overdue, inside, Bool.not_true, Bool.and_false]) rfl
    · exact keeps_yield k
  · exact keeps_pure ()

theorem keeps_setPriority (p : Priority) (k : Kernel) : Keeps frame (setPriority p) k := by
  apply Keeps.look (looks_require _)
  intro _
  apply Keeps.masked
  intro k
  apply Keeps.look looks_caller
  intro t
  apply (still_modifyThread t _ k).frame.bind
  intro _ k
  apply (still_refresh t k).frame.bind
  exact fun _ k => keeps_preempt k

theorem keeps_exit (k : Kernel) : Keeps frame exit k := by
  have leaves : ∀ t k, Keeps frame (masked do
      note (.exiting t (← findThread t).name)
      modifyThread t fun thread => { thread with state := .dying }
      schedule) k := fun t => Keeps.masked fun k => by
    apply Keeps.look (looks_findThread t)
    intro thread
    apply (still_note rfl k).frame.bind
    intro _ k
    apply (still_modifyThread t _ k).frame.bind
    exact fun _ k => keeps_schedule k
  apply Keeps.look (looks_requireThreadContext _)
  intro _
  apply Keeps.get
  apply Keeps.look (looks_require _)
  intro _
  apply (still_announce (fun _ => rfl) k).frame.bind
  intro _ k
  apply Keeps.ite
  · apply (still_note rfl k).frame.bind
    exact fun _ k => leaves _ k
  · exact leaves _ k

/-! ## Interrupts, the timer and timed sleep -/

theorem level_of_run_enterInterrupt (h : enterInterrupt.run k = .ok (u, k')) :
    k.processor.level = .on := by
  rw [enterInterrupt, run_get_bind, run_require_bind_eq_ok_iff, run_require_bind_eq_ok_iff] at h
  exact h.2.1

theorem frame_of_run_leaveInterrupt (h : leaveInterrupt.run k = .ok (u, k')) :
    k'.frame = { k.frame with level := .on, inInterrupt := false, overdue := false } := by
  cases of_run_leaveInterrupt h with
  | resumes => rfl
  | @yields last ran =>
    change { last.frame with level := .on } = _
    rw [keeps_yield _ () last ran]
    rfl

theorem still_awaken (now : Nat) (k : Kernel) : Still (awaken now) k := by
  apply Keeps.get
  apply Keeps.look ⟨fun checks => run_forM_findThread checks⟩
  intro _
  apply Keeps.bind (keeps_set (by rfl))
  intro _ k
  apply keeps_forM
  intro t k
  apply (still_note rfl k).bind
  intro _ k
  apply (still_modifyThread t _ k).bind
  exact fun _ k => still_unblock t k

/-- What happens in the timer's handler shows in no frame. -/
theorem frame_of_run_timerTick (inside : k.inInterrupt = true) (h : timerTick.run k = .ok (u, k')) :
    k'.frame = k.frame := by
  obtain ⟨_, usage, _, rest⟩ := of_run_timerTick h
  have ticked : (k.ticked usage).frame = k.frame :=
    Frame.ext rfl rfl rfl (by simp [inside]) rfl
  obtain ⟨_, rfl⟩ | ⟨_, woken, wakes, preempts⟩ := rest
  · exact ticked
  · exact (keeps_preempt woken () k' preempts).trans
      (((still_awaken _ _).frame () woken wakes).trans ticked)

theorem frame_of_run_timerInterrupt (h : timerInterrupt.run k = .ok (u, k')) :
    k'.frame = { k.frame with overdue := false } := by
  obtain ⟨entered, handled, enters, ticks, leaves⟩ := of_run_timerInterrupt h
  have level := level_of_run_enterInterrupt enters
  obtain ⟨outside, rfl⟩ := of_run_enterInterrupt enters
  rw [frame_of_run_leaveInterrupt leaves, frame_of_run_timerTick rfl ticks]
  exact Frame.ext rfl level.symm outside.symm rfl rfl

theorem keeps_timerInterrupts {count : Nat} (settled : k.frame.overdue = false) :
    Keeps frame (timerInterrupts count) k := by
  induction count generalizing k with
  | zero => exact keeps_pure ()
  | succ count ih =>
    intro a k' h
    obtain ⟨_, middle, ran, h⟩ := run_bind_eq_ok_iff.mp h
    have once : middle.frame = k.frame := by
      rw [frame_of_run_timerInterrupt ran, ← settled]
    rw [ih (by rw [once, settled]) a k' h, once]

theorem keeps_sleepUntil (tick : Nat) (k : Kernel) : Keeps frame (sleepUntil tick) k := by
  apply Keeps.look (looks_requireThreadContext _)
  intro _
  apply Keeps.get
  apply Keeps.look (looks_require _)
  intro _
  apply Keeps.ite
  · exact keeps_pure _
  · apply Keeps.masked
    intro k
    apply (still_modifyThread _ _ k).frame.bind
    intro _ k
    apply Keeps.bind (keeps_modify (by rfl))
    intro _ k
    apply (still_note rfl k).frame.bind
    intro _ k
    apply (keeps_schedule k).bind
    exact fun _ _ => keeps_pure _

end Kernel

/-! ## All requests -/

section Requests

variable {reply : Reply}

theorem frame_of_run_up (h : s.up.run k = .ok (u, k')) : k'.frame = k.frame.give [s] := by
  obtain ⟨woken, last, wakes, preempts, rfl⟩ := SemaphoreId.of_run_up h
  apply frame_of_masked
  rw [keeps_preempt woken () last preempts, (SemaphoreId.frame_of_run_wake wakes).1]

theorem frame_of_run_release (h : l.release.run k = .ok (u, k')) :
    ∃ lock, k.locks.get? l = some lock ∧ k'.frame = k.frame.give [lock.semaphore] := by
  obtain ⟨lock, dropped, last, found, _, drops, ups, rfl⟩ := LockId.of_run_release h
  have still := (l.still_dropDonors _).frame () dropped drops
  have freed : ((dropped.mapLock l fun old => { old with holder := none }).withEvents
      (.releases k.current l :: dropped.events)).frame = dropped.frame := rfl
  refine ⟨lock, found, frame_of_masked ?_⟩
  rw [frame_of_run_up ups, freed, still]

/-- What becomes of a wait once it has released the lock shows in no frame. -/
theorem frame_of_concludes {t : ThreadId} {left : Kernel} {wait : Wait}
    (concludes : ConditionId.Concludes t s l left wait k') : k'.frame = left.frame := by
  have reacquired : ∀ {success tried}, (l.reacquire s).run (left.mapThread t fun old =>
      { old with pending := none }) = .ok (success, tried) → tried.frame = left.frame :=
    fun reacquires =>
      ((l.still_reacquire s _).frame _ _ reacquires).trans (frame_mapThread t _)
  cases concludes with
  | away => rfl
  | retaken _ reacquires => exact reacquired reacquires
  | waits _ reacquires schedules =>
    exact (keeps_schedule _ () k' schedules).trans (reacquired reacquires)

theorem frame_of_run_wait {wait : Wait} (h : (c.wait l).run k = .ok (wait, k')) :
    ∃ lock, k.locks.get? l = some lock ∧ k'.frame = k.frame.give [lock.semaphore] := by
  obtain ⟨_, waiters, left, last, _, _, _, releases, concludes, rfl⟩ := ConditionId.of_run_wait h
  obtain ⟨lock, found, released⟩ := frame_of_run_release releases
  have joined : (c.joined l waiters (k.atLevel .off)).frame = (k.atLevel .off).frame :=
    Frame.ext (Arena.next_modify _ _ _) rfl rfl rfl rfl
  refine ⟨lock, found, frame_of_masked ?_⟩
  rw [frame_of_concludes concludes, released, joined]

/-- What `r` may do to the frame of `k`. -/
inductive Request.Alters (k : Kernel) : Request → Frame → Prop
  | start (unstarted : k.idle = none) : Alters k .start
      { k.frame with next := ⟨k.threads.next.index + 1⟩, level := .on }
  | spawn {blueprint : Blueprint} (room : k.threads.liveCount < k.config.maxThreads) :
      Alters k (.spawn blueprint) { k.frame with next := ⟨k.threads.next.index + 1⟩ }
  | setLevel {level : Level} : Alters k (.setLevel level) { k.frame with level }
  | up {s : SemaphoreId} : Alters k (.up s) (k.frame.give [s])
  | release {l : LockId} {lock : Lock} (found : k.locks.get? l = some lock) :
      Alters k (.release l) (k.frame.give [lock.semaphore])
  | wait {c : ConditionId} {l : LockId} {lock : Lock} (found : k.locks.get? l = some lock) :
      Alters k (.wait c l) (k.frame.give [lock.semaphore])
  | signal {c : ConditionId} {l : LockId} {signals : List SemaphoreId}
      (sent : ∀ s ∈ signals, ∃ waiter ∈ k.enlisted c, waiter.semaphore = s) :
      Alters k (.signal c l) (k.frame.give signals)
  | broadcast {c : ConditionId} {l : LockId} {signals : List SemaphoreId}
      (sent : ∀ s ∈ signals, ∃ waiter ∈ k.enlisted c, waiter.semaphore = s) :
      Alters k (.broadcast c l) (k.frame.give signals)
  | other {r : Request} : Alters k r k.frame

theorem Request.Alters.congr {r : Request} {frame other : Frame} (alters : r.Alters k frame)
    (same : other = frame) : r.Alters k other := same ▸ alters

theorem alters_of_run_start {result : Except Refusal ThreadId}
    (h : start.run k = .ok (result, k')) : Request.start.Alters k k'.frame := by
  obtain rfl | ⟨unstarted, rfl⟩ := of_run_start h
  · exact .other
  · exact (Request.Alters.start unstarted).congr (Frame.ext (Arena.next_push _ _) rfl rfl rfl rfl)

theorem alters_of_run_spawn {blueprint : Blueprint} {result : Except SpawnRefusal ThreadId}
    (h : (spawn blueprint).run k = .ok (result, k')) :
    (Request.spawn blueprint).Alters k k'.frame := by
  cases of_run_spawn h with
  | refused => exact .other
  | made room unblocks preempts =>
    have kept := (keeps_preempt _ () k' preempts).trans ((still_unblock _ _).frame () _ unblocks)
    exact (Request.Alters.spawn room).congr
      (kept.trans (Frame.ext (Arena.next_push _ _) rfl rfl rfl rfl))

theorem frame_of_run_wakes {signals : List SemaphoreId} {woken last : Kernel} {some : Prop}
    [Decidable some] (gives : woken.frame = (k.atLevel .off).frame.give signals)
    (ran : (do if some then preempt : KernelM Unit).run woken = .ok (u, last)) :
    (last.atLevel k.processor.level).frame = k.frame.give signals := by
  apply frame_of_masked
  rw [← gives]
  exact Keeps.ite (keeps_preempt woken) (keeps_pure ()) u last ran

theorem alters_of_run_signal (h : (c.signal l).run k = .ok (u, k')) :
    (Request.signal c l).Alters k k'.frame := by
  obtain ⟨woke, woken, last, wakes, ran, rfl⟩ := ConditionId.of_run_signal h
  obtain ⟨signals, gives, sent⟩ := (ConditionId.signals_of_run_wakeFirst wakes).frame
  exact (Request.Alters.signal (k := k) sent).congr (frame_of_run_wakes gives ran)

theorem alters_of_run_broadcast (h : (c.broadcast l).run k = .ok (u, k')) :
    (Request.broadcast c l).Alters k k'.frame := by
  obtain ⟨count, woken, last, wakes, ran, rfl⟩ := ConditionId.of_run_broadcast h
  obtain ⟨signals, gives, sent⟩ := (ConditionId.signals_of_run_wakeMany wakes).frame
  exact (Request.Alters.broadcast (k := k) sent).congr (frame_of_run_wakes gives ran)

theorem keeps_down (s : SemaphoreId) (k : Kernel) : Keeps frame s.down k := by
  apply Keeps.look (looks_requireThreadContext _)
  intro _
  apply Keeps.masked
  intro k
  apply (s.still_attempt _ k).frame.bind
  intro taken k
  apply Keeps.ite
  · exact keeps_pure _
  · exact (keeps_schedule k).bind fun _ _ => keeps_pure _

theorem keeps_acquire (l : LockId) (k : Kernel) : Keeps frame l.acquire k := by
  apply Keeps.look (looks_requireThreadContext _)
  intro _
  apply Keeps.look (l.looks_requireNotHeld _)
  intro _
  apply Keeps.masked
  intro k
  apply (l.still_attempt k).frame.bind
  intro taken k
  apply Keeps.ite
  · exact keeps_pure _
  · exact (keeps_schedule k).bind fun _ _ => keeps_pure _

/-- A request alters the frame only as it is meant to, if no yield has been left over. -/
theorem alters_of_run_perform {r : Request} (settled : k.frame.overdue = false)
    (h : r.perform.run k = .ok (reply, k')) : r.Alters k k'.frame := by
  have other : k'.frame = k.frame → r.Alters k k'.frame := Request.Alters.other.congr
  by_cases looks : r.looks = true
  · rw [(looks_perform looks).eq_of_run h]
    exact .other
  cases r with
  | elapsed | semaphoreValue | semaphoreWaiters | lockHolder | lockHeldByCaller | lockWaiters
  | conditionWaiters | summary | profile | setNiceness => exact absurd rfl looks
  | start =>
    obtain ⟨_, ran, _⟩ := run_map_eq_ok_iff.mp h
    exact alters_of_run_start ran
  | spawn blueprint =>
    obtain ⟨_, ran, _⟩ := run_map_eq_ok_iff.mp h
    exact alters_of_run_spawn ran
  | setLevel level =>
    cases h
    exact .setLevel
  | up s =>
    obtain ⟨_, ran, _⟩ := run_map_eq_ok_iff.mp h
    exact Request.Alters.up.congr (frame_of_run_up ran)
  | release l =>
    obtain ⟨_, ran, _⟩ := run_map_eq_ok_iff.mp h
    obtain ⟨lock, found, gives⟩ := frame_of_run_release ran
    exact (Request.Alters.release found).congr gives
  | wait c l =>
    obtain ⟨_, ran, _⟩ := run_map_eq_ok_iff.mp h
    obtain ⟨lock, found, gives⟩ := frame_of_run_wait ran
    exact (Request.Alters.wait found).congr gives
  | signal c l =>
    obtain ⟨_, ran, _⟩ := run_map_eq_ok_iff.mp h
    exact alters_of_run_signal ran
  | broadcast c l =>
    obtain ⟨_, ran, _⟩ := run_map_eq_ok_iff.mp h
    exact alters_of_run_broadcast ran
  | exit => exact other ((keeps_exit k).answer _ _ _ h)
  | block => exact other ((keeps_block k).answer _ _ _ h)
  | yield => exact other ((keeps_yield k).answer _ _ _ h)
  | preempt => exact other ((keeps_preempt k).answer _ _ _ h)
  | unblock t => exact other ((still_unblock t k).frame.answer _ _ _ h)
  | setPriority p => exact other ((keeps_setPriority p k).answer _ _ _ h)
  | observe observer =>
    cases h
    exact .other
  | timer count => exact other ((keeps_timerInterrupts settled).answer _ _ _ h)
  | sleepUntil tick => exact other ((keeps_sleepUntil tick k).answer _ _ _ h)
  | sleep ticks =>
    obtain ⟨_, ran, _⟩ := run_map_eq_ok_iff.mp h
    rw [run_sleep] at ran
    exact other (keeps_sleepUntil _ k _ _ ran)
  | sleepFor duration =>
    obtain ⟨_, ran, _⟩ := run_map_eq_ok_iff.mp h
    rw [run_sleepFor] at ran
    exact other (keeps_sleepUntil _ k _ _ ran)
  | reportUsage =>
    obtain rfl := of_run_perform_reportUsage h
    exact .other
  | createSemaphore value => exact other ((Semaphore.still_create _ _ k).frame.answer _ _ _ h)
  | destroySemaphore s => exact other ((s.still_destroy k).frame.answer _ _ _ h)
  | down s => exact other ((keeps_down s k).answer _ _ _ h)
  | tryDown s => exact other ((Still.masked s.still_take k).frame.answer _ _ _ h)
  | createLock => exact other ((Lock.still_create k).frame.answer _ _ _ h)
  | destroyLock l => exact other ((l.still_destroy k).frame.answer _ _ _ h)
  | acquire l => exact other ((keeps_acquire l k).answer _ _ _ h)
  | tryAcquire l => exact other ((l.still_tryAcquire k).frame.answer _ _ _ h)
  | createCondition => exact other ((Condition.still_create k).frame.answer _ _ _ h)
  | destroyCondition c => exact other ((c.still_destroy k).frame.answer _ _ _ h)

theorem Request.Alters.inInterrupt {r : Request} {frame : Frame} (alters : r.Alters k frame) :
    frame.inInterrupt = k.inInterrupt := by
  cases alters <;> rfl

theorem Request.Alters.overdue {r : Request} {frame : Frame} (alters : r.Alters k frame) :
    frame.overdue = k.frame.overdue := by
  cases alters <;> rfl

/-- No yield is ever left over from a handler that has returned. -/
theorem Reachable.settled {d : Discipline} (reachable : Reachable d k) :
    k.frame.overdue = false := by
  induction reachable with
  | fresh config rule => rfl
  | step before transit ih =>
    cases transit with
    | request obeys ran => exact (alters_of_run_perform ih ran).overdue.trans ih
    | enter ran =>
      obtain ⟨_, rfl⟩ := of_run_enterInterrupt ran
      exact Bool.and_false _
    | leave inside ran =>
      rw [frame_of_run_leaveInterrupt ran]

end Requests

end ThreadKernel
