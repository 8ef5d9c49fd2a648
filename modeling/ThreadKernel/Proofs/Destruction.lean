import ThreadKernel.Proofs.Completion
import ThreadKernel.Proofs.ConditionWaits

/-!
# What still names a primitive that is destroyed

A semaphore is destroyed when nobody is queued on it, and a lock when moreover nobody holds it.
A thread that was woken has left the queue and is ready to try again, and a thread that waits
for a signal is to take its lock only after that: both still name what is destroyed.  The
module says which threads these are.  If there are none there will never be any, for handles
are not issued twice.
-/

namespace ThreadKernel

open Kernel

variable {d : Discipline} {m m' : Machine} {k k' : Kernel} {a b : Ledger} {t : ThreadId}
  {thread : Thread} {s : SemaphoreId} {l : LockId} {act : Option Act} {p : Pending}

/-! ## Where a thread is that is to try again -/

/-- A thread that is to take a unit or a lock is ready, or queued on a semaphore. -/
def Kernel.Stationed (k : Kernel) : Prop :=
  ∀ t thread, k.threads.get? t = some thread → ∀ p, thread.pending = some p →
    (∀ s l, p ≠ .signal s l) → thread.place = .ready ∨ ∃ s, thread.place = .semaphore s

namespace Kernel.Stationed

theorem agree (stationed : k.Stationed)
    (same : Arena.Agree (fun x : Thread => (x.place, x.pending)) k'.threads k.threads) :
    k'.Stationed := by
  intro t thread found p pending tries
  rcases same.exists_get? found with ⟨thread', found', eq⟩
  rcases Prod.mk.inj eq with ⟨place, pending'⟩
  rw [← place]
  exact stationed t thread' found' p (pending'.trans pending) tries

theorem retouched (stationed : k.Stationed) (same : k.Retouched k') : k'.Stationed :=
  stationed.agree (same.threads.coarsen fun x => (x.1.2, x.2))

theorem of_threads (stationed : k.Stationed) (threads : k'.threads = k.threads) : k'.Stationed := by
  rw [Stationed, threads]
  exact stationed

theorem modify {f : Thread → Thread} (stationed : k.Stationed)
    (threads : k'.threads = k.threads.modify t f)
    (stands : ∀ x p, k.threads.get? t = some x → (f x).pending = some p →
      (∀ s l, p ≠ .signal s l) → (f x).place = .ready ∨ ∃ s, (f x).place = .semaphore s) :
    k'.Stationed := by
  intro u thread found p pending tries
  rw [threads, Arena.get?_modify] at found
  split at found
  · next here =>
    subst here
    rcases Option.map_eq_some_iff.mp found with ⟨x, foundX, rfl⟩
    exact stands x p foundX pending tries
  · exact stationed u thread found p pending tries

theorem readied (p : Priority) (stationed : ∀ u thread, u ≠ t → k.threads.get? u = some thread →
      ∀ p, thread.pending = some p → (∀ s l, p ≠ .signal s l) →
        thread.place = .ready ∨ ∃ s, thread.place = .semaphore s) : (k.readied t p).Stationed := by
  intro u thread found p pending tries
  rw [Kernel.readied, Arena.get?_modify] at found
  split at found
  · rcases Option.map_eq_some_iff.mp found with ⟨x, _, rfl⟩
    exact .inl rfl
  · next other => exact stationed u thread (Ne.symm other) found p pending tries

theorem wake (stationed : k.Stationed) (h : s.wake.run k = .ok ((), k')) : k'.Stationed := by
  rcases SemaphoreId.of_run_wake h with ⟨_, _, ⟨_, rfl⟩ | ⟨t, rest, _, woken⟩⟩
  · exact stationed.of_threads rfl
  · rcases of_run_unblock woken with ⟨_, _, _, _, _, rfl⟩
    apply readied
    intro u thread other found
    exact stationed u thread ((Arena.get?_modify_of_ne _ (Ne.symm other)).symm.trans found)

theorem attempt {retry : Pending} {success : Bool} (stationed : k.Stationed)
    (h : (s.attempt retry).run k = .ok (success, k')) : k'.Stationed := by
  rcases SemaphoreId.of_run_attempt h with ⟨_, _, ⟨_, _, rfl⟩ | ⟨_, _, _, _, rfl⟩⟩
  · exact stationed.of_threads rfl
  · exact stationed.modify (t := k.current) rfl fun _ _ _ _ _ => .inr ⟨s, rfl⟩

theorem enroll (stationed : k.Stationed) (pending : thread.pending = none) :
    Stationed { k with threads := k.threads.push thread } := by
  intro t record found p left
  rcases Arena.of_get?_push found with ⟨_, rfl⟩ | old
  · cases pending.symm.trans left
  · exact stationed t record old p left

/-- Who goes to sleep has nothing left to try for. -/
theorem doze (stationed : k.Stationed) (runs : k.Runs) (tick : Nat) (sleepers : SleepQueue)
    (events : List Event) :
    (((k.mapThread k.current fun old =>
      { old with wakeTick := tick, place := .sleep, state := .blocked }).withSleepers
        sleepers).withEvents events).Stationed := by
  rcases runs with ⟨thread, found, _, free⟩
  apply stationed.modify rfl
  intro x p foundX pending
  cases found.symm.trans foundX
  cases free.symm.trans pending

theorem rise (stationed : k.Stationed) (sleepers : SleepQueue) (events : List Event) (p : Priority) :
    ((((k.mapThread t fun old => { old with place := .detached }).withSleepers
      sleepers).withEvents events).readied t p).Stationed := by
  apply readied
  intro u thread other found
  exact stationed u thread ((Arena.get?_modify_of_ne _ (Ne.symm other)).symm.trans found)

/-- Who begins to wait for a signal has neither a unit nor a lock to try for. -/
theorem joined (stationed : k.Stationed) (c : ConditionId) (waiters : List Waiter) :
    (c.joined l waiters k).Stationed := by
  apply stationed.modify rfl
  intro x p _ pending tries
  cases pending
  exact absurd rfl (tries _ _)

theorem move (stationed : m.kernel.Stationed) (sound : Sound d m) (move : Move d act m m') :
    m'.kernel.Stationed := by
  have placed := sound.placed
  cases move with
  | quiet same => exact stationed.of_threads same.threads
  | tick | appoint | create | createLock => exact stationed.of_threads rfl
  | enroll blocked detached pending _ _ _ => exact stationed.enroll pending
  | unblock spared ran =>
    rcases of_run_unblock ran with ⟨_, _, _, _, _, rfl⟩
    exact readied _ fun u thread _ => stationed u thread
  | ready found running other => exact readied _ fun u thread _ => stationed u thread
  | halt running whole halts => exact stationed.agree (Arena.agree_modify fun _ => rfl)
  | doze runs other told ahead => exact stationed.doze runs _ _ _
  | rise sleepers found perm due told => exact stationed.rise _ _ _
  | reclaim ran =>
    rcases of_run_reclaim ran with ⟨threads, _, _, _, gone, rfl⟩
    exact fun t thread found => stationed t thread (get?_of_gone gone found)
  | pick foundPrevious halted found picks fallback left handed =>
    exact stationed.modify rfl fun _ _ _ pending => by cases pending
  | destroy plain unnamed ran | destroyLock found unheld unnamed ran =>
    rcases SemaphoreId.of_run_destroy ran with ⟨_, _, _, rfl⟩
    exact stationed.of_threads rfl
  | take runs plain ran =>
    rcases SemaphoreId.of_run_take_true ran with ⟨_, _, _, rfl⟩
    exact stationed.of_threads rfl
  | attempt runs plain onset ran => exact stationed.attempt ran
  | attemptLock runs onset ran =>
    exact sound.attemptLock_induction runs ran (fun same stationed => stationed.retouched same)
      (fun tries stationed => stationed.attempt tries) stationed
  | seize runs found takes ran =>
    rcases SemaphoreId.of_run_take_true takes with ⟨_, _, _, rfl⟩
    apply retouched _ (LockId.retouched_of_run_hold_taken placed runs.running ran)
    exact stationed.of_threads rfl
  | release running found holds drops ran =>
    exact (stationed.retouched (LockId.retouched_of_run_dropDonors placed running drops _)).wake ran
  | wake plain ran => exact stationed.wake ran
  | rebase running ran => exact stationed.retouched (retouched_of_run_rebase placed running ran)
  | enlist runs waits holds found perm => exact stationed.joined _ _
  | undertake found running pending =>
    exact stationed.modify rfl fun _ _ _ pending => by cases pending
  | signal found perm ran =>
    rename_i k k' c condition waiter rest
    have called : (c.called waiter.thread rest k).Stationed := stationed.of_threads rfl
    exact called.wake ran
  | signalled runs takes ran =>
    rcases SemaphoreId.of_run_destroy ran with ⟨_, _, _, rfl⟩
    exact (stationed.attempt takes).of_threads rfl
  | unsignalled runs ran => exact stationed.attempt ran

end Kernel.Stationed

theorem stationed_fresh (config : Config) (rule : Reposition) :
    (fresh config rule).Stationed := by
  intro t thread found p pending
  rcases get?_fresh found with ⟨_, rfl⟩
  cases pending

theorem Reachable.stationed (reachable : Reachable d k) : k.Stationed :=
  reachable.invariant (motive := fun m => m.kernel.Stationed) stationed_fresh
    fun regular move stationed => stationed.move regular.toSound move

/-! ## Locks are not issued twice -/

theorem SemaphoreId.locks_of_run_wake (h : s.wake.run k = .ok ((), k')) : k'.locks = k.locks := by
  rcases SemaphoreId.of_run_wake h with ⟨_, _, ⟨_, rfl⟩ | ⟨t, rest, _, ran⟩⟩
  · rfl
  · rcases of_run_unblock ran with ⟨_, _, _, _, _, rfl⟩
    rfl

theorem SemaphoreId.locks_of_run_attempt {retry : Pending} {success : Bool}
    (h : (s.attempt retry).run k = .ok (success, k')) : k'.locks = k.locks := by
  rcases SemaphoreId.of_run_attempt h with ⟨_, _, ⟨_, _, rfl⟩ | ⟨_, _, _, _, rfl⟩⟩
  · rfl
  · rfl

theorem LockId.locks_of_run_hold (placed : k.Placed) (running : k.Running)
    (h : l.hold.run (s.taken k) = .ok ((), k')) :
    k'.locks = k.locks.modify l fun old => { old with holder := some k.current } := by
  rcases running with ⟨thread, found, runs⟩
  rcases LockId.of_run_hold (k := s.taken k) found (placed.unqueued_of_running found runs) h with
    ⟨_, _, _, _, _, _, _, _, _, rfl⟩
  rfl

/-- What a move comes to for the table of locks.  A lock is only taken by the thread that has
the processor, which stays where it is. -/
inductive Tenure (m m' : Machine) : Prop
  | kept (same : m'.kernel.locks = m.kernel.locks)
  | taken {l : LockId} (running : m.kernel.Running) (posts : m'.kernel.post? = m.kernel.post?)
      (same : m'.kernel.locks = m.kernel.locks.modify l fun old =>
        { old with holder := some m.kernel.current })
  | freed {l : LockId} (same : m'.kernel.locks = m.kernel.locks.modify l fun old =>
        { old with holder := none })
  | destroyed {l : LockId} (same : m'.kernel.locks = m.kernel.locks.erase l)
  | made {lock : Lock} (free : lock.holder = none) (same : m'.kernel.locks = m.kernel.locks.push lock)

theorem tenure_of_run_attemptLock {due : Option Pending} {success : Bool} (sound : Sound d ⟨k, due⟩)
    (runs : k.Runs) (h : l.attempt.run k = .ok (success, k')) : Tenure ⟨k, due⟩ ⟨k', none⟩ := by
  rcases LockId.of_run_attempt h with ⟨lock, asking, tried, _, asks, tries, ended⟩
  have retouched := asks.retouched
  have same := asks.rest.1
  rcases ended with ⟨rfl, holds⟩ | ⟨_, rfl⟩
  · rcases SemaphoreId.of_run_attempt_true tries with ⟨_, _, _, rfl⟩
    have placed := (sound.asks asks).placed
    have running := (retouched.runs runs).running
    have held := LockId.locks_of_run_hold placed running holds
    rw [same, retouched.current] at held
    have posts := (LockId.retouched_of_run_hold_taken placed running holds).post?
    exact .taken runs.running (posts.trans retouched.post?) held
  · exact .kept ((SemaphoreId.locks_of_run_attempt tries).trans same)

theorem Move.tenure (move : Move d act m m') (sound : Sound d m) : Tenure m m' := by
  cases move with
  | quiet same => exact .kept same.locks
  | tick | appoint | create | enroll | ready | halt | doze | rise | pick | enlist | undertake =>
    exact .kept rfl
  | unblock spared ran =>
    rcases of_run_unblock ran with ⟨_, _, _, _, _, rfl⟩
    exact .kept rfl
  | reclaim ran =>
    rcases of_run_reclaim ran with ⟨_, _, _, _, _, rfl⟩
    exact .kept rfl
  | destroy plain unnamed ran =>
    rcases SemaphoreId.of_run_destroy ran with ⟨_, _, _, rfl⟩
    exact .kept rfl
  | createLock => exact .made rfl rfl
  | destroyLock found unheld unnamed ran =>
    rcases SemaphoreId.of_run_destroy ran with ⟨_, _, _, rfl⟩
    exact .destroyed rfl
  | take runs plain ran =>
    rcases SemaphoreId.of_run_take_true ran with ⟨_, _, _, rfl⟩
    exact .kept rfl
  | attempt runs plain onset ran => exact .kept (SemaphoreId.locks_of_run_attempt ran)
  | attemptLock runs onset ran => exact tenure_of_run_attemptLock sound runs ran
  | seize runs found takes ran =>
    rcases SemaphoreId.of_run_take_true takes with ⟨_, _, _, rfl⟩
    have posts := (LockId.retouched_of_run_hold_taken sound.placed runs.running ran).post?
    exact .taken runs.running posts (LockId.locks_of_run_hold sound.placed runs.running ran)
  | release running found holds drops ran =>
    rcases running with ⟨thread, foundCurrent, runs⟩
    have unqueued := sound.placed.unqueued_of_running foundCurrent runs
    rcases LockId.of_run_dropDonors foundCurrent unqueued drops with ⟨_, _, _, _, _, _, rfl⟩
    exact .freed (SemaphoreId.locks_of_run_wake ran)
  | wake plain ran => exact .kept (SemaphoreId.locks_of_run_wake ran)
  | rebase running ran =>
    rcases of_run_refresh ran with ⟨_, _, _, _, _, _, rfl⟩
    exact .kept rfl
  | signal found perm ran =>
    rename_i k k' c condition waiter rest
    have woken := SemaphoreId.locks_of_run_wake (k := c.called waiter.thread rest k) ran
    exact .kept woken
  | signalled runs takes ran =>
    rcases SemaphoreId.of_run_destroy ran with ⟨_, _, _, rfl⟩
    have tried := SemaphoreId.locks_of_run_attempt takes
    exact .kept tried
  | unsignalled runs ran => exact .kept (SemaphoreId.locks_of_run_attempt ran)

/-- A lock that was made and is no more. -/
structure Kernel.Retired (k : Kernel) (l : LockId) : Prop where
  issued : l.index < k.locks.next.index
  gone : k.locks.get? l = none

theorem Kernel.Retired.move (retired : m.kernel.Retired l) (move : Move d act m m')
    (sound : Sound d m) : m'.kernel.Retired l := by
  rcases retired with ⟨issued, gone⟩
  have modified : ∀ {l' : LockId} {f : Lock → Lock},
      m'.kernel.locks = m.kernel.locks.modify l' f → m'.kernel.Retired l := by
    intro l' f same
    constructor
    · rwa [same, Arena.next_modify]
    · rw [same, Arena.get?_modify, gone]
      split <;> rfl
  cases move.tenure sound with
  | kept same =>
    constructor
    · rwa [same]
    · rwa [same]
  | taken running posts same => exact modified same
  | freed same => exact modified same
  | destroyed same =>
    constructor
    · rwa [same, Arena.next_erase]
    · rw [same, Arena.get?_erase, gone, ite_self]
  | made free same =>
    constructor
    · rw [same, Arena.next_push]
      exact Nat.lt_succ_of_lt issued
    · rw [same, Arena.get?_push, if_neg, gone]
      rintro rfl
      exact Nat.lt_irrefl _ issued

/-! ## New work names what is there -/

namespace Ledger

/-- What `t` begins to have to do names a semaphore that is there or just made, and a lock
that is there or that `t` has named before. -/
structure Engages (a b : Ledger) (t : ThreadId) (p : Pending) : Prop where
  semaphore : ∀ s, p.semaphore? = some s →
    (s = a.next ∧ ∃ stock, b.semaphores s = some stock) ∨ ∃ stock, a.semaphores s = some stock
  lock : ∀ l, p.lock? = some l →
    (∃ s, a.work t = some (.signal s l)) ∨ ∃ lock, a.locks l = some lock

end Ledger

theorem Entry.engages (entry : Entry d act a b) (left : b.work t = some p) :
    a.work t = some p ∨ a.Engages b t p := by
  cases entry with
  | note | pick | create | destroy | createLock | destroyLock | release | give | signal =>
    exact .inl left
  | take starts | hold starts =>
    rcases Ledger.of_work_engaged left with same | ⟨_, no⟩
    · exact .inl same
    · cases no
  | want starts remarks live =>
    rcases Ledger.of_work_engaged left with same | ⟨_, is⟩
    · exact .inl same
    · cases is
      refine .inr ⟨fun s names => ?_, nofun⟩
      cases names
      exact .inr live
  | await starts remarks live =>
    rcases Ledger.of_work_engaged left with same | ⟨_, is⟩
    · exact .inl same
    · cases is
      refine .inr ⟨nofun, fun l wants => ?_⟩
      cases wants
      exact .inr live
  | enlist idle holds perm remarks =>
    rcases Ledger.of_work_engaged left with same | ⟨_, is⟩
    · exact .inl same
    · cases is
      refine .inr ⟨fun s names => ?_, fun l wants => ?_⟩
      · cases names
        exact .inl ⟨rfl, _, Function.update_self ..⟩
      · cases wants
        rcases holds with ⟨lock, found, _⟩
        exact .inr ⟨lock, found⟩
  | receive due found =>
    rcases Ledger.of_work_engaged left with same | ⟨here, is⟩
    · exact .inl same
    · cases is
      refine .inr ⟨nofun, fun l wants => ?_⟩
      cases wants
      exact .inl ⟨_, here ▸ due⟩

/-! ## What is forgotten stays forgotten -/

/-- No thread has anything left to do with `s` itself. -/
def Kernel.Unnamed (k : Kernel) (s : SemaphoreId) : Prop :=
  ∀ t p, k.pending? t = some p → p.semaphore? ≠ some s

/-- No thread has anything left to do that ends with taking `l`. -/
def Kernel.Unwanted (k : Kernel) (l : LockId) : Prop :=
  ∀ t p, k.pending? t = some p → p.lock? ≠ some l

/-- A semaphore that was made and is no more, and that nobody names. -/
structure Ledger.Forgotten (a : Ledger) (s : SemaphoreId) : Prop where
  issued : s.index < a.next.index
  gone : a.purpose? s = none
  unnamed : ∀ t p, a.work t = some p → p.semaphore? ≠ some s

theorem Ledger.Forgotten.entry (forgotten : a.Forgotten s) (entry : Entry d act a b)
    (sorted : a.Sorted) : b.Forgotten s := by
  rcases forgotten with ⟨issued, gone, unnamed⟩
  have absent : a.semaphores s = none := Option.map_eq_none_iff.mp gone
  have made : a.MadeFor s .plain := ⟨issued, fun stock found => by cases absent.symm.trans found⟩
  have new : s ≠ a.next := by
    rintro rfl
    exact Nat.lt_irrefl _ issued
  refine ⟨(made.entry entry).issued, ?_, fun t p left names => ?_⟩
  · cases entry.roster sorted with
    | kept purposes _ => rw [purposes, gone]
    | create purposes _ | enlist purposes _ | createLock _ purposes _ =>
      rw [purposes, Function.update_of_ne new, gone]
    | destroy purposes _ | destroyLock _ _ purposes _ | receive _ purposes _ =>
      rw [purposes, Function.update_apply, gone, ite_self]
  · rcases entry.engages left with left | engages
    · exact unnamed t p left names
    · rcases engages.semaphore s names with ⟨next, _⟩ | ⟨stock, found⟩
      · exact new next
      · cases absent.symm.trans found

/-- What every move keeps holds ever after. -/
theorem Reachable.later {motive : Machine → Prop} (reachable : Reachable d k)
    (later : Relation.ReflTransGen (Transit d) k k') (start : motive ⟨k, none⟩)
    (step : ∀ {act m m'}, Regular d m → Move d act m m' → motive m → motive m') :
    Reachable d k' ∧ motive ⟨k', none⟩ := by
  rcases reachable.moves later with ⟨_, moves⟩
  exact ⟨reachable.trans later, reachable.steady.regular.invariant moves start step⟩

theorem forgotten_later (reachable : Reachable d k) (named : d.plainHandles = true)
    (issued : s.index < k.semaphores.next.index) (gone : k.semaphores.get? s = none)
    (unnamed : k.Unnamed s) (later : Relation.ReflTransGen (Transit d) k k') :
    k'.semaphores.get? s = none ∧ k'.Unnamed s := by
  have start : (⟨k, none⟩ : Machine).ledger.Forgotten s := by
    refine ⟨issued, ?_, fun t p left => ?_⟩
    · rw [purpose?_ledger, purpose?, gone, Option.map_none]
    · exact unnamed t p ((Machine.work?_none k t).symm.trans left)
  rcases reachable.later (motive := fun m => m.ledger.Forgotten s) later start
    fun regular move forgotten => forgotten.entry (move.entry regular.toSound regular.tidy)
      (regular.sorted named) with ⟨_, _, gone', unnamed'⟩
  constructor
  · rw [purpose?_ledger] at gone'
    exact Option.map_eq_none_iff.mp gone'
  · exact fun t p pending => unnamed' t p ((Machine.work?_none k' t).trans pending)

theorem retired_later (reachable : Reachable d k) (retired : k.Retired l)
    (unwanted : k.Unwanted l) (later : Relation.ReflTransGen (Transit d) k k') :
    k'.locks.get? l = none ∧ k'.Unwanted l := by
  have start : ∀ t p, (⟨k, none⟩ : Machine).work? t = some p → p.lock? ≠ some l :=
    fun t p left => unwanted t p ((Machine.work?_none k t).symm.trans left)
  have kept : ∀ {act : Option Act} {m m' : Machine}, Regular d m → Move d act m m' →
      (m.kernel.Retired l ∧ ∀ t p, m.work? t = some p → p.lock? ≠ some l) →
        m'.kernel.Retired l ∧ ∀ t p, m'.work? t = some p → p.lock? ≠ some l := by
    rintro act m m' regular move ⟨retired, unwanted⟩
    refine ⟨retired.move move regular.toSound, fun t p left wants => ?_⟩
    rcases (move.entry regular.toSound regular.tidy).engages left with left | engages
    · exact unwanted t p left wants
    · rcases engages.lock l wants with ⟨s, left⟩ | ⟨lock, found⟩
      · exact unwanted t _ left rfl
      · cases retired.gone.symm.trans found
  rcases reachable.later (motive := fun m =>
    m.kernel.Retired l ∧ ∀ t p, m.work? t = some p → p.lock? ≠ some l) later ⟨retired, start⟩
    kept with ⟨_, retired', unwanted'⟩
  exact ⟨retired'.gone, fun t p pending =>
    unwanted' t p ((Machine.work?_none k' t).trans pending)⟩

/-! ## Right after the destruction -/

/-- Who is to try for a semaphore that nobody is queued on is ready. -/
theorem Reachable.ready_of_aim (reachable : Reachable d k) {semaphore : Semaphore}
    (found : k.semaphores.get? s = some semaphore) (unawaited : semaphore.waiters = [])
    (pending : k.pending? t = some p) (tries : ∀ s l, p ≠ .signal s l)
    (targets : k.target? p = some s) : t ∈ k.ready.threads := by
  have regular := reachable.steady.regular
  have placed : k.Placed := regular.placed
  rcases Option.bind_eq_some_iff.mp pending with ⟨thread, foundThread, left⟩
  rcases reachable.stationed t thread foundThread p left tries with ready | ⟨s', there⟩
  · exact (placed.mem_queueAt (p := .ready) nofun t).mpr ⟨thread, foundThread, ready⟩
  · have queued := (placed.mem_queueAt (p := .semaphore s') nofun t).mpr ⟨thread, foundThread, there⟩
    rcases exists_of_mem_queueAt queued with ⟨semaphore', found', listed⟩
    have aims : k.aim? t = some s' := regular.attended.retries s' semaphore' found' t listed
    rw [aim?, pending, Option.bind_some, targets] at aims
    cases aims
    cases found.symm.trans found'
    rw [unawaited] at listed
    cases listed

theorem of_run_destroySemaphore {reply : Reply}
    (h : (Request.destroySemaphore s).perform.run k = .ok (reply, k')) :
    ∃ semaphore, k.semaphores.get? s = some semaphore ∧ semaphore.waiters = [] ∧
      k' = s.destroyed k := by
  rcases run_bind_eq_ok_iff.mp h with ⟨_, _, ran, h⟩
  cases h
  exact SemaphoreId.of_run_destroy ran

/-- What a semaphore's destruction leaves: it is safe if no thread was woken from it that has
not tried again, and then for ever. -/
theorem destroySemaphore_safe (reachable : Reachable d k) (named : d.plainHandles = true)
    {reply : Reply} (obeys : (Request.destroySemaphore s).Obeys d k)
    (h : (Request.destroySemaphore s).perform.run k = .ok (reply, k')) :
    (k'.Unnamed s ↔ ∀ t ∈ k.ready.threads, k.pending? t ≠ some (.unit s)) ∧
      (k'.Unnamed s → ∀ k'', Relation.ReflTransGen (Transit d) k' k'' →
        k''.semaphores.get? s = none ∧ k''.Unnamed s) := by
  have after : Reachable d k' := reachable.step (.request obeys h)
  have regular := reachable.steady.regular
  rcases of_run_destroySemaphore h with ⟨semaphore, found, unawaited, rfl⟩
  have purpose := obeys.plain named s rfl semaphore found
  have gone : (s.destroyed k).semaphores.get? s = none := by
    rw [SemaphoreId.destroyed_semaphores, Arena.get?_erase, if_pos rfl]
  have issued : s.index < (s.destroyed k).semaphores.next.index := by
    rw [SemaphoreId.destroyed_semaphores, Arena.next_erase]
    exact Arena.lt_next_of_get? found
  refine ⟨⟨fun unnamed t _ pending => ?_, fun unready t p pending names => ?_⟩,
    fun unnamed k'' later => forgotten_later after named issued gone unnamed later⟩
  · exact unnamed t _ pending rfl
  · cases p with
    | unit s' =>
      cases names
      apply unready t _ pending
      exact reachable.ready_of_aim found unawaited pending (by simp) rfl
    | lock l => cases names
    | signal s' l =>
      cases names
      have made : k.MadeFor s .signal := (regular.plain named).pending t _ pending
      cases purpose.symm.trans (made.purpose semaphore found)

/-- What a lock's destruction leaves: it is safe if no thread was woken for it that has not
tried again and no wait is to take it in the end, and then for ever. -/
theorem destroyLock_safe (reachable : Reachable d k) {reply : Reply}
    (obeys : (Request.destroyLock l).Obeys d k)
    (h : (Request.destroyLock l).perform.run k = .ok (reply, k')) :
    (k'.Unwanted l ↔ (∀ t ∈ k.ready.threads, k.pending? t ≠ some (.lock l)) ∧
        ∀ t s, k.pending? t ≠ some (.signal s l)) ∧
      (k'.Unwanted l → ∀ k'', Relation.ReflTransGen (Transit d) k' k'' →
        k''.locks.get? l = none ∧ k''.Unwanted l) := by
  have after : Reachable d k' := reachable.step (.request obeys h)
  rcases run_bind_eq_ok_iff.mp h with ⟨_, _, ran, h⟩
  cases h
  rcases of_run_destroyLock ran with ⟨lock, found, unheld, destroys⟩
  rcases SemaphoreId.of_run_destroy destroys with ⟨unit, foundUnit, unawaited, rfl⟩
  have retired : Retired (lock.semaphore.destroyed { k with locks := k.locks.erase l }) l := by
    constructor
    · rw [SemaphoreId.destroyed_locks, Arena.next_erase]
      exact Arena.lt_next_of_get? found
    · rw [SemaphoreId.destroyed_locks, Arena.get?_erase, if_pos rfl]
  refine ⟨⟨fun unwanted => ⟨fun t _ pending => ?_, fun t s pending => ?_⟩,
    fun ⟨unready, unawaited'⟩ t p pending wants => ?_⟩,
    fun unwanted k'' later => retired_later after retired unwanted later⟩
  · exact unwanted t _ pending rfl
  · exact unwanted t _ pending rfl
  · cases p with
    | unit s => cases wants
    | lock l' =>
      cases wants
      apply unready t _ pending
      apply reachable.ready_of_aim foundUnit unawaited pending (by simp)
      rw [target?, found, Option.map_some]
    | signal s l' =>
      cases wants
      exact unawaited' t s pending

/-- When destroying a semaphore or a lock is safe.  Whoever still names a destroyed semaphore is
a thread that was woken and is ready to try again.  Whoever names a destroyed lock is such a
thread, or one whose wait on a condition is to end with taking the lock.  If there are none the
primitive is gone for good, and no thread will ever name it. -/
theorem destruction (reachable : Reachable d k) (named : d.plainHandles = true) :
    (∀ s reply k', (Request.destroySemaphore s).Obeys d k →
      (Request.destroySemaphore s).perform.run k = .ok (reply, k') →
      (k'.Unnamed s ↔ ∀ t ∈ k.ready.threads, k.pending? t ≠ some (.unit s)) ∧
        (k'.Unnamed s → ∀ k'', Relation.ReflTransGen (Transit d) k' k'' →
          k''.semaphores.get? s = none ∧ k''.Unnamed s)) ∧
    ∀ l reply k', (Request.destroyLock l).Obeys d k →
      (Request.destroyLock l).perform.run k = .ok (reply, k') →
      (k'.Unwanted l ↔ (∀ t ∈ k.ready.threads, k.pending? t ≠ some (.lock l)) ∧
          ∀ t s, k.pending? t ≠ some (.signal s l)) ∧
        (k'.Unwanted l → ∀ k'', Relation.ReflTransGen (Transit d) k' k'' →
          k''.locks.get? l = none ∧ k''.Unwanted l) := by
  constructor
  · exact fun s reply k' obeys ran => destroySemaphore_safe reachable named obeys ran
  · exact fun l reply k' obeys ran => destroyLock_safe reachable obeys ran

/-- A thread waits for a unit, is woken, and has taken the unit before the semaphore is
destroyed: nobody names it, now or later. -/
theorem destruction_of_spent : ∃ k k', Reachable { plainHandles := true } k ∧
    (Request.destroySemaphore ⟨0⟩).perform.run k = .ok (.done, k') ∧ k'.Unnamed ⟨0⟩ ∧
    ∀ k'', Relation.ReflTransGen (Transit { plainHandles := true }) k' k'' →
      k''.semaphores.get? ⟨0⟩ = none ∧ k''.Unnamed ⟨0⟩ := by
  have ran : ((Discipline.performAll { plainHandles := true }
      [.start, .createSemaphore 0, .spawn { name := "waiter", priority := 40 }, .down ⟨0⟩, .up ⟨0⟩]
      (.fresh {} .stable)).bind fun k => ((SemaphoreId.destroy ⟨0⟩).run k).toOption.map fun _ =>
        decide (k.ready.threads = [.main] ∧ k.pending? .main = none ∧
          (Request.destroySemaphore ⟨0⟩).Obeys { plainHandles := true } k)) = some true := by
    decide +kernel
  rcases Option.bind_eq_some_iff.mp ran with ⟨k, performed, rest⟩
  rcases Option.map_eq_some_iff.mp rest with ⟨⟨_, k'⟩, destroys, told⟩
  rcases of_decide_eq_true told with ⟨ready, free, obeys⟩
  have reachable := (Reachable.fresh {} .stable).performAll performed
  have destroyed : (Request.destroySemaphore ⟨0⟩).perform.run k = .ok (.done, k') :=
    run_bind_eq_ok_iff.mpr ⟨_, k', ok_of_toOption destroys, rfl⟩
  rcases (destruction reachable rfl).1 ⟨0⟩ .done k' obeys destroyed with ⟨safe, ever⟩
  have unnamed : k'.Unnamed ⟨0⟩ := by
    apply safe.mpr
    rw [ready]
    intro t queued pending
    cases List.mem_singleton.mp queued
    cases free.symm.trans pending
  exact ⟨k, k', reachable, destroyed, unnamed, ever unnamed⟩

/-- The waiter is woken, and the semaphore destroyed before it has run: it names the semaphore,
and the next dispatch faults. -/
theorem destruction_faults_of_woken : ∃ k k', Reachable { plainHandles := true } k ∧
    (Request.destroySemaphore ⟨0⟩).Obeys { plainHandles := true } k ∧
    (Request.destroySemaphore ⟨0⟩).perform.run k = .ok (.done, k') ∧
    k'.pending? ⟨3⟩ = some (.unit ⟨0⟩) ∧
    yield.run k' = .error (.missing .semaphore 0) := by
  have ran : ((Discipline.performAll { plainHandles := true }
      [.start, .createSemaphore 0, .spawn { name := "waiter" }, .yield, .down ⟨0⟩, .up ⟨0⟩]
      (.fresh {} .stable)).bind fun k => ((SemaphoreId.destroy ⟨0⟩).run k).toOption.map fun gone =>
        decide ((Request.destroySemaphore ⟨0⟩).Obeys { plainHandles := true } k ∧
          gone.2.pending? ⟨3⟩ = some (.unit ⟨0⟩) ∧
          yield.run gone.2 = .error (.missing .semaphore 0))) = some true := by
    decide +kernel
  rcases Option.bind_eq_some_iff.mp ran with ⟨k, performed, rest⟩
  rcases Option.map_eq_some_iff.mp rest with ⟨⟨_, k'⟩, destroys, told⟩
  rcases of_decide_eq_true told with ⟨obeys, left, faults⟩
  refine ⟨k, k', (Reachable.fresh {} .stable).performAll performed, obeys, ?_, left, faults⟩
  exact run_bind_eq_ok_iff.mpr ⟨_, k', ok_of_toOption destroys, rfl⟩

end ThreadKernel
