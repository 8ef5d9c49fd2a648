import ThreadKernel.Proofs.EveryRun

/-!
# Donor lists

A holder's donor list is written at two places, by a failed attempt on a lock and by the
thread that takes an awaited lock, and thinned out when a lock is released.  `WaitGraph`
says which threads are on it; here it is shown that none is on it twice, and what the lists
come to in between the operations of a run.
-/

namespace ThreadKernel

namespace Kernel

/-- Nobody is a donor of the same thread twice. -/
def DistinctDonors (k : Kernel) : Prop :=
  ∀ t thread, k.threads.get? t = some thread → thread.donors.Nodup

end Kernel

open Kernel

variable {d : Discipline} {m m' : Machine} {k k' : Kernel} {t : ThreadId} {thread : Thread}
  {s : SemaphoreId} {l : LockId} {act : Option Act}

namespace Kernel.DistinctDonors

/-! ## Single steps -/

theorem agree (distinct : k.DistinctDonors)
    (same : Arena.Agree (fun x : Thread => x.donors) k'.threads k.threads) :
    k'.DistinctDonors := by
  intro t thread found
  rcases same.exists_get? found with ⟨old, foundOld, eq⟩
  rw [← eq]
  exact distinct t old foundOld

/-- One thread gets other donors. -/
theorem modify {f : Thread → Thread} (distinct : k.DistinctDonors)
    (found : k.threads.get? t = some thread) (nodup : (f thread).donors.Nodup)
    (threads : k'.threads = k.threads.modify t f) : k'.DistinctDonors := by
  intro t' thread' found'
  rw [threads] at found'
  rcases Arena.of_get?_modify found found' with ⟨_, rfl⟩ | ⟨_, old⟩
  · exact nodup
  · exact distinct t' thread' old

theorem attempt {work : Pending} {success : Bool} (distinct : k.DistinctDonors)
    (h : (s.attempt work).run k = .ok (success, k')) : k'.DistinctDonors := by
  rcases SemaphoreId.of_run_attempt h with ⟨_, _, ⟨_, _, rfl⟩ | ⟨_, _, _, _, rfl⟩⟩
  · exact distinct
  · exact distinct.agree (Arena.agree_modify fun _ => rfl)

theorem wake (distinct : k.DistinctDonors) (h : s.wake.run k = .ok ((), k')) :
    k'.DistinctDonors := by
  rcases SemaphoreId.of_run_wake h with ⟨_, _, ⟨_, rfl⟩ | ⟨t, rest, _, woken⟩⟩
  · exact distinct
  · rcases of_run_unblock woken with ⟨_, _, _, _, _, rfl⟩
    exact distinct.agree
      (Arena.Agree.trans (Arena.agree_modify fun _ => rfl) (Arena.agree_modify fun _ => rfl))

/-- The waiters that a new holder takes over were nobody's donors twice, nor are they now. -/
theorem hold (distinct : k.DistinctDonors) (placed : k.Placed) (runs : k.Runs)
    (h : l.hold.run (s.taken k) = .ok ((), k')) : k'.DistinctDonors := by
  rcases runs with ⟨thread, found, running, _⟩
  have unqueued := placed.unqueued_of_running found running
  rcases LockId.of_run_hold (k := s.taken k) found unqueued h with
    ⟨lock, semaphore, donors, priority, events, _, _, _, price, rfl⟩
  have nodup := distinct k.current thread found
  refine distinct.modify (f := fun old => { old with waitingOn := none, donors, priority })
    found ?_ rfl
  rcases price with ⟨_, rfl, _⟩ | ⟨_, distinct', _, _⟩
  · exact nodup
  · exact distinct' nodup

/-- A thread that comes to wait becomes a donor of the holder only if it is none yet. -/
theorem asks {lock : Lock} {asking : Kernel} (distinct : k.DistinctDonors)
    (asks : l.Asks lock k asking) : asking.DistinctDonors := by
  cases asks with
  | free _ => exact distinct
  | held holds found joins donated =>
    rename_i holder thread donors
    have waiting : DistinctDonors (k.mapThread k.current fun old =>
        { old with waitingOn := some l }) := distinct.agree (Arena.agree_modify fun _ => rfl)
    have joined : (l.asked holder donors k).DistinctDonors := by
      refine waiting.modify (f := fun old => { old with donors }) found ?_ rfl
      have nodup := waiting holder thread found
      rw [joins, (k.withDonor_perm _ _).nodup_iff]
      split
      · exact nodup
      · next new => exact List.nodup_cons.mpr ⟨new, nodup⟩
    exact joined.agree ((repriced_of_donate donated).view _ fun _ => rfl)

theorem attemptLock {due : Option Pending} {success : Bool} (distinct : k.DistinctDonors)
    (sound : Sound d ⟨k, due⟩) (runs : k.Runs) (h : l.attempt.run k = .ok (success, k')) :
    k'.DistinctDonors := by
  rcases LockId.of_run_attempt h with ⟨lock, asking, tried, _, asks, tries, ended⟩
  have asked := distinct.asks asks
  rcases ended with ⟨rfl, holds⟩ | ⟨_, rfl⟩
  · rcases SemaphoreId.of_run_attempt_true tries with ⟨_, _, _, rfl⟩
    exact asked.hold (sound.asks asks).placed (asks.retouched.runs runs) holds
  · exact asked.attempt tries

theorem release {dropped : Kernel} (distinct : k.DistinctDonors) (placed : k.Placed)
    (running : k.Running) (drops : l.dropDonors.run k = .ok ((), dropped))
    (h : s.wake.run ((dropped.mapLock l fun old => { old with holder := none }).withEvents
      (.releases k.current l :: dropped.events)) = .ok ((), k')) : k'.DistinctDonors := by
  rcases running with ⟨thread, foundCurrent, running⟩
  rcases LockId.of_run_dropDonors foundCurrent (placed.unqueued_of_running foundCurrent running)
    drops with ⟨donors, events, _, _, nodup, _, rfl⟩
  have dropped : DistinctDonors (k.repriced k.current donors
      (k.fairPriority { thread with donors })) :=
    distinct.modify (f := fun old => { old with donors, priority := _ }) foundCurrent
      (nodup (distinct _ thread foundCurrent)) rfl
  exact wake (k := (((k.repriced k.current donors _).withEvents events).mapLock l _).withEvents _)
    dropped h

theorem rebase {base : Priority} (distinct : k.DistinctDonors)
    (h : (refresh k.current).run (k.mapThread k.current fun old => { old with base }) =
      .ok ((), k')) : k'.DistinctDonors := by
  have rebased : DistinctDonors (k.mapThread k.current fun old => { old with base }) :=
    distinct.agree (Arena.agree_modify fun _ => rfl)
  rcases of_run_refresh h with ⟨thread, donors, _, found, live, _, rfl⟩
  refine rebased.modify (f := fun old => { old with donors, priority := _ }) found ?_ rfl
  dsimp only
  rw [live]
  exact nodup_liveDonors (rebased _ thread found)

/-! ## Every move -/

theorem move (distinct : m.kernel.DistinctDonors) (sound : Sound d m) (move : Move d act m m') :
    m'.kernel.DistinctDonors := by
  have placed := sound.placed
  cases move with
  | quiet same =>
    apply distinct.agree
    dsimp only
    rw [same.threads]
    exact .refl _ _
  | tick | appoint | create | createLock => exact distinct
  | enroll _ _ _ _ donors _ =>
    intro t thread found
    obtain ⟨_, rfl⟩ | old := Arena.of_get?_push found
    · rw [donors]
      exact List.nodup_nil
    · exact distinct t thread old
  | unblock _ ran =>
    rcases of_run_unblock ran with ⟨_, _, _, _, _, rfl⟩
    exact distinct.agree (Arena.agree_modify fun _ => rfl)
  | ready | halt | doze | pick | undertake | enlist =>
    exact distinct.agree (Arena.agree_modify fun _ => rfl)
  | rise =>
    exact distinct.agree
      (Arena.Agree.trans (Arena.agree_modify fun _ => rfl) (Arena.agree_modify fun _ => rfl))
  | reclaim ran =>
    rcases of_run_reclaim ran with ⟨threads, _, _, _, gone, rfl⟩
    exact fun t thread found => distinct t thread (get?_of_gone gone found)
  | destroy _ _ ran | destroyLock _ _ _ ran =>
    rcases SemaphoreId.of_run_destroy ran with ⟨_, _, _, rfl⟩
    exact distinct
  | take _ _ ran =>
    rcases SemaphoreId.of_run_take_true ran with ⟨_, _, _, rfl⟩
    exact distinct
  | attempt _ _ _ ran | unsignalled _ ran => exact distinct.attempt ran
  | attemptLock runs _ ran => exact distinct.attemptLock sound runs ran
  | seize runs found takes ran =>
    rcases SemaphoreId.of_run_take_true takes with ⟨_, _, _, rfl⟩
    exact distinct.hold placed runs ran
  | release running found holds drops ran => exact distinct.release placed running drops ran
  | wake _ ran => exact distinct.wake ran
  | rebase running ran => exact distinct.rebase ran
  | signal found first ran =>
    rename_i k k' c condition waiter rest
    exact wake (k := c.called waiter.thread rest k) distinct ran
  | signalled runs takes ran =>
    rename_i k tried k' s l
    rcases SemaphoreId.of_run_destroy ran with ⟨_, _, _, rfl⟩
    have after : tried.DistinctDonors := attempt (k := k) distinct takes
    exact after

end Kernel.DistinctDonors

/-! ## Every run -/

theorem Reachable.distinctDonors (reachable : Reachable d k) : k.DistinctDonors := by
  apply reachable.invariant (motive := fun m => m.kernel.DistinctDonors)
  · intro config rule t thread found
    rcases get?_fresh found with ⟨_, rfl⟩
    exact List.nodup_nil
  · exact fun regular move distinct => distinct.move regular.toSound move

/-- A thread's donors are those that wait for a lock it holds: each names the lock and is
queued on the lock's unit, and none is listed twice.  Who names a lock is blocked on its
unit, or ready to try for it again. -/
theorem donors_are_waiters (reachable : Reachable d k) (named : d.plainHandles = true) :
    (∀ h holder, k.threads.get? h = some holder → holder.donors.Nodup ∧
      ∀ t, t ∈ holder.donors ↔ ∃ l lock semaphore thread, k.locks.get? l = some lock ∧
        lock.holder = some h ∧ k.threads.get? t = some thread ∧ thread.waitingOn = some l ∧
        k.semaphores.get? lock.semaphore = some semaphore ∧ t ∈ semaphore.waiters) ∧
    ∀ t thread l, k.threads.get? t = some thread → thread.waitingOn = some l →
      (∃ lock, k.locks.get? l = some lock ∧ thread.state = .blocked ∧
        thread.place = .semaphore lock.semaphore) ∨
      thread.state = .ready ∧ thread.pending = some (.lock l) := by
  have regular := reachable.steady.regular
  have placed : k.Placed := regular.placed
  have graph := regular.graph named
  refine ⟨fun h holder found => ⟨reachable.distinctDonors h holder found, fun t => ?_⟩,
    fun t thread l found waits => ?_⟩
  · rw [graph.donors h holder found t]
    constructor
    · rintro ⟨l, awaits, holds⟩
      rcases Option.bind_eq_some_iff.mp holds with ⟨lock, foundLock, holder⟩
      rcases graph.unit l lock foundLock with ⟨semaphore, foundUnit, _⟩
      have listed := (placed.awaitsLock_iff foundLock foundUnit).mp awaits
      rcases id awaits with ⟨thread, _, foundThread, _⟩
      exact ⟨l, lock, semaphore, thread, foundLock, holder, foundThread,
        graph.queued t l thread awaits foundThread, foundUnit, listed⟩
    · rintro ⟨l, lock, semaphore, _, foundLock, holder, _, _, foundUnit, listed⟩
      exact ⟨l, (placed.awaitsLock_iff foundLock foundUnit).mpr listed,
        (holder?_of_get? foundLock).trans holder⟩
  · rcases graph.waiting t thread l found waits with ⟨pending, ready | awaits⟩ | ⟨_, undue⟩
    · exact .inr ⟨ready, pending⟩
    · rcases awaits with ⟨thread', lock, found', foundLock, there⟩
      cases found.symm.trans found'
      have blocked := placed.blocked found (by rw [there]; exact nofun) (by rw [there]; exact nofun)
      exact .inl ⟨lock, foundLock, blocked, there⟩
    · cases undue

/-- The initial thread holds two locks.  Two threads wait for the first of them and one for the
second. -/
theorem donors_are_waiters_of_two : ∃ k, Reachable { plainHandles := true } k ∧
    (k.threads.get? ThreadId.main).map (·.donors) = some [⟨5⟩, ⟨4⟩, ⟨3⟩] ∧
    ∀ t, t ∈ [(⟨5⟩ : ThreadId), ⟨4⟩, ⟨3⟩] ↔ ∃ l lock semaphore thread,
      k.locks.get? l = some lock ∧ lock.holder = some ThreadId.main ∧ k.threads.get? t = some thread ∧
        thread.waitingOn = some l ∧ k.semaphores.get? lock.semaphore = some semaphore ∧
        t ∈ semaphore.waiters := by
  have ran : (Discipline.performAll { plainHandles := true }
      [.start, .createLock, .createLock, .acquire ⟨0⟩, .acquire ⟨1⟩, .spawn { priority := 40 },
        .acquire ⟨0⟩, .spawn { priority := 45 }, .acquire ⟨1⟩, .spawn { priority := 50 },
        .acquire ⟨0⟩] (.fresh {} .stable)).map
      (fun k => (k.threads.get? ThreadId.main).map (·.donors)) = some (some [⟨5⟩, ⟨4⟩, ⟨3⟩]) := by
    decide +kernel
  obtain ⟨k, performed, told⟩ := Option.map_eq_some_iff.mp ran
  have reachable := (Reachable.fresh {} .stable).performAll performed
  obtain ⟨main, found, same⟩ := Option.map_eq_some_iff.mp told
  have members := ((donors_are_waiters reachable rfl).1 ThreadId.main main found).2
  rw [same] at members
  exact ⟨k, reachable, told, members⟩

end ThreadKernel
