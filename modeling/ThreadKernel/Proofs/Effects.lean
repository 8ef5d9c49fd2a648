import ThreadKernel.Kernel.Run
import ThreadKernel.Kernel.Timer
import ThreadKernel.Condition

/-!
# What the parts of an operation do

One inversion for each part that operations are made of: from a run that ends
well to everything it has changed, with the checks it has passed.  All later
proofs go through these and unfold no operation that has one.

* `of_run_makeReady`, `of_run_setEffective`, `of_run_refresh`, `of_run_donate`,
  `of_run_addDonor` for threads.
* `SemaphoreId.of_run_take`, `SemaphoreId.of_run_attempt`, `SemaphoreId.of_run_wake`
  for semaphores.
* `ConditionId.of_run_enlist`, `ConditionId.of_run_wakeFirst` for conditions.
* `LockId.of_run_hold`, `LockId.of_run_attempt`, `LockId.of_run_dropDonors` for
  locks.
* `run_sleep` and `run_sleepFor` for timed sleep.
* `of_run_reclaim`, `of_run_pickNext` and `of_run_dispatchOnce` for the dispatcher.
-/

namespace ThreadKernel

namespace Kernel

variable {k k' : Kernel} {t : ThreadId} {u : Unit}

theorem priorityOf_of_get? {thread : Thread} (found : k.threads.get? t = some thread) :
    k.priorityOf t = thread.priority := by
  rw [priorityOf, found, Option.elim_some]

/-- A priority that is looked up is the one that the thread has. -/
theorem priorityOf_of_rank (t : ThreadId) (p : Priority) (h : k.threads.rank t = .ok p) :
    k.priorityOf t = p := by
  rw [ThreadTable.rank] at h
  cases looked : k.threads.find t with
  | error missing =>
    rw [looked] at h
    cases h
  | ok thread =>
    rw [looked] at h
    cases h
    exact priorityOf_of_get? (Arena.find_eq_ok_iff.mp looked)

theorem priorityOf_of_agree
    (same : Arena.Agree (fun thread => thread.priority) k'.threads k.threads) (t : ThreadId) :
    k'.priorityOf t = k.priorityOf t := by
  have h := same t
  simp only [priorityOf]
  cases before : k.threads.get? t with
  | none =>
    rw [before, Option.map_none, Option.map_eq_none_iff] at h
    rw [h]
  | some thread =>
    rw [before, Option.map_some, Option.map_eq_some_iff] at h
    obtain ⟨thread', after, eq⟩ := h
    rw [after, Option.elim_some, Option.elim_some, eq]

theorem priorityOf_mapThread {f : Thread → Thread} {u : ThreadId}
    (blind : ∀ x, (f x).priority = x.priority) :
    (k.mapThread t f).priorityOf u = k.priorityOf u :=
  priorityOf_of_agree (Arena.agree_modify blind) u

/-! ## Threads -/

/-- The kernel in which `t` is ready, at queued priority `p`. -/
@[simps]
def readied (k : Kernel) (t : ThreadId) (p : Priority) : Kernel :=
  { k with
    threads := k.threads.modify t fun thread => { thread with state := .ready, place := .ready }
    ready := k.ready.insert t p }

theorem of_run_makeReady (h : (makeReady t).run k = .ok (u, k')) :
    ∃ thread, k.threads.get? t = some thread ∧ t ∉ k.ready.threads ∧
      k' = k.readied t thread.priority := by
  simp only [makeReady, run_modifyThread_bind_eq_ok_iff, run_get_bind, run_lift_bind_eq_ok_iff,
    run_set_eq_ok_iff, Prod.mk.injEq] at h
  obtain ⟨⟨thread, found⟩, ready, queued, _, rfl⟩ := h
  have priority := priorityOf_of_get?
    (k := k.mapThread t fun thread => { thread with state := .ready, place := .ready })
    (Arena.get?_modify_self _ found)
  rw [ReadyQueue.enqueue, priority] at queued
  split at queued
  · cases queued
  · next absent =>
    cases queued
    exact ⟨thread, found, fun there => absent (ReadyQueue.contains_iff.mpr there), rfl⟩

theorem of_run_unblock (h : (unblock t).run k = .ok (u, k')) :
    ∃ thread, k.threads.get? t = some thread ∧ thread.state = .blocked ∧
      thread.place = .detached ∧ t ∉ k.ready.threads ∧ k' = k.readied t thread.priority := by
  obtain ⟨last, ran, rfl⟩ := run_masked_eq_ok_iff.mp h
  simp only [run_findThread_bind_eq_ok_iff, run_require_bind_eq_ok_iff] at ran
  obtain ⟨thread, found, blocked, detached, ran⟩ := ran
  obtain ⟨thread', found', fresh, rfl⟩ := of_run_makeReady ran
  rw [atLevel_threads] at found found'
  rw [found, Option.some.injEq] at found'
  subst found'
  exact ⟨thread, found, blocked, detached, fresh, rfl⟩

theorem of_run_setEffective {p : Priority} (h : (setEffective t p).run k = .ok (u, k')) :
    ∃ thread, k.threads.get? t = some thread ∧
      k' = (k.mapThread t fun thread => { thread with priority := p }).withReady
        (if thread.place = .ready then k.ready.reprioritize t p else k.ready) := by
  simp only [setEffective, run_findThread_bind_eq_ok_iff, run_modifyThread_bind_eq_ok_iff] at h
  obtain ⟨thread, found, _, h⟩ := h
  refine ⟨thread, found, ?_⟩
  split at h
  · next queued =>
    simp only [run_modify_eq_ok_iff, Prod.mk.injEq] at h
    rw [h.2, if_pos queued]
    rfl
  · next unqueued =>
    simp only [run_pure_eq_ok_iff, Prod.mk.injEq] at h
    rw [h.2, if_neg unqueued]
    rfl

theorem priorityOf_of_run_setEffective {p : Priority}
    (h : (setEffective t p).run k = .ok (u, k')) (v : ThreadId) :
    k'.priorityOf v = if t = v then p else k.priorityOf v := by
  obtain ⟨thread, found, rfl⟩ := of_run_setEffective h
  rw [priorityOf, withReady_threads, mapThread_threads, Arena.get?_modify]
  split
  · next here =>
    rw [← here, found]
    rfl
  · rfl

/-- The donors of a thread once `donor` is one of them. -/
def withDonor (k : Kernel) (donor : ThreadId) (donors : List ThreadId) : List ThreadId :=
  if donor ∈ donors then donors else Ranked.insert k.priorityOf donor donors

theorem withDonor_perm (k : Kernel) (donor : ThreadId) (donors : List ThreadId) :
    (k.withDonor donor donors).Perm (if donor ∈ donors then donors else donor :: donors) := by
  rw [withDonor]
  split
  · exact .refl _
  · exact Ranked.insert_perm ..

theorem withDonor_mapThread {f : Thread → Thread} (blind : ∀ x, (f x).priority = x.priority)
    (t donor : ThreadId) (donors : List ThreadId) :
    (k.mapThread t f).withDonor donor donors = k.withDonor donor donors := by
  have same : (k.mapThread t f).priorityOf = k.priorityOf :=
    funext fun _ => priorityOf_mapThread blind
  rw [withDonor, withDonor, same]

theorem of_run_addDonor {holder donor : ThreadId}
    (h : (addDonor holder donor).run k = .ok (u, k')) :
    ∃ thread donors, k.threads.get? holder = some thread ∧
      donors = k.withDonor donor thread.donors ∧
      k' = k.mapThread holder fun thread => { thread with donors } := by
  simp only [addDonor, run_findThread_bind_eq_ok_iff] at h
  obtain ⟨thread, found, h⟩ := h
  split at h
  · next known =>
    simp only [run_pure_eq_ok_iff, Prod.mk.injEq] at h
    refine ⟨thread, thread.donors, found, ?_, ?_⟩
    · rw [withDonor, if_pos (List.contains_iff_mem.mp known)]
    · rw [h.2, mapThread_eq_self found rfl]
  · next unknown =>
    simp only [run_ranks_bind, run_lift_bind_eq_ok_iff, run_modifyThread_eq_ok_iff,
      Prod.mk.injEq] at h
    obtain ⟨donors, inserted, _, _, rfl⟩ := h
    refine ⟨thread, donors, found, ?_, rfl⟩
    rw [withDonor, if_neg fun known => unknown (List.contains_iff_mem.mpr known)]
    exact Ranked.eq_insert_of_insertWith priorityOf_of_rank inserted

/-- The largest of some priorities and a base is bounded as each of them is. -/
theorem foldr_max_le_iff {base p : Priority} {list : List Priority} :
    list.foldr max base ≤ p ↔ base ≤ p ∧ ∀ q ∈ list, q ≤ p := by
  induction list with
  | nil => simp only [List.foldr_nil, List.not_mem_nil, false_implies, implies_true, and_true]
  | cons q rest ih =>
    rw [List.foldr_cons, Nat.max_le, ih, List.forall_mem_cons]
    exact and_left_comm

/-- What some priorities and a base attain one of them attains. -/
theorem le_foldr_max_iff {base p : Priority} {list : List Priority} :
    p ≤ list.foldr max base ↔ p ≤ base ∨ ∃ q ∈ list, p ≤ q := by
  induction list with
  | nil => simp only [List.foldr_nil, List.not_mem_nil, false_and, exists_false, or_false]
  | cons q rest ih =>
    simp only [List.foldr_cons, Std.le_max, ih, List.mem_cons, or_and_right, exists_or,
      exists_eq_left]
    exact or_left_comm

/-- The largest of a thread's base priority and its donors' priorities. -/
def fairPriority (k : Kernel) (thread : Thread) : Priority :=
  (thread.donors.map k.priorityOf).foldr max thread.base

theorem fairPriority_le_iff {thread : Thread} {p : Priority} :
    k.fairPriority thread ≤ p ↔ thread.base ≤ p ∧ ∀ d ∈ thread.donors, k.priorityOf d ≤ p := by
  rw [fairPriority, foldr_max_le_iff, List.forall_mem_map]

theorem le_fairPriority_iff {thread : Thread} {p : Priority} :
    p ≤ k.fairPriority thread ↔ p ≤ thread.base ∨ ∃ d ∈ thread.donors, p ≤ k.priorityOf d := by
  rw [fairPriority, le_foldr_max_iff]
  refine or_congr_right ⟨fun ⟨q, member, below⟩ => ?_, fun ⟨d, member, below⟩ => ?_⟩
  · obtain ⟨d, donor, rfl⟩ := List.mem_map.mp member
    exact ⟨d, donor, below⟩
  · exact ⟨k.priorityOf d, List.mem_map_of_mem member, below⟩

theorem fairPriority_mapThread {f : Thread → Thread} {thread : Thread}
    (blind : ∀ x, (f x).priority = x.priority) :
    (k.mapThread t f).fairPriority thread = k.fairPriority thread := by
  rw [fairPriority, fairPriority, List.map_congr_left fun d _ => priorityOf_mapThread blind]

/-- The first donor in order speaks for all: the larger of its priority and the
base is the largest of the base and every donor's priority. -/
theorem raised_liveDonors (k : Kernel) (thread : Thread) :
    k.raised thread.base (k.liveDonors thread) =
      k.fairPriority { thread with donors := k.liveDonors thread } := by
  have order : Ranked.Descending k.priorityOf (k.liveDonors thread) := Ranked.descending_sort _ _
  unfold fairPriority
  cases donors : k.liveDonors thread with
  | nil => rfl
  | cons d rest =>
    rw [donors] at order
    have above := (List.pairwise_cons.mp order).1
    rw [raised, List.map_cons, List.foldr_cons]
    apply Nat.le_antisymm
    · exact Nat.max_le.mpr ⟨Nat.le_max_left _ _,
        Nat.le_trans (foldr_max_le_iff.mp (Nat.le_refl _)).1 (Nat.le_max_right _ _)⟩
    · refine Nat.max_le.mpr ⟨Nat.le_max_left _ _, foldr_max_le_iff.mpr ⟨Nat.le_max_right _ _, ?_⟩⟩
      intro q hq
      obtain ⟨e, member, rfl⟩ := List.mem_map.mp hq
      exact Nat.le_trans (above e member) (Nat.le_max_left _ _)

theorem mem_liveDonors {thread : Thread} {d : ThreadId} :
    d ∈ k.liveDonors thread ↔ d ∈ thread.donors ∧ k.threads.contains d = true := by
  rw [liveDonors, Ranked.mem_sort, List.mem_filter]

theorem descending_liveDonors {thread : Thread} (same : ∀ t, k'.priorityOf t = k.priorityOf t) :
    Ranked.Descending k.priorityOf (k'.liveDonors thread) := by
  rw [← funext same]
  exact Ranked.descending_sort _ _

theorem nodup_liveDonors {thread : Thread} (nodup : thread.donors.Nodup) :
    (k.liveDonors thread).Nodup :=
  (Ranked.sort_perm _ _).nodup_iff.mpr (nodup.filter _)

/-- The kernel in which `t` has the given donors and priority. -/
@[simps]
def repriced (k : Kernel) (t : ThreadId) (donors : List ThreadId) (priority : Priority) : Kernel :=
  { k with threads := k.threads.modify t fun old => { old with donors, priority } }

theorem repriced_eq (k : Kernel) (t : ThreadId) (donors : List ThreadId) (priority : Priority) :
    k.repriced t donors priority = k.mapThread t fun old => { old with donors, priority } := rfl

theorem of_run_refresh (h : (refresh t).run k = .ok (u, k')) :
    ∃ thread donors events, k.threads.get? t = some thread ∧
      donors = k.liveDonors thread ∧ Remarks k.events events ∧
      k' = (((k.repriced t donors (k.fairPriority { thread with donors }))).withReady
        (if thread.place = .ready then
          k.ready.reprioritize t (k.fairPriority { thread with donors }) else k.ready)).withEvents
        events := by
  simp only [refresh, run_get_bind, run_findThread_bind_eq_ok_iff,
    run_modifyThread_bind_eq_ok_iff] at h
  obtain ⟨thread, found, _, h⟩ := h
  refine ⟨thread, k.liveDonors thread, ?_⟩
  rw [raised_liveDonors] at h
  generalize k.fairPriority _ = priority at h ⊢
  obtain ⟨events, grown, h⟩ : ∃ events, Remarks k.events events ∧
      (setEffective t priority).run ((k.withEvents events).mapThread t fun old =>
        { old with donors := k.liveDonors thread }) = .ok (u, k') := by
    split at h
    · exact ⟨_, .cons _ _ rfl, h⟩
    · exact ⟨_, .refl _, h⟩
  obtain ⟨thread', found', rfl⟩ := of_run_setEffective h
  rw [mapThread_threads, withEvents_threads, Arena.get?_modify_self _ found,
    Option.some.injEq] at found'
  subst found'
  refine ⟨events, found, rfl, grown, ?_⟩
  rw [mapThread_mapThread]
  rfl

/-- A thread that is not queued to run moves in no queue. -/
theorem of_run_refresh_of_unqueued {thread : Thread} (found : k.threads.get? t = some thread)
    (unqueued : thread.place ≠ .ready) (h : (refresh t).run k = .ok (u, k')) :
    ∃ donors events, donors = k.liveDonors thread ∧ Remarks k.events events ∧
      k' = (k.repriced t donors (k.fairPriority { thread with donors })).withEvents events := by
  obtain ⟨thread', donors, events, found', live, grown, same⟩ := of_run_refresh h
  rw [found, Option.some.injEq] at found'
  subst found'
  rw [if_neg unqueued] at same
  exact ⟨donors, events, live, grown, same⟩

/-- A thread's base priority is set, and its priority recomputed. -/
theorem of_run_rebase {thread : Thread} {base : Priority}
    (found : k.threads.get? t = some thread) (unqueued : thread.place ≠ .ready)
    (h : (refresh t).run (k.mapThread t fun old => { old with base }) = .ok (u, k')) :
    ∃ donors events, (∀ d, d ∈ donors ↔ d ∈ thread.donors ∧ k.threads.contains d = true) ∧
      Remarks k.events events ∧
      k' = (k.mapThread t fun old => { old with
        base, donors, priority := k.fairPriority { thread with base, donors } }).withEvents
          events := by
  have rebased := Arena.get?_modify_self (fun old : Thread => { old with base }) found
  obtain ⟨donors, events, live, told, rfl⟩ := of_run_refresh_of_unqueued
    (k := k.mapThread t fun old => { old with base }) rebased unqueued h
  refine ⟨donors, events, fun d => ?_, told, ?_⟩
  · rw [live, mem_liveDonors, mapThread_threads, Arena.contains_modify]
  · have price : (k.mapThread t fun old => { old with base }).fairPriority
        { thread with base, donors } = k.fairPriority { thread with base, donors } :=
      fairPriority_mapThread fun _ => rfl
    rw [price, repriced_eq, mapThread_mapThread]

/-- What a donation does to the `holder` that `donor` waits for: it raises a lower priority, and
passes by any other. -/
inductive Hop (k : Kernel) (donor holder : ThreadId) : Kernel → Prop
  | raised {raised : Kernel} (below : k.priorityOf holder < k.priorityOf donor)
      (ran : (setEffective holder (k.priorityOf donor)).run
        (k.withEvents (.donates donor (k.priorityOf donor) holder :: k.events)) =
          .ok ((), raised)) :
      Hop k donor holder raised
  | passed (above : k.priorityOf donor ≤ k.priorityOf holder) : Hop k donor holder k

/-- What is left of a donation that has come from `start` to `donor` by way of `visited`, with so
many hops to go at most. -/
inductive Walks (start : ThreadId) :
    Nat → List ThreadId → ThreadId → Kernel → Kernel → Prop
  | ended {depth : Nat} {visited : List ThreadId} {donor : ThreadId} {k : Kernel}
      (last : k.blockingHolder donor = none) :
      Walks start depth visited donor k k
  | truncated {visited : List ThreadId} {donor beyond : ThreadId} {k : Kernel}
      (blocks : k.blockingHolder donor = some beyond) :
      Walks start 0 visited donor k
        (k.withEvents (.truncated start visited.reverse beyond :: k.events))
  | hop {depth : Nat} {visited : List ThreadId} {donor holder : ThreadId} {k next k' : Kernel}
      (blocks : k.blockingHolder donor = some holder) (hop : k.Hop donor holder next)
      (rest : Walks start depth (holder :: visited) holder next k') :
      Walks start (depth + 1) visited donor k k'

theorem of_run_donateFrom {start : ThreadId} {depth : Nat} {visited : List ThreadId}
    {donor : ThreadId} (h : (donateFrom start depth visited donor).run k = .ok (u, k')) :
    Walks start depth visited donor k k' := by
  induction depth generalizing k visited donor with
  | zero =>
    rw [donateFrom, run_get_bind] at h
    split at h
    · next beyond blocks =>
      cases h
      exact .truncated blocks
    · next last =>
      cases h
      exact .ended last
  | succ depth ih =>
    rw [donateFrom, run_get_bind] at h
    split at h
    · next holder blocks =>
      split at h
      · next below =>
        rw [run_note_bind] at h
        obtain ⟨_, raised, ran, h⟩ := run_bind_eq_ok_iff.mp h
        exact .hop blocks (.raised below ran) (ih h)
      · next above => exact .hop blocks (.passed (Nat.le_of_not_lt above)) (ih h)
    · next last =>
      cases h
      exact .ended last

theorem of_run_donate (h : donate.run k = .ok (u, k')) :
    Walks k.current k.config.donationDepth [] k.current k k' :=
  of_run_donateFrom h

theorem Walks.kept {motive : Kernel → Prop}
    (noted : ∀ k event, event.isRemark = true → motive k →
      motive (k.withEvents (event :: k.events)))
    (repriced : ∀ k k' t p, motive k → (setEffective t p).run k = .ok ((), k') → motive k')
    {start : ThreadId} {depth : Nat} {visited : List ThreadId} {donor : ThreadId}
    (walks : Walks start depth visited donor k k') (before : motive k) : motive k' := by
  induction walks with
  | ended => exact before
  | truncated => exact noted _ _ rfl before
  | hop _ hop _ ih =>
    cases hop with
    | raised _ ran => exact ih (repriced _ _ _ _ (noted _ _ rfl before) ran)
    | passed => exact ih before

/-- What is kept by a remark and by setting one priority is kept by a donation. -/
theorem donate_induction {motive : Kernel → Prop}
    (noted : ∀ k event, event.isRemark = true → motive k →
      motive (k.withEvents (event :: k.events)))
    (repriced : ∀ k k' t p, motive k → (setEffective t p).run k = .ok ((), k') → motive k')
    (before : motive k) (h : donate.run k = .ok (u, k')) : motive k' :=
  (of_run_donate h).kept noted repriced before

/-! ## Timed sleep -/

/-- To sleep for so many ticks is to sleep until the tick that they lead to. -/
theorem run_sleep (k : Kernel) (ticks : Nat) : (sleep ticks).run k =
    (sleepUntil (saturate (k.clock.ticks + ticks))).run k := by
  rw [sleep, run_get_bind]

theorem run_sleepFor (k : Kernel) (duration : Duration) : (sleepFor duration).run k =
    (sleepUntil (saturate (k.clock.ticks + duration.ticks k.config.timerHz))).run k := by
  rw [sleepFor, run_get_bind, run_sleep]

end Kernel

/-! ## Semaphores -/

namespace SemaphoreId

open Kernel

variable {k k' : Kernel} {s : SemaphoreId} {u : Unit}

/-- The kernel in which the current thread has taken a unit of `s`. -/
@[simps]
def taken (s : SemaphoreId) (k : Kernel) : Kernel :=
  { k with
    semaphores := k.semaphores.modify s fun old => { old with value := old.value - 1 }
    events := .takes k.current s :: k.events }

theorem of_run_take {success : Bool} (h : s.take.run k = .ok (success, k')) :
    ∃ semaphore, k.semaphores.get? s = some semaphore ∧
      (success = true ∧ 0 < semaphore.value ∧ k' = s.taken k ∨
        success = false ∧ semaphore.value = 0 ∧ k' = k) := by
  simp only [take, run_findSemaphore_bind_eq_ok_iff] at h
  obtain ⟨semaphore, found, h⟩ := h
  refine ⟨semaphore, found, ?_⟩
  split at h
  · next positive =>
    simp only [run_modifySemaphore_bind_eq_ok_iff, run_caller_bind, run_note_bind,
      run_pure_eq_ok_iff, Prod.mk.injEq] at h
    obtain ⟨_, rfl, rfl⟩ := h
    exact .inl ⟨rfl, positive, rfl⟩
  · next zero =>
    simp only [run_pure_eq_ok_iff, Prod.mk.injEq] at h
    obtain ⟨rfl, rfl⟩ := h
    exact .inr ⟨rfl, Nat.eq_zero_of_not_pos zero, rfl⟩

theorem of_run_take_true (h : s.take.run k = .ok (true, k')) :
    ∃ semaphore, k.semaphores.get? s = some semaphore ∧ 0 < semaphore.value ∧ k' = s.taken k := by
  obtain ⟨semaphore, found, ⟨_, positive, same⟩ | ⟨no, _⟩⟩ := of_run_take h
  · exact ⟨semaphore, found, positive, same⟩
  · cases no

/-- The kernel in which the current thread is queued on `s`, as `waiters` says. -/
@[simps]
def queued (s : SemaphoreId) (retry : Pending) (waiters : List ThreadId) (k : Kernel) : Kernel :=
  { k with
    semaphores := k.semaphores.modify s fun old => { old with waiters }
    threads := k.threads.modify k.current fun thread =>
      { thread with state := .blocked, place := .semaphore s, pending := some retry }
    events := .waits k.current s :: k.events }

theorem of_run_attempt {retry : Pending} {success : Bool}
    (h : (s.attempt retry).run k = .ok (success, k')) :
    ∃ semaphore, k.semaphores.get? s = some semaphore ∧
      (success = true ∧ 0 < semaphore.value ∧ k' = s.taken k ∨
        success = false ∧ semaphore.value = 0 ∧ ∃ waiters,
          waiters = Ranked.join k.priorityOf k.current semaphore.waiters ∧
            k' = s.queued retry waiters k) := by
  rw [attempt, run_bind_eq_ok_iff] at h
  obtain ⟨first, middle, took, h⟩ := h
  obtain ⟨semaphore, found, ⟨rfl, positive, rfl⟩ | ⟨rfl, zero, rfl⟩⟩ := of_run_take took
  · simp only [if_true, run_pure_eq_ok_iff, Prod.mk.injEq] at h
    obtain ⟨rfl, rfl⟩ := h
    exact ⟨semaphore, found, .inl ⟨rfl, positive, rfl⟩⟩
  · simp only [Bool.false_eq_true, if_false, run_caller_bind, run_ranks_bind,
      run_findSemaphore_bind_eq_ok_iff, run_lift_bind_eq_ok_iff,
      run_modifySemaphore_bind_eq_ok_iff, run_modifyThread_bind_eq_ok_iff, run_note_bind,
      run_pure_eq_ok_iff, Prod.mk.injEq] at h
    obtain ⟨same, found', sorted, sort, waiters, insert, _, _, rfl, rfl⟩ := h
    rw [found, Option.some.injEq] at found'
    subst found'
    refine ⟨semaphore, found, .inr ⟨rfl, zero, waiters, ?_, rfl⟩⟩
    rw [Ranked.join, ← Ranked.eq_sort_of_sortWith priorityOf_of_rank sort]
    exact Ranked.eq_insert_of_insertWith priorityOf_of_rank insert

theorem of_run_attempt_true {retry : Pending} (h : (s.attempt retry).run k = .ok (true, k')) :
    ∃ semaphore, k.semaphores.get? s = some semaphore ∧ 0 < semaphore.value ∧ k' = s.taken k := by
  obtain ⟨semaphore, found, ⟨_, positive, same⟩ | ⟨no, _⟩⟩ := of_run_attempt h
  · exact ⟨semaphore, found, positive, same⟩
  · cases no

theorem of_run_attempt_false {retry : Pending} (h : (s.attempt retry).run k = .ok (false, k')) :
    ∃ semaphore waiters, k.semaphores.get? s = some semaphore ∧ semaphore.value = 0 ∧
      waiters = Ranked.join k.priorityOf k.current semaphore.waiters ∧
      k' = s.queued retry waiters k := by
  obtain ⟨semaphore, found, ⟨no, _⟩ | ⟨_, zero, waiters, joins, same⟩⟩ := of_run_attempt h
  · cases no
  · exact ⟨semaphore, waiters, found, zero, joins, same⟩

/-- The kernel without `s`. -/
@[simps]
def destroyed (s : SemaphoreId) (k : Kernel) : Kernel :=
  { k with semaphores := k.semaphores.erase s }

theorem of_run_destroy (h : s.destroy.run k = .ok (u, k')) :
    ∃ semaphore, k.semaphores.get? s = some semaphore ∧ semaphore.waiters = [] ∧
      k' = s.destroyed k := by
  simp only [destroy, run_findSemaphore_bind_eq_ok_iff, run_require_bind_eq_ok_iff,
    run_modify_eq_ok_iff, Prod.mk.injEq] at h
  obtain ⟨semaphore, found, unawaited, _, rfl⟩ := h
  exact ⟨semaphore, found, unawaited, rfl⟩

/-- The kernel in which a unit of `s` was returned and `waiters` are left. -/
@[simps]
def given (s : SemaphoreId) (waiters : List ThreadId) (k : Kernel) : Kernel :=
  { k with
    semaphores := k.semaphores.modify s fun old => { old with value := old.value + 1, waiters }
    events := .gives s :: k.events }

/-- The kernel in which the returned unit also took `t` off the wait list. -/
@[simps]
def roused (s : SemaphoreId) (t : ThreadId) (waiters : List ThreadId) (k : Kernel) : Kernel :=
  { s.given waiters k with
    threads := k.threads.modify t fun thread => { thread with place := .detached }
    events := .wakes s t :: .gives s :: k.events }

theorem of_run_wake (h : s.wake.run k = .ok (u, k')) :
    ∃ semaphore, k.semaphores.get? s = some semaphore ∧
      (semaphore.waiters = [] ∧ k' = s.given [] k ∨
        ∃ t rest, Ranked.sort k.priorityOf semaphore.waiters = t :: rest ∧
          (unblock t).run (s.roused t rest k) = .ok (u, k')) := by
  simp only [wake, run_findSemaphore_bind_eq_ok_iff, run_ranks_bind, run_lift_bind_eq_ok_iff,
    run_require_bind_eq_ok_iff, run_modifySemaphore_bind_eq_ok_iff, run_note_bind] at h
  obtain ⟨semaphore, found, sorted, sort, _, _, h⟩ := h
  refine ⟨semaphore, found, ?_⟩
  have first := (Ranked.eq_sort_of_sortWith priorityOf_of_rank sort).symm
  cases sorted with
  | nil =>
    simp only [run_pure_eq_ok_iff, Prod.mk.injEq] at h
    exact .inl ⟨List.nil_perm.mp (Ranked.sortWith_perm sort), h.2⟩
  | cons t rest =>
    simp only [run_note_bind, run_modifyThread_bind_eq_ok_iff] at h
    exact .inr ⟨t, rest, first, h.2⟩

end SemaphoreId

/-! ## Locks -/

namespace LockId

open Kernel

variable {k k' : Kernel} {l : LockId} {u : Unit}

/-- Threads that become donors one after the other. -/
theorem of_run_forM_addDonor {holder : ThreadId} {waiters : List ThreadId} {thread : Thread}
    (found : k.threads.get? holder = some thread)
    (h : (waiters.forM (addDonor holder)).run k = .ok (u, k')) :
    ∃ donors, (∀ d, d ∈ donors ↔ d ∈ thread.donors ∨ d ∈ waiters) ∧
      (thread.donors.Nodup → donors.Nodup) ∧
      k' = k.mapThread holder fun old => { old with donors } := by
  induction waiters generalizing k thread with
  | nil =>
    rw [run_forM_nil_eq_ok_iff, Prod.mk.injEq] at h
    refine ⟨thread.donors, fun d => ?_, id, ?_⟩
    · simp only [List.not_mem_nil, or_false]
    · rw [h.2, mapThread_eq_self found rfl]
  | cons waiter rest ih =>
    obtain ⟨middle, ran, h⟩ := run_forM_cons_eq_ok_iff.mp h
    obtain ⟨thread', donors, found', joins, rfl⟩ := of_run_addDonor ran
    rw [found, Option.some.injEq] at found'
    subst found'
    have perm := k.withDonor_perm waiter thread.donors
    rw [← joins] at perm
    obtain ⟨donors', members, nodup, rfl⟩ := ih (Arena.get?_modify_self _ found) h
    refine ⟨donors', fun d => ?_, fun old => nodup ?_, ?_⟩
    · rw [members, perm.mem_iff]
      split
      · next known =>
        rw [List.mem_cons, or_left_comm]
        exact ⟨.inr, fun h => h.elim (fun eq => .inl (eq ▸ known)) id⟩
      · rw [List.mem_cons, List.mem_cons, or_assoc, or_left_comm]
    · rw [perm.nodup_iff]
      split
      · exact old
      · next unknown => exact List.nodup_cons.mpr ⟨unknown, old⟩
    · rw [mapThread_mapThread]

/-- The kernel in which the current thread holds `l`, with the given donors and priority. -/
@[simps]
def held (l : LockId) (donors : List ThreadId) (priority : Priority) (k : Kernel) : Kernel :=
  { k with
    threads := k.threads.modify k.current fun old =>
      { old with waitingOn := none, donors, priority }
    locks := k.locks.modify l fun old => { old with holder := some k.current } }

theorem held_eq (l : LockId) (donors : List ThreadId) (priority : Priority) (k : Kernel) :
    l.held donors priority k =
      (k.mapThread k.current fun old => { old with waitingOn := none, donors, priority }).mapLock l
        fun old => { old with holder := some k.current } := rfl

theorem of_run_hold {thread : Thread} (found : k.threads.get? k.current = some thread)
    (unqueued : thread.place ≠ .ready) (h : l.hold.run k = .ok (u, k')) :
    ∃ lock semaphore donors priority events, k.locks.get? l = some lock ∧
      k.semaphores.get? lock.semaphore = some semaphore ∧
      Remarks (.holds k.current l :: k.events) events ∧
      (semaphore.waiters = [] ∧ donors = thread.donors ∧ priority = thread.priority ∨
        (∀ d, d ∈ donors ↔
            (d ∈ thread.donors ∨ d ∈ semaphore.waiters) ∧ k.threads.contains d = true) ∧
          (thread.donors.Nodup → donors.Nodup) ∧ Ranked.Descending k.priorityOf donors ∧
          priority = k.fairPriority { thread with donors }) ∧
      k' = (l.held donors priority k).withEvents events := by
  simp only [hold, run_caller_bind, run_modifyThread_bind_eq_ok_iff, run_modifyLock_bind_eq_ok_iff,
    run_note_bind, run_findLock_bind_eq_ok_iff, run_findSemaphore_bind_eq_ok_iff] at h
  obtain ⟨_, ⟨lock, foundLock⟩, lock', foundLock', semaphore, foundSemaphore, h⟩ := h
  rw [withEvents_locks, mapLock_locks, Arena.get?_modify_self _ foundLock,
    Option.some.injEq] at foundLock'
  subst foundLock'
  split at h
  · next empty =>
    rw [run_pure_eq_ok_iff, Prod.mk.injEq] at h
    refine ⟨lock, semaphore, thread.donors, thread.priority, _, foundLock, foundSemaphore, .refl _,
      .inl ⟨List.isEmpty_iff.mp empty, rfl, rfl⟩, ?_⟩
    have same : k.mapThread k.current (fun old => { old with waitingOn := none }) =
        k.mapThread k.current fun old =>
          { old with waitingOn := none, donors := thread.donors, priority := thread.priority } :=
      mapThread_congr found rfl
    rw [h.2, held_eq, ← same]
    rfl
  · next waiting =>
    obtain ⟨_, middle, ran, h⟩ := run_bind_eq_ok_iff.mp h
    obtain ⟨donors, members, nodup, rfl⟩ :=
      of_run_forM_addDonor (Arena.get?_modify_self _ found) ran
    obtain ⟨thread', donors', events, found', live, grown, rfl⟩ := of_run_refresh h
    rw [mapThread_threads, withEvents_threads, mapLock_threads, mapThread_threads,
      Arena.get?_modify_self _ (Arena.get?_modify_self _ found), Option.some.injEq] at found'
    subst found'
    rw [if_neg unqueued, fairPriority_mapThread (f := fun old => { old with donors }) fun _ => rfl]
    have price : (k.mapThread k.current fun old => { old with waitingOn := none }).fairPriority
        { thread with donors := donors' } = k.fairPriority { thread with donors := donors' } :=
      fairPriority_mapThread fun _ => rfl
    have fused : ((k.mapThread k.current fun old => { old with waitingOn := none }).mapThread
        k.current fun old => { old with donors }).mapThread k.current (fun old =>
          { old with donors := donors', priority := k.fairPriority { thread with donors := donors' } }) =
        k.mapThread k.current fun old => { old with
          waitingOn := none, donors := donors',
          priority := k.fairPriority { thread with donors := donors' } } := by
      rw [mapThread_mapThread, mapThread_mapThread]
    refine ⟨lock, semaphore, donors', k.fairPriority { thread with donors := donors' }, events,
      foundLock, foundSemaphore, grown, .inr ⟨fun d => ?_, fun old => ?_, ?_, rfl⟩, ?_⟩
    · rw [live, mem_liveDonors, members]
      simp only [mapThread_threads, withEvents_threads, mapLock_threads, Arena.contains_modify]
    · rw [live]
      exact nodup_liveDonors (nodup old)
    · rw [live]
      exact descending_liveDonors fun t => priorityOf_of_agree (Arena.Agree.trans
        (Arena.agree_modify fun _ => by rfl) (Arena.agree_modify fun _ => by rfl)) t
    · rw [held_eq, ← fused, ← price]
      rfl

end LockId
namespace LockId

open Kernel

variable {k k' : Kernel} {l : LockId} {u : Unit}

/-- The kernel in which the current thread waits for `l`, with the donors its
holder then has. -/
def asked (l : LockId) (holder : ThreadId) (donors : List ThreadId) (k : Kernel) : Kernel :=
  (k.mapThread k.current fun old => { old with waitingOn := some l }).mapThread holder
    fun old => { old with donors }

theorem get?_asked (l : LockId) (holder : ThreadId) (donors : List ThreadId) (k : Kernel)
    (t : ThreadId) : (l.asked holder donors k).threads.get? t =
      (k.threads.get? t).map fun old => { old with
        waitingOn := if k.current = t then some l else old.waitingOn
        donors := if holder = t then donors else old.donors } := by
  rw [asked, mapThread_threads, mapThread_threads, Arena.get?_modify, Arena.get?_modify]
  cases k.threads.get? t <;> split <;> split <;> rfl

theorem priorityOf_asked (l : LockId) (holder : ThreadId) (donors : List ThreadId) (k : Kernel)
    (t : ThreadId) : (l.asked holder donors k).priorityOf t = k.priorityOf t :=
  (priorityOf_mapThread fun _ => by rfl).trans (priorityOf_mapThread fun _ => by rfl)

/-- What an attempt on `l` does first: nothing if the lock is free, otherwise the
current thread becomes a donor of the holder and donates. -/
inductive Asks (l : LockId) (lock : Lock) (k : Kernel) : Kernel → Prop
  | free (unheld : lock.holder = none) : Asks l lock k k
  | held {holder : ThreadId} {thread : Thread} {donors : List ThreadId} {asking : Kernel}
      (holds : lock.holder = some holder)
      (found : (k.mapThread k.current fun old => { old with waitingOn := some l }).threads.get?
        holder = some thread)
      (joins : donors = k.withDonor k.current thread.donors)
      (donated : donate.run (l.asked holder donors k) = .ok ((), asking)) :
      Asks l lock k asking

/-- The donors of the holder are those it had, and the current thread. -/
theorem mem_donors_asked {holder : ThreadId} {thread : Thread} {donors : List ThreadId}
    (found : (k.mapThread k.current fun old => { old with waitingOn := some l }).threads.get?
      holder = some thread)
    (joins : donors = k.withDonor k.current thread.donors) :
    ∃ old, k.threads.get? holder = some old ∧
      ∀ d, d ∈ donors ↔ d ∈ old.donors ∨ d = k.current := by
  have agree : Arena.Agree (fun x : Thread => x.donors) (k.threads.modify k.current fun old =>
      { old with waitingOn := some l }) k.threads := Arena.agree_modify fun _ => rfl
  obtain ⟨old, foundOld, same⟩ := agree.exists_get? found
  refine ⟨old, foundOld, fun d => ?_⟩
  rw [joins, ← same, (k.withDonor_perm _ _).mem_iff]
  split
  · next known => exact ⟨.inl, fun either => either.elim id fun here => here ▸ known⟩
  · rw [List.mem_cons, or_comm]

/-- An attempt on a lock is one on the lock's unit. -/
theorem of_run_attempt {success : Bool} (h : l.attempt.run k = .ok (success, k')) :
    ∃ lock asking tried, k.locks.get? l = some lock ∧ l.Asks lock k asking ∧
      (lock.semaphore.attempt (.lock l)).run asking = .ok (success, tried) ∧
      (success = true ∧ l.hold.run tried = .ok ((), k') ∨ success = false ∧ k' = tried) := by
  rw [attempt, run_caller_bind, run_findLock_bind_eq_ok_iff] at h
  obtain ⟨lock, found, h⟩ := h
  have settled : ∀ asking, (do
      if ← lock.semaphore.attempt (.lock l) then
        l.hold
        pure true
      else
        pure false : KernelM Bool).run asking = .ok (success, k') →
      ∃ tried, (lock.semaphore.attempt (.lock l)).run asking = .ok (success, tried) ∧
        (success = true ∧ l.hold.run tried = .ok ((), k') ∨ success = false ∧ k' = tried) := by
    intro asking h
    obtain ⟨first, tried, tries, h⟩ := run_bind_eq_ok_iff.mp h
    cases first with
    | true =>
      obtain ⟨_, last, holds, h⟩ := run_bind_eq_ok_iff.mp h
      cases h
      exact ⟨tried, tries, .inl ⟨rfl, holds⟩⟩
    | false =>
      cases h
      exact ⟨k', tries, .inr ⟨rfl, rfl⟩⟩
  cases holds : lock.holder with
  | none =>
    rw [holds] at h
    obtain ⟨tried, tries, ended⟩ := settled k h
    exact ⟨lock, k, tried, found, .free holds, tries, ended⟩
  | some holder =>
    rw [holds] at h
    simp only [run_modifyThread_bind_eq_ok_iff] at h
    obtain ⟨_, h⟩ := h
    obtain ⟨_, middle, ran, h⟩ := run_bind_eq_ok_iff.mp h
    obtain ⟨thread, donors, foundHolder, joins, rfl⟩ := of_run_addDonor ran
    rw [withDonor_mapThread fun _ => by rfl] at joins
    obtain ⟨_, asking, donated, h⟩ := run_bind_eq_ok_iff.mp h
    obtain ⟨tried, tries, ended⟩ := settled asking h
    exact ⟨lock, asking, tried, found, .held holds foundHolder joins donated, tries, ended⟩

/-- Who gets a lock has taken its unit first. -/
theorem of_run_attempt_true (h : l.attempt.run k = .ok (true, k')) :
    ∃ lock asking semaphore, k.locks.get? l = some lock ∧ l.Asks lock k asking ∧
      asking.semaphores.get? lock.semaphore = some semaphore ∧ 0 < semaphore.value ∧
      l.hold.run (lock.semaphore.taken asking) = .ok ((), k') := by
  obtain ⟨lock, asking, tried, found, asks, tries, ⟨_, holds⟩ | ⟨no, _⟩⟩ := of_run_attempt h
  · obtain ⟨semaphore, foundUnit, positive, rfl⟩ := SemaphoreId.of_run_attempt_true tries
    exact ⟨lock, asking, semaphore, found, asks, foundUnit, positive, holds⟩
  · cases no

theorem of_run_attempt_false (h : l.attempt.run k = .ok (false, k')) :
    ∃ lock asking, k.locks.get? l = some lock ∧ l.Asks lock k asking ∧
      (lock.semaphore.attempt (.lock l)).run asking = .ok (false, k') := by
  obtain ⟨lock, asking, tried, found, asks, tries, ⟨no, _⟩ | ⟨_, rfl⟩⟩ := of_run_attempt h
  · cases no
  · exact ⟨lock, asking, found, asks, tries⟩

/-- What is left of a thread's donors when those that wait for `l` leave. -/
theorem of_run_dropDonors {thread : Thread} (found : k.threads.get? k.current = some thread)
    (unqueued : thread.place ≠ .ready) (h : l.dropDonors.run k = .ok (u, k')) :
    ∃ donors events, Remarks k.events events ∧
      (∀ d, d ∈ donors ↔ d ∈ thread.donors ∧
        ∃ record, k.threads.get? d = some record ∧ record.waitingOn ≠ some l) ∧
      (thread.donors.Nodup → donors.Nodup) ∧ Ranked.Descending k.priorityOf donors ∧
      k' = (k.repriced k.current donors
        (k.fairPriority { thread with donors })).withEvents events := by
  simp only [dropDonors, run_get_bind, run_modifyThread_bind_eq_ok_iff] at h
  obtain ⟨_, h⟩ := h
  obtain ⟨thread', donors, events, found', live, grown, rfl⟩ := of_run_refresh h
  rw [mapThread_threads, Arena.get?_modify_self _ found, Option.some.injEq] at found'
  subst found'
  have price (waitsElsewhere) : (k.mapThread k.current fun thread =>
      { thread with donors := thread.donors.filter waitsElsewhere }).fairPriority
        { thread with donors } = k.fairPriority { thread with donors } :=
    fairPriority_mapThread fun _ => rfl
  rw [if_neg unqueued, price]
  refine ⟨donors, events, grown, fun d => ?_, fun old => ?_, ?_, ?_⟩
  · rw [live, mem_liveDonors, List.mem_filter, mapThread_threads, Arena.contains_modify,
      Arena.contains_iff, and_assoc]
    refine and_congr_right fun _ => ?_
    cases k.threads.get? d with
    | none => simp
    | some record => simp
  · rw [live]
    exact nodup_liveDonors (old.filter _)
  · rw [live]
    exact descending_liveDonors fun t => priorityOf_mapThread fun _ => rfl
  · rw [repriced_eq, mapThread_mapThread]
    rfl

end LockId

/-! ## Conditions -/

/-- The effective priority of the thread that waits. -/
def Kernel.worth (k : Kernel) (waiter : Waiter) : Priority := k.priorityOf waiter.thread

namespace ConditionId

open Kernel

variable {k k' : Kernel} {c : ConditionId} {u : Unit}

/-- The kernel in which the current thread has queued a wait on `c`, as `waiters`
says, with a new private semaphore and the lock `l` to take again. -/
@[simps]
def joined (c : ConditionId) (l : LockId) (waiters : List Waiter) (k : Kernel) : Kernel :=
  { k with
    semaphores := k.semaphores.push { value := 0, purpose := .signal }
    conditions := k.conditions.modify c fun old => { old with waiters }
    threads := k.threads.modify k.current fun old =>
      { old with pending := some (.signal k.semaphores.next l) }
    events := .awaits k.current c :: k.events }

theorem of_run_ranked {queue : List Waiter} (h : c.ranked.run k = .ok (queue, k')) :
    ∃ condition, k.conditions.get? c = some condition ∧
      queue = Ranked.sort k.worth condition.waiters ∧ k' = k := by
  simp only [ranked, run_ranks_bind, run_findCondition_bind_eq_ok_iff, run_lift_eq_ok_iff] at h
  obtain ⟨condition, found, sort, rfl⟩ := h
  exact ⟨condition, found,
    Ranked.eq_sort_of_sortWith (fun waiter : Waiter => priorityOf_of_rank waiter.thread) sort, rfl⟩

theorem of_run_enlist {s : SemaphoreId} (h : (c.enlist s).run k = .ok (u, k')) :
    ∃ condition waiters, k.conditions.get? c = some condition ∧
      waiters = Ranked.join k.worth ⟨s, k.current⟩ condition.waiters ∧
      k' = (k.mapCondition c fun old => { old with waiters }).withEvents
        (.awaits k.current c :: k.events) := by
  rw [enlist, run_caller_bind, run_ranks_bind] at h
  obtain ⟨queue, middle, ranks, ran⟩ := run_bind_eq_ok_iff.mp h
  obtain ⟨condition, found, rfl, rfl⟩ := of_run_ranked ranks
  simp only [run_lift_bind_eq_ok_iff, run_modifyCondition_bind_eq_ok_iff, run_note,
    Except.ok.injEq, Prod.mk.injEq] at ran
  obtain ⟨waiters, inserted, _, _, rfl⟩ := ran
  exact ⟨condition, waiters, found,
    Ranked.eq_insert_of_insertWith (fun waiter : Waiter => priorityOf_of_rank waiter.thread) inserted, rfl⟩

/-- The kernel in which `c` has sent a signal to `t` and `waiters` are left. -/
@[simps]
def called (c : ConditionId) (t : ThreadId) (waiters : List Waiter) (k : Kernel) : Kernel :=
  { k with
    conditions := k.conditions.modify c fun old => { old with waiters }
    events := .signals c t :: k.events }

theorem of_run_wakeFirst {woke : Bool} (h : c.wakeFirst.run k = .ok (woke, k')) :
    ∃ condition, k.conditions.get? c = some condition ∧
      (condition.waiters = [] ∧ woke = false ∧
          k' = k.mapCondition c (fun old => { old with waiters := [] }) ∨
        ∃ waiter rest, Ranked.sort k.worth condition.waiters = waiter :: rest ∧ woke = true ∧
          waiter.semaphore.wake.run (c.called waiter.thread rest k) = .ok ((), k')) := by
  rw [wakeFirst] at h
  obtain ⟨queue, middle, ranks, ran⟩ := run_bind_eq_ok_iff.mp h
  obtain ⟨condition, found, first, rfl⟩ := of_run_ranked ranks
  rw [run_modifyCondition_bind_eq_ok_iff] at ran
  refine ⟨condition, found, ?_⟩
  cases queue with
  | nil =>
    obtain ⟨_, ran⟩ := ran
    rw [run_pure_eq_ok_iff, Prod.mk.injEq] at ran
    have perm : ([] : List Waiter).Perm condition.waiters := by
      rw [first]
      exact Ranked.sort_perm _ _
    exact .inl ⟨List.nil_perm.mp perm, ran⟩
  | cons waiter rest =>
    obtain ⟨_, ran⟩ := ran
    rw [run_note_bind] at ran
    obtain ⟨_, woken, wakes, ran⟩ := run_bind_eq_ok_iff.mp ran
    rw [run_pure_eq_ok_iff, Prod.mk.injEq] at ran
    obtain ⟨rfl, rfl⟩ := ran
    exact .inr ⟨waiter, rest, first.symm, rfl, wakes⟩

end ConditionId

/-! ## The dispatcher -/

namespace Kernel

variable {k k' : Kernel} {t : ThreadId} {u : Unit}

/-- Dropping records one after the other. -/
theorem of_run_forM_reclaim {exited : List ThreadId}
    (h : (exited.forM fun t => do
      let k ← get
      match k.threads.get? t with
      | some thread =>
        set { k with threads := k.threads.erase t }
        note (.reclaimed t thread.name)
      | none => pure () : KernelM PUnit).run k = .ok (u, k')) :
    ∃ threads events, Remarks k.events events ∧ threads.next = k.threads.next ∧
      (∀ t, threads.get? t = if t ∈ exited then none else k.threads.get? t) ∧
      k' = { k with threads, events } := by
  induction exited generalizing k with
  | nil =>
    rw [run_forM_nil_eq_ok_iff, Prod.mk.injEq] at h
    refine ⟨k.threads, k.events, .refl _, rfl, fun t => ?_, h.2⟩
    rw [if_neg List.not_mem_nil]
  | cons t rest ih =>
    obtain ⟨middle, ran, h⟩ := run_forM_cons_eq_ok_iff.mp h
    obtain ⟨threads, events, grown, next, gone, rfl⟩ := ih h
    rw [run_get_bind] at ran
    cases found : k.threads.get? t with
    | none =>
      rw [found] at ran
      cases ran
      refine ⟨threads, events, grown, next, fun t' => ?_, rfl⟩
      rw [gone]
      by_cases same : t' = t
      · rw [same, if_pos List.mem_cons_self, found, ite_self]
      · simp only [List.mem_cons, same, false_or]
    | some thread =>
      rw [found] at ran
      simp only [run_set_bind, run_note, Except.ok.injEq, Prod.mk.injEq] at ran
      obtain ⟨_, rfl⟩ := ran
      refine ⟨threads, events, (Remarks.cons _ _ rfl).trans grown, ?_, fun t' => ?_, rfl⟩
      · rw [next, withEvents_threads, Arena.next_erase]
      · rw [gone, withEvents_threads, Arena.get?_erase]
        by_cases same : t' = t
        · rw [same, if_pos List.mem_cons_self, if_pos rfl, ite_self]
        · rw [if_neg (Ne.symm same)]
          simp only [List.mem_cons, same, false_or]

theorem of_run_reclaim (h : reclaim.run k = .ok (u, k')) :
    ∃ threads events, Remarks k.events events ∧ threads.next = k.threads.next ∧
      (∀ t, threads.get? t = if t ∈ k.dying then none else k.threads.get? t) ∧
      k' = { k with dying := [], threads, events } := by
  rw [reclaim, run_get_bind, run_set_bind] at h
  exact of_run_forM_reclaim h

/-- A record that is left when some were dropped was there before. -/
theorem get?_of_gone {threads : ThreadTable} {dying : List ThreadId} {thread : Thread}
    (gone : ∀ t, threads.get? t = if t ∈ dying then none else k.threads.get? t)
    (found : threads.get? t = some thread) : k.threads.get? t = some thread := by
  rw [gone] at found
  split at found
  · cases found
  · exact found

/-- Where the next thread comes from: the front of the ready queue, or nowhere if
it is the idle thread that runs for want of another. -/
inductive Picks (k : Kernel) (next : ThreadId) (thread : Thread) : Place → ReadyQueue → Prop
  | front {ready : ReadyQueue} (pop : k.ready.pop? = some (next, ready)) :
      Picks k next thread .detached ready
  | fallback (empty : k.ready.pop? = none) (idles : k.idle = some next) :
      Picks k next thread thread.place k.ready

/-- As long as the idle thread is not queued when it is fallen back on, neither is any other that
is picked. -/
theorem Picks.detached {next : ThreadId} {thread : Thread} {place : Place} {ready : ReadyQueue}
    (picks : k.Picks next thread place ready)
    (fallback : k.ready.pop? = none → k.idle = some next → thread.place = .detached) :
    place = .detached := by
  cases picks with
  | front pop => rfl
  | fallback empty idles => exact fallback empty idles

theorem of_run_pickNext {next : ThreadId} (h : pickNext.run k = .ok (next, k'))
    {thread' : Thread} (found' : k'.threads.get? next = some thread') :
    ∃ thread place ready, k.threads.get? next = some thread ∧ k.Picks next thread place ready ∧
      k' = (k.mapThread next fun old => { old with place }).withReady ready := by
  rw [pickNext, run_get_bind] at h
  split at h
  · next popped pop =>
    rw [run_set_bind] at h
    simp only [run_modifyThread_bind_eq_ok_iff, run_pure_eq_ok_iff, Prod.mk.injEq] at h
    obtain ⟨⟨thread, found⟩, rfl, rfl⟩ := h
    exact ⟨thread, .detached, _, found, .front pop, rfl⟩
  · next empty idles =>
    rw [run_pure_eq_ok_iff, Prod.mk.injEq] at h
    obtain ⟨rfl, rfl⟩ := h
    refine ⟨thread', thread'.place, k'.ready, found', .fallback empty idles, ?_⟩
    rw [mapThread_eq_self found' rfl]
    rfl
  · cases h

/-- Finish a suspended operation. -/
def finish : Option Pending → KernelM Bool
  | none => pure true
  | some (.unit s) => s.attempt (.unit s)
  | some (.lock l) => l.attempt
  | some (.signal s l) => l.reacquire s

theorem of_run_resume {running : Bool} (h : resume.run k = .ok (running, k')) :
    ∃ thread, k.threads.get? k.current = some thread ∧
      (finish thread.pending).run (k.mapThread k.current fun old => { old with pending := none }) =
        .ok (running, k') := by
  rw [resume, run_caller_bind] at h
  simp only [run_findThread_bind_eq_ok_iff, run_modifyThread_bind_eq_ok_iff] at h
  obtain ⟨thread, found, _, h⟩ := h
  refine ⟨thread, found, ?_⟩
  rcases pending : thread.pending with _ | s | l | ⟨s, l⟩ <;> rw [pending] at h <;> exact h

/-- The kernel in which `next` has the processor and its pending work was taken
up, but nothing yet done about it. -/
@[simps]
def dispatched (k : Kernel) (next : ThreadId) (place : Place) (ready : ReadyQueue)
    (processor : Processor) (dying : List ThreadId) (events : List Event) : Kernel :=
  { k with
    threads := k.threads.modify next fun old =>
      { old with state := .running, place, pending := none }
    ready, processor, dying, events, slice := 0, current := next }

theorem dispatched_eq (k : Kernel) (next : ThreadId) (place : Place) (ready : ReadyQueue)
    (processor : Processor) (dying : List ThreadId) (events : List Event) :
    k.dispatched next place ready processor dying events =
      { k.mapThread next fun old => { old with state := .running, place, pending := none } with
        ready, processor, dying, events, slice := 0, current := next } := rfl

theorem priorityOf_dispatched {next : ThreadId} {place : Place} {ready : ReadyQueue}
    {processor : Processor} {dying : List ThreadId} {events : List Event} :
    (k.dispatched next place ready processor dying events).priorityOf t = k.priorityOf t :=
  priorityOf_of_agree (Arena.agree_modify fun _ => by rfl) t

/-- The threads to be reclaimed once `previous` has given up the processor to `next`: one more if
it has exited and is not the initial thread. -/
inductive Departs (dying : List ThreadId) (previous next : ThreadId) (thread : Thread) :
    List ThreadId → Prop
  | stays (spared : next ≠ previous → thread.state = .dying → previous = .main) :
      Departs dying previous next thread dying
  | exits (other : next ≠ previous) (exited : thread.state = .dying) (mortal : previous ≠ .main) :
      Departs dying previous next thread (dying ++ [previous])

theorem of_run_switchTo {previous next : ThreadId} (other : previous ≠ next)
    (h : (switchTo previous next).run k = .ok (u, k')) :
    ∃ thread dying, k.threads.get? previous = some thread ∧
      Departs k.dying previous next thread dying ∧
      k' = { k with
        current := next, processor := k.processor.switched, dying,
        events := .switched previous next :: k.events } := by
  rw [switchTo] at h
  simp only [run_findThread_bind_eq_ok_iff] at h
  obtain ⟨thread, found, h⟩ := h
  refine ⟨thread, ?_⟩
  split at h
  · next exited =>
    simp only [run_modify_bind, run_note, Except.ok.injEq, Prod.mk.injEq] at h
    exact ⟨_, found, .exits (Ne.symm other) exited.1 exited.2, h.2.symm⟩
  · next alive =>
    simp only [run_modify_bind, run_note, Except.ok.injEq, Prod.mk.injEq] at h
    exact ⟨_, found, .stays fun _ exited => Decidable.not_not.mp fun mortal =>
      alive ⟨exited, mortal⟩, h.2.symm⟩

/-- What the journal says of the processor on its way from `previous` to `next`. -/
inductive HandedOn (previous next : ThreadId) (earlier : List Event) : List Event → Prop
  | kept {later : List Event} (same : next = previous) (remarks : Remarks earlier later) :
      HandedOn previous next earlier later
  | switched {told : List Event} (remarks : Remarks earlier told) :
      HandedOn previous next earlier (.switched previous next :: told)

theorem HandedOn.suffix {previous next : ThreadId} {earlier later : List Event}
    (handed : HandedOn previous next earlier later) : earlier <:+ later := by
  cases handed with
  | kept _ remarks => exact remarks.suffix
  | switched remarks => exact remarks.suffix.trans (List.suffix_cons _ _)

theorem of_run_dispatchOnce {running : Bool} (h : dispatchOnce.run k = .ok (running, k')) :
    ∃ previous next thread place ready processor dying events,
      k.threads.get? k.current = some previous ∧ previous.state ≠ .running ∧
      k.threads.get? next = some thread ∧ k.Picks next thread place ready ∧
      Departs k.dying k.current next previous dying ∧ HandedOn k.current next k.events events ∧
      (finish thread.pending).run
        (k.dispatched next place ready processor dying events) = .ok (running, k') := by
  simp only [dispatchOnce, run_caller_bind, run_findThread_bind_eq_ok_iff,
    run_require_bind_eq_ok_iff] at h
  obtain ⟨previous, found, halted, h⟩ := h
  obtain ⟨next, picked, pick, h⟩ := run_bind_eq_ok_iff.mp h
  rw [run_modifyThread_bind_eq_ok_iff] at h
  obtain ⟨⟨thread', found'⟩, h⟩ := h
  obtain ⟨thread, place, ready, foundNext, picks, rfl⟩ := of_run_pickNext pick found'
  rw [run_modify_bind] at h
  obtain ⟨_, told, ran, h⟩ := run_bind_eq_ok_iff.mp h
  obtain ⟨events, grown, announced⟩ := run_announce (k := _) (.activating · next) fun _ => rfl
  rw [announced, Except.ok.injEq, Prod.mk.injEq] at ran
  obtain ⟨_, rfl⟩ := ran
  have fused : ((k.mapThread next fun old => { old with place }).mapThread next fun old =>
      { old with state := .running }).mapThread next (fun old => { old with pending := none }) =
      k.mapThread next fun old => { old with state := .running, place, pending := none } := by
    rw [mapThread_mapThread, mapThread_mapThread]
  have foundThere := Arena.get?_modify_self (fun old => { old with state := .running })
    (Arena.get?_modify_self (fun old => { old with place }) foundNext)
  split at h
  · next other =>
    obtain ⟨_, switched, ran, h⟩ := run_bind_eq_ok_iff.mp h
    obtain ⟨last, dying, foundLast, departs, rfl⟩ := of_run_switchTo other ran
    obtain ⟨record, foundRecord, h⟩ := of_run_resume h
    cases foundThere.symm.trans foundRecord
    have unchanged : k.threads.get? k.current = some last := by
      rwa [withEvents_threads, mapThread_threads, Arena.get?_modify_of_ne _ (Ne.symm other),
        withReady_threads, mapThread_threads, Arena.get?_modify_of_ne _ (Ne.symm other)]
        at foundLast
    cases found.symm.trans unchanged
    refine ⟨previous, next, thread, place, ready, k.processor.switched, dying, _, found, halted,
      foundNext, picks, departs, .switched grown, ?_⟩
    rw [dispatched_eq, ← fused]
    exact h
  · next same =>
    obtain ⟨record, foundRecord, h⟩ := of_run_resume h
    have same : k.current = next := Decidable.not_not.mp same
    subst same
    cases foundThere.symm.trans foundRecord
    refine ⟨previous, k.current, thread, place, ready, k.processor, k.dying, events, found, halted,
      foundNext, picks, .stays (absurd rfl), .kept rfl grown, ?_⟩
    rw [dispatched_eq, ← fused]
    exact h

end Kernel

end ThreadKernel
