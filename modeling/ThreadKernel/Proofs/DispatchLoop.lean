import Mathlib.Data.List.Perm.Subperm
import ThreadKernel.Proofs.Endings

/-!
# The dispatcher's loop ends

The dispatcher picks threads until one of them stays running.  `Kernel.Dispatches` is that loop, with
no bound on the picks.  A pick in vain takes a thread off the ready queue and leaves it waiting for a
semaphore, and nobody is readied in the meantime.  So the queue's length bounds the picks, provided
that the idle thread has nothing to finish (`Kernel.Undue`): it alone is picked without being
queued.  Nothing else is asked of the kernel.
-/

namespace ThreadKernel

open Kernel

variable {k k' : Kernel} {t : ThreadId} {thread : Thread} {s : SemaphoreId} {l : LockId}
  {due : Option Pending} {idle : Option ThreadId} {count : Nat} {result : Except Fault (Unit × Kernel)}

/-! ## Finishing a suspended operation -/

/-- No thread has been moved, nor given anything to do. -/
structure Kernel.Unmoved (k k' : Kernel) : Prop where
  threads : Arena.Agree (fun x : Thread => (x.position, x.pending)) k'.threads k.threads
  ready : k'.ready.threads.Perm k.ready.threads
  current : k'.current = k.current
  idle : k'.idle = k.idle

theorem Kernel.Retouched.unmoved (same : k.Retouched k') : k.Unmoved k' :=
  ⟨same.threads, same.ready, same.current, same.idle⟩

theorem Kernel.Unmoved.exists_get? (same : k.Unmoved k') (found : k.threads.get? t = some thread) :
    ∃ thread', k'.threads.get? t = some thread' ∧ thread'.place = thread.place := by
  rcases same.threads.symm.exists_get? found with ⟨thread', found', eq⟩
  rcases Prod.mk.inj eq with ⟨position, _⟩
  exact ⟨thread', found', (Prod.mk.inj position).2⟩

theorem unmoved_of_run_attemptLock (found : k.threads.get? k.current = some thread)
    (unqueued : thread.place ≠ .ready) (h : l.attempt.run k = .ok (true, k')) : k.Unmoved k' := by
  rcases LockId.of_run_attempt_true h with ⟨lock, asking, semaphore, _, asks, _, _, holds⟩
  have same := asks.retouched
  rcases same.unmoved.exists_get? found with ⟨thread', found', place⟩
  rw [← same.current] at found'
  have held := LockId.retouched_of_run_hold (k := lock.semaphore.taken asking) found'
    (place ▸ unqueued) holds
  exact ⟨held.threads.trans same.threads, held.ready.trans same.ready,
    held.current.trans same.current, held.idle.trans same.idle⟩

/-- Whoever finishes stays where it is. -/
theorem unmoved_of_run_finish (found : k.threads.get? k.current = some thread)
    (unqueued : thread.place ≠ .ready) (h : (finish due).run k = .ok (true, k')) :
    k.Unmoved k' := by
  match due with
  | none =>
    cases h
    exact ⟨.refl _ _, .refl _, rfl, rfl⟩
  | some (.unit s) =>
    rcases SemaphoreId.of_run_attempt_true h with ⟨_, _, _, rfl⟩
    exact ⟨.refl _ _, .refl _, rfl, rfl⟩
  | some (.lock l) => exact unmoved_of_run_attemptLock found unqueued h
  | some (.signal s l) =>
    rcases run_bind_eq_ok_iff.mp h with ⟨success, tried, tries, h⟩
    rcases SemaphoreId.of_run_attempt tries with ⟨_, _, ⟨rfl, _, rfl⟩ | ⟨rfl, _⟩⟩
    · rcases run_bind_eq_ok_iff.mp h with ⟨_, destroyed, destroys, h⟩
      rcases SemaphoreId.of_run_destroy destroys with ⟨_, _, _, rfl⟩
      have same := unmoved_of_run_attemptLock (k := s.destroyed (s.taken k)) found unqueued h
      exact ⟨same.threads, same.ready, same.current, same.idle⟩
    · cases h

/-- After an attempt that failed, the current thread has been queued on a semaphore, and nothing else
has been moved. -/
def Kernel.Queues (k k' : Kernel) : Prop :=
  ∃ (asking : Kernel) (s : SemaphoreId) (retry : Pending), k.Unmoved asking ∧
    (s.attempt retry).run asking = .ok (false, k')

theorem queues_of_run_attempt {retry : Pending} (h : (s.attempt retry).run k = .ok (false, k')) :
    k.Queues k' :=
  ⟨k, s, retry, ⟨.refl _ _, .refl _, rfl, rfl⟩, h⟩

theorem queues_of_run_attemptLock (h : l.attempt.run k = .ok (false, k')) : k.Queues k' := by
  rcases LockId.of_run_attempt_false h with ⟨lock, asking, _, asks, tries⟩
  exact ⟨asking, _, _, asks.retouched.unmoved, tries⟩

theorem queues_of_run_finish (h : (finish due).run k = .ok (false, k')) : k.Queues k' := by
  match due with
  | none => cases h
  | some (.unit s) => exact queues_of_run_attempt h
  | some (.lock l) => exact queues_of_run_attemptLock h
  | some (.signal s l) =>
    rcases run_bind_eq_ok_iff.mp h with ⟨success, tried, tries, h⟩
    cases success with
    | false =>
      cases h
      exact queues_of_run_attempt tries
    | true =>
      rcases run_bind_eq_ok_iff.mp h with ⟨_, destroyed, destroys, h⟩
      rcases SemaphoreId.of_run_attempt_true tries with ⟨_, _, _, rfl⟩
      rcases SemaphoreId.of_run_destroy destroys with ⟨_, _, _, rfl⟩
      rcases queues_of_run_attemptLock h with ⟨asking, s', retry, same, tries⟩
      exact ⟨asking, s', retry, ⟨same.threads, same.ready, same.current, same.idle⟩, tries⟩

/-! ## One pick -/

/-- A pick in vain takes the front thread off the ready queue, leaves it blocked on the wait list of
a semaphore, and readies nobody. -/
structure Kernel.PicksInVain (k k' : Kernel) : Prop where
  picked : ∃ ready, k.ready.pop? = some (k'.current, ready) ∧ k'.ready.threads.Perm ready.threads
  blocked : ∃ thread s semaphore, k'.threads.get? k'.current = some thread ∧
    thread.state = .blocked ∧ thread.place = .semaphore s ∧
    k'.semaphores.get? s = some semaphore ∧ k'.current ∈ semaphore.waiters

theorem Kernel.PicksInVain.size (vain : k.PicksInVain k') : k'.ready.size < k.ready.size := by
  rcases vain.picked with ⟨ready, pop, perm⟩
  have before := congrArg List.length (ReadyQueue.threads_of_pop? pop)
  have after := perm.length_eq
  rw [ReadyQueue.threads, List.length_map, List.length_cons] at before
  rw [ReadyQueue.threads, List.length_map] at after
  rw [ReadyQueue.size, ReadyQueue.size]
  omega

theorem tame_pickNext (k : Kernel) : Tame pickNext k := by
  apply EndsIn.get
  split
  · apply Tame.bind (tame_set (by rfl) (by rfl))
    intro _ k'
    apply (tame_modifyThread _ _ k' fun _ => by exact id).bind
    exact fun _ _ => tame_pure _
  · exact tame_pure _
  · exact endsIn_throw (by simp)

theorem ends_switchTo {previous next : ThreadId} (undue : k.Undue idle) :
    EndsIn (Undue idle) (switchTo previous next) k := by
  have hands : ∀ k : Kernel, k.Undue idle → EndsIn (Undue idle) (do
      modify fun k => { k with current := next, processor := k.processor.switched }
      note (.switched previous next)) k := by
    intro k undue
    apply EndsIn.bind_of_run rfl
    exact (tame_note _ _).undue ⟨undue.appointed, undue.free⟩
  unfold switchTo
  apply undue.after (tame_findThread previous k)
  intro thread k' undue
  apply EndsIn.ite
  · apply undue.after (tame_modify (by rfl) (by rfl))
    exact fun _ k' undue => hands k' undue
  · exact hands k' undue

theorem ends_resume (undue : k.Undue idle) : EndsIn (Undue idle) resume k := by
  apply EndsIn.caller
  apply EndsIn.findThread
  intro thread found
  have begins : Tame (modifyThread k.current fun old => { old with pending := none }) k :=
    tame_modifyThread _ _ k fun _ _ => rfl
  cases due : thread.pending with
  | none => exact undue.after begins fun _ _ undue => endsIn_pure undue true
  | some work =>
    -- The idle thread has nothing to finish, so whoever has is another one.
    have other : idle ≠ some k.current := by
      intro idles
      cases due.symm.trans (undue.pending_eq_none (undue.appointed.trans idles) found)
    have busy : k.Busy idle k.current := ⟨undue, rfl, other⟩
    apply busy.after begins
    intro _ k' busy
    cases work with
    | unit s => exact (SemaphoreId.ends_attempt busy).imp fun _ busy => busy.undue
    | lock l => exact (LockId.ends_attempt busy).imp fun _ busy => busy.undue
    | signal s l => exact (LockId.ends_reacquire busy).imp fun _ busy => busy.undue

theorem ends_dispatchOnce (undue : k.Undue idle) : EndsIn (Undue idle) dispatchOnce k := by
  unfold dispatchOnce
  apply undue.after (tame_caller k)
  intro previous k' undue
  apply undue.after (tame_findThread previous k')
  intro thread k' undue
  apply undue.after (tame_require (by simp))
  intro _ k' undue
  apply undue.after (tame_pickNext k')
  intro next k' undue
  apply undue.after (tame_modifyThread next _ k' fun _ => by exact id)
  intro _ k' undue
  apply undue.after (tame_modify (by rfl) (by rfl))
  intro _ k' undue
  apply undue.after (tame_announce _ k')
  intro _ k' undue
  dsimp only
  apply EndsIn.ite
  · exact EndsIn.bind (ends_switchTo undue) fun _ _ _ undue => ends_resume undue
  · exact ends_resume undue

/-- A pick that ends well adds nobody to the ready queue. -/
theorem ready_of_run_dispatchOnce (undue : k.Undue idle) (h : dispatchOnce.run k = .ok (true, k')) :
    k'.ready.threads.Subperm k.ready.threads := by
  rcases of_run_dispatchOnce h with ⟨previous, next, thread, place, ready, processor, dying, events,
    _, _, found, picks, _, _, ends⟩
  cases picks with
  | front pop =>
    have picked := Arena.get?_modify_self (fun old : Thread =>
      { old with state := .running, place := .detached, pending := none }) found
    have same := unmoved_of_run_finish
      (k := k.dispatched next .detached ready processor dying events) picked (by simp) ends
    rw [ReadyQueue.threads_of_pop? pop]
    exact same.ready.subperm.trans (List.sublist_cons_self _ _).subperm
  | fallback empty idles =>
    rw [undue.pending_eq_none idles found] at ends
    cases ends
    exact List.Subperm.refl _

theorem vain_of_run_dispatchOnce (undue : k.Undue idle) (h : dispatchOnce.run k = .ok (false, k')) :
    k.PicksInVain k' := by
  rcases of_run_dispatchOnce h with ⟨previous, next, thread, place, ready, processor, dying, events,
    _, _, found, picks, _, _, ends⟩
  -- The idle thread has nothing to finish, so it is not the one that was picked.
  have other : k.idle ≠ some next := by
    intro idles
    rw [undue.pending_eq_none idles found] at ends
    cases ends
  cases picks with
  | front pop =>
    rcases queues_of_run_finish ends with ⟨asking, s, retry, same, tries⟩
    have current : asking.current = next := same.current
    have picked := Arena.get?_modify_self (fun old : Thread =>
      { old with state := .running, place := .detached, pending := none }) found
    rcases same.exists_get? picked with ⟨thread', found', _⟩
    rw [← current] at found'
    rcases SemaphoreId.of_run_attempt_false tries with
      ⟨semaphore, waiters, foundSemaphore, _, joins, rfl⟩
    refine ⟨⟨ready, ?_, same.ready⟩, ?_⟩
    · rw [SemaphoreId.queued_current, current, pop]
    · refine ⟨_, s, { semaphore with waiters }, Arena.get?_modify_self _ found', rfl, rfl,
        Arena.get?_modify_self _ foundSemaphore, ?_⟩
      rw [joins]
      exact (Ranked.join_perm _ _ _).mem_iff.mpr (.head _)
  | fallback empty idles => exact absurd idles other

/-! ## The loop -/

/-- The dispatcher's loop from `k` ends with `result` after so many picks.  All but the last are in
vain, and none of them adds anybody to the ready queue. -/
inductive Kernel.Dispatches : Kernel → Nat → Except Fault (Unit × Kernel) → Prop
  | stays {k k' : Kernel} (ran : dispatchOnce.run k = .ok (true, k'))
      (ready : k'.ready.threads.Subperm k.ready.threads) : Dispatches k 1 (.ok ((), k'))
  | faults {k : Kernel} {fault : Fault} (ran : dispatchOnce.run k = .error fault) :
      Dispatches k 1 (.error fault)
  | again {k k' : Kernel} {count : Nat} {result : Except Fault (Unit × Kernel)}
      (ran : dispatchOnce.run k = .ok (false, k')) (vain : k.PicksInVain k')
      (rest : Dispatches k' count result) : Dispatches k (count + 1) result

/-- As many picks as the loop takes are enough, and it makes no difference if there are more. -/
theorem Kernel.Dispatches.run (loop : k.Dispatches count result) {picks : Nat}
    (enough : count ≤ picks) : (dispatch picks).run k = result := by
  induction loop generalizing picks with
  | stays ran _ =>
    cases picks with
    | zero => omega
    | succ picks => exact run_bind_of_ok ran
  | faults ran =>
    cases picks with
    | zero => omega
    | succ picks => exact run_bind_of_error ran
  | again ran _ _ ih =>
    cases picks with
    | zero => omega
    | succ picks => exact (run_bind_of_ok ran).trans (ih (Nat.le_of_succ_le_succ enough))

/-- Each pick in vain shortens the ready queue. -/
theorem Kernel.Undue.dispatches (undue : k.Undue idle) :
    ∃ count result, k.Dispatches count result ∧ count ≤ k.ready.size + 1 := by
  induction size : k.ready.size using Nat.strongRecOn generalizing k with
  | ind size ih =>
    cases once : dispatchOnce.run k with
    | error fault => exact ⟨1, _, .faults once, by omega⟩
    | ok step =>
      rcases step with ⟨running, k'⟩
      cases running with
      | true => exact ⟨1, _, .stays once (ready_of_run_dispatchOnce undue once), by omega⟩
      | false =>
        have vain := vain_of_run_dispatchOnce undue once
        have shorter := vain.size
        rcases ih k'.ready.size (by omega) ((ends_dispatchOnce undue).ok _ _ once) rfl with
          ⟨count, result, loop, bound⟩
        exact ⟨count + 1, result, .again once vain loop, by omega⟩

/-- If the idle thread has nothing to finish at first, then it does not at any pick. -/
theorem Kernel.Dispatches.undue (loop : k.Dispatches count result) (undue : k.Undue idle) :
    result ≠ .error .idleWaits ∧ ∀ u k', result = .ok (u, k') → k'.Undue idle := by
  induction loop with
  | stays ran _ =>
    refine ⟨nofun, fun u last ends => ?_⟩
    cases ends
    exact (ends_dispatchOnce undue).ok _ _ ran
  | faults ran =>
    refine ⟨fun waits => ?_, nofun⟩
    cases waits
    exact (ends_dispatchOnce undue).fault _ ran rfl
  | again ran _ _ ih => exact ih ((ends_dispatchOnce undue).ok _ _ ran)

/-- As many picks as there are ready threads, and one more, are enough. -/
theorem ends_dispatch (undue : k.Undue idle) :
    EndsIn (Undue idle) (dispatch (k.ready.size + 1)) k := by
  rcases undue.dispatches with ⟨count, result, loop, bound⟩
  rcases loop.undue undue with ⟨ends, leaves⟩
  have run := loop.run bound
  constructor
  case fault =>
    rintro fault fails rfl
    exact ends (run.symm.trans fails)
  case ok => exact fun u k' ran => leaves u k' (run.symm.trans ran)

end ThreadKernel
