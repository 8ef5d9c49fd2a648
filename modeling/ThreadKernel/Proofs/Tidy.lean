import ThreadKernel.Proofs.Sound

/-!
# Nothing is left behind

The unit of a lock is in a semaphore that was made for it, so that no semaphore
made later can be taken for it; and a thread that has exited has no work left.
-/

namespace ThreadKernel

open Kernel

/-- What was made stays made, and who has gone has finished. -/
structure Kernel.Tidy (k : Kernel) : Prop where
  issued : ∀ l lock, k.locks.get? l = some lock → lock.semaphore.index < k.semaphores.next.index
  finished : ∀ t thread, k.threads.get? t = some thread → thread.state = .dying →
    thread.pending = none

namespace Kernel.Tidy

variable {d : Discipline} {m m' : Machine} {k k' : Kernel} {t : ThreadId} {thread : Thread}
  {s : SemaphoreId} {l : LockId}

theorem step (tidy : k.Tidy) (locks : Arena.Agree (fun lock : Lock => lock.semaphore) k'.locks k.locks)
    (later : k.semaphores.next.index ≤ k'.semaphores.next.index)
    (gone : ∀ t thread', k'.threads.get? t = some thread' → thread'.state = .dying →
      ∃ thread, k.threads.get? t = some thread ∧ thread.state = .dying ∧
        (thread.pending = none → thread'.pending = none)) : k'.Tidy := by
  constructor
  · intro l lock' found'
    obtain ⟨lock, found, same⟩ := locks.exists_get? found'
    rw [← same]
    exact Nat.lt_of_lt_of_le (tidy.issued l lock found) later
  · intro t thread' found' dying'
    obtain ⟨thread, found, dying, finished⟩ := gone t thread' found' dying'
    exact finished (tidy.finished t thread found dying)

/-- One record is changed. -/
theorem modify {f : Thread → Thread} (tidy : k.Tidy) (threads : k'.threads = k.threads.modify t f)
    (finished : ∀ x, k.threads.get? t = some x → (f x).state = .dying → (f x).pending = none)
    (locks : k'.locks = k.locks)
    (semaphores : k'.semaphores.next = k.semaphores.next) : k'.Tidy := by
  constructor
  · rw [locks, semaphores]
    exact tidy.issued
  · intro t' thread' found' dying
    rw [threads, Arena.get?_modify] at found'
    split at found'
    · next here =>
      subst here
      obtain ⟨thread, found, rfl⟩ := Option.map_eq_some_iff.mp found'
      exact finished thread found dying
    · exact tidy.finished t' thread' found' dying

theorem retouched (tidy : k.Tidy) (same : k.Retouched k') : k'.Tidy := by
  refine tidy.step same.locks (Nat.le_of_eq (by rw [same.semaphores])) fun t thread' found' dying => ?_
  obtain ⟨thread, found, eq⟩ := same.threads.exists_get? found'
  obtain ⟨position, pending⟩ := Prod.mk.inj eq
  exact ⟨thread, found, (Prod.mk.inj position).1.trans dying, fun none => pending ▸ none⟩

theorem of_semaphores (tidy : k.Tidy) (later : k.semaphores.next.index ≤ k'.semaphores.next.index)
    (threads : k'.threads = k.threads)
    (locks : k'.locks = k.locks) : k'.Tidy :=
  tidy.step (by rw [locks]; exact .refl _ _) later fun t thread' found' dying =>
    ⟨thread', threads ▸ found', dying, id⟩

theorem readied (tidy : k.Tidy) (p : Priority) : (k.readied t p).Tidy :=
  tidy.modify (t := t) rfl (fun _ _ => nofun) rfl rfl

theorem wake (tidy : k.Tidy) (h : s.wake.run k = .ok ((), k')) : k'.Tidy := by
  obtain ⟨_, _, ⟨_, rfl⟩ | ⟨t, rest, _, woken⟩⟩ := SemaphoreId.of_run_wake h
  · exact tidy.of_semaphores (Nat.le_of_eq (by rw [SemaphoreId.given_semaphores, Arena.next_modify])) rfl rfl
  · obtain ⟨_, _, _, _, _, rfl⟩ := of_run_unblock woken
    have roused : (s.roused t rest k).Tidy :=
      tidy.modify (t := t) rfl (tidy.finished t) rfl (Arena.next_modify _ _ _)
    exact roused.readied _

theorem taken (tidy : k.Tidy) : (s.taken k).Tidy :=
  tidy.of_semaphores (Nat.le_of_eq (by rw [SemaphoreId.taken_semaphores, Arena.next_modify])) rfl rfl

theorem attempt (tidy : k.Tidy) {retry : Pending} {success : Bool}
    (h : (s.attempt retry).run k = .ok (success, k')) : k'.Tidy := by
  obtain ⟨_, _, ⟨_, _, rfl⟩ | ⟨_, _, _, _, rfl⟩⟩ := SemaphoreId.of_run_attempt h
  · exact tidy.taken
  · exact tidy.modify (t := k.current) rfl (fun _ _ => nofun) rfl (Arena.next_modify _ _ _)

theorem destroy (tidy : k.Tidy) (h : s.destroy.run k = .ok ((), k')) : k'.Tidy := by
  obtain ⟨_, _, _, rfl⟩ := SemaphoreId.of_run_destroy h
  exact tidy.of_semaphores
    (Nat.le_of_eq (by rw [SemaphoreId.destroyed_semaphores, Arena.next_erase])) rfl rfl

theorem hold (tidy : k.Tidy) (placed : k.Placed) (runs : k.Runs)
    (h : l.hold.run (s.taken k) = .ok ((), k')) : k'.Tidy :=
  tidy.taken.retouched (LockId.retouched_of_run_hold_taken placed runs.running h)

theorem create (tidy : k.Tidy) (value : Nat) (purpose : Purpose) :
    Tidy { k with semaphores := k.semaphores.push { value, purpose } } :=
  tidy.of_semaphores (by rw [Arena.next_push]; exact Nat.le_succ _) rfl rfl

theorem createLock (tidy : k.Tidy) :
    Tidy { k with
      semaphores := k.semaphores.push { value := 1, purpose := .lock }
      locks := k.locks.push { semaphore := k.semaphores.next } } := by
  refine ⟨fun l lock found => ?_, tidy.finished⟩
  rw [Arena.next_push]
  obtain ⟨_, rfl⟩ | old := Arena.of_get?_push found
  · exact Nat.lt_succ_self _
  · exact Nat.lt_succ_of_lt (tidy.issued l lock old)

theorem eraseLock (tidy : k.Tidy) (l : LockId) : Tidy { k with locks := k.locks.erase l } := by
  refine ⟨fun l' lock found => tidy.issued l' lock ?_, tidy.finished⟩
  rw [Arena.get?_erase] at found
  split at found
  · cases found
  · exact found

theorem enroll (tidy : k.Tidy) (blocked : thread.state = .blocked) :
    Tidy { k with threads := k.threads.push thread } := by
  refine tidy.step (.refl _ _) (Nat.le_refl _) fun t thread found dying => ?_
  obtain ⟨_, rfl⟩ | old := Arena.of_get?_push found
  · cases blocked.symm.trans dying
  · exact ⟨thread, old, dying, id⟩

/-- Who exits has nothing left to do, for the idle thread does not exit. -/
theorem halt (tidy : k.Tidy) {state : RunState} (whole : k.Runs ∨ k.idle = some k.current)
    (halts : state = .blocked ∨ state = .dying ∧ k.idle ≠ some k.current) :
    (k.mapThread k.current fun old => { old with state }).Tidy := by
  refine tidy.modify rfl (fun x found dying => ?_) rfl rfl
  obtain rfl | ⟨_, busy⟩ := halts
  · cases dying
  · obtain ⟨record, foundRecord, _, nothing⟩ := whole.resolve_right busy
    cases foundRecord.symm.trans found
    exact nothing

theorem rise (tidy : k.Tidy) (sleepers : SleepQueue) (events : List Event) (p : Priority) :
    ((((k.mapThread t fun old => { old with place := .detached }).withSleepers
      sleepers).withEvents events).readied t p).Tidy := by
  have detached : Tidy (((k.mapThread t fun old => { old with place := .detached }).withSleepers
      sleepers).withEvents events) := tidy.modify rfl (tidy.finished t) rfl rfl
  exact detached.readied p

theorem joined (tidy : k.Tidy) {c : ConditionId} (runs : k.Runs) (waiters : List Waiter) :
    (c.joined l waiters k).Tidy := by
  refine (tidy.create 0 .signal).modify rfl (fun x found dying => ?_) rfl rfl
  obtain ⟨thread, foundCurrent, running, _⟩ := runs
  cases foundCurrent.symm.trans found
  cases running.symm.trans dying

theorem called (tidy : k.Tidy) {c : ConditionId} (t : ThreadId) (waiters : List Waiter) :
    (c.called t waiters k).Tidy :=
  tidy.of_semaphores (Nat.le_refl _) rfl rfl

theorem move {act : Option Act} (tidy : m.kernel.Tidy) (sound : Sound d m)
    (move : Move d act m m') : m'.kernel.Tidy := by
  cases move with
  | quiet same =>
    exact tidy.of_semaphores (Nat.le_of_eq (by rw [same.semaphores])) same.threads same.locks
  | tick | appoint => exact tidy.of_semaphores (Nat.le_refl _) rfl rfl
  | create => exact tidy.create _ _
  | enlist runs waits holds found perm => exact tidy.joined runs _
  | enroll blocked detached pending _ _ _ => exact tidy.enroll blocked
  | unblock spared ran =>
    obtain ⟨_, _, _, _, _, rfl⟩ := of_run_unblock ran
    exact tidy.readied _
  | ready found running other => exact tidy.readied _
  | halt running whole halts =>
    exact tidy.halt whole (halts.imp_right fun ⟨dying, busy, _⟩ => ⟨dying, busy⟩)
  | doze runs other told ahead => exact tidy.modify rfl (fun _ _ => nofun) rfl rfl
  | rise sleepers found perm due told => exact tidy.rise _ _ _
  | reclaim ran =>
    obtain ⟨threads, _, _, _, gone, rfl⟩ := of_run_reclaim ran
    exact tidy.step (.refl _ _) (Nat.le_refl _) fun t thread found dying =>
      ⟨thread, get?_of_gone gone found, dying, id⟩
  | pick foundPrevious halted found picks fallback left handed =>
    exact tidy.modify rfl (fun _ _ => nofun) rfl rfl
  | destroy plain unnamed ran => exact tidy.destroy ran
  | createLock => exact tidy.createLock
  | destroyLock found unheld unnamed ran => exact (tidy.eraseLock _).destroy ran
  | take runs plain ran =>
    obtain ⟨_, _, _, rfl⟩ := SemaphoreId.of_run_take_true ran
    exact tidy.taken
  | attempt runs plain onset ran => exact tidy.attempt ran
  | attemptLock runs onset ran =>
    exact sound.attemptLock_induction runs ran (fun same tidy => tidy.retouched same)
      (fun tries tidy => tidy.attempt tries) tidy
  | seize runs found takes ran =>
    obtain ⟨_, _, _, rfl⟩ := SemaphoreId.of_run_take_true takes
    exact tidy.hold sound.placed runs ran
  | release running found holds drops ran =>
    exact (tidy.retouched
      (LockId.retouched_of_run_dropDonors sound.placed running drops _)).wake ran
  | wake plain ran => exact tidy.wake ran
  | rebase running ran => exact tidy.retouched (retouched_of_run_rebase sound.placed running ran)
  | undertake found running pending => exact tidy.modify rfl (fun _ _ _ => rfl) rfl rfl
  | signal found perm ran => exact (tidy.called _ _).wake ran
  | signalled runs takes ran => exact (tidy.attempt takes).destroy ran
  | unsignalled runs ran => exact tidy.attempt ran

end Kernel.Tidy

end ThreadKernel
