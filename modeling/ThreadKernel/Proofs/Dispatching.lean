import ThreadKernel.Proofs.ConditionWaits
import ThreadKernel.Proofs.Progress

/-!
# The dispatcher finds a thread to run

The dispatcher finishes the suspended operations of the threads that it picks, whoever has
asked for the processor to be given up.  Given that these can be tried (`Kernel.Feasible`)
it finds a thread that stays running: trying one of them in vain takes nothing away that
another one needs (`Kernel.Vain`), each such try shortens the ready queue, and the idle thread has
nothing to try.
-/

namespace ThreadKernel

namespace Kernel

/-- `l` is there, and so is its holder if it has one. -/
def Usable (k : Kernel) (l : LockId) : Prop :=
  ∃ lock, k.locks.get? l = some lock ∧ ∀ h, lock.holder = some h → k.Present h

/-- What is left to be done can be tried. -/
structure Feasible (k : Kernel) (p : Pending) : Prop where
  semaphore : ∀ s, p.semaphore? = some s → ∃ semaphore, k.semaphores.get? s = some semaphore
  lock : ∀ l, p.lock? = some l → k.Usable l

/-- What a try in vain leaves as it was, a signal that was due apart. -/
structure Vain (due : Option Pending) (k k' : Kernel) : Prop where
  locks : k'.locks = k.locks
  present : ∀ t, k.Present t → k'.Present t
  live : ∀ s semaphore, k.semaphores.get? s = some semaphore →
    (∀ l, due ≠ some (.signal s l)) → ∃ semaphore', k'.semaphores.get? s = some semaphore'
  ready : k'.ready.threads.Perm k.ready.threads
  idle : k'.idle = k.idle
  dying : k'.dying = k.dying
  processor : k'.processor = k.processor
  inInterrupt : k'.inInterrupt = k.inInterrupt

end Kernel

open Kernel

variable {d : Discipline} {m : Machine} {k k' : Kernel} {t : ThreadId} {thread : Thread}
  {s : SemaphoreId} {semaphore : Semaphore} {l : LockId} {due : Option Pending} {p : Pending}

/-! ## Finishing a suspended operation -/

theorem Regular.grounded (regular : Regular d m) (named : d.plainHandles = true)
    (current : m.kernel.Present m.kernel.current) : m.kernel.Grounded where
  current := current
  donors t thread found d donor :=
    Arena.contains_iff.mp ((regular.graph named).contains_of_mem_donors found donor)
  waiters s semaphore found t waits := by
    rw [← queueAt_semaphore found] at waits
    rcases regular.placed.exists_of_mem waits with ⟨_, record, found, _⟩
    exact ⟨record, found⟩
  units l lock found := by
    rcases (regular.graph named).unit l lock found with ⟨semaphore, found, _⟩
    exact ⟨semaphore, found⟩

theorem Kernel.Runs.present (runs : k.Runs) : k.Present k.current := by
  rcases runs with ⟨thread, found, _⟩
  exact ⟨thread, found⟩

/-- Whoever is queued on the semaphore of a wait waits for that signal. -/
theorem signal_of_mem_waiters (regular : Regular d ⟨k, due⟩) (named : d.plainHandles = true)
    (found : k.semaphores.get? s = some semaphore) (purpose : semaphore.purpose = .signal)
    (listed : t ∈ semaphore.waiters) : ∃ l, k.pending? t = some (.signal s l) := by
  have aims := regular.attended.retries s semaphore found t listed
  rcases Option.bind_eq_some_iff.mp aims with ⟨p, pending, targets⟩
  cases p with
  | unit s' =>
    cases targets
    have made : k.MadeFor s .plain := (regular.plain named).pending t _ pending
    cases purpose.symm.trans (made.purpose semaphore found)
  | lock l' =>
    rcases Option.map_eq_some_iff.mp targets with ⟨lock, foundLock, rfl⟩
    rcases (regular.graph named).unit l' lock foundLock with ⟨unit, foundUnit, made, _⟩
    cases found.symm.trans foundUnit
    cases purpose.symm.trans made
  | signal s' l' =>
    cases targets
    exact ⟨l', pending⟩

/-- Nobody else waits on the semaphore of a wait that is under way. -/
theorem unawaited_of_signal (regular : Regular d ⟨k, some (.signal s l)⟩)
    (named : d.plainHandles = true) (waits : (⟨k, some (.signal s l)⟩ : Machine).ledger.Waits)
    (runs : k.Runs) (found : k.semaphores.get? s = some semaphore) : semaphore.waiters = [] := by
  have made : k.MadeFor s .signal := (regular.plain named).due _ rfl
  apply List.eq_nil_iff_forall_not_mem.mpr
  intro t listed
  rcases signal_of_mem_waiters regular named found (made.purpose semaphore found) listed with
    ⟨l', pending⟩
  have left : (⟨k, some (.signal s l)⟩ : Machine).work? t = some (.signal s l') := by
    rw [Machine.work?, pending, Option.some_or]
  have here := waits.sole t k.current s l' l left (runs.work? _)
  rw [here, runs.pending?] at pending
  cases pending

theorem LockId.succeeds_attempt_of_usable (grounded : k.Grounded) (usable : k.Usable l) :
    Succeeds l.attempt k := by
  rcases usable with ⟨lock, found, alive⟩
  exact LockId.succeeds_attempt grounded found alive

/-- What is due can be tried. -/
theorem succeeds_finish (regular : Regular d ⟨k, due⟩) (named : d.plainHandles = true)
    (waits : (⟨k, due⟩ : Machine).ledger.Waits) (runs : k.Runs)
    (feasible : ∀ p, due = some p → k.Feasible p) : Succeeds (finish due) k := by
  have grounded := regular.grounded named runs.present
  match due with
  | none => exact succeeds_pure true
  | some (.unit s) =>
    rcases (feasible _ rfl).semaphore s rfl with ⟨semaphore, found⟩
    exact SemaphoreId.succeeds_attempt found (grounded.waiters s semaphore found) grounded.current _
  | some (.lock l) => exact LockId.succeeds_attempt_of_usable grounded ((feasible _ rfl).lock l rfl)
  | some (.signal s l) =>
    rcases (feasible _ rfl).semaphore s rfl with ⟨semaphore, found⟩
    have unawaited := unawaited_of_signal regular named waits runs found
    apply Succeeds.bind
    · exact SemaphoreId.succeeds_attempt found (grounded.waiters s semaphore found)
        grounded.current _
    · intro success tried tries
      rcases SemaphoreId.of_run_attempt (id tries) with ⟨_, _, ⟨rfl, _, same⟩ | ⟨rfl, _⟩⟩
      · have foundTried : tried.semaphores.get? s =
            some { semaphore with value := semaphore.value - 1 } := by
          rw [same]
          exact Arena.get?_modify_self _ found
        apply Succeeds.bind (SemaphoreId.succeeds_destroy foundTried unawaited)
        intro _ destroyed destroys
        have signalled : Move d none ⟨k, some (.signal s l)⟩ ⟨destroyed, some (.lock l)⟩ :=
          .signalled runs tries destroys
        rcases SemaphoreId.of_run_destroy destroys with ⟨_, _, _, rfl⟩
        subst same
        apply LockId.succeeds_attempt_of_usable
        · exact (regular.move signalled).grounded named runs.present
        · exact (feasible _ rfl).lock l rfl
      · exact succeeds_pure false

/-! ## Trying in vain -/

theorem vain_of_run_attempt {retry : Pending} (h : (s.attempt retry).run k = .ok (false, k')) :
    k.Vain due k' := by
  rcases SemaphoreId.of_run_attempt_false h with ⟨semaphore, waiters, found, _, _, rfl⟩
  refine ⟨rfl, fun t present => ?_, fun s' semaphore' found' _ => ?_, .refl _, rfl, rfl, rfl, rfl⟩
  · exact present_mapThread.mpr present
  · rw [SemaphoreId.queued_semaphores, Arena.get?_modify, found']
    split
    · exact ⟨_, rfl⟩
    · exact ⟨_, rfl⟩

theorem vain_of_run_attemptLock (h : l.attempt.run k = .ok (false, k')) : k.Vain due k' := by
  rcases LockId.of_run_attempt_false h with ⟨lock, asking, _, asks, tries⟩
  have same := asks.retouched
  have vain : asking.Vain due k' := vain_of_run_attempt tries
  rcases asks.rest with ⟨locks, dying, processor, inInterrupt⟩
  refine ⟨vain.locks.trans locks, fun t present => ?_, fun s semaphore found other => ?_,
    vain.ready.trans same.ready, vain.idle.trans same.idle, vain.dying.trans dying,
    vain.processor.trans processor, vain.inInterrupt.trans inInterrupt⟩
  · exact vain.present t (present_of_agree same.threads present)
  · apply vain.live s semaphore _ other
    rw [same.semaphores, found]

theorem vain_of_run_finish (h : (finish due).run k = .ok (false, k')) : k.Vain due k' := by
  match due with
  | none => cases h
  | some (.unit s) => exact vain_of_run_attempt h
  | some (.lock l) => exact vain_of_run_attemptLock h
  | some (.signal s l) =>
    rcases run_bind_eq_ok_iff.mp h with ⟨success, tried, tries, h⟩
    cases success with
    | false =>
      cases h
      exact vain_of_run_attempt tries
    | true =>
      rcases run_bind_eq_ok_iff.mp h with ⟨_, destroyed, destroys, h⟩
      rcases SemaphoreId.of_run_attempt_true tries with ⟨_, _, _, rfl⟩
      rcases SemaphoreId.of_run_destroy destroys with ⟨_, _, _, rfl⟩
      have vain : (s.destroyed (s.taken k)).Vain (some (.signal s l)) k' :=
        vain_of_run_attemptLock h
      refine ⟨vain.locks, vain.present, fun s' semaphore found other => ?_, vain.ready,
        vain.idle, vain.dying, vain.processor, vain.inInterrupt⟩
      have apart : s ≠ s' := by
        rintro rfl
        exact other l rfl
      apply vain.live s' semaphore _ other
      rw [SemaphoreId.destroyed_semaphores, Arena.get?_erase, if_neg apart,
        SemaphoreId.taken_semaphores, Arena.get?_modify_of_ne _ apart, found]

/-- What one thread tries in vain takes nothing away that another one needs. -/
theorem Kernel.Vain.feasible (vain : k.Vain due k') (feasible : k.Feasible p)
    (other : ∀ s l, due = some (.signal s l) → p.semaphore? ≠ some s) : k'.Feasible p where
  semaphore s names := by
    rcases feasible.semaphore s names with ⟨semaphore, found⟩
    exact vain.live s semaphore found fun l is => other s l is names
  lock l wants := by
    rcases feasible.lock l wants with ⟨lock, found, alive⟩
    exact ⟨lock, vain.locks ▸ found, fun h holds => vain.present h (alive h holds)⟩

/-- No two threads have something left to do with the semaphore of one wait. -/
theorem ne_signal_of_work (regular : Regular d m) (named : d.plainHandles = true)
    (waits : m.ledger.Waits) {u : ThreadId} (left : m.work? t = some p)
    (due : m.work? u = some (.signal s l)) (other : t ≠ u) : p.semaphore? ≠ some s := by
  have sorted := regular.sorted named
  intro names
  cases p with
  | unit s' =>
    cases names
    rcases waits.live due with ⟨value, live⟩
    cases (sorted.plain t s left).purpose _ live
  | lock l' => cases names
  | signal s' l' =>
    cases names
    exact other (waits.sole t u s l' l left due)

/-! ## Picking a thread -/

theorem run_pickNext {next : ThreadId} {place : Place} {ready : ReadyQueue}
    (found : k.threads.get? next = some thread) (picks : k.Picks next thread place ready) :
    pickNext.run k = .ok (next, (k.mapThread next fun old => { old with place }).withReady ready) := by
  cases picks with
  | front pop =>
    rw [pickNext, run_get_bind, pop]
    dsimp only
    rw [run_set_bind]
    exact run_bind_eq_ok_iff.mpr
      ⟨(), _, run_modifyThread_eq_ok_iff.mpr ⟨⟨thread, found⟩, rfl⟩, rfl⟩
  | fallback empty idles =>
    rw [pickNext, run_get_bind, empty, idles, mapThread_eq_self found rfl]
    rfl

theorem run_resume (found : k.threads.get? k.current = some thread)
    (left : thread.pending = due) :
    resume.run k =
      (finish due).run (k.mapThread k.current fun old => { old with pending := none }) := by
  subst left
  rw [resume, run_caller_bind, run_bind_of_ok (run_findThread_eq_ok_iff.mpr ⟨found, rfl⟩),
    run_bind_of_ok (run_modifyThread_eq_ok_iff.mpr ⟨⟨thread, found⟩, rfl⟩)]
  rcases thread.pending with _ | _ | _ | _ <;> rfl

theorem run_switchTo {previous next : ThreadId} (found : k.threads.get? previous = some thread)
    (other : previous ≠ next) :
    ∃ dying, Departs k.dying previous next thread dying ∧
      (switchTo previous next).run k = .ok ((), { k with
        current := next, processor := k.processor.switched, dying,
        events := .switched previous next :: k.events }) := by
  rw [switchTo, run_bind_of_ok (run_findThread_eq_ok_iff.mpr ⟨found, rfl⟩)]
  split
  · next exited => exact ⟨_, .exits (Ne.symm other) exited.1 exited.2, rfl⟩
  · next alive =>
    exact ⟨_, .stays fun _ exited => Decidable.not_not.mp fun mortal => alive ⟨exited, mortal⟩, rfl⟩

/-- The dispatcher's pick, and what is left of it to do. -/
theorem run_dispatchOnce {previous : Thread} {next : ThreadId} {place : Place} {ready : ReadyQueue}
    (foundPrevious : k.threads.get? k.current = some previous) (halted : previous.state ≠ .running)
    (found : k.threads.get? next = some thread) (picks : k.Picks next thread place ready) :
    ∃ processor dying events, Departs k.dying k.current next previous dying ∧
      HandedOn k.current next k.events events ∧
      dispatchOnce.run k =
        (finish thread.pending).run (k.dispatched next place ready processor dying events) := by
  have fused : ((k.mapThread next fun old => { old with place }).mapThread next fun old =>
      { old with state := .running }).mapThread next (fun old => { old with pending := none }) =
      k.mapThread next fun old => { old with state := .running, place, pending := none } := by
    rw [mapThread_mapThread, mapThread_mapThread]
  have placed := Arena.get?_modify_self (fun old : Thread => { old with place }) found
  have record := Arena.get?_modify_self (fun old : Thread => { old with state := .running }) placed
  rcases run_announce (k := { ((k.mapThread next fun old => { old with place }).withReady
    ready).mapThread next (fun old => { old with state := .running }) with slice := 0 })
      (.activating · next) fun _ => rfl with ⟨events, grown, announced⟩
  rw [dispatchOnce, run_caller_bind,
    run_bind_of_ok (run_findThread_eq_ok_iff.mpr ⟨foundPrevious, rfl⟩),
    run_bind_of_ok (run_require_eq_ok_iff.mpr ⟨halted, rfl⟩),
    run_bind_of_ok (run_pickNext found picks),
    run_bind_of_ok (run_modifyThread_eq_ok_iff.mpr ⟨⟨_, placed⟩, rfl⟩), run_modify_bind,
    run_bind_of_ok announced]
  split
  · next other =>
    have kept : ((k.mapThread next fun old => { old with place }).mapThread next fun old =>
        { old with state := .running }).threads.get? k.current = some previous := by
      rw [mapThread_threads, Arena.get?_modify_of_ne _ (Ne.symm other), mapThread_threads,
        Arena.get?_modify_of_ne _ (Ne.symm other), foundPrevious]
    rcases run_switchTo (k := { ((k.mapThread next fun old => { old with place }).withReady
      ready).mapThread next (fun old => { old with state := .running }) with slice := 0, events })
        kept other with ⟨dying, departs, switches⟩
    refine ⟨k.processor.switched, dying, _, departs, .switched grown, ?_⟩
    rw [dispatched_eq, ← fused]
    exact (run_bind_of_ok switches).trans (run_resume record rfl)
  · next same =>
    have same : k.current = next := Decidable.not_not.mp same
    subst same
    refine ⟨k.processor, k.dying, events, .stays (absurd rfl), .kept rfl grown, ?_⟩
    rw [dispatched_eq, ← fused]
    exact run_resume record rfl

/-! ## Until a thread stays running -/

/-- The dispatcher can go on: the current thread has stopped, there is an idle thread, and
what the ready threads have left to do can be tried. -/
structure Kernel.Dispatchable (k : Kernel) : Prop where
  halted : ∃ thread, k.threads.get? k.current = some thread ∧ thread.state ≠ .running
  idle : ∃ t, k.idle = some t
  swept : k.Swept
  feasible : ∀ t ∈ k.ready.threads, ∀ p, k.pending? t = some p → k.Feasible p

/-- Whoever is ready after a try in vain was so before, with the same to do, which is not to
take the signal that was tried for. -/
theorem ready_of_tries (regular : Regular d ⟨k, due⟩) (named : d.plainHandles = true)
    (waits : (⟨k, due⟩ : Machine).ledger.Waits) (runs : k.Runs) {act : Option Act}
    (tries : Tries d act due k false k') (vain : k.Vain due k') (queued : t ∈ k'.ready.threads) :
    t ∈ k.ready.threads ∧ k'.pending? t = k.pending? t ∧
      ∀ p, k.pending? t = some p → ∀ s l, due = some (.signal s l) → p.semaphore? ≠ some s := by
  have queued := vain.ready.mem_iff.mp queued
  have other : t ≠ k.current := by
    rintro rfl
    rcases runs with ⟨thread, found, running, _⟩
    rcases (regular.placed.mem_queueAt (p := .ready) nofun k.current).mp queued with
      ⟨thread', found', ready⟩
    cases found.symm.trans found'
    exact regular.placed.unqueued_of_running found running ready
  refine ⟨queued, ?_, fun p pending s l is => ?_⟩
  · have same := congrArg (·.bind Prod.snd) (tries.selfish.others t other)
    rwa [Option.bind_map, Option.bind_map] at same
  · have left : (⟨k, due⟩ : Machine).work? t = some p := by
      rw [Machine.work?, pending, Option.some_or]
    subst is
    exact ne_signal_of_work regular named waits left (runs.work? _) other

theorem halted_of_tries {act : Option Act} (tries : Tries d act due k false k') :
    ∃ thread, k'.threads.get? k'.current = some thread ∧ thread.state = .blocked := by
  rcases (tries.waits rfl).blocked with ⟨stopped, found, blocked⟩
  exact ⟨stopped, by rw [tries.selfish.current, found], blocked⟩

/-- After a try in vain the dispatcher can go on. -/
theorem dispatchable_of_run_finish (regular : Regular d ⟨k, due⟩) (named : d.plainHandles = true)
    (waits : (⟨k, due⟩ : Machine).ledger.Waits) (runs : k.Runs) (idle : ∃ t, k.idle = some t)
    (feasible : ∀ t ∈ k.ready.threads, ∀ p, k.pending? t = some p → k.Feasible p)
    (h : (finish due).run k = .ok (false, k')) :
    k'.Dispatchable ∧ k'.ready.size = k.ready.size := by
  have vain := vain_of_run_finish h
  have tries := tries_of_run_finish regular runs h
  have size : k'.ready.size = k.ready.size := by
    have same := vain.ready.length_eq
    rwa [ReadyQueue.threads, ReadyQueue.threads, List.length_map, List.length_map] at same
  rcases halted_of_tries tries with ⟨stopped, found, blocked⟩
  refine ⟨⟨⟨stopped, found, by simp [blocked]⟩, vain.idle ▸ idle,
    swept_of_alive found (by simp [blocked]), fun t queued p pending => ?_⟩, size⟩
  · rcases ready_of_tries regular named waits runs tries vain queued with ⟨queued, same, apart⟩
    rw [same] at pending
    exact vain.feasible (feasible t queued p pending) (apart p pending)

section Dispatch

variable (regular : Regular d ⟨k, none⟩)

include regular

theorem not_stuck_of_spared (spares : d.sparesIdle) : ¬ Stuck k := by
  rintro ⟨_, t, idles, work, pending, _⟩
  rcases regular.idle spares t idles with ⟨thread, found, _, _, free, _⟩
  rw [pending?_of_get? found, free] at pending
  cases pending

/-- There is somebody to pick: the front of the ready queue, or an idle thread with nothing to
do first. -/
theorem exists_picks (spares : d.sparesIdle) (idle : ∃ t, k.idle = some t) :
    ∃ next thread place ready, k.threads.get? next = some thread ∧
      k.Picks next thread place ready ∧
      (k.ready.pop? = none → k.idle = some next → thread.place = .detached) ∧
      (thread.pending ≠ none → k.ready.pop? = some (next, ready)) := by
  cases pop : k.ready.pop? with
  | some front =>
    rcases front with ⟨next, ready⟩
    rcases regular.placed.exists_of_mem (mem_queueAt_of_pop? pop) with ⟨_, thread, found, _⟩
    exact ⟨next, thread, _, ready, found, .front pop, fun no => (by cases no), fun _ => rfl⟩
  | none =>
    rcases idle with ⟨t, idles⟩
    rcases regular.idle spares t idles with ⟨thread, found, detached, _, free, _⟩
    exact ⟨t, thread, _, _, found, .fallback pop idles, fun _ _ => detached,
      fun due => absurd free due⟩

/-- The front of the ready queue gets the processor, and goes on with what it was suspended in. -/
theorem run_dispatchOnce_of_front {next : ThreadId} {ready : ReadyQueue}
    (halted : ∃ previous, k.threads.get? k.current = some previous ∧ previous.state ≠ .running)
    (swept : k.Swept) (found : k.threads.get? next = some thread)
    (front : k.ready.pop? = some (next, ready)) :
    ∃ processor dying events,
      Regular d ⟨k.dispatched next .detached ready processor dying events, thread.pending⟩ ∧
      dispatchOnce.run k = (finish thread.pending).run
        (k.dispatched next .detached ready processor dying events) := by
  rcases halted with ⟨previous, foundPrevious, halted⟩
  rcases run_dispatchOnce foundPrevious halted found (.front front) with
    ⟨processor, dying, events, departs, handed, once⟩
  have pick : Move d none ⟨k, none⟩
      ⟨k.dispatched next .detached ready processor dying events, thread.pending⟩ :=
    .pick foundPrevious halted found (.front front)
      (fun empty => nomatch front.symm.trans empty) departs handed swept
  exact ⟨processor, dying, events, regular.move pick, once⟩

omit regular in
theorem feasible_dispatched {next : ThreadId} {place : Place} {ready : ReadyQueue}
    {processor : Processor} {dying : List ThreadId} {events : List Event} {p : Pending}
    (feasible : k.Feasible p) :
    (k.dispatched next place ready processor dying events).Feasible p := by
  refine ⟨feasible.semaphore, fun l wants => ?_⟩
  rcases feasible.lock l wants with ⟨lock, foundLock, alive⟩
  exact ⟨lock, foundLock, fun h holds => present_mapThread.mpr (alive h holds)⟩

/-- What those that stay in the ready queue are to finish can be tried as before. -/
theorem feasible_of_pop? (dispatchable : k.Dispatchable) {next : ThreadId} {place : Place}
    {ready : ReadyQueue} {processor : Processor} {dying : List ThreadId} {events : List Event}
    (pop : k.ready.pop? = some (next, ready)) :
    ∀ t ∈ ready.threads, ∀ p,
      (k.dispatched next place ready processor dying events).pending? t = some p →
        (k.dispatched next place ready processor dying events).Feasible p := by
  intro t queued p pending
  have other : t ≠ next := by
    rintro rfl
    exact regular.placed.not_mem_of_pop? pop queued
  apply feasible_dispatched
  apply dispatchable.feasible t
  · rw [ReadyQueue.threads_of_pop? pop]
    exact List.mem_cons_of_mem _ queued
  · exact (pending?_mapThread_of_ne other).symm.trans pending

theorem succeeds_dispatchOnce (named : d.plainHandles = true) (spares : d.sparesIdle)
    (tended : (⟨k, none⟩ : Machine).ledger.Tended) (dispatchable : k.Dispatchable) :
    Succeeds dispatchOnce k ∧ ∀ k', dispatchOnce.run k = .ok (false, k') →
      k'.Dispatchable ∧ k'.ready.size < k.ready.size := by
  rcases dispatchable.halted with ⟨previous, foundPrevious, halted⟩
  rcases exists_picks regular spares dispatchable.idle with
    ⟨next, thread, place, ready, found, picks, fallback, front⟩
  rcases run_dispatchOnce foundPrevious halted found picks with
    ⟨processor, dying, events, departs, handed, once⟩
  have pick : Move d none ⟨k, none⟩
      ⟨k.dispatched next place ready processor dying events, thread.pending⟩ :=
    .pick foundPrevious halted found picks fallback departs handed dispatchable.swept
  have middle := regular.move pick
  have waits := ((Moves.single pick).tended regular named tended).toWaits
  have runs : (k.dispatched next place ready processor dying events).Runs :=
    ⟨_, Arena.get?_modify_self _ found, rfl, rfl⟩
  constructor
  · have ends : Succeeds (finish thread.pending)
        (k.dispatched next place ready processor dying events) := by
      apply succeeds_finish middle named waits runs
      intro p due
      apply feasible_dispatched
      apply dispatchable.feasible next
      · exact mem_queueAt_of_pop? (front (by simp [due]))
      · rw [pending?_of_get? found, due]
    rcases ends with ⟨r, ends⟩
    exact ⟨r, once.trans ends⟩
  · intro k' fails
    rw [once] at fails
    have pop : k.ready.pop? = some (next, ready) := by
      apply front
      intro free
      rw [free] at fails
      cases fails
    rcases dispatchable_of_run_finish middle named waits runs dispatchable.idle
      (feasible_of_pop? regular dispatchable pop) fails with ⟨goes, size⟩
    refine ⟨goes, ?_⟩
    rcases ReadyQueue.pop?_eq_some_iff.mp pop with ⟨_, entries, _⟩
    rw [size, ReadyQueue.size, ReadyQueue.size, entries]
    exact Nat.lt_succ_self _

theorem succeeds_dispatch (named : d.plainHandles = true) (spares : d.sparesIdle)
    (tended : (⟨k, none⟩ : Machine).ledger.Tended) (dispatchable : k.Dispatchable) {picks : Nat}
    (enough : k.ready.size < picks) : Succeeds (dispatch picks) k := by
  induction picks generalizing k with
  | zero => exact absurd enough (Nat.not_lt_zero _)
  | succ picks ih =>
    rcases succeeds_dispatchOnce regular named spares tended dispatchable with ⟨succeeds, fails⟩
    apply Succeeds.bind succeeds
    intro running k' once
    cases running with
    | true => exact succeeds_pure ()
    | false =>
      rcases moves_of_run_dispatchOnce regular (not_stuck_of_spared regular spares)
        dispatchable.swept once with ⟨moves, _⟩
      rcases fails k' once with ⟨goes, shorter⟩
      apply ih (regular.moves moves) (moves.tended regular named tended) goes
      omega

end Dispatch

/-! ## Giving up the processor -/

/-- Nothing that `p` needs goes away with the threads that have exited. -/
structure Kernel.Outlasts (k : Kernel) (p : Pending) : Prop where
  feasible : k.Feasible p
  holder : ∀ l, p.lock? = some l → ∀ h, k.holder? l = some h → h ∉ k.dying

theorem succeeds_forM_reclaim {exited : List ThreadId} (k : Kernel) :
    Succeeds (exited.forM fun t => do
      let k ← get
      match k.threads.get? t with
      | some thread =>
        set { k with threads := k.threads.erase t }
        note (.reclaimed t thread.name)
      | none => pure () : KernelM PUnit) k := by
  induction exited generalizing k with
  | nil => exact succeeds_pure ()
  | cons t rest ih =>
    apply Succeeds.bind
    · apply Succeeds.get
      split
      · exact ⟨_, rfl⟩
      · exact succeeds_pure ()
    · exact fun _ k' _ => ih k'

theorem succeeds_reclaim (k : Kernel) : Succeeds reclaim k := by
  unfold reclaim
  apply Succeeds.get
  exact .after rfl (succeeds_forM_reclaim { k with dying := [] })

/-- What outlasts the exited threads can be tried once they are gone. -/
theorem Kernel.Outlasts.reclaimed {u : Unit} (outlasts : k.Outlasts p)
    (h : reclaim.run k = .ok (u, k')) : k'.Feasible p := by
  rcases of_run_reclaim h with ⟨threads, events, _, _, gone, rfl⟩
  refine ⟨outlasts.feasible.semaphore, fun l wants => ?_⟩
  rcases outlasts.feasible.lock l wants with ⟨lock, found, alive⟩
  refine ⟨lock, found, fun h holds => ?_⟩
  have stays : h ∉ k.dying := by
    apply outlasts.holder l wants
    rw [holder?, found, Option.bind_some, holds]
  rcases alive h holds with ⟨thread, foundHolder⟩
  exact ⟨thread, by rw [gone, if_neg stays, foundHolder]⟩

theorem succeeds_schedule (regular : Regular d ⟨k, none⟩) (named : d.plainHandles = true)
    (spares : d.sparesIdle) (tended : (⟨k, none⟩ : Machine).ledger.Tended)
    (masked : k.processor.level = .off)
    (halted : ∃ thread, k.threads.get? k.current = some thread ∧ thread.state ≠ .running)
    (unleft : k.current ∉ k.dying) (idle : ∃ t, k.idle = some t)
    (outlasts : ∀ t ∈ k.ready.threads, ∀ p, k.pending? t = some p → k.Outlasts p) :
    Succeeds schedule k := by
  unfold schedule
  apply Succeeds.get
  apply Succeeds.require masked
  apply Succeeds.bind (succeeds_reclaim k)
  intro _ reclaimed ran
  have reclaims : Move d none ⟨k, none⟩ ⟨reclaimed, none⟩ := .reclaim ran
  apply Succeeds.get
  apply succeeds_dispatch (regular.move reclaims) named spares
    ((Moves.single reclaims).tended regular named tended) _ (Nat.lt_succ_self _)
  have feasible := fun p (lasts : k.Outlasts p) => lasts.reclaimed ran
  rcases of_run_reclaim ran with ⟨threads, events, _, _, gone, rfl⟩
  refine ⟨?_, idle, fun _ _ _ => rfl, fun t queued p pending => feasible p (outlasts t queued p ?_)⟩
  · rcases halted with ⟨thread, found, stopped⟩
    exact ⟨thread, by rw [gone, if_neg unleft, found], stopped⟩
  · have same : pending? { k with dying := [], threads, events } t = k.pending? t :=
      pending?_reclaimed regular.placed regular.tidy gone rfl t
    exact same.symm.trans pending

/-- The processor is given up after a try in vain. -/
theorem succeeds_schedule_of_tries (regular : Regular d ⟨k, due⟩) (named : d.plainHandles = true)
    (spares : d.sparesIdle) (tended : (⟨k, due⟩ : Machine).ledger.Tended) (runs : k.Runs)
    (masked : k.processor.level = .off) (idle : ∃ t, k.idle = some t)
    (outlasts : ∀ t ∈ k.ready.threads, ∀ p, k.pending? t = some p → k.Outlasts p)
    {act : Option Act} (tries : Tries d act due k false k') (vain : k.Vain due k') :
    Succeeds schedule k' := by
  rcases halted_of_tries tries with ⟨stopped, found, blocked⟩
  have after := regular.moves tries.moves
  apply succeeds_schedule after named spares (tries.moves.tended regular named tended)
  · rw [vain.processor, masked]
  · exact ⟨stopped, found, by simp [blocked]⟩
  · intro left
    cases blocked.symm.trans (after.placed.dying_of_mem left found)
  · rw [vain.idle]
    exact idle
  · intro t queued p pending
    rcases ready_of_tries regular named tended.toWaits runs tries vain queued with
      ⟨queued, same, apart⟩
    rw [same] at pending
    have lasts := outlasts t queued p pending
    refine ⟨vain.feasible lasts.feasible (apart p pending), ?_⟩
    rw [vain.dying]
    intro l wants h holds
    apply lasts.holder l wants
    rw [← holds, holder?, holder?, vain.locks]

end ThreadKernel
