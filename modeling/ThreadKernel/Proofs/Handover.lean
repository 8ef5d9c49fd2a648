import ThreadKernel.Proofs.DeadHolders
import ThreadKernel.Proofs.Reclamation

/-!
# A lock changes hands

A release gives the lock up, returns its unit and wakes the first of the highest waiters.  It does
not give that thread the lock: the thread still has to take the unit when it next runs.  Whether
that is at once the check for preemption decides.

* `LockId.giveUp` is what comes before anybody is woken.
* `run_preempt_of_front` follows the processor to a ready thread that outranks all others, and
  `LockId.run_attempt_of_free` is what that thread does with it.
* `release_hands_over` puts the three together.
-/

namespace ThreadKernel

open Kernel

variable {d : Discipline} {k k' : Kernel} {t w : ThreadId} {thread record taker : Thread}
  {s : SemaphoreId} {semaphore : Semaphore} {l : LockId} {lock : Lock} {due : Option Pending}
  {rest : List ThreadId}

/-! ## Giving the lock up -/

namespace LockId

/-- What a release does before it wakes anybody. -/
def giveUp (l : LockId) : KernelM Unit := do
  let t ← caller
  l.dropDonors
  modifyLock l fun lock => { lock with holder := none }
  note (.releases t l)

/-- The kernel in which the current thread has given `l` up, with the given donors and priority. -/
@[simps]
def freed (l : LockId) (donors : List ThreadId) (priority : Priority) (events : List Event)
    (k : Kernel) : Kernel :=
  { k with
    threads := k.threads.modify k.current fun old => { old with donors, priority }
    locks := k.locks.modify l fun old => { old with holder := none }
    events := .releases k.current l :: events }

section Freed

variable {donors : List ThreadId} {priority : Priority} {events : List Event}

theorem get?_freed_of_ne (other : t ≠ k.current) :
    (l.freed donors priority events k).threads.get? t = k.threads.get? t :=
  Arena.get?_modify_of_ne _ (Ne.symm other)

theorem priorityOf_freed_of_ne (other : t ≠ k.current) :
    (l.freed donors priority events k).priorityOf t = k.priorityOf t := by
  rw [priorityOf, get?_freed_of_ne other, priorityOf]

theorem placed_freed (sound : Sound d ⟨k, none⟩)
    (found : k.threads.get? k.current = some thread) (running : thread.state = .running) :
    (l.freed donors priority events k).Placed := by
  have repriced := (sound.repriced found (sound.placed.unqueued_of_running found running) donors
    priority events).placed
  exact repriced.of_same_queues rfl rfl (fun p => by cases p <;> rfl) rfl rfl rfl

/-- Giving a lock up does not change which of the others is the first of the highest. -/
theorem sort_freed {front back : List ThreadId}
    (others : ∀ t ∈ front ++ w :: back, t ≠ k.current)
    (ahead : ∀ t ∈ front, k.priorityOf t < k.priorityOf w)
    (behind : ∀ t ∈ back, k.priorityOf t ≤ k.priorityOf w) :
    Ranked.sort (l.freed donors priority events k).priorityOf (front ++ w :: back) =
      w :: Ranked.sort (l.freed donors priority events k).priorityOf (front ++ back) := by
  have same : ∀ t ∈ front ++ w :: back,
      (l.freed donors priority events k).priorityOf t = k.priorityOf t :=
    fun t member => priorityOf_freed_of_ne (others t member)
  have first := same w (List.mem_append_right _ (List.mem_cons_self ..))
  apply Ranked.sort_append_cons
  · intro t member
    rw [same t (List.mem_append_left _ member), first]
    exact ahead t member
  · intro t member
    rw [same t (List.mem_append_right _ (List.mem_cons_of_mem _ member)), first]
    exact behind t member

end Freed

theorem run_giveUp (found : k.locks.get? l = some lock)
    (foundCurrent : k.threads.get? k.current = some thread) (unqueued : thread.place ≠ .ready) :
    ∃ donors events, (∀ t, t ∈ donors ↔ t ∈ thread.donors ∧
        ∃ record, k.threads.get? t = some record ∧ record.waitingOn ≠ some l) ∧
      l.dropDonors.run k = .ok ((), (k.repriced k.current donors
        (k.fairPriority { thread with donors })).withEvents events) ∧
      l.giveUp.run k =
        .ok ((), l.freed donors (k.fairPriority { thread with donors }) events k) := by
  have drops : Succeeds l.dropDonors k := by
    unfold dropDonors
    apply Succeeds.get
    apply Succeeds.modifyThread ⟨thread, foundCurrent⟩
    exact succeeds_refresh (present_mapThread.mpr ⟨thread, foundCurrent⟩)
  rcases drops with ⟨⟨_, dropped⟩, drops⟩
  rcases of_run_dropDonors foundCurrent unqueued (id drops) with
    ⟨donors, events, _, members, _, _, rfl⟩
  refine ⟨donors, events, members, drops, ?_⟩
  rw [giveUp, run_caller_bind, run_bind_of_ok drops]
  refine (run_bind_of_ok (run_modifyLock_eq_ok_iff.mpr ⟨⟨lock, ?_⟩, rfl⟩)).trans rfl
  exact found

/-- What is left of a release once the lock is given up. -/
theorem run_release_of_giveUp (found : k.locks.get? l = some lock)
    (holds : lock.holder = some k.current)
    (gives : l.giveUp.run (k.atLevel .off) = .ok ((), k')) :
    l.release.run k = ((do (← findLock l).semaphore.up : KernelM Unit).run k').map
      fun r => (r.1, r.2.atLevel k.processor.level) := by
  have split : (do
      let t ← caller
      l.dropDonors
      modifyLock l fun lock => { lock with holder := none }
      note (.releases t l)
      (← findLock l).semaphore.up : KernelM Unit) =
        (do l.giveUp; (← findLock l).semaphore.up) := by
    simp only [giveUp, bind_assoc]
  rw [release, run_bind_of_ok (run_requireHeld .release found holds), split, run_masked,
    run_bind_of_ok gives]

end LockId

/-- Those who donate to the current thread through another lock are its donors that do not wait
for this one. -/
theorem WaitGraph.donors_left_iff (graph : WaitGraph ⟨k, due⟩)
    (found : k.threads.get? k.current = some thread) :
    (t ∈ thread.donors ∧ ∃ record, k.threads.get? t = some record ∧ record.waitingOn ≠ some l) ↔
      ∃ other ≠ l, k.AwaitsLock t other ∧ k.holder? other = some k.current := by
  rw [graph.donors k.current thread found t]
  constructor
  · rintro ⟨⟨other, awaits, holds⟩, record, foundDonor, elsewhere⟩
    have waits := graph.queued t other record awaits foundDonor
    exact ⟨other, fun same => elsewhere (same ▸ waits), awaits, holds⟩
  · rintro ⟨other, apart, awaits, holds⟩
    rcases id awaits with ⟨record, _, foundDonor, _, _⟩
    refine ⟨⟨other, awaits, holds⟩, record, foundDonor, fun here => apart ?_⟩
    exact Option.some.inj ((graph.queued t other record awaits foundDonor).symm.trans here)

/-! ## Waking the first waiter -/

namespace Kernel

theorem run_makeReady (found : k.threads.get? t = some thread) (absent : t ∉ k.ready.threads) :
    (makeReady t).run k = .ok ((), k.readied t thread.priority) := by
  rcases succeeds_makeReady ⟨thread, found⟩ absent with ⟨⟨_, k'⟩, ran⟩
  rcases of_run_makeReady (id ran) with ⟨thread', found', _, rfl⟩
  cases found.symm.trans found'
  exact ran

theorem run_unblock (found : k.threads.get? t = some thread) (blocked : thread.state = .blocked)
    (detached : thread.place = .detached) (absent : t ∉ k.ready.threads) :
    (unblock t).run k = .ok ((), k.readied t thread.priority) := by
  rcases succeeds_unblock found blocked detached absent with ⟨⟨_, k'⟩, ran⟩
  rcases of_run_unblock (id ran) with ⟨thread', found', _, _, _, rfl⟩
  cases found.symm.trans found'
  exact ran

/-- What holds of the priority of every ready thread holds of what is in the ready queue. -/
theorem Placed.forall_entries (placed : k.Placed) {P : Priority → Prop}
    (ready : ∀ t thread, k.threads.get? t = some thread → thread.state = .ready →
      P thread.priority) : ∀ entry ∈ k.ready.entries, P entry.2 := by
  intro entry queued
  have listed : entry.1 ∈ k.queueAt .ready := ReadyQueue.mem_threads_of_mem_entries queued
  rcases placed.exists_of_mem listed with ⟨_, thread, found, there⟩
  rw [← placed.priced entry queued, priorityOf_of_get? found]
  exact ready entry.1 thread found ((placed.ready_iff found).mp there)

/-- Who waits for a lock is not the thread that runs. -/
theorem Placed.ne_current_of_awaitsLock (placed : k.Placed)
    (found : k.threads.get? k.current = some thread) (running : thread.state = .running)
    (awaits : k.AwaitsLock t l) : t ≠ k.current := by
  rintro rfl
  refine not_awaitsLock_of_place found (fun s there => ?_) awaits
  cases (placed.detached_of_running found running).symm.trans there

end Kernel

theorem SemaphoreId.run_wake (placed : k.Placed) (found : k.semaphores.get? s = some semaphore)
    (room : semaphore.value < maxHalfWord)
    (queue : Ranked.sort k.priorityOf semaphore.waiters = w :: rest)
    (foundFirst : k.threads.get? w = some taker) :
    s.wake.run k = .ok ((), (s.roused w rest k).readied w taker.priority) := by
  have waits : ∀ t ∈ semaphore.waiters, ∃ thread, k.threads.get? t = some thread ∧
      thread.place = .semaphore s := by
    intro t listed
    rw [← queueAt_semaphore found] at listed
    exact (placed.exists_of_mem listed).2
  have sorts : Ranked.sortWith k.threads.rank semaphore.waiters = .ok (w :: rest) := by
    rw [← queue]
    apply sortWith_of_present
    intro t listed
    rcases waits t listed with ⟨thread, record, _⟩
    exact ⟨thread, record⟩
  have first : w ∈ semaphore.waiters := by
    apply Ranked.mem_sort.mp
    rw [queue]
    exact List.mem_cons_self ..
  have there : taker.place = .semaphore s := by
    rcases waits w first with ⟨taker', found', there⟩
    cases foundFirst.symm.trans found'
    exact there
  have blocked : taker.state = .blocked :=
    placed.blocked foundFirst (by simp [there]) (by simp [there])
  rw [wake, run_bind_of_ok (run_findSemaphore_eq_ok_iff.mpr ⟨found, rfl⟩), run_ranks_bind,
    run_bind_of_ok (run_lift_eq_ok_iff.mpr ⟨sorts, rfl⟩),
    run_bind_of_ok (run_require_eq_ok_iff.mpr ⟨room, rfl⟩),
    run_bind_of_ok (run_modifySemaphore_eq_ok_iff.mpr ⟨⟨semaphore, found⟩, rfl⟩), run_note_bind]
  dsimp only
  rw [run_note_bind]
  refine (run_bind_of_ok (run_modifyThread_eq_ok_iff.mpr ⟨⟨taker, ?_⟩, rfl⟩)).trans ?_
  · exact foundFirst
  apply run_unblock (k := s.roused w rest k) (Arena.get?_modify_self _ foundFirst)
  · exact blocked
  · rfl
  · intro ready
    rcases placed.exists_of_mem (p := .ready) ready with ⟨_, taker', found', queued⟩
    cases foundFirst.symm.trans found'
    cases there.symm.trans queued

/-- `w` was woken for `l`, which the current thread has given up. -/
structure Kernel.Woken (k : Kernel) (l : LockId) (lock : Lock) (w : ThreadId)
    (record taker : Thread) (rest : List ThreadId) (woken : Kernel) : Prop where
  current : woken.current = k.current
  idle : woken.idle = k.idle
  inInterrupt : woken.inInterrupt = k.inInterrupt
  releaser : woken.threads.get? k.current = some record
  first : woken.threads.get? w = some { taker with state := .ready, place := .ready }
  ready : woken.ready = k.ready.insert w taker.priority
  unheld : woken.locks.get? l = some { lock with holder := none }
  unit : ∃ unit, woken.semaphores.get? lock.semaphore = some unit ∧ unit.waiters = rest

theorem LockId.woken_freed {donors : List ThreadId} {priority : Priority} {events : List Event}
    (found : k.locks.get? l = some lock) (foundCurrent : k.threads.get? k.current = some thread)
    (foundFirst : k.threads.get? w = some taker) (other : w ≠ k.current)
    (foundUnit : k.semaphores.get? lock.semaphore = some semaphore) :
    k.Woken l lock w { thread with donors, priority } taker rest
      ((lock.semaphore.roused w rest (l.freed donors priority events k)).readied w
        taker.priority) where
  current := rfl
  idle := rfl
  inInterrupt := rfl
  releaser := by
    rw [readied_threads, SemaphoreId.roused_threads, freed_threads,
      Arena.get?_modify_of_ne _ other, Arena.get?_modify_of_ne _ other,
      Arena.get?_modify_self _ foundCurrent]
  first := by
    rw [readied_threads, SemaphoreId.roused_threads, freed_threads, Arena.modify_modify,
      Arena.get?_modify_self (x := taker)]
    rw [Arena.get?_modify_of_ne _ (Ne.symm other), foundFirst]
  ready := rfl
  unheld := Arena.get?_modify_self _ found
  unit := ⟨_, Arena.get?_modify_self _ foundUnit, rfl⟩

/-! ## The processor goes to the front of the ready queue -/

/-- The processor went to `w`, which is to take up what it had left to do. -/
structure Kernel.Switched (k : Kernel) (w : ThreadId) (taker : Thread) (switched : Kernel) :
    Prop where
  current : switched.current = w
  locks : switched.locks = k.locks
  semaphores : switched.semaphores = k.semaphores
  first : switched.threads.get? w =
    some { taker with state := .running, place := .detached, pending := none }
  others : ∀ t thread, t ≠ w → k.threads.get? t = some thread → thread.state ≠ .dying →
    switched.threads.get? t = some thread

/-- The dispatcher picks the front of the ready queue, and is done if that thread can finish what
it was suspended in.  Who has exited may have left the table by then. -/
theorem exists_run_schedule (regular : Regular d ⟨k, none⟩) (masked : k.processor.level = .off)
    (found : k.threads.get? k.current = some record) (halted : record.state ≠ .running)
    (alive : record.state ≠ .dying) (foundFirst : k.threads.get? w = some taker)
    {ready : ReadyQueue} (front : k.ready.pop? = some (w, ready)) :
    ∃ threads processor dying events,
      (∀ t thread, k.threads.get? t = some thread → thread.state ≠ .dying →
        threads.get? t = some thread) ∧
      Regular d ⟨({ k with threads } : Kernel).dispatched w .detached ready processor dying events,
        taker.pending⟩ ∧
      ∀ last, (finish taker.pending).run
          (({ k with threads } : Kernel).dispatched w .detached ready processor dying events) =
            .ok (true, last) →
        schedule.run k = .ok ((), last) := by
  rcases run_schedule k with ⟨reclaimed, reclaims, swept, kept, schedules⟩
  rw [if_pos masked] at schedules
  -- the records that the dispatcher drops first are others
  have stays : ∀ t thread, k.threads.get? t = some thread → thread.state ≠ .dying →
      reclaimed.threads.get? t = some thread := by
    intro t thread found alive
    rw [kept, if_neg fun left => alive (regular.placed.dying_of_mem left found), found]
  have awake : taker.state ≠ .dying := by
    rw [(regular.placed.ready_iff foundFirst).mp (regular.placed.ready_of_pop? foundFirst front)]
    exact nofun
  have foundPrevious := stays _ _ found alive
  have foundNext := stays _ _ foundFirst awake
  have regular := regular.move (.reclaim reclaims)
  rcases of_run_reclaim reclaims with ⟨threads, events, _, _, _, rfl⟩
  rcases run_dispatchOnce_of_front regular ⟨record, foundPrevious, halted⟩ (fun _ _ _ => swept)
    foundNext front with ⟨processor, dying, events', picked, dispatches⟩
  refine ⟨threads, processor, dying, events', stays, picked, fun last finishes => ?_⟩
  rw [schedules, dispatch, run_bind_of_ok (dispatches.trans finishes)]
  rfl

theorem run_schedule_of_front (regular : Regular d ⟨k, none⟩) (masked : k.processor.level = .off)
    (found : k.threads.get? k.current = some record) (halted : record.state ≠ .running)
    (alive : record.state ≠ .dying) (foundFirst : k.threads.get? w = some taker)
    {ready : ReadyQueue} (front : k.ready.pop? = some (w, ready)) :
    ∃ switched, Regular d ⟨switched, taker.pending⟩ ∧ k.Switched w taker switched ∧
      ∀ last, (finish taker.pending).run switched = .ok (true, last) →
        schedule.run k = .ok ((), last) := by
  rcases exists_run_schedule regular masked found halted alive foundFirst front with
    ⟨threads, processor, dying, events, stays, picked, schedules⟩
  have awake : taker.state ≠ .dying := by
    rw [(regular.placed.ready_iff foundFirst).mp (regular.placed.ready_of_pop? foundFirst front)]
    exact nofun
  refine ⟨_, picked, ?_, schedules⟩
  refine ⟨rfl, rfl, rfl, Arena.get?_modify_self _ (stays _ _ foundFirst awake),
    fun t thread other found alive => ?_⟩
  rw [dispatched_threads, Arena.get?_modify_of_ne _ (Ne.symm other)]
  exact stays t thread found alive

theorem Kernel.run_preempt_of_not_outranked (unranked : k.outranked = false) :
    preempt.run k = .ok ((), k) := by
  rw [preempt, run_get_bind, unranked]
  rfl

/-- A thread that is not the idle one joins the ready queue when it yields. -/
theorem Kernel.run_yield_of_busy (outside : k.inInterrupt = false) (busy : k.idle ≠ some k.current)
    (found : k.threads.get? k.current = some record) (absent : k.current ∉ k.ready.threads) :
    yield.run k = (schedule.run ((k.atLevel .off).readied k.current record.priority)).map
      fun r => (r.1, r.2.atLevel k.processor.level) := by
  have idles : (k.atLevel .off).idles = false :=
    Bool.eq_false_iff.mpr fun idles => busy (idles_iff.mp idles)
  have readies : (makeReady (k.atLevel .off).current).run (k.atLevel .off) =
      .ok ((), (k.atLevel .off).readied k.current record.priority) := run_makeReady found absent
  rw [yield, run_bind_of_ok (run_requireThreadContext .yield outside), run_masked, run_get_bind,
    idles, if_neg Bool.false_ne_true]
  exact congrArg _ (run_bind_of_ok readies)

theorem Kernel.run_preempt_of_outranked (outranked : k.outranked = true)
    (outside : k.inInterrupt = false) : preempt.run k = yield.run k := by
  rw [preempt, run_get_bind, if_pos outranked, outside, if_neg Bool.false_ne_true]

/-- A thread that outranks the current one and stands in front of the others gets the processor. -/
theorem run_preempt_of_front (regular : Regular d ⟨k, none⟩) (outside : k.inInterrupt = false)
    (busy : k.idle ≠ some k.current) (found : k.threads.get? k.current = some record)
    (running : record.state = .running) (foundFirst : k.threads.get? w = some taker)
    {ready : ReadyQueue} (entries : k.ready.entries = (w, taker.priority) :: ready.entries)
    (rule : ready.rule = k.ready.rule) (below : record.priority < taker.priority) :
    ∃ switched, Regular d ⟨switched, taker.pending⟩ ∧
      (k.readied k.current record.priority).Switched w taker switched ∧
      ∀ last, (finish taker.pending).run switched = .ok (true, last) →
        preempt.run k = .ok ((), last.atLevel k.processor.level) := by
  have absent : k.current ∉ k.ready.threads := regular.placed.not_mem_of_detached found
    (regular.placed.detached_of_running found running) .ready
  have outranked : k.outranked = true := by
    refine outranked_iff.mpr ⟨(w, taker.priority), ?_, .inr ?_⟩
    · rw [ReadyQueue.front?, entries, List.head?_cons]
    · rw [priorityOf_of_get? found]
      exact below
  have other : k.current ≠ w := by
    intro same
    apply absent
    rw [same, ReadyQueue.threads, entries]
    exact List.mem_cons_self ..
  have readies : Move d none ⟨k.atLevel .off, none⟩
      ⟨(k.atLevel .off).readied k.current record.priority, none⟩ := .ready found running busy
  have first : ((k.atLevel .off).readied k.current record.priority).threads.get? w = some taker :=
    (Arena.get?_modify_of_ne _ other).trans foundFirst
  have front : (k.ready.insert k.current record.priority).pop? =
      some (w, ready.insert k.current record.priority) :=
    ReadyQueue.pop?_insert_of_le entries rule (Nat.le_of_lt below)
  have halted : RunState.ready ≠ .running := by decide
  have alive : RunState.ready ≠ .dying := by decide
  rcases run_schedule_of_front ((regular.move (.quiet (sameWork_atLevel .off))).move readies) rfl
      (Arena.get?_modify_self _ found) halted alive first front with
    ⟨switched, regular, switches, schedules⟩
  refine ⟨switched, regular, ⟨switches.current, switches.locks, switches.semaphores,
    switches.first, switches.others⟩, fun last finishes => ?_⟩
  rw [run_preempt_of_outranked outranked outside, run_yield_of_busy outside busy found absent,
    schedules last finishes]
  rfl

/-! ## The retry -/

/-- `w` has the processor and the lock, with nothing left to do, and whoever still waits for the
lock lends `w` its priority. -/
structure Kernel.Took (k : Kernel) (l : LockId) (w : ThreadId) : Prop where
  current : k.current = w
  holder : k.holder? l = some w
  finished : k.pending? w = none
  adopted : ∃ taker, k.threads.get? w = some taker ∧
    ∀ t, k.AwaitsLock t l → t ∈ taker.donors ∧ k.priorityOf t ≤ taker.priority

theorem LockId.took_of_run_hold (placed : k.Placed) (found : k.locks.get? l = some lock)
    (foundUnit : k.semaphores.get? lock.semaphore = some semaphore)
    (foundCurrent : k.threads.get? k.current = some thread) (running : thread.state = .running)
    (finished : thread.pending = none)
    (h : l.hold.run (lock.semaphore.taken k) = .ok ((), k')) :
    k'.Took l k.current ∧ (∀ t, t ≠ k.current → k'.threads.get? t = k.threads.get? t) ∧
      ∀ t, k'.AwaitsLock t l ↔ k.AwaitsLock t l := by
  have detached := placed.detached_of_running foundCurrent running
  rcases of_run_hold (k := lock.semaphore.taken k) foundCurrent (detached ▸ nofun) h with
    ⟨lock', unit, donors, priority, events, foundLock, foundAfter, _, adopts, rfl⟩
  cases found.symm.trans foundLock
  cases (Arena.get?_modify_self _ foundUnit).symm.trans foundAfter
  have others : ∀ t, t ≠ k.current → ((l.held donors priority
      (lock.semaphore.taken k)).withEvents events).threads.get? t = k.threads.get? t :=
    fun t other => Arena.get?_modify_of_ne _ (Ne.symm other)
  have awaits : ∀ t, ((l.held donors priority (lock.semaphore.taken k)).withEvents
      events).AwaitsLock t l ↔ k.AwaitsLock t l :=
    fun t => awaitsLock_congr (Arena.agree_modify fun _ => rfl) (Arena.agree_modify fun _ => rfl)
  have taker := Arena.get?_modify_self (fun old : Thread =>
    { old with waitingOn := none, donors, priority }) foundCurrent
  refine ⟨⟨rfl, ?_, ?_, _, taker, fun t waits => ?_⟩, others, awaits⟩
  · exact (holder?_of_get? (Arena.get?_modify_self _ found)).trans rfl
  · exact (congrArg (·.bind Thread.pending) taker).trans finished
  · have listed := (placed.awaitsLock_iff found foundUnit).mp ((awaits t).mp waits)
    rcases (awaits t).mp waits with ⟨waiter, _, foundWaiter, _⟩
    rw [priorityOf, others t
      (placed.ne_current_of_awaitsLock foundCurrent running ((awaits t).mp waits))]
    rcases adopts with ⟨alone, _, _⟩ | ⟨members, _, _, price⟩
    · change semaphore.waiters = [] at alone
      rw [alone] at listed
      cases listed
    · have donor : t ∈ donors :=
        (members t).mpr ⟨.inr listed, Arena.contains_iff.mpr ⟨waiter, foundWaiter⟩⟩
      refine ⟨donor, ?_⟩
      rw [price]
      exact le_fairPriority_iff.mpr (.inr ⟨t, donor, Nat.le_refl _⟩)

/-- A free lock is taken at the first try. -/
theorem LockId.run_attempt_of_free (regular : Regular d ⟨k, due⟩) (named : d.plainHandles = true)
    (runs : k.Runs) (found : k.locks.get? l = some lock) (free : lock.holder = none) :
    ∃ k', l.attempt.run k = .ok (true, k') ∧ k'.Took l k.current ∧
      (∀ t, t ≠ k.current → k'.threads.get? t = k.threads.get? t) ∧
      ∀ t, k'.AwaitsLock t l ↔ k.AwaitsLock t l := by
  have graph := regular.graph named
  rcases LockId.succeeds_attempt (regular.grounded named runs.present) found
    (fun h holds => nomatch free.symm.trans holds) with ⟨⟨success, k'⟩, ran⟩
  rcases graph.unit l lock found with ⟨unit, foundUnit, _⟩
  rcases id runs with ⟨thread, foundCurrent, running, finished⟩
  rcases graph.of_run_attempt (id ran) with ⟨lock', found', taken | waits⟩
  · rcases taken with ⟨_, rfl, holds⟩
    cases found.symm.trans found'
    exact ⟨k', ran, took_of_run_hold regular.placed found foundUnit foundCurrent running finished
      holds⟩
  · rcases waits with ⟨_, _, _, _, _, held, _⟩
    cases found.symm.trans found'
    cases free.symm.trans held

/-! ## The two outcomes of a wake -/

namespace Kernel.Woken

variable {woken : Kernel}

/-- The woken thread outranks everybody: it gets the processor, and takes the lock. -/
theorem hands (wakes : k.Woken l lock w record taker rest woken) (regular : Regular d ⟨woken, none⟩)
    (named : d.plainHandles = true) (outside : k.inInterrupt = false)
    (busy : k.idle ≠ some k.current) (running : record.state = .running)
    (left : taker.pending = some (.lock l)) (below : record.priority < taker.priority)
    (above : ∀ entry ∈ k.ready.entries, entry.2 < taker.priority) :
    ∃ last : Kernel, preempt.run woken = .ok ((), last.atLevel woken.processor.level) ∧
      last.Took l w ∧
      last.threads.get? k.current = some { record with state := .ready, place := .ready } ∧
      ∀ t, last.AwaitsLock t l ↔ t ∈ rest := by
  rw [← wakes.inInterrupt] at outside
  rw [← wakes.idle, ← wakes.current] at busy
  have releaser := wakes.releaser
  rw [← wakes.current] at releaser
  have entries : woken.ready.entries = (w, taker.priority) :: k.ready.entries := by
    rw [wakes.ready]
    exact Ranked.insert_eq_cons above
  rcases run_preempt_of_front regular outside busy releaser running wakes.first entries
    (by rw [wakes.ready]; rfl) below with ⟨switched, regular', switches, preempts⟩
  have other : woken.current ≠ w := by
    intro same
    rw [same] at releaser
    cases wakes.first.symm.trans releaser
    cases running
  have found : switched.locks.get? l = some { lock with holder := none } := by
    rw [switches.locks]
    exact wakes.unheld
  have due : ({ taker with state := .ready, place := .ready } : Thread).pending = some (.lock l) :=
    left
  rw [due] at regular' preempts
  have runs : switched.Runs := ⟨_, switches.current ▸ switches.first, rfl, rfl⟩
  rcases LockId.run_attempt_of_free regular' named runs found rfl with
    ⟨last, tries, took, others, awaits⟩
  rw [switches.current] at took others
  refine ⟨last, preempts last tries, took, ?_, fun t => ?_⟩
  · rw [← wakes.current, others _ other]
    exact switches.others _ _ other (Arena.get?_modify_self _ releaser) nofun
  · rcases wakes.unit with ⟨unit, foundUnit, waiters⟩
    have foundUnit' : switched.semaphores.get? lock.semaphore = some unit := by
      rw [switches.semaphores]
      exact foundUnit
    rw [awaits, regular'.placed.awaitsLock_iff found foundUnit', waiters]

/-- Nobody outranks the thread that woke another: it goes on. -/
theorem keeps (wakes : k.Woken l lock w record taker rest woken) (busy : k.idle ≠ some k.current)
    (le : taker.priority ≤ record.priority)
    (above : ∀ entry ∈ k.ready.entries, entry.2 ≤ record.priority) :
    preempt.run woken = .ok ((), woken) := by
  apply run_preempt_of_not_outranked
  rw [Bool.eq_false_iff, ne_eq, outranked_iff, idles_iff, wakes.idle, wakes.current,
    priorityOf_of_get? wakes.releaser, wakes.ready]
  rintro ⟨entry, front, idles | ahead⟩
  · exact busy idles
  · rcases ReadyQueue.mem_entries_insert.mp (List.mem_of_mem_head? front) with rfl | queued
    · exact Nat.not_lt_of_le le ahead
    · exact Nat.not_lt_of_le (above entry queued) ahead

end Kernel.Woken

/-! ## The whole release -/

/-- Where a release has got to when it comes to wake somebody: the current thread, now of record
`record`, has given `l` up. -/
structure Kernel.GivesUp (k : Kernel) (l : LockId) (record : Thread) (freed : Kernel) : Prop where
  ran : l.giveUp.run (k.atLevel .off) = .ok ((), freed)
  rest : l.release.run k = ((do (← findLock l).semaphore.up : KernelM Unit).run freed).map
    fun r => (r.1, r.2.atLevel k.processor.level)
  current : freed.current = k.current
  unheld : freed.holder? l = none
  releaser : freed.threads.get? k.current = some record
  kept : ∃ thread, k.threads.get? k.current = some thread ∧
    record = { thread with donors := record.donors, priority := record.priority }
  donors : ∀ t, t ∈ record.donors ↔
    ∃ other ≠ l, k.AwaitsLock t other ∧ k.holder? other = some k.current
  priority : record.priority = freed.fairPriority record

/-- The release has switched to `w`, which has the lock, and left the current thread ready. -/
structure Kernel.HandsOver (k : Kernel) (l : LockId) (record : Thread) (w : ThreadId)
    (others : List ThreadId) (k' : Kernel) : Prop extends k'.Took l w where
  yielded : k'.threads.get? k.current = some { record with state := .ready, place := .ready }
  left : ∀ t, k'.AwaitsLock t l ↔ t ∈ others
  restored : record.donors = [] → k'.priorityOf k.current = record.base

/-- The release has left the current thread running and `l` free for `w`, which is ready to try
again. -/
structure Kernel.KeepsOn (k : Kernel) (l : LockId) (record : Thread) (w : ThreadId)
    (others : List ThreadId) (k' : Kernel) : Prop where
  current : k'.current = k.current
  unheld : k'.holder? l = none
  woken : ∃ taker, k'.threads.get? w = some taker ∧ taker.state = .ready ∧
    taker.pending = some (.lock l)
  goesOn : k'.threads.get? k.current = some record
  left : ∀ t, k'.AwaitsLock t l ↔ t ∈ others
  restored : record.donors = [] → k'.priorityOf k.current = record.base

section Release

variable (regular : Regular d ⟨k, none⟩) (named : d.plainHandles = true)
  (found : k.locks.get? l = some lock) (holds : lock.holder = some k.current)
  (foundCurrent : k.threads.get? k.current = some thread) (running : thread.state = .running)
  {donors : List ThreadId} {priority : Priority} {events : List Event}
  (drops : l.dropDonors.run k =
    .ok ((), (k.repriced k.current donors priority).withEvents events))

include regular named found holds foundCurrent running drops

/-- The first of the highest waiters is woken. -/
theorem LockId.exists_woken {front back : List ThreadId}
    (waiters : k.queueAt (.semaphore lock.semaphore) = front ++ w :: back)
    (ahead : ∀ t ∈ front, k.priorityOf t < k.priorityOf w)
    (behind : ∀ t ∈ back, k.priorityOf t ≤ k.priorityOf w) :
    ∃ taker rest woken, k.threads.get? w = some taker ∧ taker.pending = some (.lock l) ∧
      rest.Perm (front ++ back) ∧
      lock.semaphore.wake.run (l.freed donors priority events k) = .ok ((), woken) ∧
      k.Woken l lock w { thread with donors, priority } taker rest woken ∧
      Regular d ⟨woken, none⟩ := by
  have placed := regular.placed
  have graph := regular.graph named
  rcases graph.unit l lock found with ⟨unit, foundUnit, _, value⟩
  rw [queueAt_semaphore foundUnit] at waiters
  have listed : ∀ t ∈ front ++ w :: back, k.AwaitsLock t l := fun t listed =>
    (placed.awaitsLock_iff found foundUnit).mpr (waiters ▸ listed)
  have others : ∀ t ∈ front ++ w :: back, t ≠ k.current := fun t member =>
    placed.ne_current_of_awaitsLock foundCurrent running (listed t member)
  have first : w ∈ front ++ w :: back := List.mem_append_right _ (List.mem_cons_self ..)
  rcases id (listed w first) with ⟨taker, _, foundFirst, _⟩
  have left : taker.pending = some (.lock l) := by
    have waits := graph.queued w l taker (listed w first) foundFirst
    rcases graph.waiting w taker l foundFirst waits with ⟨left, _⟩ | ⟨here, _⟩
    · exact left
    · exact absurd here (others w first)
  have room : unit.value < maxHalfWord := by
    rw [value, holds, Option.isSome_some, if_pos rfl]
    decide
  have queue : Ranked.sort (l.freed donors priority events k).priorityOf unit.waiters =
      w :: Ranked.sort (l.freed donors priority events k).priorityOf (front ++ back) := by
    rw [waiters]
    exact sort_freed others ahead behind
  have wakes := SemaphoreId.run_wake (placed_freed regular.toSound foundCurrent running) foundUnit
    room queue ((get?_freed_of_ne (others w first)).trans foundFirst)
  exact ⟨taker, _, _, foundFirst, left, Ranked.sort_perm _ _, wakes,
    woken_freed found foundCurrent foundFirst (others w first) foundUnit,
    regular.move (.release ⟨thread, foundCurrent, running⟩ found holds drops wakes)⟩

end Release

/-- What a release does before it wakes anybody is done in full. -/
theorem LockId.exists_givesUp (regular : Regular d ⟨k, none⟩) (named : d.plainHandles = true)
    (found : k.locks.get? l = some lock) (holds : lock.holder = some k.current)
    (foundCurrent : k.threads.get? k.current = some thread) (running : thread.state = .running) :
    ∃ donors priority events, l.dropDonors.run (k.atLevel .off) =
        .ok ((), ((k.atLevel .off).repriced k.current donors priority).withEvents events) ∧
      k.GivesUp l { thread with donors, priority }
        (l.freed donors priority events (k.atLevel .off)) := by
  have unqueued := regular.placed.unqueued_of_running foundCurrent running
  rcases run_giveUp (k := k.atLevel .off) found foundCurrent unqueued with
    ⟨donors, events, members, drops, gives⟩
  have others : ∀ t, t ∈ donors ↔
      ∃ other ≠ l, k.AwaitsLock t other ∧ k.holder? other = some k.current := fun t =>
    (members t).trans ((regular.graph named).donors_left_iff foundCurrent)
  have price : ∀ priority, (l.freed donors priority events (k.atLevel .off)).fairPriority
      { thread with donors, priority } = k.fairPriority { thread with donors } := by
    intro priority
    rw [fairPriority, fairPriority]
    congr 1
    apply List.map_congr_left
    intro t donor
    rcases (others t).mp donor with ⟨other, _, awaits, _⟩
    have apart := regular.placed.ne_current_of_awaitsLock foundCurrent running awaits
    exact priorityOf_freed_of_ne (k := k.atLevel .off) apart
  refine ⟨donors, _, events, drops, gives, run_release_of_giveUp found holds gives, rfl, ?_, ?_,
    ⟨thread, foundCurrent, rfl⟩, others, (price _).symm⟩
  · exact (holder?_of_get? (Arena.get?_modify_self _ found)).trans rfl
  · exact Arena.get?_modify_self _ foundCurrent

/-- What is left of a release is to wake a waiter and to look for preemption. -/
theorem Kernel.GivesUp.run_release {freed woken last : Kernel} (gives : k.GivesUp l record freed)
    (found : freed.locks.get? l = some lock) (masked : freed.atLevel .off = freed)
    (wakes : lock.semaphore.wake.run freed = .ok ((), woken))
    (preempts : preempt.run woken = .ok ((), last)) :
    l.release.run k = .ok ((), last.atLevel k.processor.level) := by
  rw [gives.rest, run_bind_of_ok (run_findLock_eq_ok_iff.mpr ⟨found, rfl⟩), SemaphoreId.up,
    run_masked, masked, run_bind_of_ok wakes, preempts]
  rfl

/-- A release first gives the donors back that the caller has through the lock.  If the first of the
highest waiters then outranks the caller and every ready thread, it has the lock and the processor
when the release returns; if neither it nor a ready thread outranks the caller, the caller goes on
and the lock is free. -/
theorem release_hands_over (reachable : Reachable d k) (named : d.plainHandles = true)
    (busy : k.idle ≠ some k.current) (outside : k.inInterrupt = false)
    (found : k.locks.get? l = some lock) (holds : lock.holder = some k.current) :
    ∃ record freed, k.GivesUp l record freed ∧ ∀ front w back,
      k.queueAt (.semaphore lock.semaphore) = front ++ w :: back →
      (∀ t ∈ front, k.priorityOf t < k.priorityOf w) →
      (∀ t ∈ back, k.priorityOf t ≤ k.priorityOf w) →
      (record.priority < k.priorityOf w →
        (∀ t thread, k.threads.get? t = some thread → thread.state = .ready →
          thread.priority < k.priorityOf w) →
        ∃ k', l.release.run k = .ok ((), k') ∧ k.HandsOver l record w (front ++ back) k') ∧
      (k.priorityOf w ≤ record.priority →
        (∀ t thread, k.threads.get? t = some thread → thread.state = .ready →
          thread.priority ≤ record.priority) →
        ∃ k', l.release.run k = .ok ((), k') ∧ k.KeepsOn l record w (front ++ back) k') := by
  have steady := reachable.steady
  have regular := steady.regular
  have masked := steady.masked.regular
  rcases steady.runs with ⟨thread, foundCurrent, running, _⟩
  rcases LockId.exists_givesUp regular named found holds foundCurrent running with
    ⟨donors, priority, events, drops, gives⟩
  have base : ({ thread with donors, priority } : Thread).donors = [] → priority = thread.base := by
    intro none
    exact gives.priority.trans (by rw [fairPriority, none]; rfl)
  refine ⟨_, _, gives, fun front w back waiters ahead behind => ?_⟩
  rcases LockId.exists_woken masked named found holds foundCurrent running drops waiters ahead
    behind with ⟨taker, rest, woken, foundFirst, left, perm, wakes, wakened, regular'⟩
  have worth : k.priorityOf w = taker.priority := priorityOf_of_get? (k := k) foundFirst
  rw [worth]
  have release : ∀ last, preempt.run woken = .ok ((), last) →
      l.release.run k = .ok ((), last.atLevel k.processor.level) := fun last preempts =>
    gives.run_release (Arena.get?_modify_self _ found) rfl wakes preempts
  constructor
  · intro below above
    rcases wakened.hands regular' named outside busy running left below
        (masked.placed.forall_entries (P := (· < taker.priority)) above) with
      ⟨last, preempts, took, yielded, waits⟩
    refine ⟨_, release _ preempts, ⟨took.current, took.holder, took.finished, took.adopted⟩,
      yielded, fun t => (waits t).trans perm.mem_iff, fun none => ?_⟩
    exact (priorityOf_of_get? yielded).trans (base none)
  · intro le above
    have preempts := wakened.keeps busy le
      (masked.placed.forall_entries (P := (· ≤ priority)) above)
    rcases wakened.unit with ⟨unit, foundUnit, queued⟩
    refine ⟨_, release _ preempts, wakened.current, ?_, ⟨_, wakened.first, rfl, left⟩,
      wakened.releaser, fun t => ?_, fun none => ?_⟩
    · exact (holder?_of_get? wakened.unheld).trans rfl
    · refine (regular'.placed.awaitsLock_iff wakened.unheld foundUnit).trans ?_
      rw [queued, perm.mem_iff]
    · exact (priorityOf_of_get? wakened.releaser).trans (base none)

/-- The initial thread holds a lock.  It gives it up to the higher of two that wait for it, past a
thread that is ready, and goes on when the only one that waits is its equal. -/
theorem release_hands_over_of_waiters :
    (∃ k k' record, Reachable { plainHandles := true } k ∧ k.idle ≠ some k.current ∧
      k.inInterrupt = false ∧ k.holder? ⟨0⟩ = some k.current ∧ k.ready.threads = [⟨5⟩] ∧
      (LockId.release ⟨0⟩).run k = .ok ((), k') ∧ k.HandsOver ⟨0⟩ record ⟨4⟩ [⟨3⟩] k') ∧
    ∃ k k' record, Reachable { plainHandles := true } k ∧ k.idle ≠ some k.current ∧
      k.inInterrupt = false ∧ k.holder? ⟨0⟩ = some k.current ∧
      (LockId.release ⟨0⟩).run k = .ok ((), k') ∧ k.KeepsOn ⟨0⟩ record ⟨3⟩ [] k' := by
  constructor
  · have ran : (Discipline.performAll { plainHandles := true }
        [.start, .createLock, .acquire ⟨0⟩, .spawn { priority := 40 }, .acquire ⟨0⟩,
          .spawn { priority := 45 }, .acquire ⟨0⟩, .spawn { priority := 35 }]
        (.fresh {} .stable)).bind (fun k => (k.locks.get? ⟨0⟩).bind fun lock =>
          ((LockId.giveUp ⟨0⟩).run (k.atLevel .off)).toOption.map fun freed =>
            decide (k.idle ≠ some k.current ∧ k.inInterrupt = false ∧
              lock.holder = some k.current ∧ k.ready.threads = [⟨5⟩] ∧
              k.queueAt (.semaphore lock.semaphore) = [] ++ ⟨4⟩ :: [⟨3⟩] ∧
              (∀ t ∈ ([⟨3⟩] : List ThreadId), k.priorityOf t ≤ k.priorityOf ⟨4⟩) ∧
              freed.2.priorityOf k.current < k.priorityOf ⟨4⟩ ∧
              ∀ entry ∈ k.threads.entries, entry.2.state = .ready →
                entry.2.priority < k.priorityOf ⟨4⟩)) = some true := by decide +kernel
    rcases Option.bind_eq_some_iff.mp ran with ⟨k, performed, rest⟩
    rcases Option.bind_eq_some_iff.mp rest with ⟨lock, found, rest⟩
    rcases Option.map_eq_some_iff.mp rest with ⟨⟨_, freed⟩, gave, told⟩
    rcases of_decide_eq_true told with
      ⟨busy, outside, holds, ready, waiters, behind, below, above⟩
    have reachable := (Reachable.fresh {} .stable).performAll performed
    rcases release_hands_over reachable rfl busy outside found holds with
      ⟨record, freed', gives, outcomes⟩
    cases (ok_of_toOption gave).symm.trans gives.ran
    rw [priorityOf_of_get? gives.releaser] at below
    rcases (outcomes [] ⟨4⟩ [⟨3⟩] waiters (List.forall_mem_nil _) behind).1 below
      fun t thread found => above (t, thread) (Arena.mem_entries.mpr found) with
      ⟨k', released, hands⟩
    exact ⟨k, k', record, reachable, busy, outside, (holder?_of_get? found).trans holds, ready,
      released, hands⟩
  · have ran : (Discipline.performAll { plainHandles := true }
        [.start, .createLock, .acquire ⟨0⟩, .spawn { priority := 31 }, .yield, .acquire ⟨0⟩]
        (.fresh {} .stable)).bind (fun k => (k.locks.get? ⟨0⟩).bind fun lock =>
          ((LockId.giveUp ⟨0⟩).run (k.atLevel .off)).toOption.map fun freed =>
            decide (k.idle ≠ some k.current ∧ k.inInterrupt = false ∧
              lock.holder = some k.current ∧
              k.queueAt (.semaphore lock.semaphore) = [] ++ ⟨3⟩ :: [] ∧
              k.priorityOf ⟨3⟩ ≤ freed.2.priorityOf k.current ∧
              ∀ entry ∈ k.threads.entries, entry.2.state = .ready →
                entry.2.priority ≤ freed.2.priorityOf k.current)) = some true := by decide +kernel
    rcases Option.bind_eq_some_iff.mp ran with ⟨k, performed, rest⟩
    rcases Option.bind_eq_some_iff.mp rest with ⟨lock, found, rest⟩
    rcases Option.map_eq_some_iff.mp rest with ⟨⟨_, freed⟩, gave, told⟩
    rcases of_decide_eq_true told with ⟨busy, outside, holds, waiters, le, above⟩
    have reachable := (Reachable.fresh {} .stable).performAll performed
    rcases release_hands_over reachable rfl busy outside found holds with
      ⟨record, freed', gives, outcomes⟩
    cases (ok_of_toOption gave).symm.trans gives.ran
    rw [priorityOf_of_get? gives.releaser] at le above
    rcases (outcomes [] ⟨3⟩ [] waiters (List.forall_mem_nil _) (List.forall_mem_nil _)).2 le
      fun t thread found => above (t, thread) (Arena.mem_entries.mpr found) with
      ⟨k', released, keeps⟩
    exact ⟨k, k', record, reachable, busy, outside, (holder?_of_get? found).trans holds,
      released, keeps⟩

end ThreadKernel
