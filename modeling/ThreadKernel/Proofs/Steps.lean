import ThreadKernel.Proofs.Calm
import ThreadKernel.Proofs.Inversions

/-!
# Operations as moves

Every operation that ends well is a sequence of moves, from a kernel whose
current thread runs to another such kernel.  What `Sound.move` says of a move
therefore holds of every operation, and so does every other invariant of moves.

* `steps_of_run_schedule`: a dispatch picks threads and finishes what they were
  suspended in, until one of them stays running.
* `steps_of_run_perform`: any request.
-/

namespace ThreadKernel

open Kernel

/-- All is in order, and the current thread has nothing to finish. -/
structure Steady (d : Discipline) (k : Kernel) : Prop where
  regular : Regular d ⟨k, none⟩
  runs : k.Runs

/-- Moves from one running thread to the next, with the given deeds among them.  They
leave the kernel calm, provided that `before` holds. -/
structure Steps (d : Discipline) (deeds : List Deed) (before : Prop) (k k' : Kernel) : Prop where
  moves : Moves d deeds ⟨k, none⟩ ⟨k', none⟩
  runs : k'.Runs
  calm : d.Orderly → before → k'.Calm

variable {d : Discipline} {k k' k'' : Kernel} {t : ThreadId} {thread : Thread}
  {s : SemaphoreId} {l : LockId} {u : Unit} {before between : Prop} {act : Option Act}
  {deeds deeds' : List Deed}

theorem Steps.steady (steps : Steps d deeds before k k') (steady : Steady d k) : Steady d k' :=
  ⟨steady.regular.moves steps.moves, steps.runs⟩

theorem Steps.weaken (steps : Steps d deeds between k k') (weaker : before → between) :
    Steps d deeds before k k' :=
  ⟨steps.moves, steps.runs, fun orderly holds => steps.calm orderly (weaker holds)⟩

theorem Steps.trans (first : Steps d deeds before k k') (second : Steps d deeds' k'.Calm k' k'') :
    Steps d (deeds ++ deeds') before k k'' :=
  ⟨first.moves.trans second.moves, second.runs,
    fun orderly holds => second.calm orderly (first.calm orderly holds)⟩

/-- What comes before a check for preemption need not leave the kernel calm. -/
theorem Steps.settle (first : Steps d deeds before k k') (second : Steps d deeds' True k' k'') :
    Steps d (deeds ++ deeds') True k k'' :=
  ⟨first.moves.trans second.moves, second.runs, second.calm⟩

theorem Steps.append (first : Steps d deeds before k k') (second : Steps d deeds' between k' k'') :
    Steps d (deeds ++ deeds') False k k'' :=
  ⟨first.moves.trans second.moves, second.runs, nofun⟩

theorem Steady.refl (steady : Steady d k) : Steps d [] k.Calm k k :=
  ⟨.refl _, steady.runs, fun _ => id⟩

namespace Kernel

/-! ## What is not worth a move -/

theorem sameWork_of_remarks (told : Remarks k.events k'.events)
    (sleepers : k.sleepers.Rescanned k.clock.ticks k.wakeTickOf k'.sleepers)
    (enlisted : ∀ c, k'.enlisted c = k.enlisted c)
    (same : (k'.config, k'.threads, k'.ready, k'.semaphores, k'.locks, k'.current, k'.idle,
        k'.dying, k'.clock, k'.usage, k'.slice) =
      (k.config, k.threads, k.ready, k.semaphores, k.locks, k.current, k.idle, k.dying, k.clock,
        k.usage, k.slice)) : k.SameWork k' := by
  simp only [Prod.mk.injEq] at same
  obtain ⟨config, threads, ready, semaphores, locks, current, idle, dying, clock, usage, slice⟩ :=
    same
  exact ⟨config, threads, ready, sleepers, semaphores, locks, enlisted, current, idle, dying, clock,
    usage, slice, told⟩

theorem sameWork_atLevel (level : Level) : k.SameWork (k.atLevel level) :=
  sameWork_of_remarks (.refl _) (.refl _) (fun _ => rfl) rfl

theorem sameWork_resumed (k : Kernel) : k.SameWork k.resumed :=
  sameWork_of_remarks (.refl _) (.refl _) (fun _ => rfl) rfl

theorem sameWork_withEvents {events : List Event} (told : Remarks k.events events) :
    k.SameWork (k.withEvents events) :=
  sameWork_of_remarks told (.refl _) (fun _ => rfl) rfl

theorem SameWork.trans (first : k.SameWork k') (second : k'.SameWork k'') : k.SameWork k'' where
  config := second.config.trans first.config
  threads := second.threads.trans first.threads
  ready := second.ready.trans first.ready
  sleepers := by
    have rescanned := second.sleepers
    have ticks : k'.wakeTickOf = k.wakeTickOf := by
      funext t
      rw [wakeTickOf, first.threads, wakeTickOf]
    rw [first.clock, ticks] at rescanned
    exact first.sleepers.trans rescanned
  semaphores := second.semaphores.trans first.semaphores
  locks := second.locks.trans first.locks
  enlisted c := (second.enlisted c).trans (first.enlisted c)
  current := second.current.trans first.current
  idle := second.idle.trans first.idle
  dying := second.dying.trans first.dying
  clock := second.clock.trans first.clock
  usage := second.usage.trans first.usage
  slice := second.slice.trans first.slice
  events := first.events.trans second.events

theorem SameWork.runs (same : k.SameWork k') (runs : k.Runs) : k'.Runs := by
  obtain ⟨thread, found, rest⟩ := runs
  exact ⟨thread, by rw [same.threads, same.current]; exact found, rest⟩

end Kernel

/-- What is not worth a move may still concern interrupts. -/
theorem Steady.still (steady : Steady d k) (same : k.SameWork k')
    (calm : d.Orderly → before → k'.Calm) : Steps d [] before k k' :=
  ⟨.single (.quiet same), same.runs steady.runs, calm⟩

theorem Steady.quiet (steady : Steady d k) (same : k.SameWork k')
    (inInterrupt : k'.inInterrupt = k.inInterrupt) (yieldDue : k.yieldDue = true → k'.yieldDue = true) :
    Steps d [] k.Calm k k' :=
  steady.still same fun _ =>
    (placid_of_threads same.threads same.ready same.current same.idle inInterrupt yieldDue).calm

/-- Masking interrupts takes no moves that count. -/
theorem Steady.masked (steady : Steady d k) : Steady d (k.atLevel .off) :=
  (steady.quiet (sameWork_atLevel .off) rfl id).steady steady

theorem Steps.unmask (steps : Steps d deeds before (k.atLevel .off) k') (level : Level) :
    Steps d deeds before k (k'.atLevel level) :=
  ⟨.silentHead (.quiet (sameWork_atLevel .off)) (steps.moves.silent (.quiet (sameWork_atLevel level))),
    steps.runs, steps.calm⟩

/-! ## What is out of reach -/

namespace Kernel

/-- There is no unit for this work. -/
def Barren (k : Kernel) (work : Pending) : Prop :=
  ∃ s semaphore, k.target? work = some s ∧ k.semaphores.get? s = some semaphore ∧
    semaphore.value = 0

/-- `t` has work to finish for which there is no unit. -/
def Barred (k : Kernel) (t : ThreadId) : Prop := ∃ work, k.pending? t = some work ∧ k.Barren work

/-- The dispatcher cannot get `t` to run: it sleeps, or has work to finish for which there
is no unit. -/
def Away (k : Kernel) (t : ThreadId) : Prop :=
  k.Barred t ∨ ∃ thread, k.threads.get? t = some thread ∧ thread.place = .sleep

theorem Away.ne_current (away : k.Away t) (placed : k.Placed) (runs : k.Runs) :
    k.current ≠ t := by
  rintro rfl
  obtain ⟨thread, found, running, nothing⟩ := runs
  obtain ⟨work, pending, _⟩ | ⟨thread', found', asleep⟩ := away
  · cases ((pending?_of_get? found).trans nothing).symm.trans pending
  · cases found.symm.trans found'
    cases (placed.detached_of_running found running).symm.trans asleep

/-- The current thread has taken units at most, and nothing else has happened to others. -/
structure Selfish (k k' : Kernel) : Prop where
  targets : k'.target? = k.target?
  empty : ∀ s semaphore, k.semaphores.get? s = some semaphore → semaphore.value = 0 →
    ∃ semaphore', k'.semaphores.get? s = some semaphore' ∧ semaphore'.value = 0
  current : k'.current = k.current
  others : ∀ t, t ≠ k.current → (k'.threads.get? t).map (fun x => (x.position, x.pending)) =
    (k.threads.get? t).map fun x => (x.position, x.pending)

theorem Selfish.trans (first : k.Selfish k') (second : k'.Selfish k'') : k.Selfish k'' := by
  refine ⟨second.targets.trans first.targets, fun s semaphore found zero => ?_,
    second.current.trans first.current, fun t other => ?_⟩
  · obtain ⟨semaphore', found', zero'⟩ := first.empty s semaphore found zero
    exact second.empty s semaphore' found' zero'
  · rw [second.others t (first.current ▸ other), first.others t other]

theorem Selfish.barren (selfish : k.Selfish k') {work : Pending} (barren : k.Barren work) :
    k'.Barren work := by
  obtain ⟨s, semaphore, targets, found, zero⟩ := barren
  obtain ⟨semaphore', found', zero'⟩ := selfish.empty s semaphore found zero
  exact ⟨s, semaphore', by rw [selfish.targets, targets], found', zero'⟩

theorem Selfish.away (selfish : k.Selfish k') (other : t ≠ k.current) (away : k.Away t) :
    k'.Away t := by
  have record : ∀ thread, k.threads.get? t = some thread → ∃ thread',
      k'.threads.get? t = some thread' ∧ thread'.place = thread.place ∧
        thread'.pending = thread.pending := by
    intro thread found
    have same := selfish.others t other
    rw [found, Option.map_some, Option.map_eq_some_iff] at same
    obtain ⟨thread', found', eq⟩ := same
    obtain ⟨position, pending⟩ := Prod.mk.inj eq
    exact ⟨thread', found', (Prod.mk.inj position).2, pending⟩
  obtain ⟨work, pending, barren⟩ | ⟨thread, found, asleep⟩ := away
  · obtain ⟨thread, found, plans⟩ := Option.bind_eq_some_iff.mp pending
    obtain ⟨thread', found', _, same⟩ := record thread found
    refine .inl ⟨work, ?_, selfish.barren barren⟩
    rw [pending?_of_get? found', same, plans]
  · obtain ⟨thread', found', same, _⟩ := record thread found
    exact .inr ⟨thread', found', same.trans asleep⟩

theorem Retouched.selfish (same : k.Retouched k') : k.Selfish k' := by
  refine ⟨target?_congr same.locks, fun _ semaphore found zero => ⟨semaphore, ?_, zero⟩,
    same.current, fun t _ => same.threads t⟩
  rw [same.semaphores]
  exact found

theorem selfish_of_run_attempt {work : Pending} {success : Bool}
    (h : (s.attempt work).run k = .ok (success, k')) : k.Selfish k' := by
  obtain ⟨semaphore, found, ⟨_, positive, rfl⟩ | ⟨_, _, waiters, _, rfl⟩⟩ :=
    SemaphoreId.of_run_attempt h
  · refine ⟨rfl, fun s' semaphore' found' zero => ⟨semaphore', ?_, zero⟩, rfl, fun _ _ => rfl⟩
    rw [SemaphoreId.taken_semaphores, Arena.get?_modify_of_ne _ fun same => ?_, found']
    subst same
    cases found.symm.trans found'
    rw [zero] at positive
    exact Nat.lt_irrefl 0 positive
  · refine ⟨rfl, fun s' semaphore' found' zero => ?_, rfl, fun t other =>
      congrArg _ (Arena.get?_modify_of_ne _ (Ne.symm other))⟩
    rw [SemaphoreId.queued_semaphores, Arena.get?_modify, found']
    split <;> exact ⟨_, rfl, zero⟩

/-- `t` waits for what the dispatcher cannot give it. -/
structure Waits (k : Kernel) (t : ThreadId) : Prop where
  blocked : ∃ thread, k.threads.get? t = some thread ∧ thread.state = .blocked
  away : k.Away t

theorem waits_of_run_attempt {work : Pending} (running : k.Running)
    (targets : k.target? work = some s) (h : (s.attempt work).run k = .ok (false, k')) :
    k'.Waits k.current := by
  obtain ⟨thread, found, _⟩ := running
  obtain ⟨semaphore, waiters, foundSemaphore, zero, _, rfl⟩ := SemaphoreId.of_run_attempt_false h
  have record := Arena.get?_modify_self (fun thread : Thread =>
    { thread with state := .blocked, place := .semaphore s, pending := some work }) found
  exact ⟨⟨_, record, rfl⟩, .inl ⟨work, pending?_of_get? (k := s.queued work waiters k) record,
    s, { semaphore with waiters }, targets, Arena.get?_modify_self _ foundSemaphore, zero⟩⟩

/-- Only a semaphore that had a unit is destroyed once the unit is taken. -/
theorem selfish_destroyed {semaphore : Semaphore} (found : k.semaphores.get? s = some semaphore)
    (positive : 0 < semaphore.value) : k.Selfish (s.destroyed (s.taken k)) := by
  refine ⟨rfl, fun s' semaphore' found' zero => ⟨semaphore', ?_, zero⟩, rfl, fun _ _ => rfl⟩
  have other : s ≠ s' := by
    rintro rfl
    cases found.symm.trans found'
    rw [zero] at positive
    exact Nat.lt_irrefl 0 positive
  rw [SemaphoreId.destroyed_semaphores, Arena.get?_erase, if_neg other, SemaphoreId.taken_semaphores,
    Arena.get?_modify_of_ne _ other, found']

end Kernel

/-! ## Tries -/

/-- A try goes on from pending work.  If it succeeds, the current thread still runs and
no ready thread has got ahead of it. -/
structure Tries (d : Discipline) (act : Option Act) (due : Option Pending) (k : Kernel)
    (success : Bool) (k' : Kernel) : Prop where
  moves : Moves d (Machine.deeds ⟨k, due⟩ act) ⟨k, due⟩ ⟨k', none⟩
  runs : success = true → k'.Runs
  placid : success = true → d.plainHandles = true → k.Placid k'
  selfish : k.Selfish k'
  waits : success = false → k'.Waits k.current

variable {due : Option Pending} {success : Bool}

theorem tries_of_run_attempt (runs : k.Runs) (plain : d.plainHandles = true → k.MadeFor s .plain)
    (onset : Onset d k (.down s) (.unit s) act due)
    (h : (s.attempt (.unit s)).run k = .ok (success, k')) : Tries d act due k success k' := by
  have move : Move d act ⟨k, due⟩ ⟨k', none⟩ := .attempt runs plain onset h
  obtain ⟨_, _, ⟨rfl, _, rfl⟩ | ⟨rfl, _, _, _, rfl⟩⟩ := SemaphoreId.of_run_attempt h
  · exact ⟨.single move, fun _ => runs, fun _ _ => placid_of_threads rfl rfl rfl rfl rfl id, selfish_of_run_attempt h,
      nofun⟩
  · exact ⟨.single move, nofun, nofun, selfish_of_run_attempt h,
      fun _ => waits_of_run_attempt runs.running rfl h⟩

theorem tries_of_run_attemptLock (regular : Regular d ⟨k, due⟩) (runs : k.Runs)
    (onset : Onset d k (.acquire l) (.lock l) act due)
    (h : l.attempt.run k = .ok (success, k')) : Tries d act due k success k' := by
  have move : Move d act ⟨k, due⟩ ⟨k', none⟩ := .attemptLock runs onset h
  obtain ⟨lock, asking, tried, found, asks, tries, ended⟩ := LockId.of_run_attempt h
  have sound := regular.toSound.asks asks
  have same := asks.retouched
  have selfish := same.selfish.trans (selfish_of_run_attempt tries)
  obtain ⟨rfl, holds⟩ | ⟨rfl, rfl⟩ := ended
  · obtain ⟨_, _, _, rfl⟩ := SemaphoreId.of_run_attempt_true tries
    have held := LockId.retouched_of_run_hold_taken sound.placed (same.runs runs).running holds
    exact ⟨.single move, fun _ => held.runs (same.runs runs),
      fun _ named => placid_of_run_attemptLock regular named runs h, selfish.trans held.selfish,
      nofun⟩
  · refine ⟨.single move, nofun, nofun, selfish, fun _ => same.current ▸ ?_⟩
    refine waits_of_run_attempt (same.runs runs).running ?_ tries
    rw [target?_congr same.locks, target?, found, Option.map_some]

/-- The signal of a wait is taken, then its lock. -/
theorem tries_of_run_reacquire (regular : Regular d ⟨k, some (.signal s l)⟩) (runs : k.Runs)
    (h : (l.reacquire s).run k = .ok (success, k')) :
    Tries d none (some (.signal s l)) k success k' := by
  obtain ⟨first, tried, tries, h⟩ := run_bind_eq_ok_iff.mp h
  cases first with
  | false =>
    cases h
    exact ⟨.single (.unsignalled runs tries), nofun, nofun, selfish_of_run_attempt tries,
      fun _ => waits_of_run_attempt runs.running rfl tries⟩
  | true =>
    obtain ⟨_, destroyed, destroys, h⟩ := run_bind_eq_ok_iff.mp h
    have signalled : Move d none ⟨k, some (.signal s l)⟩ ⟨destroyed, some (.lock l)⟩ :=
      .signalled runs tries destroys
    obtain ⟨_, _, _, rfl⟩ := SemaphoreId.of_run_destroy destroys
    obtain ⟨_, found, positive, rfl⟩ := SemaphoreId.of_run_attempt_true tries
    have locks := tries_of_run_attemptLock (regular.move signalled) runs .resumed h
    refine ⟨.silentHead signalled locks.moves, locks.runs, fun success named => ?_,
      (selfish_destroyed found positive).trans locks.selfish, locks.waits⟩
    have destroyed : k.Placid (s.destroyed (s.taken k)) :=
      placid_of_threads rfl rfl rfl rfl rfl id
    exact destroyed.trans (locks.placid success named)

/-- The dispatcher tries what the thread it switched to was suspended in. -/
theorem tries_of_run_finish (regular : Regular d ⟨k, due⟩) (runs : k.Runs)
    (h : (finish due).run k = .ok (success, k')) : Tries d none due k success k' := by
  match due, h with
  | none, h =>
    cases h
    exact ⟨.refl _, fun _ => runs, fun _ _ => .refl k,
      ⟨rfl, fun _ semaphore found zero => ⟨semaphore, found, zero⟩, rfl, fun _ _ => rfl⟩, nofun⟩
  | some (.unit s), h =>
    exact tries_of_run_attempt runs (fun named => (regular.plain named).due _ rfl) .resumed h
  | some (.lock l), h => exact tries_of_run_attemptLock regular runs .resumed h
  | some (.signal s l), h => exact tries_of_run_reacquire regular runs h

/-! ## Tries that must fail -/

/-- The current thread has tried in vain, and has the same work to do. -/
structure Fails (k : Kernel) (work : Pending) (success : Bool) (k' : Kernel) : Prop where
  fails : success = false
  pending : k'.pending? k.current = some work
  barren : k'.Barren work
  ready : k'.ready.threads.Perm k.ready.threads
  idle : k'.idle = k.idle

theorem fails_of_run_attempt {work : Pending} (found : k.threads.get? k.current = some thread)
    (targets : k.target? work = some s) (barren : k.Barren work)
    (h : (s.attempt work).run k = .ok (success, k')) : Fails k work success k' := by
  have selfish := selfish_of_run_attempt h
  obtain ⟨s', semaphore, targets', foundSemaphore, zero⟩ := barren
  cases targets.symm.trans targets'
  obtain ⟨semaphore', found', ⟨_, positive, _⟩ | ⟨rfl, _, waiters, _, rfl⟩⟩ :=
    SemaphoreId.of_run_attempt h
  · cases foundSemaphore.symm.trans found'
    rw [zero] at positive
    exact absurd positive (Nat.lt_irrefl 0)
  · have record := Arena.get?_modify_self (fun thread : Thread =>
      { thread with state := .blocked, place := .semaphore s, pending := some work }) found
    exact ⟨rfl, pending?_of_get? (k := s.queued work waiters k) record,
      selfish.barren ⟨s, semaphore, targets, foundSemaphore, zero⟩, .refl _, rfl⟩

theorem fails_of_run_finish {work : Pending} (found : k.threads.get? k.current = some thread)
    (barren : k.Barren work) (h : (finish (some work)).run k = .ok (success, k')) :
    Fails k work success k' := by
  cases work with
  | unit s => exact fails_of_run_attempt found rfl barren h
  | lock l =>
    obtain ⟨lock, asking, tried, foundLock, asks, tries, ended⟩ := LockId.of_run_attempt h
    have same := asks.retouched
    obtain ⟨thread', found', _⟩ := same.threads.symm.exists_get? found
    rw [← same.current] at found'
    have targets : asking.target? (.lock l) = some lock.semaphore := by
      rw [target?_congr same.locks, target?, foundLock, Option.map_some]
    obtain ⟨rfl, pending, barren, ready, idle⟩ :=
      fails_of_run_attempt found' targets (same.selfish.barren barren) tries
    rw [same.current] at pending
    obtain ⟨no, _⟩ | ⟨_, rfl⟩ := ended
    · cases no
    · exact ⟨rfl, pending, barren, ready.trans same.ready, idle.trans same.idle⟩
  | signal s l =>
    obtain ⟨first, tried, tries, h⟩ := run_bind_eq_ok_iff.mp h
    have fails := fails_of_run_attempt found rfl barren tries
    obtain rfl := fails.fails
    cases h
    exact fails

/-! ## The dispatcher -/

/-- Nothing is ready, and the idle thread waits for a unit that is not there. -/
structure Stuck (k : Kernel) : Prop where
  empty : k.ready.threads = []
  idle : ∃ t, k.idle = some t ∧ k.Barred t

/-- A stuck kernel picks the idle thread, which blocks at once. -/
theorem stuck_of_run_dispatchOnce (stuck : Stuck k) {running : Bool}
    (h : dispatchOnce.run k = .ok (running, k')) : running = false ∧ Stuck k' := by
  obtain ⟨_, next, thread, place, ready, processor, dying, events, _, _, found, picks, _, _, h⟩ :=
    of_run_dispatchOnce h
  obtain ⟨t, idle, work, pending, barren⟩ := stuck.idle
  cases picks with
  | front pop =>
    cases stuck.empty.symm.trans (ReadyQueue.threads_of_pop? pop)
  | fallback _ idles =>
    cases idle.symm.trans idles
    rw [(pending?_of_get? found).symm.trans pending] at h
    have record := Arena.get?_modify_self (fun old : Thread =>
      { old with state := .running, place := thread.place, pending := none }) found
    obtain ⟨rfl, pending, barren, queue, idle'⟩ := fails_of_run_finish
      (k := k.dispatched next thread.place k.ready processor dying events) record barren h
    exact ⟨rfl, List.perm_nil.mp (stuck.empty ▸ queue), next, idle'.trans idle, work, pending, barren⟩

/-- A stuck kernel never gets out of its dispatch. -/
theorem not_stuck_of_run_dispatch {picks : Nat} (h : (dispatch picks).run k = .ok (u, k')) :
    ¬ Stuck k := by
  intro stuck
  induction picks generalizing k with
  | zero => cases h
  | succ picks ih =>
    obtain ⟨running, middle, once, h⟩ := run_bind_eq_ok_iff.mp h
    obtain ⟨rfl, stuck⟩ := stuck_of_run_dispatchOnce stuck once
    exact ih h stuck

/-- An idle thread that waits while nothing is ready waits in vain: the unit it
waits for is not there, as nobody would be about to take it. -/
theorem Sound.stuck (sound : Sound d ⟨k, none⟩) (empty : k.ready.pop? = none)
    (idle : k.idle = some t) (found : k.threads.get? t = some thread)
    (listed : thread.place ≠ .detached) : Stuck k := by
  have nothing := ReadyQueue.threads_of_pop?_eq_none empty
  obtain ⟨thread', found', _, awake⟩ := sound.placed.idle t idle
  cases found.symm.trans found'
  cases there : thread.place with
  | detached => exact absurd there listed
  | sleep => exact absurd there awake
  | ready =>
    have queued : t ∈ k.ready.threads :=
      (sound.placed.mem_queueAt (p := .ready) nofun t).mpr ⟨thread, found, there⟩
    rw [nothing] at queued
    cases queued
  | semaphore s =>
    have waits := (sound.placed.mem_queueAt (p := .semaphore s) nofun t).mpr ⟨thread, found, there⟩
    cases foundSemaphore : k.semaphores.get? s with
    | none =>
      rw [queueAt, foundSemaphore] at waits
      cases waits
    | some semaphore =>
      rw [queueAt_semaphore foundSemaphore] at waits
      have aims := sound.attended.retries s semaphore foundSemaphore t waits
      obtain ⟨work, pending, targets⟩ := Option.bind_eq_some_iff.mp aims
      have bound := sound.attended.bounded s semaphore foundSemaphore (List.ne_nil_of_mem waits)
      rw [Machine.budget_none, retrying, nothing] at bound
      exact ⟨nothing, t, idle, work, pending, s, semaphore, targets, foundSemaphore,
        Nat.le_zero.mp bound⟩

/-- The dispatcher picks a thread, and then finishes what is left of it to do. -/
theorem pick_of_run_dispatchOnce (regular : Regular d ⟨k, none⟩) (free : ¬ Stuck k)
    (swept : k.Swept) {running : Bool} (h : dispatchOnce.run k = .ok (running, k')) :
    ∃ next thread place ready processor dying events, k.threads.get? next = some thread ∧
      k.Picks next thread place ready ∧
      (thread.place = .ready ∨ thread.place = .detached) ∧
      Move d none ⟨k, none⟩
        ⟨k.dispatched next place ready processor dying events, thread.pending⟩ ∧
      (k.dispatched next place ready processor dying events).Runs ∧
      (finish thread.pending).run (k.dispatched next place ready processor dying events) =
        .ok (running, k') := by
  obtain ⟨previous, next, thread, place, ready, processor, dying, events, foundPrevious, halted,
    found, picks, departs, handed, h⟩ := of_run_dispatchOnce h
  have fallback : k.ready.pop? = none → k.idle = some next → thread.place = .detached := by
    intro empty idles
    by_cases detached : thread.place = .detached
    · exact detached
    · exact absurd (regular.toSound.stuck empty idles found detached) free
  exact ⟨next, thread, place, ready, processor, dying, events, found, picks,
    regular.placed.awake_of_picks found picks fallback,
    .pick foundPrevious halted found picks fallback departs handed swept,
    ⟨_, Arena.get?_modify_self _ found, rfl, rfl⟩, h⟩

theorem Kernel.swept_of_alive (found : k.threads.get? k.current = some thread)
    (alive : thread.state ≠ .dying) : k.Swept := by
  intro thread' found' exited
  cases found.symm.trans found'
  exact absurd exited alive

theorem moves_of_run_dispatchOnce (regular : Regular d ⟨k, none⟩) (free : ¬ Stuck k)
    (swept : k.Swept) {running : Bool} (h : dispatchOnce.run k = .ok (running, k')) :
    Moves d [] ⟨k, none⟩ ⟨k', none⟩ ∧ (running = true → k'.Runs ∧ (d.Orderly → k'.Calm)) ∧
      (running = false → k'.Swept) ∧ ∀ t, k.Away t → k'.Away t := by
  obtain ⟨next, thread, place, ready, processor, dying, events, found, picks, awake, pick, runs, h⟩ :=
    pick_of_run_dispatchOnce regular free swept h
  have tries := tries_of_run_finish (regular.move pick) runs h
  refine ⟨.silentHead pick tries.moves, fun success => ⟨tries.runs success, fun orderly => ?_⟩,
    fun failure => ?_, fun t away => ?_⟩
  · have unranked := not_outranked_dispatched regular.toSound orderly.sparesIdle picks processor
      dying events
    exact (tries.placid success orderly.plainHandles).calm (calm_of_not_outranked unranked)
  · obtain ⟨stopped, foundStopped, blocked⟩ := (tries.waits failure).blocked
    rw [← tries.selfish.current] at foundStopped
    exact swept_of_alive foundStopped (by simp [blocked])
  · by_cases here : t = next
    · subst here
      obtain ⟨work, pending, barren⟩ | ⟨thread', found', asleep⟩ := away
      · rw [(pending?_of_get? found).symm.trans pending] at h
        have fails := fails_of_run_finish (k := k.dispatched t place ready processor dying events)
          (Arena.get?_modify_self _ found) barren h
        exact .inl ⟨work, fails.pending, fails.barren⟩
      · cases found.symm.trans found'
        obtain there | there := awake <;> cases asleep.symm.trans there
    · refine tries.selfish.away here (away.imp (fun ⟨work, pending, barren⟩ => ⟨work, ?_, barren⟩)
        fun ⟨thread', found', asleep⟩ => ⟨thread', ?_, asleep⟩)
      · exact (pending?_mapThread_of_ne (k := k) here).trans pending
      · exact (Arena.get?_modify_of_ne _ (Ne.symm here)).trans found'

/-- A dispatch, pick by pick: one that comes to nothing leads to the next, and one that gets a
thread to run is the last. -/
inductive Elects (d : Discipline) : Kernel → Kernel → Prop
  | goes {k k' : Kernel} (regular : Regular d ⟨k, none⟩) (free : ¬ Stuck k) (swept : k.Swept)
      (once : dispatchOnce.run k = .ok (true, k')) :
      Elects d k k'
  | fails {k middle k' : Kernel} (regular : Regular d ⟨k, none⟩) (free : ¬ Stuck k)
      (swept : k.Swept) (once : dispatchOnce.run k = .ok (false, middle))
      (rest : Elects d middle k') :
      Elects d k k'

theorem of_run_dispatch (regular : Regular d ⟨k, none⟩) (swept : k.Swept) {picks : Nat}
    (h : (dispatch picks).run k = .ok (u, k')) : Elects d k k' := by
  induction picks generalizing k with
  | zero => cases h
  | succ picks ih =>
    have free := not_stuck_of_run_dispatch h
    obtain ⟨running, middle, once, h⟩ := run_bind_eq_ok_iff.mp h
    cases running with
    | true =>
      cases h
      exact .goes regular free swept once
    | false =>
      obtain ⟨moves, _, failure, _⟩ := moves_of_run_dispatchOnce regular free swept once
      exact .fails regular free swept once (ih (regular.moves moves) (failure rfl) h)

theorem Elects.steps (elects : Elects d k k') :
    Steps d [] True k k' ∧ ∀ t, k.Away t → k'.Away t := by
  induction elects with
  | goes regular free swept once =>
    obtain ⟨moves, success, _, away⟩ := moves_of_run_dispatchOnce regular free swept once
    obtain ⟨runs, calm⟩ := success rfl
    exact ⟨⟨moves, runs, fun orderly _ => calm orderly⟩, away⟩
  | fails regular free swept once _ ih =>
    obtain ⟨moves, _, _, away⟩ := moves_of_run_dispatchOnce regular free swept once
    obtain ⟨rest, stays⟩ := ih
    exact ⟨⟨moves.trans rest.moves, rest.runs, rest.calm⟩, fun t gone => stays t (away t gone)⟩

/-- Whoever is not picked stays where it is, with the same to do. -/
theorem seen_of_run_dispatchOnce (regular : Regular d ⟨k, none⟩) (free : ¬ Stuck k)
    (swept : k.Swept) {running : Bool} (h : dispatchOnce.run k = .ok (running, k'))
    (t : ThreadId) :
    (k'.threads.get? t).map (fun x => (x.position, x.pending)) =
        (k.threads.get? t).map (fun x => (x.position, x.pending)) ∨
      ∃ thread, k.threads.get? t = some thread ∧ thread.state ≠ .dying ∧
        (thread.pending = none → running = true ∧ k'.current = t) := by
  obtain ⟨next, thread, place, ready, processor, dying, events, found, picks, awake, pick, runs,
    ends⟩ := pick_of_run_dispatchOnce regular free swept h
  by_cases here : t = next
  · subst here
    refine .inr ⟨thread, found, regular.placed.alive_of_picks found picks, fun undue => ?_⟩
    rw [undue] at ends
    cases ends
    exact ⟨rfl, rfl⟩
  · have tries := tries_of_run_finish (regular.move pick) runs ends
    exact .inl ((tries.selfish.others t here).trans
      (congrArg _ (Arena.get?_modify_of_ne _ (Ne.symm here))))

/-- Whoever a dispatch does not pick stays where it is, with the same to do.  A thread that has
exited is not picked, and one with nothing to do runs on when it is. -/
theorem Elects.seen (elects : Elects d k k') (t : ThreadId) :
    (k'.threads.get? t).map (fun x => (x.position, x.pending)) =
        (k.threads.get? t).map (fun x => (x.position, x.pending)) ∨
      ∃ thread, k.threads.get? t = some thread ∧ thread.state ≠ .dying ∧
        (thread.pending = none → k'.current = t) := by
  induction elects with
  | goes regular free swept once =>
    obtain same | ⟨thread, found, alive, goes⟩ := seen_of_run_dispatchOnce regular free swept once t
    · exact .inl same
    · exact .inr ⟨thread, found, alive, fun undue => (goes undue).2⟩
  | fails regular free swept once _ ih =>
    obtain same | ⟨thread, found, alive, goes⟩ := seen_of_run_dispatchOnce regular free swept once t
    · obtain later | ⟨seen, foundSeen, alive, goes⟩ := ih
      · exact .inl (later.trans same)
      · rw [foundSeen, Option.map_some, eq_comm, Option.map_eq_some_iff] at same
        obtain ⟨thread, found, eq⟩ := same
        obtain ⟨position, pending⟩ := Prod.mk.inj eq
        refine .inr ⟨thread, found, ?_, fun none => goes (pending.symm.trans none)⟩
        rwa [(Prod.mk.inj position).1]
    · refine .inr ⟨thread, found, alive, fun undue => ?_⟩
      cases (goes undue).1

theorem swept_of_run_reclaim (h : reclaim.run k = .ok (u, k')) : k'.Swept := by
  obtain ⟨_, _, _, _, _, rfl⟩ := of_run_reclaim h
  exact fun _ _ _ => rfl

theorem of_run_schedule (regular : Regular d ⟨k, none⟩) (h : schedule.run k = .ok (u, k')) :
    ∃ reclaimed, reclaim.run k = .ok ((), reclaimed) ∧ Elects d reclaimed k' := by
  rw [schedule, run_get_bind, run_require_bind_eq_ok_iff] at h
  obtain ⟨_, reclaimed, ran, h⟩ := run_bind_eq_ok_iff.mp h.2
  rw [run_get_bind] at h
  exact ⟨reclaimed, ran, of_run_dispatch (regular.move (.reclaim ran)) (swept_of_run_reclaim ran) h⟩

/-- The processor is given up, whatever state the current thread has left in.  It does
not come back to a thread that is away. -/
theorem steps_of_run_schedule (regular : Regular d ⟨k, none⟩)
    (h : schedule.run k = .ok (u, k')) :
    Steps d [] True k k' ∧ ∀ thread, k.threads.get? k.current = some thread →
      thread.state ≠ .dying → k.Away k.current → k'.current ≠ k.current := by
  obtain ⟨reclaimed, ran, elects⟩ := of_run_schedule regular h
  have reclaims : Move d none ⟨k, none⟩ ⟨reclaimed, none⟩ := .reclaim ran
  obtain ⟨⟨moves, runs, calm⟩, stays⟩ := elects.steps
  refine ⟨⟨.silentHead reclaims moves, runs, calm⟩, fun thread found alive away => ?_⟩
  have middle := regular.move reclaims
  refine (stays k.current ?_).ne_current (middle.moves moves).placed runs
  obtain ⟨threads, events, _, _, gone, rfl⟩ := of_run_reclaim ran
  have kept : threads.get? k.current = k.threads.get? k.current := by
    rw [gone, if_neg fun left => alive (regular.placed.dying_of_mem left found)]
  refine away.imp (fun ⟨work, pending, barren⟩ => ⟨work, ?_, barren⟩)
    fun ⟨thread', found', asleep⟩ => ⟨thread', kept.trans found', asleep⟩
  rw [pending?] at pending ⊢
  exact (congrArg (·.bind (·.pending)) kept).trans pending

/-- Moves that take the processor from the current thread, and what `schedule` makes of it. -/
theorem steps_of_run_schedule_after {halted : Kernel} (regular : Regular d ⟨k, none⟩)
    (moves : Moves d deeds ⟨k, none⟩ ⟨halted, none⟩) (h : schedule.run halted = .ok (u, k')) :
    Steps d deeds True k k' := by
  obtain ⟨⟨rest, runs, calm⟩, _⟩ := steps_of_run_schedule (regular.moves moves) h
  have all := moves.trans rest
  rw [List.append_nil] at all
  exact ⟨all, runs, calm⟩

/-! ## What leaves the current thread running -/

/-- The same thread runs, with the same to finish. -/
structure Kernel.KeepsCurrent (k k' : Kernel) : Prop where
  current : k'.current = k.current
  record : (k'.threads.get? k.current).map (fun x => (x.state, x.pending)) =
    (k.threads.get? k.current).map fun x => (x.state, x.pending)

theorem Kernel.KeepsCurrent.exists_get? (keeps : k.KeepsCurrent k')
    (found : k.threads.get? k.current = some thread) :
    ∃ thread', k'.threads.get? k'.current = some thread' ∧ thread'.state = thread.state ∧
      thread'.pending = thread.pending := by
  have same := keeps.record
  rw [found, Option.map_some, Option.map_eq_some_iff] at same
  obtain ⟨thread', found', eq⟩ := same
  obtain ⟨state, pending⟩ := Prod.mk.inj eq
  rw [← keeps.current] at found'
  exact ⟨thread', found', state, pending⟩

theorem Kernel.KeepsCurrent.running (keeps : k.KeepsCurrent k') (running : k.Running) :
    k'.Running := by
  obtain ⟨thread, found, state⟩ := running
  obtain ⟨thread', found', state', _⟩ := keeps.exists_get? found
  exact ⟨thread', found', state'.trans state⟩

theorem Kernel.KeepsCurrent.runs (keeps : k.KeepsCurrent k') (runs : k.Runs) : k'.Runs := by
  obtain ⟨thread, found, state, pending⟩ := runs
  obtain ⟨thread', found', state', pending'⟩ := keeps.exists_get? found
  exact ⟨thread', found', state'.trans state, pending'.trans pending⟩

theorem Kernel.KeepsCurrent.trans (first : k.KeepsCurrent k') (second : k'.KeepsCurrent k'') :
    k.KeepsCurrent k'' := by
  have record := second.record
  rw [first.current] at record
  exact ⟨second.current.trans first.current, record.trans first.record⟩

/-- A move that may make the kernel less calm. -/
theorem Steady.step (steady : Steady d k) (move : Move d act ⟨k, none⟩ ⟨k', none⟩)
    (keeps : k.KeepsCurrent k') : Steps d (Machine.deeds ⟨k, none⟩ act) False k k' :=
  ⟨.single move, keeps.runs steady.runs, nofun⟩

theorem Steady.placidStep (steady : Steady d k) (move : Move d act ⟨k, none⟩ ⟨k', none⟩)
    (keeps : k.KeepsCurrent k') (placid : k.Placid k') :
    Steps d (Machine.deeds ⟨k, none⟩ act) k.Calm k k' :=
  ⟨.single move, keeps.runs steady.runs, fun _ => placid.calm⟩

/-- Another record than that of the current thread is changed. -/
theorem Kernel.keepsCurrent_of_ne {f : Thread → Thread} (other : t ≠ k.current)
    (threads : k'.threads = k.threads.modify t f)
    (current : k'.current = k.current) : k.KeepsCurrent k' :=
  ⟨current, by rw [threads, Arena.get?_modify_of_ne _ other]⟩

/-- What is changed about the current thread is neither its state nor its plans. -/
theorem Kernel.keepsCurrent_of_modify {f : Thread → Thread}
    (threads : k'.threads = k.threads.modify t f)
    (blind : ∀ x, ((f x).state, (f x).pending) = (x.state, x.pending))
    (current : k'.current = k.current) : k.KeepsCurrent k' := by
  refine ⟨current, ?_⟩
  rw [threads]
  have agree : Arena.Agree (fun x : Thread => (x.state, x.pending)) (k.threads.modify t f)
      k.threads := Arena.agree_modify blind
  exact agree k.current

theorem keepsCurrent_of_run_unblock (running : k.Running)
    (h : (unblock t).run k = .ok (u, k')) : k.KeepsCurrent k' := by
  obtain ⟨thread, found, blocked, _, _, rfl⟩ := of_run_unblock h
  refine keepsCurrent_of_ne (t := t) ?_ rfl rfl
  intro same
  subst same
  obtain ⟨thread', found', runs⟩ := running
  cases found.symm.trans found'
  cases blocked.symm.trans runs

theorem keepsCurrent_of_run_wake (running : k.Running)
    (h : s.wake.run k = .ok (u, k')) : k.KeepsCurrent k' := by
  obtain ⟨semaphore, found, ⟨_, rfl⟩ | ⟨t, rest, perm, h⟩⟩ := SemaphoreId.of_run_wake h
  · exact ⟨rfl, rfl⟩
  · have roused : k.KeepsCurrent (s.roused t rest k) := keepsCurrent_of_modify (t := t) rfl (fun _ => rfl) rfl
    exact roused.trans (keepsCurrent_of_run_unblock (roused.running running) h)

/-! ## Scheduling operations -/

theorem Kernel.StandsBy.move (aside : k.StandsBy k') (running : k.Running) :
    Move d none ⟨k, none⟩ ⟨k', none⟩ := by
  cases aside with
  | idle idles => exact .halt running (.inr (idles_iff.mp idles)) (.inl rfl)
  | ready busy found =>
    obtain ⟨thread, found', runs⟩ := running
    cases found.symm.trans found'
    refine .ready found runs fun idles => ?_
    rw [idles_iff.mpr idles] at busy
    cases busy

/-- Standing by, a thread is not gone, and has the same work to finish. -/
theorem Kernel.StandsBy.barred (aside : k.StandsBy k') (running : k.Running) :
    ∃ thread, k'.threads.get? k'.current = some thread ∧ thread.state ≠ .dying ∧
      (k.Barred k.current → k'.Barred k'.current) := by
  obtain ⟨thread, found, _⟩ := running
  have still : ∀ {f : Thread → Thread}, (∀ x, (f x).pending = x.pending) →
      (k.mapThread k.current f).pending? k.current = k.pending? k.current := pending?_mapThread
  cases aside with
  | idle =>
    exact ⟨_, Arena.get?_modify_self _ found, nofun, fun ⟨work, pending, barren⟩ =>
      ⟨work, (still fun _ => by rfl).trans pending, barren⟩⟩
  | ready _ found' =>
    exact ⟨_, Arena.get?_modify_self _ found', nofun, fun ⟨work, pending, barren⟩ =>
      ⟨work, (still fun _ => by rfl).trans pending, barren⟩⟩

/-- The current thread gives up the processor.  It does not get it back if it has work
for which there is no unit. -/
theorem steps_of_run_yield (regular : Regular d ⟨k, none⟩) (running : k.Running)
    (h : yield.run k = .ok (u, k')) :
    Steps d [] True k k' ∧ (k.Barred k.current → k'.current ≠ k.current) := by
  obtain ⟨aside, last, stands, ran, rfl⟩ := of_run_yield h
  have regular := regular.move (.quiet (sameWork_atLevel .off))
  have first : Move d none ⟨k.atLevel .off, none⟩ ⟨aside, none⟩ := stands.move running
  obtain ⟨thread, found, alive, barred⟩ := stands.barred running
  obtain ⟨rest, leaves⟩ := steps_of_run_schedule (regular.move first) ran
  have given : Steps d [] True (k.atLevel .off) last :=
    ⟨.silentHead first rest.moves, rest.runs, rest.calm⟩
  have same : aside.current = k.current := by cases stands <;> rfl
  refine ⟨given.unmask _, fun work => same ▸ leaves thread found alive (.inl (barred work))⟩

/-- A check for preemption changes nothing that matters, or gives up the processor. -/
theorem steps_of_run_preempt (regular : Regular d ⟨k, none⟩) (running : k.Running)
    (h : preempt.run k = .ok (u, k')) : k.SameWork k' ∧ k'.Calm ∨
      Steps d [] True k k' ∧ (k.Barred k.current → k'.current ≠ k.current) := by
  rw [preempt, run_get_bind] at h
  split at h
  · split at h
    · next inside =>
      rw [run_set_eq_ok_iff, Prod.mk.injEq] at h
      obtain ⟨_, rfl⟩ := h
      exact .inl ⟨sameWork_of_remarks (.refl _) (.refl _) (fun _ => rfl) rfl, fun _ => ⟨inside, .inl rfl⟩⟩
    · exact .inr (steps_of_run_yield regular running h)
  · next unranked =>
    rw [run_pure_eq_ok_iff, Prod.mk.injEq] at h
    obtain ⟨_, rfl⟩ := h
    exact .inl ⟨sameWork_of_remarks (.refl _) (.refl _) (fun _ => rfl) rfl, fun outranked => absurd outranked unranked⟩

theorem Steady.preempt (steady : Steady d k) (h : preempt.run k = .ok (u, k')) :
    Steps d [] True k k' := by
  obtain ⟨same, calm⟩ | ⟨steps, _⟩ := steps_of_run_preempt steady.regular steady.runs.running h
  · exact steady.still same fun _ _ => calm
  · exact steps

end ThreadKernel
