import Mathlib.Data.Option.Basic
import ThreadKernel.Proofs.Sound

/-!
# Who waits for whom

As long as semaphore operations leave the units of locks alone, a lock is held
exactly when its unit is gone, and the threads queued on that unit are exactly
the donors that its holder has through it.

* `WaitGraph`: the invariant, and `WaitGraph.move`: each move keeps it.
* `WaitGraph.blockingHolder_iff`: so `blockingHolder` leads from each donor to the one
  thread it donates to, and `WaitGraph.linked_asked` says the same of a thread that has
  just become a donor.
-/

namespace ThreadKernel

namespace Kernel

/-- `t` is queued on the unit of `l`. -/
def AwaitsLock (k : Kernel) (t : ThreadId) (l : LockId) : Prop :=
  ∃ thread lock, k.threads.get? t = some thread ∧ k.locks.get? l = some lock ∧
    thread.place = .semaphore lock.semaphore

/-- Donors are linked to whom they donate to. -/
def Linked (k : Kernel) : Prop :=
  ∀ h thread, k.threads.get? h = some thread →
    ∀ d, d ∈ thread.donors ↔ k.blockingHolder d = some h

theorem blockingHolder_eq_some_iff {k : Kernel} {d h : ThreadId} :
    k.blockingHolder d = some h ↔ ∃ thread l, k.threads.get? d = some thread ∧
      thread.state ≠ .ready ∧ thread.waitingOn = some l ∧ k.holder? l = some h ∧
      k.threads.contains h = true := by
  simp only [blockingHolder, holder?, Option.bind_eq_bind, Option.bind_eq_some_iff,
    Option.guard_eq_some', Option.pure_def, Option.some.injEq]
  constructor
  · rintro ⟨thread, found, _, unready, l, waits, lock, foundLock, holder, holds, _, alive, rfl⟩
    exact ⟨thread, l, found, unready, waits, ⟨lock, foundLock, holds⟩, alive⟩
  · rintro ⟨thread, l, found, unready, waits, ⟨lock, foundLock, holds⟩, alive⟩
    exact ⟨thread, found, (), unready, l, waits, lock, foundLock, h, holds, (), alive, rfl⟩

theorem holder?_of_get? {k : Kernel} {l : LockId} {lock : Lock}
    (found : k.locks.get? l = some lock) : k.holder? l = lock.holder := by
  rw [holder?, found, Option.bind_some]

/-- A lock has changed hands. -/
theorem holder?_modify {k k' : Kernel} {l : LockId} {lock : Lock} {owner : Option ThreadId}
    (found : k.locks.get? l = some lock)
    (same : k'.locks = k.locks.modify l fun old => { old with holder := owner }) (l' : LockId) :
    k'.holder? l' = if l = l' then owner else k.holder? l' := by
  rw [holder?, same, Arena.get?_modify]
  split
  · next here =>
    rw [← here, found]
    rfl
  · rfl

theorem holder?_push {k k' : Kernel} {lock : Lock} (free : lock.holder = none)
    (same : k'.locks = k.locks.push lock) (l : LockId) : k'.holder? l = k.holder? l := by
  rw [holder?, same, Arena.get?_push, holder?]
  split
  · next here => rw [here, Arena.get?_next, Option.bind_some, free, Option.bind_none]
  · rfl

theorem holder?_erase {k k' : Kernel} {l : LockId} (same : k'.locks = k.locks.erase l)
    (l' : LockId) : k'.holder? l' = if l = l' then none else k.holder? l' := by
  rw [holder?, same, Arena.get?_erase]
  split <;> rfl

theorem blockingHolder_congr {k k' : Kernel} {d : ThreadId}
    (record : (k'.threads.get? d).map (fun x => (x.state, x.waitingOn)) =
      (k.threads.get? d).map fun x => (x.state, x.waitingOn))
    (holders : ∀ l, k'.holder? l = k.holder? l)
    (alive : ∀ h, k'.threads.contains h = k.threads.contains h) :
    k'.blockingHolder d = k.blockingHolder d := by
  have onward : ∀ {k k' : Kernel} {h : ThreadId},
      (k'.threads.get? d).map (fun x => (x.state, x.waitingOn)) =
        (k.threads.get? d).map (fun x => (x.state, x.waitingOn)) →
      (∀ l, k'.holder? l = k.holder? l) → (∀ h, k'.threads.contains h = k.threads.contains h) →
      k.blockingHolder d = some h → k'.blockingHolder d = some h := by
    intro k k' h record holders alive blocks
    obtain ⟨thread, l, found, unready, waits, holds, contained⟩ :=
      blockingHolder_eq_some_iff.mp blocks
    rw [found, Option.map_some, Option.map_eq_some_iff] at record
    obtain ⟨thread', found', same⟩ := record
    obtain ⟨state, waitingOn⟩ := Prod.mk.inj same
    exact blockingHolder_eq_some_iff.mpr ⟨thread', l, found', by rw [state]; exact unready,
      waitingOn.trans waits, (holders l).trans holds, (alive h).trans contained⟩
  exact Option.ext fun h => ⟨onward record.symm (fun l => (holders l).symm)
    (fun h => (alive h).symm), onward record holders alive⟩

/-- The units of locks are as they were. -/
def KeepsUnits (k k' : Kernel) : Prop :=
  ∀ s semaphore, k.semaphores.get? s = some semaphore → semaphore.purpose = .lock →
    ∃ semaphore', k'.semaphores.get? s = some semaphore' ∧ semaphore'.purpose = .lock ∧
      semaphore'.value = semaphore.value

end Kernel

open Kernel

/-- Locks, their units, and those that wait for them. -/
structure WaitGraph (m : Machine) : Prop where
  unit : ∀ l lock, m.kernel.locks.get? l = some lock → ∃ semaphore,
    m.kernel.semaphores.get? lock.semaphore = some semaphore ∧ semaphore.purpose = .lock ∧
      semaphore.value = if lock.holder.isSome then 0 else 1
  distinct : ∀ l l' lock lock', m.kernel.locks.get? l = some lock →
    m.kernel.locks.get? l' = some lock' → lock.semaphore = lock'.semaphore → l = l'
  /-- No thread that is yet to come holds a lock. -/
  issued : ∀ l h, m.kernel.holder? l = some h → h.index < m.kernel.threads.next.index
  queued : ∀ t l thread, m.kernel.AwaitsLock t l → m.kernel.threads.get? t = some thread →
    thread.waitingOn = some l
  waiting : ∀ t thread l, m.kernel.threads.get? t = some thread → thread.waitingOn = some l →
    thread.pending = some (.lock l) ∧ (thread.state = .ready ∨ m.kernel.AwaitsLock t l) ∨
      t = m.kernel.current ∧ m.due = some (.lock l)
  donors : ∀ h thread, m.kernel.threads.get? h = some thread → ∀ d, d ∈ thread.donors ↔
    ∃ l, m.kernel.AwaitsLock d l ∧ m.kernel.holder? l = some h

variable {d : Discipline} {m m' : Machine} {k k' : Kernel} {due due' : Option Pending}
  {t : ThreadId} {thread : Thread} {s : SemaphoreId} {semaphore : Semaphore} {l : LockId}
  {lock : Lock}

namespace Kernel

theorem keepsUnits_of_eq (same : k'.semaphores = k.semaphores) : k.KeepsUnits k' :=
  fun s semaphore found purpose => ⟨semaphore, by rw [same]; exact found, purpose, rfl⟩

theorem keepsUnits_of_modify (ordinary : k.Ordinary s) {f : Semaphore → Semaphore}
    (same : k'.semaphores = k.semaphores.modify s f) : k.KeepsUnits k' := by
  intro s' semaphore found purpose
  refine ⟨semaphore, ?_, purpose, rfl⟩
  rw [same, Arena.get?_modify_of_ne _ fun here => ?_, found]
  exact ordinary.purpose semaphore (here ▸ found) purpose

theorem keepsUnits_of_push (same : k'.semaphores = k.semaphores.push semaphore) :
    k.KeepsUnits k' := by
  intro s' semaphore found purpose
  refine ⟨semaphore, ?_, purpose, rfl⟩
  rw [same, Arena.get?_push_of_get? _ found]

theorem keepsUnits_of_erase (ordinary : k.Ordinary s)
    (same : k'.semaphores = k.semaphores.erase s) : k.KeepsUnits k' := by
  intro s' semaphore found purpose
  refine ⟨semaphore, ?_, purpose, rfl⟩
  rw [same, Arena.get?_erase, if_neg fun here => ?_, found]
  exact ordinary.purpose semaphore (here ▸ found) purpose

theorem not_awaitsLock_of_place (found : k.threads.get? t = some thread)
    (elsewhere : ∀ s, thread.place ≠ .semaphore s) : ¬ k.AwaitsLock t l := by
  rintro ⟨thread', lock, found', _, there⟩
  cases found.symm.trans found'
  exact elsewhere _ there

theorem AwaitsLock.contains (awaits : k.AwaitsLock t l) : k.threads.contains t = true := by
  obtain ⟨thread, _, found, _⟩ := awaits
  exact Arena.contains_iff.mpr ⟨thread, found⟩

theorem awaitsLock_congr (threads : Arena.Agree (fun x : Thread => x.place) k'.threads k.threads)
    (locks : Arena.Agree (fun x : Lock => x.semaphore) k'.locks k.locks) :
    k'.AwaitsLock t l ↔ k.AwaitsLock t l := by
  have onward : ∀ {k k' : Kernel}, Arena.Agree (fun x : Thread => x.place) k'.threads k.threads →
      Arena.Agree (fun x : Lock => x.semaphore) k'.locks k.locks →
      k'.AwaitsLock t l → k.AwaitsLock t l := by
    rintro k k' threads locks ⟨thread', lock', found', foundLock', there⟩
    obtain ⟨thread, found, place⟩ := threads.exists_get? found'
    obtain ⟨lock, foundLock, same⟩ := locks.exists_get? foundLock'
    exact ⟨thread, lock, found, foundLock, by rw [place, same, there]⟩
  exact ⟨onward threads locks, onward threads.symm locks.symm⟩

theorem contains_asked (l : LockId) (holder : ThreadId) (donors : List ThreadId) (k : Kernel)
    (t : ThreadId) : (l.asked holder donors k).threads.contains t = k.threads.contains t := by
  rw [LockId.asked, mapThread_threads, Arena.contains_modify, mapThread_threads,
    Arena.contains_modify]

/-- Whoever asks for a held lock is linked to its holder. -/
theorem blockingHolder_asked {holder : ThreadId} (donors : List ThreadId)
    (foundCurrent : k.threads.get? k.current = some thread) (unready : thread.state ≠ .ready)
    (found : k.locks.get? l = some lock) (holds : lock.holder = some holder)
    (alive : k.threads.contains holder = true) :
    (l.asked holder donors k).blockingHolder k.current = some holder := by
  refine blockingHolder_eq_some_iff.mpr ⟨_, l, (l.get?_asked holder donors k k.current).trans
    (congrArg (Option.map _) foundCurrent), unready, if_pos rfl, ?_, ?_⟩
  · exact (holder?_of_get? found).trans holds
  · rw [contains_asked, alive]

theorem blockingHolder_asked_of_ne {holder t : ThreadId} (donors : List ThreadId)
    (other : t ≠ k.current) :
    (l.asked holder donors k).blockingHolder t = k.blockingHolder t := by
  refine blockingHolder_congr ?_ (fun _ => rfl) (contains_asked l holder donors k)
  rw [LockId.get?_asked, Option.map_map]
  simp only [Function.comp_def, if_neg (Ne.symm other)]

/-- Those who await a lock are the waiters of its unit. -/
theorem Placed.awaitsLock_iff (placed : k.Placed) (found : k.locks.get? l = some lock)
    (foundSemaphore : k.semaphores.get? lock.semaphore = some semaphore) :
    k.AwaitsLock t l ↔ t ∈ semaphore.waiters := by
  rw [← queueAt_semaphore foundSemaphore, placed.mem_queueAt (p := .semaphore _) nofun t]
  constructor
  · rintro ⟨thread, lock', foundThread, found', there⟩
    cases found.symm.trans found'
    exact ⟨thread, foundThread, there⟩
  · rintro ⟨thread, foundThread, there⟩
    exact ⟨thread, lock, foundThread, found, there⟩

/-- Nobody awaits a lock that has just been made. -/
theorem Placed.awaitsLock_createdLock (placed : k.Placed) : AwaitsLock { k with
      semaphores := k.semaphores.push { value := 1, purpose := .lock }
      locks := k.locks.push { semaphore := k.semaphores.next } } t l ↔ k.AwaitsLock t l := by
  constructor
  · rintro ⟨thread, lock, found, foundLock, there⟩
    obtain ⟨_, rfl⟩ | foundLock := Arena.of_get?_push foundLock
    · have listed := (placed.mem_queueAt (p := .semaphore k.semaphores.next) nofun t).mpr
        ⟨thread, found, there⟩
      rw [queueAt, Arena.get?_next] at listed
      cases listed
    · exact ⟨thread, lock, found, foundLock, there⟩
  · rintro ⟨thread, lock, found, foundLock, there⟩
    exact ⟨thread, lock, found, Arena.get?_push_of_get? _ foundLock, there⟩

theorem awaitsLock_erasedLock {l' : LockId} (same : k'.locks = k.locks.erase l)
    (threads : k'.threads = k.threads) (free : ∀ t, ¬ k.AwaitsLock t l) :
    k'.AwaitsLock t l' ↔ k.AwaitsLock t l' := by
  rw [AwaitsLock, threads, same]
  constructor
  · rintro ⟨thread, lock, found, foundLock, there⟩
    rw [Arena.get?_erase] at foundLock
    split at foundLock
    · cases foundLock
    · exact ⟨thread, lock, found, foundLock, there⟩
  · intro awaits
    have other : l ≠ l' := fun here => free t (here ▸ awaits)
    obtain ⟨thread, lock, found, foundLock, there⟩ := awaits
    exact ⟨thread, lock, found, by rw [Arena.get?_erase, if_neg other, foundLock], there⟩

end Kernel

namespace WaitGraph

/-- No lock's unit is an ordinary semaphore. -/
theorem ne_of_ordinary (graph : WaitGraph m) (ordinary : m.kernel.Ordinary s)
    (found : m.kernel.locks.get? l = some lock) : lock.semaphore ≠ s := by
  intro same
  obtain ⟨semaphore, foundSemaphore, purpose, _⟩ := graph.unit l lock found
  rw [same] at foundSemaphore
  exact ordinary.purpose semaphore foundSemaphore purpose

theorem distinct_of_agree (graph : WaitGraph m) {locks : Arena .lock Lock}
    (same : Arena.Agree (fun x : Lock => x.semaphore) locks m.kernel.locks) (l l' : LockId)
    (lock lock' : Lock) (found : locks.get? l = some lock) (found' : locks.get? l' = some lock')
    (shared : lock.semaphore = lock'.semaphore) : l = l' := by
  obtain ⟨old, foundOld, eq⟩ := same.exists_get? found
  obtain ⟨old', foundOld', eq'⟩ := same.exists_get? found'
  exact graph.distinct l l' old old' foundOld foundOld' (eq.trans (shared.trans eq'.symm))

/-- Whoever runs waits for no lock, unless it is about to take it. -/
theorem unwaiting (graph : WaitGraph ⟨k, none⟩) (placed : k.Placed)
    (found : k.threads.get? t = some thread) (running : thread.state = .running) :
    thread.waitingOn = none := by
  cases waits : thread.waitingOn with
  | none => rfl
  | some l =>
    obtain ⟨_, ready | ⟨thread', lock, found', _, there⟩⟩ | ⟨_, undue⟩ :=
      graph.waiting t thread l found waits
    · cases running.symm.trans ready
    · cases found.symm.trans found'
      cases (placed.detached_of_running found running).symm.trans there
    · cases undue

/-- Work other than taking a lock is nobody's concern here. -/
theorem settle (graph : WaitGraph ⟨k, due⟩) (clear : ∀ l, due ≠ some (.lock l)) :
    WaitGraph ⟨k, none⟩ := by
  refine ⟨graph.unit, graph.distinct, graph.issued, graph.queued, fun t thread l found waits => ?_,
    graph.donors⟩
  obtain there | ⟨_, taken⟩ := graph.waiting t thread l found waits
  · exact .inl there
  · exact absurd taken (clear l)

/-- What is taken up for the current thread concerns no lock. -/
theorem takeUp (graph : WaitGraph ⟨k, none⟩) (due : Option Pending) : WaitGraph ⟨k, due⟩ := by
  refine ⟨graph.unit, graph.distinct, graph.issued, graph.queued, fun t thread l found waits => ?_,
    graph.donors⟩
  obtain there | ⟨_, undue⟩ := graph.waiting t thread l found waits
  · exact .inl there
  · cases undue

/-! ## Small steps -/

/-- Nothing has changed about who waits for a held lock. -/
theorem step (graph : WaitGraph m) (locks : m'.kernel.locks = m.kernel.locks)
    (units : m.kernel.KeepsUnits m'.kernel)
    (next : m.kernel.threads.next.index ≤ m'.kernel.threads.next.index)
    (records : ∀ t thread', m'.kernel.threads.get? t = some thread' → ∃ thread,
      m.kernel.threads.get? t = some thread ∧ thread'.waitingOn = thread.waitingOn ∧
        ∀ d, d ∈ thread'.donors ↔ d ∈ thread.donors)
    (queues : ∀ t l, m'.kernel.AwaitsLock t l → m.kernel.AwaitsLock t l)
    (stays : ∀ t l, m.kernel.AwaitsLock t l → m.kernel.holder? l ≠ none → m'.kernel.AwaitsLock t l)
    (waiting : ∀ t thread l, m'.kernel.threads.get? t = some thread →
      thread.waitingOn = some l →
      thread.pending = some (.lock l) ∧ (thread.state = .ready ∨ m'.kernel.AwaitsLock t l) ∨
        t = m'.kernel.current ∧ m'.due = some (.lock l)) : WaitGraph m' := by
  constructor
  case unit =>
    intro l lock found
    rw [locks] at found
    obtain ⟨semaphore, foundSemaphore, purpose, value⟩ := graph.unit l lock found
    obtain ⟨semaphore', found', purpose', value'⟩ :=
      units lock.semaphore semaphore foundSemaphore purpose
    exact ⟨semaphore', found', purpose', value'.trans value⟩
  case distinct =>
    rw [locks]
    exact graph.distinct
  case issued =>
    intro l h holds
    rw [holder?, locks] at holds
    exact Nat.lt_of_lt_of_le (graph.issued l h holds) next
  case queued =>
    intro t l thread' awaits found'
    obtain ⟨thread, found, same, _⟩ := records t thread' found'
    rw [same]
    exact graph.queued t l thread (queues t l awaits) found
  case waiting => exact waiting
  case donors =>
    intro h thread' found' d
    obtain ⟨thread, found, _, same⟩ := records h thread' found'
    simp only [same, graph.donors h thread found d, holder?, locks]
    constructor
    · rintro ⟨l, awaits, holds⟩
      refine ⟨l, stays d l awaits ?_, holds⟩
      rw [holder?, holds]
      exact nofun
    · rintro ⟨l, awaits, holds⟩
      exact ⟨l, queues d l awaits, holds⟩

/-- Nothing has changed about threads and locks. -/
theorem still (graph : WaitGraph ⟨k, none⟩) (units : k.KeepsUnits k')
    (locks : k'.locks = k.locks)
    (threads : k'.threads = k.threads) : WaitGraph ⟨k', none⟩ := by
  have queues : ∀ t l, k'.AwaitsLock t l ↔ k.AwaitsLock t l := by
    intro t l
    rw [AwaitsLock, AwaitsLock, threads, locks]
  refine graph.step locks units (Nat.le_of_eq (by rw [threads]))
    (fun t thread found => ⟨thread, ?_, rfl, fun _ => Iff.rfl⟩) (fun t l => (queues t l).mp)
    (fun t l awaits _ => (queues t l).mpr awaits) fun t thread l found waits => ?_
  · rwa [← threads]
  · dsimp only at found
    rw [threads] at found
    obtain ⟨pending, unready⟩ | ⟨_, undue⟩ := graph.waiting t thread l found waits
    · exact .inl ⟨pending, unready.imp_right (queues t l).mpr⟩
    · cases undue

/-- A thread that is queued on no held lock moves, but not to the queue of a lock. -/
theorem modify {f : Thread → Thread} (graph : WaitGraph ⟨k, none⟩)
    (found : k.threads.get? t = some thread)
    (before : ∀ l, k.AwaitsLock t l → k.holder? l = none)
    (after : ∀ l lock, k.locks.get? l = some lock → (f thread).place ≠ .semaphore lock.semaphore)
    (waits : ∀ l, thread.waitingOn = some l →
      (f thread).pending = some (.lock l) ∧ (f thread).state = .ready ∨
        t = k'.current ∧ due = some (.lock l))
    (units : k.KeepsUnits k')
    (threads : k'.threads = k.threads.modify t f)
    (locks : k'.locks = k.locks)
    (waitingOn : (f thread).waitingOn = thread.waitingOn)
    (donors : ∀ d, d ∈ (f thread).donors ↔ d ∈ thread.donors) :
    WaitGraph ⟨k', due⟩ := by
  have queues : ∀ u l, u ≠ t → (k'.AwaitsLock u l ↔ k.AwaitsLock u l) := by
    intro u l other
    rw [AwaitsLock, AwaitsLock, threads, locks, Arena.get?_modify_of_ne _ (Ne.symm other)]
  have unqueued : ∀ l, ¬ k'.AwaitsLock t l := by
    rintro l ⟨thread', lock, found', foundLock, there⟩
    rw [threads, Arena.get?_modify_self _ found, Option.some.injEq] at found'
    rw [locks] at foundLock
    subst found'
    exact after l lock foundLock there
  refine graph.step locks units (Nat.le_of_eq (by rw [threads, Arena.next_modify]))
    (fun u thread' found' => ?_) (fun u l awaits => ?_) (fun u l awaits held => ?_)
    fun u thread' l found' on => ?_
  · dsimp only at found'
    rw [threads] at found'
    obtain ⟨rfl, rfl⟩ | ⟨_, old⟩ := Arena.of_get?_modify found found'
    · exact ⟨thread, found, waitingOn, donors⟩
    · exact ⟨thread', old, rfl, fun _ => Iff.rfl⟩
  · exact (queues u l fun here => unqueued l (here ▸ awaits)).mp awaits
  · exact (queues u l fun here => held (before l (here ▸ awaits))).mpr awaits
  · dsimp only at found'
    rw [threads] at found'
    obtain ⟨rfl, rfl⟩ | ⟨other, old⟩ := Arena.of_get?_modify found found'
    · rw [waitingOn] at on
      exact (waits l on).imp_left fun ⟨pending, ready⟩ => ⟨pending, .inl ready⟩
    · obtain ⟨pending, unready⟩ | ⟨_, undue⟩ := graph.waiting u thread' l old on
      · exact .inl ⟨pending, unready.imp_right (queues u l other).mpr⟩
      · cases undue

/-- A thread on no list of waiters is made ready. -/
theorem readied (graph : WaitGraph ⟨k, none⟩) (found : k.threads.get? t = some thread)
    (elsewhere : ∀ s, thread.place ≠ .semaphore s) (p : Priority) :
    WaitGraph ⟨k.readied t p, none⟩ := by
  refine graph.modify (f := fun thread => { thread with state := .ready, place := .ready }) found
    (fun l awaits => absurd awaits (not_awaitsLock_of_place found elsewhere)) (fun _ _ _ => nofun)
    (fun l waits => .inl ⟨?_, rfl⟩) (keepsUnits_of_eq rfl) rfl rfl rfl fun _ => Iff.rfl
  obtain ⟨pending, _⟩ | ⟨_, undue⟩ := graph.waiting t thread l found waits
  · exact pending
  · cases undue

/-- The current thread runs, and changes in what has nothing to do with locks. -/
theorem modifyCurrent {f : Thread → Thread} (graph : WaitGraph ⟨k, none⟩) (placed : k.Placed)
    (found : k.threads.get? k.current = some thread) (running : thread.state = .running)
    (after : ∀ l lock, k.locks.get? l = some lock → (f thread).place ≠ .semaphore lock.semaphore)
    (units : k.KeepsUnits k')
    (threads : k'.threads = k.threads.modify k.current f)
    (locks : k'.locks = k.locks)
    (waitingOn : (f thread).waitingOn = thread.waitingOn)
    (donors : ∀ d, d ∈ (f thread).donors ↔ d ∈ thread.donors) :
    WaitGraph ⟨k', none⟩ := by
  have detached := placed.detached_of_running found running
  refine graph.modify found (fun l awaits => absurd awaits
    (not_awaitsLock_of_place found (by rw [detached]; exact nofun))) after (fun l waits => ?_) units
    threads locks waitingOn donors
  cases (graph.unwaiting placed found running).symm.trans waits

/-- The current thread changes in what has nothing to do with locks, and is in no queue before or
after. -/
theorem retouchCurrent {f : Thread → Thread} (graph : WaitGraph ⟨k, none⟩) (placed : k.Placed)
    (found : k.threads.get? k.current = some thread) (running : thread.state = .running)
    (units : k.KeepsUnits k') (threads : k'.threads = k.threads.modify k.current f)
    (locks : k'.locks = k.locks)
    (same : ((f thread).place, (f thread).waitingOn) = (thread.place, thread.waitingOn))
    (donors : ∀ d, d ∈ (f thread).donors ↔ d ∈ thread.donors) :
    WaitGraph ⟨k', none⟩ := by
  obtain ⟨place, waitingOn⟩ := Prod.mk.inj same
  refine graph.modifyCurrent placed found running (fun _ _ _ => ?_) units threads locks waitingOn
    donors
  rw [place, placed.detached_of_running found running]
  exact nofun

/-! ## Threads that come and go -/

theorem enroll (graph : WaitGraph ⟨k, none⟩) (detached : thread.place = .detached)
    (unwaiting : thread.waitingOn = none) (donors : thread.donors = []) :
    WaitGraph ⟨{ k with threads := k.threads.push thread }, none⟩ := by
  have records : ∀ u record, (k.threads.push thread).get? u = some record →
      u = k.threads.next ∧ record = thread ∨ k.threads.get? u = some record :=
    fun _ _ => Arena.of_get?_push
  have queues : ∀ u l, AwaitsLock { k with threads := k.threads.push thread } u l ↔
      k.AwaitsLock u l := by
    intro u l
    constructor
    · rintro ⟨record, lock, found, foundLock, there⟩
      obtain ⟨_, rfl⟩ | old := records u record found
      · cases detached.symm.trans there
      · exact ⟨record, lock, old, foundLock, there⟩
    · rintro ⟨record, lock, found, foundLock, there⟩
      exact ⟨record, lock, Arena.get?_push_of_get? thread found, foundLock, there⟩
  constructor
  case unit => exact graph.unit
  case distinct => exact graph.distinct
  case issued =>
    intro l h holds
    dsimp only
    rw [Arena.next_push]
    exact Nat.lt_succ_of_lt (graph.issued l h holds)
  case queued =>
    intro u l record awaits found
    obtain ⟨rfl, rfl⟩ | old := records u record found
    · exact absurd ((queues _ l).mp awaits)
        fun ⟨_, _, found, _⟩ => Arena.ne_next_of_get? found rfl
    · exact graph.queued u l record ((queues u l).mp awaits) old
  case waiting =>
    intro u record l found waits
    obtain ⟨rfl, rfl⟩ | old := records u record found
    · cases unwaiting.symm.trans waits
    · exact (graph.waiting u record l old waits).imp_left fun ⟨pending, unready⟩ =>
        ⟨pending, unready.imp_right (queues u l).mpr⟩
  case donors =>
    intro h record found d
    simp only [queues]
    obtain ⟨rfl, rfl⟩ | old := records h record found
    · rw [donors]
      refine ⟨fun member => absurd member List.not_mem_nil, ?_⟩
      rintro ⟨l, _, holds⟩
      exact absurd (graph.issued l _ holds) (Nat.lt_irrefl _)
    · exact graph.donors h record old d

theorem reclaim (graph : WaitGraph ⟨k, none⟩) (placed : k.Placed)
    (h : reclaim.run k = .ok ((), k')) : WaitGraph ⟨k', none⟩ := by
  obtain ⟨threads, events, _, next, gone, rfl⟩ := of_run_reclaim h
  have old : ∀ u record, threads.get? u = some record → k.threads.get? u = some record :=
    fun _ _ => get?_of_gone gone
  have queues : ∀ u l, AwaitsLock { k with dying := [], threads, events } u l ↔
      k.AwaitsLock u l := by
    intro u l
    constructor
    · rintro ⟨record, lock, found, foundLock, there⟩
      exact ⟨record, lock, old u record found, foundLock, there⟩
    · rintro ⟨record, lock, found, foundLock, there⟩
      refine ⟨record, lock, ?_, foundLock, there⟩
      dsimp only
      rw [gone, if_neg fun left => ?_, found]
      have dying := placed.dying_of_mem left found
      have detached := placed.detached_of_state found (by rw [dying]; exact nofun)
        (by rw [dying]; exact nofun)
      cases detached.symm.trans there
  refine graph.step rfl (keepsUnits_of_eq rfl) (Nat.le_of_eq (by rw [← next]))
    (fun u record found => ⟨record, old u record found, rfl, fun _ => Iff.rfl⟩)
    (fun u l => (queues u l).mp) (fun u l awaits _ => (queues u l).mpr awaits)
    fun u record l found waits => ?_
  exact (graph.waiting u record l (old u record found) waits).imp_left fun ⟨pending, unready⟩ =>
    ⟨pending, unready.imp_right (queues u l).mpr⟩

/-- The dispatcher takes up what the thread it picks has left to do. -/
theorem pick (graph : WaitGraph ⟨k, none⟩) (placed : k.Placed) {next : ThreadId}
    (found : k.threads.get? next = some thread) {place : Place} {ready : ReadyQueue}
    (picks : k.Picks next thread place ready)
    (fallback : k.ready.pop? = none → k.idle = some next → thread.place = .detached)
    (processor : Processor) (dying : List ThreadId) (events : List Event) :
    WaitGraph ⟨k.dispatched next place ready processor dying events, thread.pending⟩ := by
  have before : ∀ s, thread.place ≠ .semaphore s := by
    obtain there | there := placed.awake_of_picks found picks fallback <;> rw [there] <;> exact nofun
  have after : place = .detached := picks.detached fallback
  refine graph.modify found (fun l awaits => absurd awaits (not_awaitsLock_of_place found before))
    (fun _ _ _ => ?_) (fun l waits => .inr ⟨rfl, ?_⟩) (keepsUnits_of_eq rfl) rfl rfl rfl
    fun _ => Iff.rfl
  · dsimp only
    rw [after]
    exact nofun
  · obtain ⟨pending, _⟩ | ⟨_, undue⟩ := graph.waiting next thread l found waits
    · exact pending
    · cases undue

/-! ## Ordinary semaphores -/

theorem attempt (graph : WaitGraph ⟨k, none⟩) (placed : k.Placed) (runs : k.Runs)
    (ordinary : k.Ordinary s) {retry : Pending} {success : Bool}
    (h : (s.attempt retry).run k = .ok (success, k')) : WaitGraph ⟨k', none⟩ := by
  obtain ⟨thread, found, running, _⟩ := runs
  obtain ⟨_, _, ⟨_, _, rfl⟩ | ⟨_, _, waiters, _, rfl⟩⟩ := SemaphoreId.of_run_attempt h
  · exact graph.still (keepsUnits_of_modify ordinary rfl) rfl rfl
  · refine graph.modifyCurrent placed found running (fun l lock foundLock there => ?_)
      (keepsUnits_of_modify ordinary rfl) rfl rfl rfl fun _ => Iff.rfl
    cases there
    exact graph.ne_of_ordinary ordinary foundLock rfl

/-- A waiter is woken that waits for no held lock. -/
theorem woken {waiters : List ThreadId} (graph : WaitGraph ⟨s.given waiters k, none⟩)
    (found : k.threads.get? t = some thread)
    (unheld : ∀ l, k.AwaitsLock t l → k.holder? l = none)
    (h : (unblock t).run (s.roused t waiters k) = .ok ((), k')) : WaitGraph ⟨k', none⟩ := by
  obtain ⟨record, foundRecord, _, _, _, rfl⟩ := of_run_unblock h
  refine graph.modify found unheld (fun _ _ _ there => by cases there)
    (fun l waits => .inl ⟨?_, rfl⟩) (keepsUnits_of_eq rfl) (Arena.modify_modify k.threads t _ _) rfl rfl
      fun _ => Iff.rfl
  obtain ⟨pending, _⟩ | ⟨_, undue⟩ := graph.waiting t thread l found waits
  · exact pending
  · cases undue

theorem wake (graph : WaitGraph ⟨k, none⟩) (placed : k.Placed) (ordinary : k.Ordinary s)
    (h : s.wake.run k = .ok ((), k')) : WaitGraph ⟨k', none⟩ := by
  obtain ⟨semaphore, foundSemaphore, ⟨_, rfl⟩ | ⟨t, rest, first, h⟩⟩ := SemaphoreId.of_run_wake h
  · exact graph.still (keepsUnits_of_modify ordinary rfl) rfl rfl
  · have given : WaitGraph ⟨s.given rest k, none⟩ := graph.still (keepsUnits_of_modify ordinary rfl) rfl rfl
    have listed : t ∈ k.queueAt (.semaphore s) := by
      rw [queueAt_semaphore foundSemaphore]
      exact (Ranked.perm_of_sort_eq_cons first).mem_iff.mpr List.mem_cons_self
    obtain ⟨_, thread, found, there⟩ := placed.exists_of_mem listed
    refine given.woken found (fun l ⟨thread', lock', found', foundLock', there'⟩ => ?_) h
    cases found.symm.trans found'
    cases there.symm.trans there'
    exact absurd rfl (graph.ne_of_ordinary ordinary foundLock')

/-! ## Locks that come and go -/

/-- There are other locks, but nobody's wait has changed and nobody's lock. -/
theorem relock (graph : WaitGraph ⟨k, none⟩) (threads : k'.threads = k.threads)
    (unit : ∀ l lock, k'.locks.get? l = some lock → ∃ semaphore,
      k'.semaphores.get? lock.semaphore = some semaphore ∧ semaphore.purpose = .lock ∧
        semaphore.value = if lock.holder.isSome then 0 else 1)
    (distinct : ∀ l l' lock lock', k'.locks.get? l = some lock → k'.locks.get? l' = some lock' →
      lock.semaphore = lock'.semaphore → l = l')
    (holders : ∀ l, k'.holder? l = k.holder? l)
    (queues : ∀ t l, k'.AwaitsLock t l ↔ k.AwaitsLock t l) : WaitGraph ⟨k', none⟩ := by
  constructor
  case unit => exact unit
  case distinct => exact distinct
  case issued =>
    intro l h holds
    dsimp only at holds ⊢
    rw [threads]
    exact graph.issued l h ((holders l).symm.trans holds)
  case queued =>
    intro t l thread awaits found
    exact graph.queued t l thread ((queues t l).mp awaits) (threads ▸ found)
  case waiting =>
    intro t thread l found waits
    obtain ⟨pending, unready⟩ | ⟨_, undue⟩ := graph.waiting t thread l (threads ▸ found) waits
    · exact .inl ⟨pending, unready.imp_right (queues t l).mpr⟩
    · cases undue
  case donors =>
    intro h thread found d
    simp only [queues, holders]
    exact graph.donors h thread (threads ▸ found) d

theorem createLock (graph : WaitGraph ⟨k, none⟩) (placed : k.Placed) :
    WaitGraph ⟨{ k with
      semaphores := k.semaphores.push { value := 1, purpose := .lock }
      locks := k.locks.push { semaphore := k.semaphores.next } }, none⟩ := by
  have live : ∀ {l lock}, k.locks.get? l = some lock → lock.semaphore ≠ k.semaphores.next := by
    intro l lock found
    obtain ⟨semaphore, foundSemaphore, _⟩ := graph.unit l lock found
    exact Arena.ne_next_of_get? foundSemaphore
  refine graph.relock rfl (fun l lock found => ?_) (fun l l' lock lock' found found' same => ?_)
    (holder?_push rfl rfl) fun t l => placed.awaitsLock_createdLock
  · dsimp only
    obtain ⟨_, rfl⟩ | found := Arena.of_get?_push found
    · exact ⟨_, Arena.get?_push_next _ _, rfl, rfl⟩
    · rw [Arena.get?_push, if_neg (live found)]
      exact graph.unit l lock found
  · obtain ⟨rfl, rfl⟩ | found := Arena.of_get?_push found
    · obtain ⟨rfl, _⟩ | found' := Arena.of_get?_push found'
      · rfl
      · exact absurd same.symm (live found')
    · obtain ⟨rfl, rfl⟩ | found' := Arena.of_get?_push found'
      · exact absurd same (live found)
      · exact graph.distinct l l' lock lock' found found' same

theorem destroyLock (graph : WaitGraph ⟨k, none⟩) (placed : k.Placed)
    (found : k.locks.get? l = some lock) (unheld : lock.holder = none)
    (h : lock.semaphore.destroy.run { k with locks := k.locks.erase l } = .ok ((), k')) :
    WaitGraph ⟨k', none⟩ := by
  obtain ⟨semaphore, foundSemaphore, unawaited, rfl⟩ := SemaphoreId.of_run_destroy h
  have free : ∀ t, ¬ k.AwaitsLock t l := by
    intro t awaits
    have waits := (placed.awaitsLock_iff found foundSemaphore).mp awaits
    rw [unawaited] at waits
    cases waits
  have left : ∀ {l' lock'}, (k.locks.erase l).get? l' = some lock' →
      l' ≠ l ∧ k.locks.get? l' = some lock' := by
    intro l' lock' found'
    rw [Arena.get?_erase] at found'
    split at found'
    · cases found'
    · next other => exact ⟨Ne.symm other, found'⟩
  refine graph.relock rfl (fun l' lock' found' => ?_) (fun l₁ l₂ lock₁ lock₂ found₁ found₂ => ?_)
    (fun l' => (holder?_erase rfl l').trans ?_) fun t l' => awaitsLock_erasedLock rfl rfl free
  · obtain ⟨other, found'⟩ := left found'
    rw [SemaphoreId.destroyed_semaphores, Arena.get?_erase,
      if_neg fun same => other (graph.distinct l' l lock' lock found' found same.symm)]
    exact graph.unit l' lock' found'
  · exact graph.distinct l₁ l₂ lock₁ lock₂ (left found₁).2 (left found₂).2
  · split
    · next here => rw [← here, holder?_of_get? found, unheld]
    · rfl

/-! ## Taking and releasing locks -/

/-- Donors are in the table. -/
theorem contains_of_mem_donors (graph : WaitGraph m)
    (found : m.kernel.threads.get? t = some thread) {donor : ThreadId}
    (member : donor ∈ thread.donors) : m.kernel.threads.contains donor = true := by
  obtain ⟨_, awaits, _⟩ := (graph.donors t thread found donor).mp member
  exact awaits.contains

/-- A lock is the current thread's, or nobody's, and remains so: it is taken, or given up.  Its unit
goes with it, and whoever awaits it becomes a donor, or ceases to be one. -/
theorem changeHolder {f : Thread → Thread} {g : Semaphore → Semaphore} (owner : Option ThreadId)
    (graph : WaitGraph ⟨k, due⟩) (placed : k.Placed)
    (foundCurrent : k.threads.get? k.current = some thread) (running : thread.state = .running)
    (found : k.locks.get? l = some lock) (before : ∀ h, lock.holder = some h → h = k.current)
    (after : ∀ h, owner = some h → h = k.current)
    (threads : k'.threads = k.threads.modify k.current f)
    (locks : k'.locks = k.locks.modify l fun old => { old with holder := owner })
    (semaphores : k'.semaphores = k.semaphores.modify lock.semaphore g)
    (place : ∀ x, (f x).place = x.place) (unwaiting : (f thread).waitingOn = none)
    (purpose : ∀ x, (g x).purpose = x.purpose)
    (value : ∀ x, x.value = (if lock.holder.isSome then 0 else 1) →
      (g x).value = if owner.isSome then 0 else 1)
    (donors : ∀ d, d ∈ (f thread).donors ↔ ∃ l', k.AwaitsLock d l' ∧
      (if l = l' then owner else k.holder? l') = some k.current) :
    WaitGraph ⟨k', none⟩ := by
  have detached := placed.detached_of_running foundCurrent running
  have holders := holder?_modify found locks
  have queues : ∀ u l', k'.AwaitsLock u l' ↔ k.AwaitsLock u l' := fun u l' =>
    awaitsLock_congr (by rw [threads]; exact Arena.agree_modify place)
      (by rw [locks]; exact Arena.agree_modify fun _ => rfl)
  have records : ∀ {u record}, k'.threads.get? u = some record →
      u = k.current ∧ record = f thread ∨ u ≠ k.current ∧ k.threads.get? u = some record := by
    intro u record foundRecord
    rw [threads] at foundRecord
    exact Arena.of_get?_modify foundCurrent foundRecord
  constructor
  case unit =>
    intro l' lock' found'
    dsimp only at found' ⊢
    rw [locks] at found'
    rw [semaphores]
    obtain ⟨rfl, rfl⟩ | ⟨other, old⟩ := Arena.of_get?_modify found found'
    · obtain ⟨semaphore, foundSemaphore, lent, units⟩ := graph.unit l' lock found
      exact ⟨g semaphore, Arena.get?_modify_self _ foundSemaphore, (purpose semaphore).trans lent,
        value semaphore units⟩
    · rw [Arena.get?_modify_of_ne _ fun same =>
        other (graph.distinct l' l lock' lock old found same.symm)]
      exact graph.unit l' lock' old
  case distinct =>
    rw [locks]
    exact graph.distinct_of_agree (Arena.agree_modify fun _ => rfl)
  case issued =>
    intro l' h holds
    dsimp only at holds ⊢
    rw [threads, Arena.next_modify]
    rw [holders] at holds
    split at holds
    · rw [after h holds]
      exact Arena.lt_next_of_get? foundCurrent
    · exact graph.issued l' h holds
  case queued =>
    intro u l' record awaits foundRecord
    have awaits := (queues u l').mp awaits
    obtain ⟨rfl, rfl⟩ | ⟨_, old⟩ := records foundRecord
    · exact absurd awaits (not_awaitsLock_of_place foundCurrent (by rw [detached]; exact nofun))
    · exact graph.queued u l' record awaits old
  case waiting =>
    intro u record l' foundRecord on
    obtain ⟨rfl, rfl⟩ | ⟨other, old⟩ := records foundRecord
    · cases unwaiting.symm.trans on
    · obtain ⟨pending, unready⟩ | ⟨here, _⟩ := graph.waiting u record l' old on
      · exact .inl ⟨pending, unready.imp_right (queues u l').mpr⟩
      · exact absurd here other
  case donors =>
    intro h record foundRecord d
    simp only [queues, holders]
    obtain ⟨rfl, rfl⟩ | ⟨other, old⟩ := records foundRecord
    · exact donors d
    · rw [graph.donors h record old d]
      refine exists_congr fun l' => and_congr_right fun _ => ?_
      split
      · next here =>
        rw [← here, holder?_of_get? found]
        exact ⟨fun holds => absurd (before h holds) other, fun holds => absurd (after h holds) other⟩
      · exact Iff.rfl

/-- The current thread has taken the unit of a free lock, and becomes its holder. -/
theorem held (graph : WaitGraph ⟨k, due⟩) (placed : k.Placed) (runs : k.Runs)
    (found : k.locks.get? l = some lock) (unheld : lock.holder = none)
    (h : l.hold.run (lock.semaphore.taken k) = .ok ((), k')) :
    WaitGraph ⟨k', none⟩ := by
  obtain ⟨thread, foundCurrent, running, _⟩ := runs
  have detached := placed.detached_of_running foundCurrent running
  obtain ⟨lock', semaphore', donors, priority, events, found', foundSemaphore', _, price, rfl⟩ :=
    LockId.of_run_hold (k := lock.semaphore.taken k) foundCurrent (by rw [detached]; exact nofun) h
  cases found.symm.trans found'
  obtain ⟨semaphore, foundSemaphore, _⟩ := graph.unit l lock found
  rw [SemaphoreId.taken_semaphores, Arena.get?_modify_self _ foundSemaphore, Option.some.injEq]
    at foundSemaphore'
  subst foundSemaphore'
  have waits : ∀ d, k.AwaitsLock d l ↔ d ∈ semaphore.waiters := fun d =>
    placed.awaitsLock_iff found foundSemaphore
  have members : ∀ d, d ∈ donors ↔ d ∈ thread.donors ∨ k.AwaitsLock d l := by
    intro d
    obtain ⟨unawaited, rfl, _⟩ | ⟨members, _⟩ := price
    · rw [waits, unawaited]
      simp only [List.not_mem_nil, or_false]
    · rw [members, ← waits]
      refine and_iff_left_of_imp fun either => ?_
      obtain old | new := either
      · exact graph.contains_of_mem_donors foundCurrent old
      · exact new.contains
  refine graph.changeHolder (some k.current)
    (f := fun old => { old with donors, priority, waitingOn := none })
    (g := fun old => { old with value := old.value - 1 }) placed foundCurrent running found
    (by rw [unheld]; exact nofun) (fun h same => (Option.some.inj same).symm) rfl rfl rfl
    (fun _ => rfl) rfl (fun _ => rfl) (fun x one => ?_) fun d => ?_
  · dsimp only
    rw [one, unheld]
    rfl
  · rw [members, graph.donors k.current thread foundCurrent d]
    constructor
    · rintro (⟨l', awaits, holds⟩ | awaits)
      · refine ⟨l', awaits, ?_⟩
        rw [holds, ite_self]
      · exact ⟨l, awaits, if_pos rfl⟩
    · rintro ⟨l', awaits, holds⟩
      split at holds
      · next here => exact .inr (here ▸ awaits)
      · exact .inl ⟨l', awaits, holds⟩

/-- The holder of a lock gives it up, and its unit back. -/
theorem released (graph : WaitGraph ⟨k, none⟩) (placed : k.Placed)
    (foundCurrent : k.threads.get? k.current = some thread) (running : thread.state = .running)
    (found : k.locks.get? l = some lock) (holds : lock.holder = some k.current)
    {dropped : Kernel} (drops : l.dropDonors.run k = .ok ((), dropped)) (events : List Event)
    (waiters : List ThreadId) :
    WaitGraph ⟨lock.semaphore.given waiters ((dropped.mapLock l fun old =>
      { old with holder := none }).withEvents events), none⟩ := by
  have detached := placed.detached_of_running foundCurrent running
  obtain ⟨donors, events', _, members, _, _, rfl⟩ :=
    LockId.of_run_dropDonors foundCurrent (by rw [detached]; exact nofun) drops
  have unwaiting := graph.unwaiting placed foundCurrent running
  refine graph.changeHolder none
    (f := fun old => { old with donors, priority := k.fairPriority { thread with donors } })
    (g := fun old => { old with value := old.value + 1, waiters }) placed foundCurrent running found
    (fun h holds' => Option.some.inj (holds'.symm.trans holds)) nofun rfl rfl rfl
    (fun _ => rfl) unwaiting (fun _ => rfl) (fun x zero => ?_)
    fun d => ?_
  · dsimp only
    rw [zero, holds]
    rfl
  · rw [members, graph.donors k.current thread foundCurrent d]
    constructor
    · rintro ⟨⟨l', awaits, holds'⟩, record, foundRecord, elsewhere⟩
      refine ⟨l', awaits, ?_⟩
      rw [if_neg fun here => ?_, holds']
      rw [here] at elsewhere
      exact elsewhere (graph.queued d l' record awaits foundRecord)
    · rintro ⟨l', awaits, holds'⟩
      split at holds'
      · cases holds'
      · next elsewhere =>
        obtain ⟨record, _, foundRecord, _⟩ := id awaits
        refine ⟨⟨l', awaits, holds'⟩, record, foundRecord, ?_⟩
        rw [graph.queued d l' record awaits foundRecord]
        exact fun same => elsewhere (Option.some.inj same).symm

theorem release (graph : WaitGraph ⟨k, none⟩) (placed : k.Placed)
    (foundCurrent : k.threads.get? k.current = some thread) (running : thread.state = .running)
    (found : k.locks.get? l = some lock) (holds : lock.holder = some k.current)
    {dropped : Kernel} (drops : l.dropDonors.run k = .ok ((), dropped)) {events : List Event}
    (h : lock.semaphore.wake.run ((dropped.mapLock l fun old =>
      { old with holder := none }).withEvents events) = .ok ((), k')) : WaitGraph ⟨k', none⟩ := by
  have given := graph.released placed foundCurrent running found holds drops events
  obtain ⟨semaphore, foundSemaphore, ⟨_, rfl⟩ | ⟨t, rest, first, h⟩⟩ := SemaphoreId.of_run_wake h
  · exact given []
  · have detached := placed.detached_of_running foundCurrent running
    obtain ⟨donors, _, _, _, _, _, rfl⟩ :=
      LockId.of_run_dropDonors foundCurrent (by rw [detached]; exact nofun) drops
    have waits : t ∈ semaphore.waiters :=
      (Ranked.perm_of_sort_eq_cons first).mem_iff.mpr List.mem_cons_self
    obtain ⟨record, lock', foundRecord, found', there⟩ :=
      (placed.awaitsLock_iff found foundSemaphore).mpr waits
    cases found.symm.trans found'
    have agree : Arena.Agree (fun x : Thread => x.place) (k.threads.modify k.current fun old =>
        { old with donors, priority := k.fairPriority { thread with donors } }) k.threads :=
      (Arena.agree_modify fun _ => rfl)
    obtain ⟨record', foundRecord', same⟩ := agree.symm.exists_get? foundRecord
    have there : record'.place = .semaphore lock.semaphore := same.trans there
    have unit := Arena.get?_modify_self (fun old : Lock => { old with holder := none }) found
    refine (given rest).woken foundRecord' (fun l' ⟨record'', lock', found'', foundLock', there'⟩ => ?_)
      h
    cases foundRecord'.symm.trans found''
    have same : lock'.semaphore = lock.semaphore := (Place.semaphore.inj (there'.symm.trans there))
    cases (given rest).distinct l' l lock' _ foundLock' unit same
    exact congrArg (Option.bind · (·.holder)) unit

/-- Only priorities have changed. -/
theorem reprice (graph : WaitGraph ⟨k, due⟩)
    (threads : Arena.Agree (fun x : Thread => { x with priority := 0 }) k'.threads k.threads)
    (next : k'.threads.next = k.threads.next) (semaphores : k'.semaphores = k.semaphores)
    (locks : k'.locks = k.locks) (current : k'.current = k.current) : WaitGraph ⟨k', due⟩ := by
  have queues : ∀ t l, k'.AwaitsLock t l ↔ k.AwaitsLock t l := fun t l =>
    awaitsLock_congr (threads.coarsen fun x => x.place) (by rw [locks]; exact Arena.Agree.refl _ _)
  have view : ∀ t thread', k'.threads.get? t = some thread' → ∃ thread,
      k.threads.get? t = some thread ∧ thread'.waitingOn = thread.waitingOn ∧
        thread'.donors = thread.donors ∧ thread'.pending = thread.pending ∧
        thread'.state = thread.state := by
    intro t thread' found'
    obtain ⟨thread, found, same⟩ := (threads.coarsen fun x =>
      (x.waitingOn, x.donors, x.pending, x.state)).exists_get? found'
    simp only [Prod.mk.injEq] at same
    obtain ⟨waitingOn, donors, pending, state⟩ := same
    exact ⟨thread, found, waitingOn.symm, donors.symm, pending.symm, state.symm⟩
  refine graph.step locks (keepsUnits_of_eq semaphores) (Nat.le_of_eq (by rw [next]))
    (fun t thread' found' => ?_) (fun t l => (queues t l).mp)
    (fun t l awaits _ => (queues t l).mpr awaits) fun t thread' l found' waits => ?_
  · obtain ⟨thread, found, waitingOn, donors, _⟩ := view t thread' found'
    exact ⟨thread, found, waitingOn, fun d => by rw [donors]⟩
  · obtain ⟨thread, found, waitingOn, _, pending, state⟩ := view t thread' found'
    rw [waitingOn] at waits
    dsimp only
    rw [pending, state, queues, current]
    exact graph.waiting t thread l found waits

/-! ## Asking for a held lock -/

/-- Donors of a thread in the table are linked to it, but for the current thread when it
is about to take a lock. -/
theorem blockingHolder_iff (graph : WaitGraph ⟨k, due⟩) (placed : k.Placed) {d h : ThreadId}
    (other : due = none ∨ d ≠ k.current) (alive : k.threads.contains h = true) :
    k.blockingHolder d = some h ↔ ∃ l, k.AwaitsLock d l ∧ k.holder? l = some h := by
  rw [blockingHolder_eq_some_iff]
  constructor
  · rintro ⟨thread, l, found, unready, waits, holds, _⟩
    obtain ⟨_, ready | awaits⟩ | ⟨here, taken⟩ := graph.waiting d thread l found waits
    · exact absurd ready unready
    · exact ⟨l, awaits, holds⟩
    · dsimp only at here taken
      obtain rfl | other := other
      · cases taken
      · exact absurd here other
  · rintro ⟨l, awaits, holds⟩
    obtain ⟨thread, lock, found, _, there⟩ := id awaits
    have blocked := placed.blocked found (by rw [there]; exact nofun) (by rw [there]; exact nofun)
    exact ⟨thread, l, found, by rw [blocked]; exact nofun, graph.queued d l thread awaits found,
      holds, alive⟩

/-- Donors are linked to whom they donate to as soon as the current thread has become
one, though it is not queued yet. -/
theorem linked_asked (graph : WaitGraph ⟨k, due⟩) (placed : k.Placed) (runs : k.Runs)
    (found : k.locks.get? l = some lock) {holder : ThreadId} (holds : lock.holder = some holder)
    (foundHolder : k.threads.get? holder = some thread) {donors : List ThreadId}
    (members : ∀ d, d ∈ donors ↔ d ∈ thread.donors ∨ d = k.current) :
    (l.asked holder donors k).Linked := by
  obtain ⟨record, foundCurrent, running, _⟩ := runs
  have detached := placed.detached_of_running foundCurrent running
  have unqueued : ∀ l, ¬ k.AwaitsLock k.current l := fun l =>
    not_awaitsLock_of_place foundCurrent (by rw [detached]; exact nofun)
  intro h thread' foundThread' d
  rw [LockId.get?_asked, Option.map_eq_some_iff] at foundThread'
  obtain ⟨old, foundOld, rfl⟩ := foundThread'
  dsimp only
  by_cases here : d = k.current
  · subst here
    rw [blockingHolder_asked donors foundCurrent (by rw [running]; exact nofun) found holds
      (Arena.contains_iff.mpr ⟨thread, foundHolder⟩), Option.some.injEq]
    split
    · next same => exact iff_of_true ((members _).mpr (.inr rfl)) same
    · next other =>
      refine iff_of_false (fun member => ?_) other
      obtain ⟨l', awaits, _⟩ := (graph.donors h old foundOld _).mp member
      exact unqueued l' awaits
  · rw [blockingHolder_asked_of_ne donors here,
      graph.blockingHolder_iff placed (.inr here) (Arena.contains_iff.mpr ⟨old, foundOld⟩),
      ← graph.donors h old foundOld d]
    split
    · next same =>
      subst same
      cases foundHolder.symm.trans foundOld
      rw [members]
      exact or_iff_left here
    · exact Iff.rfl

/-- What changes when the current thread is queued on the unit of `l` as one of the `donors` of
the lock's holder. -/
structure Joins (k : Kernel) (l : LockId) (lock : Lock) (holder : ThreadId)
    (donors : List ThreadId) (k' : Kernel) : Prop where
  locks : k'.locks = k.locks
  semaphores : ∃ waiters, k'.semaphores = k.semaphores.modify lock.semaphore fun old =>
    { old with waiters }
  next : k'.threads.next = k.threads.next
  threads : ∀ u, k'.threads.get? u = (k.threads.get? u).map fun old => if k.current = u then
      { old with
        waitingOn := some l, donors := if holder = u then donors else old.donors
        state := .blocked, place := .semaphore lock.semaphore, pending := some (.lock l) }
    else { old with donors := if holder = u then donors else old.donors }

theorem joins_asked (k : Kernel) (l : LockId) (lock : Lock) (holder : ThreadId)
    (donors waiters : List ThreadId) :
    Joins k l lock holder donors
      (lock.semaphore.queued (.lock l) waiters (l.asked holder donors k)) where
  locks := rfl
  semaphores := ⟨waiters, rfl⟩
  next := by
    rw [SemaphoreId.queued_threads, Arena.next_modify, LockId.asked, mapThread_threads,
      Arena.next_modify, mapThread_threads, Arena.next_modify]
  threads u := by
    rw [SemaphoreId.queued_threads, Arena.get?_modify, LockId.get?_asked]
    by_cases here : k.current = u
    · rw [if_pos (show (l.asked holder donors k).current = u from here), Option.map_map]
      simp only [Function.comp_def, if_pos here]
    · rw [if_neg (show ¬ (l.asked holder donors k).current = u from here)]
      simp only [if_neg here]

theorem Joins.exists_get? {holder : ThreadId} {donors : List ThreadId}
    (joins : Joins k l lock holder donors k') {u : ThreadId} {record : Thread}
    (found : k'.threads.get? u = some record) : ∃ old, k.threads.get? u = some old ∧
      record.donors = (if holder = u then donors else old.donors) ∧
      (u = k.current ∧ record.waitingOn = some l ∧ record.pending = some (.lock l) ∧
          record.place = .semaphore lock.semaphore ∨
        u ≠ k.current ∧ record.waitingOn = old.waitingOn ∧ record.pending = old.pending ∧
          record.place = old.place ∧ record.state = old.state) := by
  rw [joins.threads, Option.map_eq_some_iff] at found
  obtain ⟨old, foundOld, rfl⟩ := found
  refine ⟨old, foundOld, ?_, ?_⟩
  · split <;> rfl
  · split
    · next here => exact .inl ⟨here.symm, rfl, rfl, rfl⟩
    · next other => exact .inr ⟨Ne.symm other, rfl, rfl, rfl, rfl⟩

theorem Joins.awaitsLock_iff {holder : ThreadId} {donors : List ThreadId}
    (joins : Joins k l lock holder donors k') (graph : WaitGraph ⟨k, due⟩)
    (found : k.locks.get? l = some lock) (foundCurrent : k.threads.get? k.current = some thread)
    (unqueued : ∀ l, ¬ k.AwaitsLock k.current l) (u : ThreadId) (l' : LockId) :
    k'.AwaitsLock u l' ↔ u = k.current ∧ l' = l ∨ k.AwaitsLock u l' := by
  constructor
  · rintro ⟨record, lock', found', foundLock', there⟩
    rw [joins.locks] at foundLock'
    obtain ⟨old, foundOld, _, ⟨here, _, _, place⟩ | ⟨_, _, _, place, _⟩⟩ := joins.exists_get? found'
    · refine .inl ⟨here, graph.distinct l' l lock' lock foundLock' found ?_⟩
      exact Place.semaphore.inj (there.symm.trans place)
    · exact .inr ⟨old, lock', foundOld, foundLock', place.symm.trans there⟩
  · rintro (⟨rfl, rfl⟩ | awaits)
    · have joined := joins.threads k.current
      rw [foundCurrent, Option.map_some, if_pos rfl] at joined
      exact ⟨_, lock, joined, by rw [joins.locks]; exact found, rfl⟩
    · have other : k.current ≠ u := fun here => unqueued l' (here ▸ awaits)
      obtain ⟨old, lock', foundOld, foundLock', there⟩ := awaits
      have stays := joins.threads u
      rw [foundOld, Option.map_some, if_neg other] at stays
      exact ⟨_, lock', stays, by rw [joins.locks]; exact foundLock', there⟩

/-- The holder has got the donor that is now queued, and nobody else has. -/
theorem Joins.mem_donors_iff {holder : ThreadId} {donors : List ThreadId}
    (joins : Joins k l lock holder donors k') (graph : WaitGraph ⟨k, due⟩)
    (found : k.locks.get? l = some lock) (holds : lock.holder = some holder)
    (foundHolder : k.threads.get? holder = some thread)
    (members : ∀ d, d ∈ donors ↔ d ∈ thread.donors ∨ d = k.current)
    {h : ThreadId} {old : Thread} (foundOld : k.threads.get? h = some old) (d : ThreadId) :
    d ∈ (if holder = h then donors else old.donors) ↔
      ∃ l', (d = k.current ∧ l' = l ∨ k.AwaitsLock d l') ∧ k.holder? l' = some h := by
  have asks : k.holder? l = some holder := (holder?_of_get? found).trans holds
  split
  · next same =>
    subst same
    cases foundHolder.symm.trans foundOld
    rw [members, graph.donors holder thread foundHolder d]
    constructor
    · rintro (⟨l', awaits, holds'⟩ | rfl)
      · exact ⟨l', .inr awaits, holds'⟩
      · exact ⟨l, .inl ⟨rfl, rfl⟩, asks⟩
    · rintro ⟨l', ⟨rfl, _⟩ | awaits, holds'⟩
      · exact .inr rfl
      · exact .inl ⟨l', awaits, holds'⟩
  · next other =>
    rw [graph.donors h old foundOld d]
    refine exists_congr fun l' => and_congr_left fun holds' => (or_iff_right ?_).symm
    rintro ⟨_, rfl⟩
    exact other (Option.some.inj (asks.symm.trans holds'))

/-- The current thread, a donor already, is queued on the lock. -/
theorem joined (graph : WaitGraph ⟨k, due⟩) (placed : k.Placed) (runs : k.Runs)
    (found : k.locks.get? l = some lock)
    {holder : ThreadId} (holds : lock.holder = some holder)
    (foundHolder : k.threads.get? holder = some thread) {donors : List ThreadId}
    (members : ∀ d, d ∈ donors ↔ d ∈ thread.donors ∨ d = k.current)
    (joins : Joins k l lock holder donors k') : WaitGraph ⟨k', none⟩ := by
  obtain ⟨record, foundCurrent, running, _⟩ := runs
  have detached := placed.detached_of_running foundCurrent running
  have unqueued : ∀ l, ¬ k.AwaitsLock k.current l := fun l =>
    not_awaitsLock_of_place foundCurrent (by rw [detached]; exact nofun)
  have queues := joins.awaitsLock_iff graph found foundCurrent unqueued
  have holders : ∀ l', k'.holder? l' = k.holder? l' := fun l' => by
    rw [holder?, joins.locks, holder?]
  constructor
  case unit =>
    intro l' lock' found'
    dsimp only at found' ⊢
    obtain ⟨waiters, semaphores⟩ := joins.semaphores
    rw [joins.locks] at found'
    obtain ⟨semaphore, foundSemaphore, purpose, value⟩ := graph.unit l' lock' found'
    dsimp only at foundSemaphore
    rw [semaphores, Arena.get?_modify, foundSemaphore]
    split
    · exact ⟨_, rfl, purpose, value⟩
    · exact ⟨_, rfl, purpose, value⟩
  case distinct =>
    rw [joins.locks]
    exact graph.distinct
  case issued =>
    intro l' h holds'
    dsimp only at holds' ⊢
    rw [holders] at holds'
    rw [joins.next]
    exact graph.issued l' h holds'
  case queued =>
    intro u l' record' awaits found'
    obtain ⟨old, foundOld, _, ⟨here, waitingOn, _⟩ | ⟨other, waitingOn, _⟩⟩ :=
      joins.exists_get? found'
    · obtain ⟨_, rfl⟩ | awaits := (queues u l').mp awaits
      · exact waitingOn
      · exact absurd (here ▸ awaits) (unqueued l')
    · obtain ⟨here, _⟩ | awaits := (queues u l').mp awaits
      · exact absurd here other
      · rw [waitingOn]
        exact graph.queued u l' old awaits foundOld
  case waiting =>
    intro u record' l' found' waits
    simp only [queues]
    obtain ⟨old, foundOld, _, ⟨here, waitingOn, pending, _⟩ | ⟨other, waitingOn, pending, _, state⟩⟩ :=
      joins.exists_get? found'
    · cases waitingOn.symm.trans waits
      exact .inl ⟨pending, .inr (.inl ⟨here, rfl⟩)⟩
    · rw [waitingOn] at waits
      obtain ⟨pending', unready⟩ | ⟨here, _⟩ := graph.waiting u old l' foundOld waits
      · rw [pending, state]
        exact .inl ⟨pending', unready.imp_right .inr⟩
      · exact absurd here other
  case donors =>
    intro h record' found' d
    obtain ⟨old, foundOld, same, _⟩ := joins.exists_get? found'
    simp only [queues, holders, same]
    exact joins.mem_donors_iff graph found holds foundHolder members foundOld d

/-! ## Every move -/

/-- A try on a lock takes it if it is free, and otherwise makes the current thread wait
as a donor of the holder. -/
theorem of_run_attempt (graph : WaitGraph ⟨k, due⟩) {success : Bool}
    (h : l.attempt.run k = .ok (success, k')) :
    ∃ lock, k.locks.get? l = some lock ∧
      (lock.holder = none ∧ success = true ∧ l.hold.run (lock.semaphore.taken k) = .ok ((), k') ∨
        ∃ holder thread donors asking waiters, lock.holder = some holder ∧ success = false ∧
          k.threads.get? holder = some thread ∧
          (∀ d, d ∈ donors ↔ d ∈ thread.donors ∨ d = k.current) ∧
          donate.run (l.asked holder donors k) = .ok ((), asking) ∧
          k' = lock.semaphore.queued (.lock l) waiters asking) := by
  obtain ⟨lock, asking, tried, found, asks, tries, ended⟩ := LockId.of_run_attempt h
  obtain ⟨semaphore, foundSemaphore, _, value⟩ := graph.unit l lock found
  refine ⟨lock, found, ?_⟩
  have unit : asking.semaphores.get? lock.semaphore = some semaphore := by
    rw [asks.retouched.semaphores]
    exact foundSemaphore
  obtain ⟨semaphore', found', took⟩ := SemaphoreId.of_run_attempt tries
  cases unit.symm.trans found'
  cases asks with
  | free unheld =>
    rw [unheld] at value
    obtain ⟨rfl, _, rfl⟩ | ⟨_, zero, _⟩ := took
    · obtain ⟨_, holds⟩ | ⟨no, _⟩ := ended
      · exact .inl ⟨unheld, rfl, holds⟩
      · cases no
    · exact absurd (value.symm.trans zero) Nat.one_ne_zero
  | held holds foundHolder joins donated =>
    rename_i holder thread donors
    rw [holds] at value
    obtain ⟨_, positive, _⟩ | ⟨rfl, _, waiters, _, rfl⟩ := took
    · rw [value] at positive
      exact absurd positive (Nat.lt_irrefl 0)
    · obtain ⟨no, _⟩ | ⟨_, rfl⟩ := ended
      · cases no
      · obtain ⟨old, foundOld, members⟩ := LockId.mem_donors_asked foundHolder joins
        exact .inr ⟨holder, old, donors, asking, waiters, holds, rfl, foundOld, members, donated, rfl⟩

/-- Only a free lock's unit is there to be taken. -/
theorem of_run_take (graph : WaitGraph ⟨k, due⟩) (found : k.locks.get? l = some lock)
    (h : lock.semaphore.take.run k = .ok (true, k')) :
    lock.holder = none ∧ k' = lock.semaphore.taken k := by
  obtain ⟨semaphore, foundSemaphore, _, value⟩ := graph.unit l lock found
  obtain ⟨semaphore', found', positive, rfl⟩ := SemaphoreId.of_run_take_true h
  cases foundSemaphore.symm.trans found'
  refine ⟨?_, rfl⟩
  cases holds : lock.holder with
  | none => rfl
  | some holder =>
    rw [value, holds] at positive
    exact absurd positive (Nat.lt_irrefl 0)

theorem attemptLock (graph : WaitGraph ⟨k, due⟩) (placed : k.Placed) (runs : k.Runs)
    {success : Bool} (h : l.attempt.run k = .ok (success, k')) : WaitGraph ⟨k', none⟩ := by
  obtain ⟨lock, found, ⟨unheld, _, holds⟩ |
    ⟨holder, thread, donors, asking, waiters, holds, _, foundHolder, members, donated, rfl⟩⟩ :=
    graph.of_run_attempt h
  · exact graph.held placed runs found unheld holds
  · have repriced := repriced_of_donate donated
    have current : asking.current = k.current := repriced.retouched.current
    have semaphores : asking.semaphores = k.semaphores := repriced.retouched.semaphores
    have joined := graph.joined placed runs found holds foundHolder members
      (joins_asked k l lock holder donors waiters)
    refine joined.reprice ?_ ?_ ?_ ?_ current
    · rw [SemaphoreId.queued_threads, current]
      exact repriced.threads.modify k.current (g := fun old => { old with
        state := .blocked, place := .semaphore lock.semaphore, pending := some (.lock l) })
        fun _ => rfl
    · rw [SemaphoreId.queued_threads, Arena.next_modify, repriced.next,
        SemaphoreId.queued_threads, Arena.next_modify]
    · rw [SemaphoreId.queued_semaphores, semaphores]
      rfl
    · exact repriced.locks

/-- Who sleeps waits for no lock, and is made ready. -/
theorem rise (graph : WaitGraph ⟨k, none⟩) (placed : k.Placed)
    (found : k.threads.get? t = some thread) {sleepers : SleepQueue}
    (perm : k.sleepers.sleepers.Perm (t :: sleepers.sleepers)) (events : List Event) :
    WaitGraph ⟨(((k.mapThread t fun old => { old with place := .detached }).withSleepers
      sleepers).withEvents events).readied t thread.priority, none⟩ := by
  have there := placed.asleep_of_perm found perm
  refine graph.modify found (fun l awaits => absurd awaits
    (not_awaitsLock_of_place found (by rw [there]; exact nofun))) (fun _ _ _ => ?_)
    (fun l waits => .inl ⟨?_, rfl⟩) (keepsUnits_of_eq rfl) (Arena.modify_modify k.threads t _ _) rfl
    rfl fun _ => Iff.rfl
  · exact nofun
  · obtain ⟨pending, _⟩ | ⟨_, undue⟩ := graph.waiting t thread l found waits
    · exact pending
    · cases undue

theorem rebase (graph : WaitGraph ⟨k, none⟩) (placed : k.Placed) (running : k.Running)
    {base : Priority} (h : (refresh k.current).run (k.mapThread k.current fun old =>
      { old with base }) = .ok ((), k')) : WaitGraph ⟨k', none⟩ := by
  obtain ⟨thread, found, runs⟩ := running
  obtain ⟨donors, events, live, _, rfl⟩ :=
    of_run_rebase found (placed.unqueued_of_running found runs) h
  exact graph.retouchCurrent placed found runs (keepsUnits_of_eq rfl) rfl rfl rfl fun d =>
    (live d).trans (and_iff_left_of_imp (graph.contains_of_mem_donors found))

/-- A signal goes through a semaphore that is no lock's unit. -/
theorem signal (graph : WaitGraph ⟨k, none⟩) (sound : Sound d ⟨k, none⟩)
    (named : d.plainHandles = true) {c : ConditionId} {condition : Condition} {waiter : Waiter}
    {rest : List Waiter} (found : k.conditions.get? c = some condition)
    (first : Ranked.sort k.worth condition.waiters = waiter :: rest)
    (h : waiter.semaphore.wake.run (c.called waiter.thread rest k) = .ok ((), k')) :
    WaitGraph ⟨k', none⟩ := by
  have queued : waiter ∈ k.enlisted c := by
    rw [enlisted_of_get? found]
    exact (Ranked.perm_of_sort_eq_cons first).mem_iff.mpr List.mem_cons_self
  have same : k.KeepsPurposes (c.called waiter.thread rest k) := keepsPurposes_of_eq rfl
  have made := same.madeFor ((sound.plain named).awaited c waiter queued)
  have called : WaitGraph ⟨c.called waiter.thread rest k, none⟩ :=
    graph.still (keepsUnits_of_eq rfl) rfl rfl
  exact called.wake (sound.callFirst found first _).placed (made.ordinary nofun) h

/-- The signal is taken, and its semaphore destroyed, which is no lock's unit. -/
theorem signalled (graph : WaitGraph ⟨k, some (.signal s l)⟩) (made : k.MadeFor s .signal)
    {tried : Kernel} (takes : (s.attempt (.signal s l)).run k = .ok (true, tried))
    (h : s.destroy.run tried = .ok ((), k')) : WaitGraph ⟨k', some (.lock l)⟩ := by
  obtain ⟨_, _, _, rfl⟩ := SemaphoreId.of_run_attempt_true takes
  obtain ⟨_, _, _, rfl⟩ := SemaphoreId.of_run_destroy h
  have settled : WaitGraph ⟨k, none⟩ := graph.settle nofun
  have taken : WaitGraph ⟨s.taken k, none⟩ :=
    settled.still (keepsUnits_of_modify (made.ordinary nofun) rfl) rfl rfl
  have keeps : k.KeepsPurposes (s.taken k) := keepsPurposes_of_modify rfl fun _ => rfl
  have destroyed : WaitGraph ⟨s.destroyed (s.taken k), none⟩ :=
    taken.still (keepsUnits_of_erase ((keeps.madeFor made).ordinary nofun) rfl) rfl rfl
  exact destroyed.takeUp _

theorem move {act : Option Act} (graph : WaitGraph m) (sound : Sound d m)
    (named : d.plainHandles = true) (move : Move d act m m') : WaitGraph m' := by
  have placed := sound.placed
  have plain := sound.plain named
  cases move with
  | quiet same => exact graph.still (keepsUnits_of_eq same.semaphores) same.locks same.threads
  | tick | appoint => exact graph.still (keepsUnits_of_eq rfl) rfl rfl
  | enroll blocked detached pending unwaiting donors _ => exact graph.enroll detached unwaiting donors
  | unblock spared ran =>
    obtain ⟨thread, found, blocked, detached, _, rfl⟩ := of_run_unblock ran
    exact graph.readied found (by rw [detached]; exact nofun) _
  | ready found running other =>
    exact graph.readied found (by rw [placed.detached_of_running found running]; exact nofun) _
  | halt running whole halts =>
    obtain ⟨thread, found, running⟩ := running
    exact graph.retouchCurrent placed found running (keepsUnits_of_eq rfl) rfl rfl rfl
      fun _ => Iff.rfl
  | doze runs other told ahead =>
    obtain ⟨thread, found, running, _⟩ := runs
    refine graph.modifyCurrent placed found running (fun _ _ _ => ?_) (keepsUnits_of_eq rfl) rfl
      rfl rfl fun _ => Iff.rfl
    exact nofun
  | rise sleepers found perm due told => exact graph.rise placed found perm _
  | reclaim ran => exact graph.reclaim placed ran
  | pick foundPrevious halted found picks fallback departs handed swept =>
    exact graph.pick placed found picks fallback _ _ _
  | create => exact graph.still (keepsUnits_of_push rfl) rfl rfl
  | destroy made unnamed ran =>
    obtain ⟨_, _, _, rfl⟩ := SemaphoreId.of_run_destroy ran
    exact graph.still (keepsUnits_of_erase ((made named).ordinary nofun) rfl) rfl rfl
  | createLock => exact graph.createLock placed
  | destroyLock found unheld unnamed ran => exact graph.destroyLock placed found unheld ran
  | take runs made ran =>
    obtain ⟨_, _, _, rfl⟩ := SemaphoreId.of_run_take_true ran
    exact graph.still (keepsUnits_of_modify ((made named).ordinary nofun) rfl) rfl rfl
  | attempt runs made onset ran =>
    refine (graph.settle fun l taken => ?_).attempt placed runs ((made named).ordinary nofun) ran
    obtain rfl | rfl := onset.due <;> cases taken
  | attemptLock runs onset ran => exact graph.attemptLock placed runs ran
  | seize runs found takes ran =>
    obtain ⟨unheld, rfl⟩ := graph.of_run_take found takes
    exact graph.held placed runs found unheld ran
  | release running found holds drops ran =>
    obtain ⟨thread, foundCurrent, running⟩ := running
    exact graph.release placed foundCurrent running found holds drops ran
  | wake made ran => exact graph.wake placed ((made named).ordinary nofun) ran
  | rebase running ran => exact graph.rebase placed running ran
  | enlist runs waits holds foundCondition joins =>
    obtain ⟨thread, found, running, _⟩ := runs
    exact graph.retouchCurrent placed found running (keepsUnits_of_push rfl) rfl rfl rfl
      fun _ => Iff.rfl
  | undertake found running pending =>
    rename_i k thread s l
    suffices cleared : WaitGraph ⟨k.mapThread k.current fun old => { old with pending := none }, none⟩
      from cleared.takeUp _
    exact graph.retouchCurrent placed found running (keepsUnits_of_eq rfl) rfl rfl rfl
      fun _ => Iff.rfl
  | signal found first ran => exact graph.signal sound named found first ran
  | signalled runs takes ran => exact graph.signalled (plain.due _ rfl) takes ran
  | unsignalled runs ran =>
    have made := plain.due _ rfl
    exact (graph.settle nofun).attempt placed runs (MadeFor.ordinary made nofun) ran

end WaitGraph

end ThreadKernel
