import ThreadKernel.Proofs.DonationWalk
import ThreadKernel.Proofs.Handover

/-!
# Signalled threads and a lock that is held

A thread that has got its signal tries for the lock next.  If somebody holds that, the thread comes
to wait behind the holder and lends it its priority.  Here the holder is ready to run itself, and
the signalled threads stand in front of it in the ready queue.

* `LockId.rejoins`: what one of them does when it gets the processor.
* `Kernel.Rejoining`: where the dispatcher is when some of them are still to come, and
  `Kernel.Rejoining.step`: one pick.
* `Kernel.Rejoining.exists_dispatch`: they all come to wait, and the holder gets the processor.
* `Kernel.exists_preempt`: the same from the moment when the holder yields to them.
-/

namespace ThreadKernel

open Kernel

variable {d : Discipline} {k k' : Kernel} {t h : ThreadId} {thread holder : Thread}
  {s : SemaphoreId} {semaphore : Semaphore} {l : LockId} {lock : Lock} {p : Priority}

/-! ## One thread -/

namespace Kernel

theorem Repriced.get?_eq (repriced : k.Repriced k') (found : k.threads.get? t = some thread) :
    k'.threads.get? t = some { thread with priority := k'.priorityOf t } := by
  rcases repriced.threads.symm.exists_get? found with ⟨thread', found', same⟩
  rw [priorityOf_of_get? found', found']
  cases thread
  cases thread'
  cases same
  rfl

theorem Placed.blockingHolder_eq_none (placed : k.Placed) (queued : k.place? t = some .ready) :
    k.blockingHolder t = none := by
  rcases Option.map_eq_some_iff.mp queued with ⟨thread, found, place⟩
  exact Kernel.blockingHolder_eq_none found ((placed.ready_iff found).mp place)

/-- A donation to a holder that is ready goes no further. -/
theorem lent_of_ready (placed : k.Placed) (blocks : k.blockingHolder k.current = some h)
    (queued : k.place? h = some .ready) (deep : 0 < k.config.donationDepth)
    (ran : donate.run k = .ok ((), k')) : k.Lent k.current [h] k' := by
  have lent : k.Lent k.current (walk k.blockingHolder k.config.donationDepth k.current) k' :=
    (of_run_donate ran).lent fun _ => placed.blockingHolder_eq_none
  have way : walk k.blockingHolder k.config.donationDepth k.current = [h] := by
    rcases Nat.exists_eq_succ_of_ne_zero (Nat.ne_of_gt deep) with ⟨n, depth⟩
    rw [depth, walk_of_some blocks]
    cases n with
    | zero => rfl
    | succ n => rw [walk_of_none (placed.blockingHolder_eq_none queued)]
  rwa [way] at lent

/-- `t` has been given the processor, with `queue` left to run, has taken the signal `s`, and waits
for the lock.  Its holder `h`, which is ready, has its priority if that is higher. -/
structure Rejoins (k : Kernel) (t : ThreadId) (s : SemaphoreId) (lock : Lock) (h : ThreadId)
    (holder : Thread) (queue : ReadyQueue) (k' : Kernel) : Prop where
  current : k'.current = t
  config : k'.config = k.config
  locks : k'.locks = k.locks
  conditions : k'.conditions = k.conditions
  waits : ∃ thread, k'.threads.get? t = some thread ∧ thread.state = .blocked ∧
    thread.place = .semaphore lock.semaphore
  lent : ∃ donors, k'.threads.get? h = some { holder with
    donors, priority := max (k.priorityOf t) holder.priority }
  others : ∀ u, u ≠ t → u ≠ h → k'.threads.get? u = k.threads.get? u
  semaphores : ∀ s', s' ≠ s → s' ≠ lock.semaphore → k'.semaphores.get? s' = k.semaphores.get? s'
  ready : k'.ready = if holder.priority < k.priorityOf t then
    queue.reprioritize h (k.priorityOf t) else queue

end Kernel

/-- The current thread has asked for a lock whose holder is ready, has lent it its priority, and is
now put into the lock's line. -/
theorem LockId.rejoins_of_lent {asking : Kernel} {donors : List ThreadId}
    {waiters : List ThreadId} {thread : Thread}
    (found : k.threads.get? k.current = some thread) (foundHolder : k.threads.get? h = some holder)
    (other : h ≠ k.current) (queued : (l.asked h donors k).place? h = some .ready)
    (lent : (l.asked h donors k).Lent k.current [h] asking) :
    k.Rejoins k.current lock.semaphore lock h holder k.ready
      (lock.semaphore.queued (.lock l) waiters asking) := by
  have asked : ∀ t, (l.asked h donors k).threads.get? t = (k.threads.get? t).map fun old =>
      { old with
        waitingOn := if k.current = t then some l else old.waitingOn
        donors := if h = t then donors else old.donors } := get?_asked l h donors k
  have same := lent.repriced.retouched
  have current : asking.current = k.current := same.current
  have price : ∀ u, (l.asked h donors k).priorityOf u = k.priorityOf u := priorityOf_asked l h donors k
  have worth : asking.priorityOf h = max (k.priorityOf k.current) holder.priority := by
    rw [lent.prices, raiseAlong, raiseAlong, Function.update_self, price, price,
      priorityOf_of_get? foundHolder]
  have elsewhere : ∀ u, u ≠ k.current → (lock.semaphore.queued (.lock l) waiters
      asking).threads.get? u = asking.threads.get? u := fun u apart =>
    Arena.get?_modify_of_ne _ fun here => apart (here.symm.trans current)
  constructor
  case current => exact current
  case config =>
    rw [SemaphoreId.queued_config, lent.repriced.rest]
    rfl
  case locks => exact lent.repriced.locks
  case conditions => exact same.conditions
  case waits =>
    have record := lent.repriced.get?_eq ((asked k.current).trans (congrArg _ found))
    rw [← current] at record ⊢
    exact ⟨_, Arena.get?_modify_self _ record, rfl, rfl⟩
  case lent =>
    have before : (l.asked h donors k).threads.get? h = some { holder with donors } := by
      rw [asked, foundHolder]
      simp only [if_neg (Ne.symm other), if_pos, Option.map_some]
    refine ⟨donors, ?_⟩
    rw [elsewhere h other, lent.repriced.get?_eq before, worth]
  case others =>
    intro u apart apart'
    rw [elsewhere u apart, lent.others u (mt List.mem_singleton.mp apart'), asked]
    simp only [if_neg (Ne.symm apart), if_neg (Ne.symm apart'), Option.map_id']
  case semaphores =>
    intro s' _ apart
    rw [SemaphoreId.queued_semaphores, Arena.get?_modify_of_ne _ (Ne.symm apart), same.semaphores]
    rfl
  case ready =>
    have ready := lent.moved h (List.mem_singleton_self h) queued
    rw [worth, price, priorityOf_of_get? foundHolder] at ready
    rw [SemaphoreId.queued_ready, ready]
    by_cases below : holder.priority < k.priorityOf k.current
    · rw [if_pos below, Nat.max_eq_left (Nat.le_of_lt below), if_pos below]
      rfl
    · rw [if_neg below, Nat.max_eq_right (Nat.le_of_not_lt below), if_neg (Nat.lt_irrefl _)]
      rfl

/-- The current thread asks for a lock whose holder is ready. -/
theorem LockId.attempt_of_ready {due : Option Pending} (regular : Regular d ⟨k, due⟩)
    (named : d.plainHandles = true)
    (runs : k.Runs) (deep : 0 < k.config.donationDepth) (foundLock : k.locks.get? l = some lock)
    (holds : lock.holder = some h) (foundHolder : k.threads.get? h = some holder)
    (ready : holder.state = .ready) :
    ∃ k', l.attempt.run k = .ok (false, k') ∧
      k.Rejoins k.current lock.semaphore lock h holder k.ready k' := by
  have other : h ≠ k.current := by
    rintro rfl
    rcases runs with ⟨_, found, running, _⟩
    cases foundHolder.symm.trans found
    cases ready.symm.trans running
  rcases LockId.succeeds_attempt (regular.grounded named runs.present) foundLock
    (fun h' holds' => Option.some.inj (holds.symm.trans holds') ▸ ⟨holder, foundHolder⟩) with
    ⟨⟨success, k'⟩, ran⟩
  rcases (regular.graph named).of_run_attempt (id ran) with ⟨lock', found', taken | waits⟩
  · rcases taken with ⟨free, _⟩
    cases foundLock.symm.trans found'
    cases holds.symm.trans free
  rcases waits with ⟨h', holder', donors, asking, waiters, holds', rfl, found'', _, donated, rfl⟩
  cases foundLock.symm.trans found'
  cases holds.symm.trans holds'
  cases foundHolder.symm.trans found''
  rcases runs with ⟨thread, found, running, _⟩
  have placed : (l.asked h donors k).Placed :=
    Placed.mapThread (Placed.mapThread regular.placed (fun _ => by rfl) fun _ => by rfl)
      (fun _ => by rfl) fun _ => by rfl
  have blocks : (l.asked h donors k).blockingHolder k.current = some h :=
    blockingHolder_asked donors found (by rw [running]; exact nofun) foundLock holds
      (Arena.contains_iff.mpr ⟨holder, foundHolder⟩)
  have queued : (l.asked h donors k).place? h = some .ready := by
    rw [Kernel.place?, get?_asked, foundHolder]
    exact congrArg some ((regular.placed.ready_iff foundHolder).mpr ready)
  exact ⟨_, ran, rejoins_of_lent found foundHolder other queued
    (lent_of_ready (k := l.asked h donors k) placed blocks queued deep donated)⟩

/-- The current thread was sent a signal, and takes it. -/
theorem LockId.rejoins (regular : Regular d ⟨k, some (.signal s l)⟩)
    (named : d.plainHandles = true) (runs : k.Runs) (deep : 0 < k.config.donationDepth)
    (foundLock : k.locks.get? l = some lock) (holds : lock.holder = some h)
    (foundHolder : k.threads.get? h = some holder) (ready : holder.state = .ready)
    (found : k.semaphores.get? s = some semaphore) (sent : 0 < semaphore.value)
    (unawaited : semaphore.waiters = []) :
    ∃ k', (l.reacquire s).run k = .ok (false, k') ∧ Regular d ⟨k', none⟩ ∧
      k.Rejoins k.current s lock h holder k.ready k' := by
  have takes : (s.attempt (.signal s l)).run k = .ok (true, s.taken k) := by
    rcases SemaphoreId.succeeds_attempt found (by simp [unawaited]) runs.present (.signal s l) with
      ⟨⟨success, tried⟩, ran⟩
    rcases SemaphoreId.of_run_attempt (id ran) with
      ⟨semaphore', found', ⟨rfl, _, rfl⟩ | ⟨_, zero, _⟩⟩
    · exact ran
    · cases found.symm.trans found'
      exact absurd zero (Nat.ne_of_gt sent)
  have destroys : s.destroy.run (s.taken k) = .ok ((), s.destroyed (s.taken k)) := by
    have found' := Arena.get?_modify_self (fun old : Semaphore =>
      { old with value := old.value - 1 }) found
    rcases SemaphoreId.succeeds_destroy (k := s.taken k) found' unawaited with ⟨⟨_, gone⟩, ran⟩
    rcases SemaphoreId.of_run_destroy (id ran) with ⟨_, _, _, rfl⟩
    exact ran
  have regular' := regular.move (.signalled runs takes destroys)
  have runs' : (s.destroyed (s.taken k)).Runs := runs
  rcases LockId.attempt_of_ready (k := s.destroyed (s.taken k)) regular' named runs' deep foundLock
    holds foundHolder ready with ⟨k', ran, rejoins⟩
  refine ⟨k', ?_, regular'.move (.attemptLock runs' .resumed ran), ?_⟩
  · rw [reacquire, run_bind_of_ok takes]
    exact (run_bind_of_ok destroys).trans ran
  · refine ⟨rejoins.current, rejoins.config, rejoins.locks, rejoins.conditions, rejoins.waits,
      rejoins.lent, rejoins.others, fun s' other apart => ?_, rejoins.ready⟩
    rw [rejoins.semaphores s' apart apart, SemaphoreId.destroyed_semaphores,
      SemaphoreId.taken_semaphores, Arena.get?_erase, if_neg (Ne.symm other),
      Arena.get?_modify_of_ne _ (Ne.symm other)]

/-! ## One after the other -/

namespace Kernel

/-- `t` was sent the signal that it waits for with `l`, and nobody else waits for that. -/
def Sent (k : Kernel) (t : ThreadId) (l : LockId) : Prop :=
  ∃ thread s semaphore, k.threads.get? t = some thread ∧ thread.pending = some (.signal s l) ∧
    k.semaphores.get? s = some semaphore ∧ 0 < semaphore.value ∧ semaphore.waiters = []

/-- The dispatcher is about to pick the threads of `queue`, all of which were sent a signal.  The
holder of their lock is ready, and it is behind them even once it has their priority. -/
structure Rejoining (d : Discipline) (l : LockId) (lock : Lock) (h : ThreadId) (p : Priority)
    (queue : List ThreadId) (k : Kernel) (holder : Thread) (rest : List (ThreadId × Priority)) :
    Prop where
  regular : Regular d ⟨k, none⟩
  deep : 0 < k.config.donationDepth
  found : k.locks.get? l = some lock
  holds : lock.holder = some h
  halted : ∃ previous, k.threads.get? k.current = some previous ∧ previous.state ≠ .running ∧
    previous.state ≠ .dying
  foundHolder : k.threads.get? h = some holder
  ready : holder.state = .ready
  free : holder.pending = none
  le : holder.priority ≤ p
  raised : queue = [] → holder.priority = p
  order : k.ready.entries = queue.map (·, p) ++ rest
  below : ∀ entry ∈ rest, entry.1 ≠ h → entry.2 < p
  sent : ∀ t ∈ queue, k.Sent t l
  sole : ∀ t ∈ queue, ∀ t' ∈ queue, ∀ s, k.pending? t = some (.signal s l) →
    k.pending? t' = some (.signal s l) → t = t'

/-- The threads of `queue` have come to wait for `l`, and nobody else but `h` has changed. -/
structure Rejoined (k : Kernel) (l : LockId) (h : ThreadId) (queue : List ThreadId) (k' : Kernel) :
    Prop where
  locks : k'.locks = k.locks
  conditions : k'.conditions = k.conditions
  apart : h ∉ queue
  waits : ∀ t ∈ queue, k'.AwaitsLock t l
  others : ∀ t thread, t ∉ queue → t ≠ h → k.threads.get? t = some thread →
    thread.state ≠ .dying → k'.threads.get? t = some thread

theorem Rejoined.trans {k'' : Kernel} {queue queue' : List ThreadId}
    (first : k.Rejoined l h queue k') (second : k'.Rejoined l h queue' k'') (placed : k'.Placed) :
    k.Rejoined l h (queue ++ queue') k'' where
  locks := second.locks.trans first.locks
  conditions := second.conditions.trans first.conditions
  apart listed := (List.mem_append.mp listed).elim first.apart second.apart
  waits t listed := by
    by_cases later : t ∈ queue'
    · exact second.waits t later
    · have earlier := (List.mem_append.mp listed).resolve_right later
      rcases first.waits t earlier with ⟨thread, lock, found, foundLock, there⟩
      have blocked := placed.blocked found (by simp [there]) (by simp [there])
      have stays := second.others t thread later (fun here => first.apart (here ▸ earlier)) found
        (by simp [blocked])
      exact ⟨thread, lock, stays, second.locks ▸ foundLock, there⟩
  others t thread unlisted other found alive := by
    rcases not_or.mp (mt List.mem_append.mpr unlisted) with ⟨earlier, later⟩
    exact second.others t thread later other (first.others t thread earlier other found alive) alive

namespace Rejoining

variable {queue : List ThreadId} {rest : List (ThreadId × Priority)}

theorem nodup (rejoining : Rejoining d l lock h p queue k holder rest) : queue.Nodup := by
  have nodup : k.ready.threads.Nodup := rejoining.regular.placed.nodup .ready
  rw [ReadyQueue.threads, rejoining.order, List.map_append, List.map_map,
    List.nodup_append] at nodup
  exact (List.map_id'' (fun _ => rfl) queue) ▸ nodup.1

theorem apart (rejoining : Rejoining d l lock h p queue k holder rest) : h ∉ queue := by
  intro queued
  rcases rejoining.sent h queued with ⟨thread, s, _, found, left, _⟩
  cases rejoining.foundHolder.symm.trans found
  cases rejoining.free.symm.trans left

theorem queued (rejoining : Rejoining d l lock h p queue k holder rest) : h ∈ k.ready.threads :=
  (rejoining.regular.placed.mem_queueAt (p := .ready) (by decide) h).mpr ⟨holder,
    rejoining.foundHolder, (rejoining.regular.placed.ready_iff rejoining.foundHolder).mpr
      rejoining.ready⟩

/-- As long as the holder is below those to come, so is all that is behind them. -/
theorem below_of_lt (rejoining : Rejoining d l lock h p queue k holder rest)
    (lower : holder.priority < p) : ∀ entry ∈ rest, entry.2 < p := by
  intro entry behind
  by_cases here : entry.1 = h
  · have price := rejoining.regular.placed.priced entry (by
      rw [rejoining.order]
      exact List.mem_append_right _ behind)
    rw [here, priorityOf_of_get? rejoining.foundHolder] at price
    exact price ▸ lower
  · exact rejoining.below entry behind here

theorem exists_rejoins (rejoining : Rejoining d l lock h p (t :: queue) k holder rest)
    (named : d.plainHandles = true) :
    ∃ s ready k', k.pending? t = some (.signal s l) ∧ k.priorityOf t = p ∧
      k.ready.pop? = some (t, ready) ∧ dispatchOnce.run k = .ok (false, k') ∧ Regular d ⟨k', none⟩ ∧
      k.Rejoins t s lock h holder ready k' := by
  rcases rejoining.sent t (List.mem_cons_self ..) with
    ⟨thread, s, semaphore, foundFirst, left, foundSemaphore, positive, unawaited⟩
  rcases rejoining.halted with ⟨previous, foundPrevious, halted, alive⟩
  obtain ⟨ready, entries, rule⟩ : ∃ ready : ReadyQueue, ready.entries = queue.map (·, p) ++ rest ∧
      ready.rule = k.ready.rule := ⟨⟨k.ready.rule, _⟩, rfl, rfl⟩
  have front : k.ready.pop? = some (t, ready) :=
    ReadyQueue.pop?_eq_some_iff.mpr ⟨p, by rw [rejoining.order, entries]; rfl, rule⟩
  have worth : k.priorityOf t = p := rejoining.regular.placed.priced (t, p) (by
    rw [rejoining.order]
    exact List.mem_cons_self ..)
  rcases run_dispatchOnce_of_front rejoining.regular ⟨previous, foundPrevious, halted⟩
    (swept_of_alive foundPrevious alive) foundFirst front with
    ⟨processor, dying, events, regular, runs⟩
  rw [left] at regular runs
  have other : t ≠ h := fun here => rejoining.apart (here ▸ List.mem_cons_self ..)
  rcases LockId.rejoins regular named ⟨_, Arena.get?_modify_self _ foundFirst, rfl, rfl⟩
      rejoining.deep rejoining.found rejoining.holds
      ((Arena.get?_modify_of_ne _ other).trans rejoining.foundHolder) rejoining.ready
      foundSemaphore positive unawaited with ⟨k', ran, regular', rejoins⟩
  have price : (k.dispatched t .detached ready processor dying events).priorityOf t =
      k.priorityOf t := priorityOf_dispatched
  refine ⟨s, ready, k', (pending?_of_get? foundFirst).trans left, worth, front,
    runs.trans ran, regular', ⟨rejoins.current, rejoins.config, rejoins.locks, rejoins.conditions,
      rejoins.waits, ?_, fun u apart apart' => ?_, rejoins.semaphores, ?_⟩⟩
  · rw [← price]
    exact rejoins.lent
  · rw [rejoins.others u apart apart']
    exact Arena.get?_modify_of_ne _ (Ne.symm apart)
  · rw [← price]
    exact rejoins.ready

/-- A holder that is raised gets right behind the threads that are still to come. -/
theorem reordered (rejoining : Rejoining d l lock h p (t :: queue) k holder rest)
    {ready : ReadyQueue} (front : k.ready.pop? = some (t, ready)) :
    ∃ rest', (if holder.priority < p then ready.reprioritize h p else ready).entries =
      queue.map (·, p) ++ rest' ∧ ∀ entry ∈ rest', entry.1 ≠ h → entry.2 < p := by
  rcases ReadyQueue.pop?_eq_some_iff.mp front with ⟨_, pop, rule⟩
  have entries : ready.entries = queue.map (·, p) ++ rest :=
    (List.cons.inj (pop.symm.trans rejoining.order)).2
  split
  · next lower =>
    have apart := rejoining.apart
    have behind : h ∈ ready.threads := by
      have queued := rejoining.queued
      rw [ReadyQueue.threads_of_pop? front] at queued
      exact (List.mem_cons.mp queued).resolve_left fun here => apart (here ▸ List.mem_cons_self ..)
    have ordered : ready.Ordered := by
      have all := rejoining.regular.placed.ordered
      rw [ReadyQueue.Ordered, pop] at all
      exact (List.pairwise_cons.mp all).2
    have others : ∀ entry ∈ queue.map (·, p), entry.1 ≠ h := by
      intro entry member here
      rcases List.mem_map.mp member with ⟨u, listed, rfl⟩
      exact apart (List.mem_cons_of_mem _ (here ▸ listed))
    have ahead : ∀ entry ∈ queue.map (·, p), p ≤ entry.2 := by
      intro entry member
      rcases List.mem_map.mp member with ⟨u, _, rfl⟩
      exact Nat.le_refl p
    refine ⟨_, ReadyQueue.entries_reprioritize_append ordered entries behind others ahead
      (rejoining.below_of_lt lower), fun entry member other => ?_⟩
    rcases List.mem_cons.mp member with rfl | member
    · exact absurd rfl other
    · exact rejoining.below entry (List.mem_of_mem_eraseP member) other
  · exact ⟨rest, entries, rejoining.below⟩

/-- The others that were sent a signal are where they were. -/
theorem sent_of_rejoins (rejoining : Rejoining d l lock h p (t :: queue) k holder rest)
    (named : d.plainHandles = true) (left : k.pending? t = some (.signal s l))
    {ready : ReadyQueue} (rejoins : k.Rejoins t s lock h holder ready k') {u : ThreadId}
    (listed : u ∈ queue) :
    k'.Sent u l ∧ k'.threads.get? u = k.threads.get? u := by
  have apart : u ≠ t := fun here => (List.nodup_cons.mp rejoining.nodup).1 (here ▸ listed)
  have apart' : u ≠ h := fun here => rejoining.apart (List.mem_cons_of_mem _ (here ▸ listed))
  have same := rejoins.others u apart apart'
  rcases rejoining.sent u (List.mem_cons_of_mem _ listed) with
    ⟨thread, s', semaphore, found, due, foundSemaphore, positive, unawaited⟩
  have other : s' ≠ s := by
    rintro rfl
    exact apart (rejoining.sole u (List.mem_cons_of_mem _ listed) t (List.mem_cons_self ..) s'
      ((pending?_of_get? found).trans due) left)
  have ordinary : s' ≠ lock.semaphore := by
    rintro rfl
    rcases (rejoining.regular.graph named).unit l lock rejoining.found with
      ⟨unit, foundUnit, _, value⟩
    cases foundSemaphore.symm.trans foundUnit
    rw [rejoining.holds, Option.isSome_some, if_pos rfl] at value
    exact absurd value (Nat.ne_of_gt positive)
  refine ⟨⟨thread, s', semaphore, same.trans found, due, ?_, positive, unawaited⟩, same⟩
  rw [rejoins.semaphores s' other ordinary, foundSemaphore]

/-- The first of those to come gets the processor, and waits for the lock. -/
theorem step (rejoining : Rejoining d l lock h p (t :: queue) k holder rest)
    (named : d.plainHandles = true) :
    ∃ k' holder' rest', dispatchOnce.run k = .ok (false, k') ∧
      Rejoining d l lock h p queue k' holder' rest' ∧ k.Rejoined l h [t] k' := by
  rcases rejoining.exists_rejoins named with
    ⟨s, ready, k', left, worth, front, ran, regular, rejoins⟩
  have sent := fun u listed => rejoining.sent_of_rejoins named left rejoins (u := u) listed
  rcases rejoining.reordered front with ⟨rest', order, below⟩
  rcases rejoins.lent with ⟨donors, lent⟩
  rcases rejoins.waits with ⟨thread, waits, blocked, there⟩
  have foundLock : k'.locks.get? l = some lock := rejoins.locks ▸ rejoining.found
  have queued := rejoins.ready
  rw [worth] at queued
  rw [worth, Nat.max_eq_left rejoining.le] at lent
  refine ⟨k', { holder with donors, priority := p }, rest', ran, ?_, ?_⟩
  · refine ⟨regular, rejoins.config ▸ rejoining.deep, foundLock, rejoining.holds, ?_, lent,
      rejoining.ready, rejoining.free, Nat.le_refl p, fun _ => rfl, queued ▸ order, below,
      fun u listed => (sent u listed).1, ?_⟩
    · rw [rejoins.current]
      exact ⟨thread, waits, by rw [blocked]; decide, by rw [blocked]; decide⟩
    · intro u listed u' listed' s' pending pending'
      rw [pending?, (sent u listed).2] at pending
      rw [pending?, (sent u' listed').2] at pending'
      exact rejoining.sole u (List.mem_cons_of_mem _ listed) u' (List.mem_cons_of_mem _ listed') s'
        pending pending'
  · refine ⟨rejoins.locks, rejoins.conditions, ?_, ?_, fun u record other apart found _ => ?_⟩
    · exact fun here => rejoining.apart (List.mem_singleton.mp here ▸ List.mem_cons_self ..)
    · rintro u here
      cases List.mem_singleton.mp here
      exact ⟨thread, lock, waits, foundLock, there⟩
    · exact (rejoins.others u (mt List.mem_singleton.mpr other) apart).trans found

/-- Once all have come to wait, the holder is in front. -/
theorem exists_pop (rejoining : Rejoining d l lock h p [] k holder rest) :
    ∃ ready, k.ready.pop? = some (h, ready) := by
  rcases List.mem_map.mp rejoining.queued with ⟨entry, member, here⟩
  have price : entry.2 = p := by
    rw [← rejoining.regular.placed.priced entry member, here,
      priorityOf_of_get? rejoining.foundHolder, rejoining.raised rfl]
  have below : ∀ entry ∈ k.ready.entries, entry.1 ≠ h → entry.2 < p := by
    rw [rejoining.order]
    exact rejoining.below
  rcases rejoining.regular.placed.ordered.exists_front member with ⟨front, first, le⟩
  have stands : front.1 = h := by
    by_contra other
    exact Nat.not_lt_of_le le (price ▸ below front (List.mem_of_mem_head? first) other)
  exact stands ▸ ReadyQueue.exists_pop?_of_front? first

/-- The threads to come try for the lock one after the other, and after that its holder has the
processor. -/
theorem exists_dispatch (rejoining : Rejoining d l lock h p queue k holder rest)
    (named : d.plainHandles = true) {picks : Nat} (enough : queue.length < picks) :
    ∃ k', (dispatch picks).run k = .ok ((), k') ∧ Regular d ⟨k', none⟩ ∧
      k.Rejoined l h queue k' ∧ k'.current = h ∧ k'.Runs ∧ k'.priorityOf h = p := by
  induction queue generalizing k holder rest picks with
  | nil =>
    rcases rejoining.exists_pop with ⟨ready, front⟩
    rcases rejoining.halted with ⟨previous, foundPrevious, halted, alive⟩
    rcases run_dispatchOnce_of_front rejoining.regular ⟨previous, foundPrevious, halted⟩
      (swept_of_alive foundPrevious alive) rejoining.foundHolder front with
      ⟨processor, dying, events, regular, runs⟩
    rw [rejoining.free] at regular runs
    have record := Arena.get?_modify_self (fun old : Thread =>
      { old with state := .running, place := .detached, pending := none }) rejoining.foundHolder
    refine ⟨_, ?_, regular, ⟨rfl, rfl, List.not_mem_nil, List.forall_mem_nil _, ?_⟩, rfl,
      ⟨_, record, rfl, rfl⟩, ?_⟩
    · rcases Nat.exists_eq_succ_of_ne_zero (Nat.ne_of_gt enough) with ⟨more, rfl⟩
      exact run_bind_of_ok runs
    · exact fun t thread _ other found _ => (Arena.get?_modify_of_ne _ (Ne.symm other)).trans found
    · rw [← rejoining.raised rfl, ← priorityOf_of_get? rejoining.foundHolder]
      exact priorityOf_dispatched
  | cons t queue ih =>
    rcases rejoining.step named with ⟨middle, holder', rest', once, rejoining', rejoined⟩
    rcases Nat.exists_eq_succ_of_ne_zero (Nat.ne_of_gt (Nat.zero_lt_of_lt enough)) with ⟨more, rfl⟩
    rcases ih rejoining' (Nat.lt_of_succ_lt_succ enough) with ⟨last, ran, regular, others, ended⟩
    exact ⟨last, (run_bind_of_ok once).trans ran, regular,
      rejoined.trans others rejoining'.regular.placed, ended⟩

/-- None of them is among the records that the dispatcher drops first. -/
theorem reclaimed (rejoining : Rejoining d l lock h p queue k holder rest)
    (ran : reclaim.run k = .ok ((), k')) :
    Rejoining d l lock h p queue k' holder rest ∧ k.Rejoined l h [] k' := by
  have placed := rejoining.regular.placed
  have regular := rejoining.regular.move (.reclaim ran)
  rcases of_run_reclaim ran with ⟨threads, events, _, _, gone, rfl⟩
  have stays : ∀ t thread, k.threads.get? t = some thread → thread.state ≠ .dying →
      threads.get? t = some thread := by
    intro t thread found alive
    rw [gone, if_neg fun left => alive (placed.dying_of_mem left found), found]
  have sent : ∀ t ∈ queue, ∃ thread, k.threads.get? t = some thread ∧
      threads.get? t = some thread := by
    intro t listed
    rcases rejoining.sent t listed with ⟨thread, _, _, found, _⟩
    have queued : t ∈ k.queueAt .ready := by
      rw [queueAt, ReadyQueue.threads, rejoining.order, List.map_append, List.map_map]
      exact List.mem_append_left _ (List.mem_map.mpr ⟨t, listed, rfl⟩)
    rcases placed.exists_of_mem queued with ⟨_, thread', found', there⟩
    cases found.symm.trans found'
    have ready := (placed.ready_iff found).mp there
    exact ⟨thread, found, stays t thread found (by simp [ready])⟩
  have pending : ∀ t ∈ queue, pending? { k with dying := [], threads, events } t =
      k.pending? t := by
    intro t listed
    rcases sent t listed with ⟨thread, found, found'⟩
    rw [pending?, pending?, found]
    exact congrArg (·.bind Thread.pending) found'
  refine ⟨⟨regular, rejoining.deep, rejoining.found, rejoining.holds, ?_, ?_, rejoining.ready,
    rejoining.free, rejoining.le, rejoining.raised, rejoining.order, rejoining.below, ?_, ?_⟩,
    ⟨rfl, rfl, List.not_mem_nil, List.forall_mem_nil _, fun t thread _ _ => stays t thread⟩⟩
  · rcases rejoining.halted with ⟨previous, found, halted, alive⟩
    exact ⟨previous, stays _ _ found alive, halted, alive⟩
  · exact stays _ _ rejoining.foundHolder (by simp [rejoining.ready])
  · intro t listed
    rcases rejoining.sent t listed with ⟨thread, s, semaphore, found, rest⟩
    rcases sent t listed with ⟨thread', foundBefore, foundAfter⟩
    cases found.symm.trans foundBefore
    exact ⟨thread, s, semaphore, foundAfter, rest⟩
  · intro t listed t' listed' s left left'
    rw [pending t listed] at left
    rw [pending t' listed'] at left'
    exact rejoining.sole t listed t' listed' s left left'

theorem exists_schedule (rejoining : Rejoining d l lock h p queue k holder rest)
    (named : d.plainHandles = true) (masked : k.processor.level = .off) :
    ∃ k', schedule.run k = .ok ((), k') ∧ Regular d ⟨k', none⟩ ∧
      k.Rejoined l h queue k' ∧ k'.current = h ∧ k'.Runs ∧ k'.priorityOf h = p := by
  rcases run_schedule k with ⟨reclaimed, reclaims, _, _, schedules⟩
  rw [if_pos masked] at schedules
  rcases rejoining.reclaimed reclaims with ⟨rejoining', first⟩
  have enough : queue.length < reclaimed.ready.size + 1 := by
    rw [ReadyQueue.size, rejoining'.order, List.length_append, List.length_map]
    omega
  rcases rejoining'.exists_dispatch named enough with ⟨k', ran, regular, second, ended⟩
  exact ⟨k', schedules.trans ran, regular, first.trans second rejoining'.regular.placed, ended⟩

end Rejoining

/-- The holder of a lock stands by for threads that were sent a signal and outrank it. -/
theorem rejoining_readied {queue : List ThreadId} {rest : List (ThreadId × Priority)}
    (regular : Regular d ⟨k, none⟩) (foundCurrent : k.threads.get? k.current = some thread)
    (running : thread.state = .running) (free : thread.pending = none)
    (busy : k.idle ≠ some k.current) (deep : 0 < k.config.donationDepth)
    (found : k.locks.get? l = some lock) (holds : lock.holder = some k.current)
    (lower : thread.priority < p) (called : queue ≠ [])
    (order : k.ready.entries = queue.map (·, p) ++ rest)
    (below : ∀ entry ∈ rest, entry.2 < p) (sent : ∀ t ∈ queue, k.Sent t l)
    (sole : ∀ t ∈ queue, ∀ t' ∈ queue, ∀ s, k.pending? t = some (.signal s l) →
      k.pending? t' = some (.signal s l) → t = t') :
    Rejoining d l lock k.current p queue (k.readied k.current thread.priority)
      { thread with state := .ready, place := .ready }
      (Ranked.insert Prod.snd (k.current, thread.priority) rest) := by
  have other : ∀ t ∈ queue, k.current ≠ t := by
    rintro t listed rfl
    rcases sent k.current listed with ⟨_, _, _, found, left, _⟩
    cases foundCurrent.symm.trans found
    cases free.symm.trans left
  have record : ∀ t, k.current ≠ t →
      (k.readied k.current thread.priority).threads.get? t = k.threads.get? t :=
    fun t apart => Arena.get?_modify_of_ne _ apart
  have pending : ∀ t ∈ queue,
      (k.readied k.current thread.priority).pending? t = k.pending? t :=
    fun t listed => congrArg (·.bind Thread.pending) (record t (other t listed))
  have ahead : ∀ entry ∈ queue.map (·, p), thread.priority ≤ entry.2 := by
    intro entry member
    rcases List.mem_map.mp member with ⟨_, _, rfl⟩
    exact Nat.le_of_lt lower
  refine ⟨regular.move (.ready foundCurrent running busy), deep, found, holds,
    ⟨_, Arena.get?_modify_self _ foundCurrent, by simp, by simp⟩,
    Arena.get?_modify_self _ foundCurrent, rfl, free, Nat.le_of_lt lower,
    fun none => absurd none called, ?_, ?_, ?_, ?_⟩
  · rw [readied_ready, ReadyQueue.insert, order]
    exact Ranked.insert_append rest ahead
  · intro entry member apart
    rcases Ranked.mem_insert.mp member with rfl | member
    · exact absurd rfl apart
    · exact below entry member
  · intro t listed
    rcases sent t listed with ⟨record', s, semaphore, found, rest⟩
    exact ⟨record', s, semaphore, (record t (other t listed)).trans found, rest⟩
  · intro t listed t' listed' s left left'
    rw [pending t listed] at left
    rw [pending t' listed'] at left'
    exact sole t listed t' listed' s left left'

/-- The holder of a lock yields to threads that were sent a signal and outrank it.  They come to
wait for the lock, and it has the processor again, at their priority. -/
theorem exists_preempt {queue : List ThreadId} {rest : List (ThreadId × Priority)}
    (regular : Regular d ⟨k, none⟩) (named : d.plainHandles = true) (runs : k.Runs)
    (outside : k.inInterrupt = false) (busy : k.idle ≠ some k.current)
    (deep : 0 < k.config.donationDepth) (found : k.locks.get? l = some lock)
    (holds : lock.holder = some k.current) (lower : k.priorityOf k.current < p)
    (called : queue ≠ []) (order : k.ready.entries = queue.map (·, p) ++ rest)
    (below : ∀ entry ∈ rest, entry.2 < p) (sent : ∀ t ∈ queue, k.Sent t l)
    (sole : ∀ t ∈ queue, ∀ t' ∈ queue, ∀ s, k.pending? t = some (.signal s l) →
      k.pending? t' = some (.signal s l) → t = t') :
    ∃ k', preempt.run k = .ok ((), k') ∧ Regular d ⟨k', none⟩ ∧
      k.Rejoined l k.current queue k' ∧ k'.current = k.current ∧ k'.Runs ∧
      k'.priorityOf k.current = p := by
  rcases runs with ⟨thread, foundCurrent, running, free⟩
  rw [priorityOf_of_get? foundCurrent] at lower
  have absent : k.current ∉ k.ready.threads := regular.placed.not_mem_of_detached foundCurrent
    (regular.placed.detached_of_running foundCurrent running) .ready
  have outranked : k.outranked = true := by
    rcases List.exists_cons_of_ne_nil called with ⟨first, others, rfl⟩
    refine outranked_iff.mpr ⟨(first, p), ?_, .inr ?_⟩
    · rw [ReadyQueue.front?, order]
      rfl
    · rwa [priorityOf_of_get? foundCurrent]
  have rejoining := rejoining_readied (k := k.atLevel .off)
    (regular.move (.quiet (sameWork_atLevel .off))) foundCurrent running free busy deep found holds
    lower called order below sent sole
  rcases rejoining.exists_schedule named rfl with
    ⟨last, ran, regular', rejoined, current, runs, price⟩
  refine ⟨last.atLevel k.processor.level, ?_, regular'.move (.quiet (sameWork_atLevel _)),
    ⟨rejoined.locks, rejoined.conditions, rejoined.apart, rejoined.waits, ?_⟩, current, runs, price⟩
  · rw [run_preempt_of_outranked outranked outside,
      run_yield_of_busy outside busy foundCurrent absent]
    exact congrArg (Except.map _) ran
  · intro t record' unlisted apart found alive
    exact rejoined.others t record' unlisted apart
      ((Arena.get?_modify_of_ne _ (Ne.symm apart)).trans found) alive

end Kernel

end ThreadKernel
