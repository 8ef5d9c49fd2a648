import ThreadKernel.Proofs.Effects

/-!
# Threads and the lists they are in

A thread's record names the one place where the thread is listed, and the lists
are kept elsewhere: the ready queue, the sleep queue and the wait list of each
semaphore.  `Placed` says that records and lists agree.

* `Placed.congr`: only states, places and lists matter, not the order of the
  lists.
* `Placed.enter` and `Placed.leave`: a detached thread enters a list, a listed
  one leaves it.
* The rest applies the three to the changes that operations are made of.
-/

namespace ThreadKernel

/-- Where a thread is and whether it runs. -/
def Thread.position (thread : Thread) : RunState × Place := (thread.state, thread.place)

namespace Kernel

/-- The threads listed at a place. -/
def queueAt (k : Kernel) : Place → List ThreadId
  | .detached => []
  | .ready => k.ready.threads
  | .sleep => k.sleepers.sleepers
  | .semaphore s => (k.semaphores.get? s).elim [] (·.waiters)

theorem queueAt_mapThread (k : Kernel) (t : ThreadId) (f : Thread → Thread) (p : Place) :
    (k.mapThread t f).queueAt p = k.queueAt p := by
  cases p <;> rfl

theorem queueAt_mapSemaphore {k : Kernel} {s : SemaphoreId} {semaphore : Semaphore}
    (found : k.semaphores.get? s = some semaphore) (f : Semaphore → Semaphore) (p : Place) :
    (k.mapSemaphore s f).queueAt p =
      if p = .semaphore s then (f semaphore).waiters else k.queueAt p := by
  cases p with
  | semaphore s' =>
    simp only [queueAt, mapSemaphore_semaphores, Place.semaphore.injEq]
    by_cases same : s' = s
    · rw [same, Arena.get?_modify_self f found, if_pos rfl, Option.elim_some]
    · rw [Arena.get?_modify_of_ne f (Ne.symm same), if_neg same]
  | _ => rfl

theorem queueAt_semaphore {k : Kernel} {s : SemaphoreId} {semaphore : Semaphore}
    (found : k.semaphores.get? s = some semaphore) :
    k.queueAt (.semaphore s) = semaphore.waiters := by
  rw [queueAt, found, Option.elim_some]

theorem mem_queueAt_of_pop? {k : Kernel} {t : ThreadId} {ready : ReadyQueue}
    (pop : k.ready.pop? = some (t, ready)) : t ∈ k.queueAt .ready := by
  rw [queueAt, ReadyQueue.threads_of_pop? pop]
  exact List.mem_cons_self

/-- Records and lists agree on where each thread is. -/
structure Placed (k : Kernel) : Prop where
  mem_queueAt : ∀ {p : Place}, p ≠ .detached → ∀ t, t ∈ k.queueAt p ↔
    ∃ thread, k.threads.get? t = some thread ∧ thread.place = p
  nodup : ∀ p, (k.queueAt p).Nodup
  ready_iff : ∀ {t : ThreadId} {thread : Thread}, k.threads.get? t = some thread →
    (thread.place = .ready ↔ thread.state = .ready)
  blocked : ∀ {t : ThreadId} {thread : Thread}, k.threads.get? t = some thread →
    thread.place ≠ .detached → thread.place ≠ .ready → thread.state = .blocked
  running : ∀ {t : ThreadId} {thread : Thread}, k.threads.get? t = some thread →
    thread.state = .running → t = k.current
  ordered : k.ready.Ordered
  priced : ∀ entry ∈ k.ready.entries, k.priorityOf entry.1 = entry.2
  exited : ∀ t ∈ k.dying, ∃ thread, k.threads.get? t = some thread ∧ thread.state = .dying
  idle : ∀ t, k.idle = some t → ∃ thread, k.threads.get? t = some thread ∧
    thread.state ≠ .dying ∧ thread.place ≠ .sleep

variable {k k' : Kernel} {t : ThreadId} {thread : Thread}

namespace Placed

theorem exists_of_mem (placed : k.Placed) {p : Place} (listed : t ∈ k.queueAt p) :
    p ≠ .detached ∧ ∃ thread, k.threads.get? t = some thread ∧ thread.place = p := by
  have somewhere : p ≠ .detached := by
    intro nowhere
    rw [nowhere] at listed
    exact List.not_mem_nil listed
  exact ⟨somewhere, (placed.mem_queueAt somewhere t).mp listed⟩

theorem not_mem_of_detached (placed : k.Placed) (found : k.threads.get? t = some thread)
    (detached : thread.place = .detached) (p : Place) : t ∉ k.queueAt p := by
  intro listed
  obtain ⟨somewhere, thread', found', there⟩ := placed.exists_of_mem listed
  cases found.symm.trans found'
  exact somewhere (there.symm.trans detached)

/-- Only ready and blocked threads are in lists. -/
theorem detached_of_state (placed : k.Placed) (found : k.threads.get? t = some thread)
    (unready : thread.state ≠ .ready) (unblocked : thread.state ≠ .blocked) :
    thread.place = .detached := by
  by_cases detached : thread.place = .detached
  · exact detached
  by_cases ready : thread.place = .ready
  · exact absurd ((placed.ready_iff found).mp ready) unready
  · exact absurd (placed.blocked found detached ready) unblocked

/-- A thread that has exited is only found dying. -/
theorem dying_of_mem (placed : k.Placed) (left : t ∈ k.dying)
    (found : k.threads.get? t = some thread) : thread.state = .dying := by
  obtain ⟨thread', found', dying⟩ := placed.exited t left
  cases found.symm.trans found'
  exact dying

theorem detached_of_running (placed : k.Placed) (found : k.threads.get? t = some thread)
    (running : thread.state = .running) : thread.place = .detached := by
  refine placed.detached_of_state found ?_ ?_ <;> rw [running] <;> exact nofun

theorem unqueued_of_running (placed : k.Placed) (found : k.threads.get? t = some thread)
    (running : thread.state = .running) : thread.place ≠ .ready :=
  placed.detached_of_running found running ▸ nofun

/-- Who is first in the sleep queue says so. -/
theorem asleep_of_perm (placed : k.Placed) (found : k.threads.get? t = some thread)
    {sleepers : List ThreadId} (perm : k.sleepers.sleepers.Perm (t :: sleepers)) :
    thread.place = .sleep := by
  have listed : t ∈ k.queueAt .sleep := perm.mem_iff.mpr List.mem_cons_self
  obtain ⟨_, thread', found', asleep⟩ := placed.exists_of_mem listed
  cases found.symm.trans found'
  exact asleep

/-- Whoever is ready is no better than the front of the ready queue. -/
theorem exists_front (placed : k.Placed) (found : k.threads.get? t = some thread)
    (ready : thread.state = .ready) :
    ∃ front, k.ready.front? = some front ∧ thread.priority ≤ front.2 := by
  have queued := (placed.mem_queueAt (p := .ready) nofun t).mpr
    ⟨thread, found, (placed.ready_iff found).mpr ready⟩
  obtain ⟨entry, member, rfl⟩ := List.mem_map.mp queued
  have price := placed.priced entry member
  rw [priorityOf_of_get? found] at price
  exact price ▸ placed.ordered.exists_front member

theorem congr (placed : k.Placed)
    (threads : Arena.Agree Thread.position k'.threads k.threads)
    (queues : ∀ p, (k'.queueAt p).Perm (k.queueAt p)) (current : k'.current = k.current)
    (dying : k'.dying = k.dying) (idle : k'.idle = k.idle) (ordered : k'.ready.Ordered)
    (priced : ∀ entry ∈ k'.ready.entries, k'.priorityOf entry.1 = entry.2) : k'.Placed := by
  have back : ∀ {t thread'}, k'.threads.get? t = some thread' →
      ∃ thread, k.threads.get? t = some thread ∧ thread.state = thread'.state ∧
        thread.place = thread'.place := by
    intro t thread' found'
    obtain ⟨thread, found, same⟩ := threads.exists_get? found'
    exact ⟨thread, found, Prod.mk.inj same⟩
  constructor
  case mem_queueAt =>
    intro p listed t
    rw [(queues p).mem_iff, placed.mem_queueAt listed]
    exact (threads.exists_iff fun x => x.2 = p).symm
  case nodup => exact fun p => (queues p).nodup_iff.mpr (placed.nodup p)
  case ready_iff =>
    intro t thread' found'
    obtain ⟨thread, found, state, place⟩ := back found'
    rw [← state, ← place]
    exact placed.ready_iff found
  case blocked =>
    intro t thread' found'
    obtain ⟨thread, found, state, place⟩ := back found'
    rw [← state, ← place]
    exact placed.blocked found
  case running =>
    intro t thread' found'
    obtain ⟨thread, found, state, place⟩ := back found'
    rw [← state, current]
    exact placed.running found
  case ordered => exact ordered
  case priced => exact priced
  case exited =>
    intro t left
    exact (threads.exists_iff fun x => x.1 = .dying).mpr (placed.exited t (dying ▸ left))
  case idle =>
    intro t idles
    exact (threads.exists_iff fun x => x.1 ≠ .dying ∧ x.2 ≠ .sleep).mpr
      (placed.idle t (idle ▸ idles))

/-- Who is found where one thread has moved is that thread, or stands as it did. -/
theorem moved_or_stayed {state : RunState} {place : Place} {u : ThreadId} {record : Thread}
    (found : k.threads.get? t = some thread)
    (threads : Arena.Agree Thread.position k'.threads
      (k.threads.modify t fun old => { old with state, place }))
    (found' : k'.threads.get? u = some record) :
    u = t ∧ record.state = state ∧ record.place = place ∨
      u ≠ t ∧ ∃ old, k.threads.get? u = some old ∧ old.state = record.state ∧
        old.place = record.place := by
  obtain ⟨here, same⟩ | ⟨other, old, foundOld, same⟩ := threads.exists_get?_modify found found'
  · exact .inl ⟨here, Prod.mk.inj same⟩
  · exact .inr ⟨other, old, foundOld, Prod.mk.inj same⟩

/-- One thread is now in another state, at another place; the lists have followed. -/
theorem shift (placed : k.Placed) (found : k.threads.get? t = some thread)
    (state : RunState) (place : Place)
    (threads : Arena.Agree Thread.position k'.threads
      (k.threads.modify t fun old => { old with state, place }))
    (mem_queueAt : ∀ p, p ≠ .detached → ∀ u,
      u ∈ k'.queueAt p ↔ if u = t then place = p else u ∈ k.queueAt p)
    (nodup : ∀ p, (k'.queueAt p).Nodup)
    (ready_iff : place = .ready ↔ state = .ready)
    (blocked : place ≠ .detached → place ≠ .ready → state = .blocked)
    (running : state = .running → t = k'.current)
    (others : ∀ u record, u ≠ t → k.threads.get? u = some record → record.state = .running →
      u = k'.current)
    (ordered : k'.ready.Ordered)
    (priced : ∀ entry ∈ k'.ready.entries, k'.priorityOf entry.1 = entry.2)
    (exited : ∀ u ∈ k'.dying, (u = t → state = .dying) ∧ (u ≠ t →
      ∃ record, k.threads.get? u = some record ∧ record.state = .dying))
    (idle : k'.idle = k.idle)
    (idles : k.idle = some t → state ≠ .dying ∧ place ≠ .sleep) : k'.Placed := by
  constructor
  case mem_queueAt =>
    intro p listed u
    rw [mem_queueAt p listed]
    refine Iff.trans ?_ (threads.exists_modify_iff found fun x => x.2 = p).symm
    split
    · exact Iff.rfl
    · exact placed.mem_queueAt listed u
  case nodup => exact nodup
  case ready_iff =>
    intro u record found'
    obtain ⟨_, here, there⟩ | ⟨_, old, foundOld, here, there⟩ :=
      moved_or_stayed found threads found'
    · rw [here, there]
      exact ready_iff
    · rw [← here, ← there]
      exact placed.ready_iff foundOld
  case blocked =>
    intro u record found'
    obtain ⟨_, here, there⟩ | ⟨_, old, foundOld, here, there⟩ :=
      moved_or_stayed found threads found'
    · rw [here, there]
      exact blocked
    · rw [← here, ← there]
      exact placed.blocked foundOld
  case running =>
    intro u record found' runs
    obtain ⟨rfl, here, _⟩ | ⟨other, old, foundOld, here, _⟩ := moved_or_stayed found threads found'
    · exact running (here.symm.trans runs)
    · exact others u old other foundOld (here.trans runs)
  case ordered => exact ordered
  case priced => exact priced
  case exited =>
    intro u left
    refine (threads.exists_modify_iff found fun x => x.1 = .dying).mpr ?_
    split
    · next here => exact (exited u left).1 here
    · next other => exact (exited u left).2 other
  case idle =>
    intro u isIdle
    rw [idle] at isIdle
    refine (threads.exists_modify_iff found fun x => x.1 ≠ .dying ∧ x.2 ≠ .sleep).mpr ?_
    split
    · next here => exact idles (here ▸ isIdle)
    · exact placed.idle u isIdle

/-- The lists when a detached thread has entered one. -/
theorem queues_of_enter (placed : k.Placed) (found : k.threads.get? t = some thread)
    (detached : thread.place = .detached) {q : Place}
    (queues : ∀ p, (k'.queueAt p).Perm (if p = q then t :: k.queueAt p else k.queueAt p)) :
    (∀ p, p ≠ .detached → ∀ u, u ∈ k'.queueAt p ↔ if u = t then q = p else u ∈ k.queueAt p) ∧
      ∀ p, (k'.queueAt p).Nodup := by
  have absent := placed.not_mem_of_detached found detached
  constructor
  · intro p _ u
    rw [(queues p).mem_iff]
    by_cases here : u = t
    · subst here
      by_cases same : p = q
      · simp only [same, if_true, List.mem_cons_self]
      · simp only [same, if_false, absent p, if_true, Ne.symm same]
    · by_cases same : p = q
      · simp only [same, if_true, List.mem_cons, here, false_or, if_false]
      · simp only [same, if_false, here]
  · intro p
    rw [(queues p).nodup_iff]
    split
    · exact List.nodup_cons.mpr ⟨absent p, placed.nodup p⟩
    · exact placed.nodup p

/-- The lists when a thread has left the one it was in. -/
theorem queues_of_leave (placed : k.Placed) (found : k.threads.get? t = some thread) {q : Place}
    (there : thread.place = q)
    (queues : ∀ p, (if p = q then t :: k'.queueAt p else k'.queueAt p).Perm (k.queueAt p)) :
    (∀ p, p ≠ .detached → ∀ u,
        u ∈ k'.queueAt p ↔ if u = t then Place.detached = p else u ∈ k.queueAt p) ∧
      ∀ p, (k'.queueAt p).Nodup := by
  have nodup : ∀ p, (k'.queueAt p).Nodup ∧ t ∉ k'.queueAt p := by
    intro p
    have before := (queues p).nodup_iff.mpr (placed.nodup p)
    by_cases same : p = q
    · rw [if_pos same] at before
      exact ⟨(List.nodup_cons.mp before).2, (List.nodup_cons.mp before).1⟩
    · rw [if_neg same] at before
      refine ⟨before, fun again => ?_⟩
      have elsewhere := (queues p).mem_iff.mp (by rw [if_neg same]; exact again)
      obtain ⟨_, thread', found', place⟩ := placed.exists_of_mem elsewhere
      cases found.symm.trans found'
      exact same (place.symm.trans there)
  refine ⟨fun p somewhere u => ?_, fun p => (nodup p).1⟩
  rw [← (queues p).mem_iff]
  by_cases here : u = t
  · subst here
    simp only [if_true, (nodup p).2, Ne.symm somewhere]
  · by_cases same : p = q
    · simp only [same, if_true, List.mem_cons, here, false_or, if_false]
    · simp only [same, if_false, here]

/-! ## Changes of one thread -/

/-- A detached thread enters a list. -/
theorem enter (placed : k.Placed) (found : k.threads.get? t = some thread)
    (detached : thread.place = .detached) (alive : thread.state ≠ .dying) {state : RunState}
    {q : Place} (entered : q = .ready ∧ state = .ready ∨
      q ≠ .ready ∧ state = .blocked ∧ (k.idle = some t → q ≠ .sleep))
    (threads : Arena.Agree Thread.position k'.threads
      (k.threads.modify t fun old => { old with state, place := q }))
    (queues : ∀ p, (k'.queueAt p).Perm (if p = q then t :: k.queueAt p else k.queueAt p))
    (current : k'.current = k.current) (dying : k'.dying = k.dying) (idle : k'.idle = k.idle)
    (ordered : k'.ready.Ordered)
    (priced : ∀ entry ∈ k'.ready.entries, k'.priorityOf entry.1 = entry.2) : k'.Placed := by
  obtain ⟨mem, nodup⟩ := placed.queues_of_enter found detached queues
  refine placed.shift found state q threads mem nodup ?_ ?_ ?_ ?_ ordered priced ?_ idle ?_
  · obtain ⟨place, ready⟩ | ⟨place, blocked, _⟩ := entered
    · exact ⟨fun _ => ready, fun _ => place⟩
    · exact ⟨fun ready => absurd ready place, fun ready => nomatch blocked.symm.trans ready⟩
  · obtain ⟨place, _⟩ | ⟨_, blocked, _⟩ := entered
    · exact fun _ unready => absurd place unready
    · exact fun _ _ => blocked
  · obtain ⟨_, ready⟩ | ⟨_, blocked, _⟩ := entered
    · exact fun runs => nomatch ready.symm.trans runs
    · exact fun runs => nomatch blocked.symm.trans runs
  · intro u record _ foundRecord runs
    rw [current]
    exact placed.running foundRecord runs
  · intro u left
    rw [dying] at left
    refine ⟨fun here => ?_, fun _ => placed.exited u left⟩
    subst here
    exact absurd (placed.dying_of_mem left found) alive
  · intro isIdle
    obtain ⟨place, ready⟩ | ⟨_, blocked, awake⟩ := entered
    · rw [place, ready]
      exact ⟨nofun, nofun⟩
    · rw [blocked]
      exact ⟨nofun, awake isIdle⟩

/-- A blocked thread leaves its list. -/
theorem leave (placed : k.Placed) (found : k.threads.get? t = some thread) {q : Place}
    (there : thread.place = q) (listed : q ≠ .detached) (unready : q ≠ .ready)
    (threads : Arena.Agree Thread.position k'.threads
      (k.threads.modify t fun old => { old with place := .detached }))
    (queues : ∀ p, (if p = q then t :: k'.queueAt p else k'.queueAt p).Perm (k.queueAt p))
    (current : k'.current = k.current) (dying : k'.dying = k.dying) (idle : k'.idle = k.idle)
    (ordered : k'.ready.Ordered)
    (priced : ∀ entry ∈ k'.ready.entries, k'.priorityOf entry.1 = entry.2) : k'.Placed := by
  obtain ⟨mem, nodup⟩ := placed.queues_of_leave found there queues
  have blocked : thread.state = .blocked := by
    rw [← there] at listed unready
    exact placed.blocked found listed unready
  rw [Arena.modify_congr (g := fun old => { old with state := .blocked, place := .detached }) found
    (by rw [blocked])] at threads
  refine placed.shift found .blocked .detached threads mem nodup ?_ ?_ nofun ?_ ordered priced ?_
    idle ?_
  · exact ⟨nofun, nofun⟩
  · exact fun somewhere => absurd rfl somewhere
  · intro u record _ foundRecord runs
    rw [current]
    exact placed.running foundRecord runs
  · intro u left
    rw [dying] at left
    refine ⟨fun here => ?_, fun _ => placed.exited u left⟩
    subst here
    exact nomatch blocked.symm.trans (placed.dying_of_mem left found)
  · exact fun _ => ⟨nofun, nofun⟩

/-! ## What operations are made of -/

/-- Nothing is moved. -/
theorem of_same_queues (placed : k.Placed) (threads : k'.threads = k.threads)
    (ready : k'.ready = k.ready) (queues : ∀ p, k'.queueAt p = k.queueAt p)
    (current : k'.current = k.current) (dying : k'.dying = k.dying) (idle : k'.idle = k.idle) :
    k'.Placed := by
  refine placed.congr ?_ (fun p => by rw [queues p]) current dying idle ?_ ?_
  · rw [threads]
    exact Arena.Agree.refl _ _
  · rw [ready]
    exact placed.ordered
  · intro entry queued
    rw [ready] at queued
    rw [priorityOf, threads]
    exact placed.priced entry queued

/-- A record is changed, but not where its thread is, nor at what priority. -/
theorem mapThread (placed : k.Placed) {f : Thread → Thread}
    (position : ∀ x, (f x).position = x.position)
    (priority : ∀ x, (f x).priority = x.priority) :
    (k.mapThread t f).Placed := by
  refine placed.congr (Arena.agree_modify position) (fun p => ?_) rfl rfl rfl placed.ordered ?_
  · rw [queueAt_mapThread]
  · exact fun entry queued =>
      (priorityOf_mapThread priority).trans (placed.priced entry queued)

/-- A priority is changed, in the ready queue too if the thread is there. -/
theorem repriced (placed : k.Placed) (found : k.threads.get? t = some thread) {p : Priority}
    {f : Thread → Thread} (position : ∀ x, (f x).position = x.position)
    (priority : (f thread).priority = p) :
    ((k.mapThread t f).withReady
      (if thread.place = .ready then k.ready.reprioritize t p else k.ready)).Placed := by
  have here : ∀ ready, ((k.mapThread t f).withReady ready).priorityOf t = (f thread).priority :=
    fun _ => priorityOf_of_get? (Arena.get?_modify_self f found)
  have elsewhere : ∀ ready u, u ≠ t →
      ((k.mapThread t f).withReady ready).priorityOf u = k.priorityOf u := by
    intro ready u other
    rw [priorityOf, withReady_threads, mapThread_threads, Arena.get?_modify_of_ne _ (Ne.symm other),
      priorityOf]
  split
  · refine placed.congr (Arena.agree_modify position) (fun q => ?_) rfl rfl rfl
      (placed.ordered.reprioritize t p) ?_
    · cases q
      case ready => exact ReadyQueue.threads_reprioritize_perm k.ready t p
      all_goals exact .refl _
    · intro entry queued
      obtain rfl | ⟨old, other⟩ :=
        ReadyQueue.mem_entries_reprioritize (placed.nodup .ready) queued
      · exact (here _).trans priority
      · rw [elsewhere _ _ other]
        exact placed.priced entry old
  · next unqueued =>
    refine placed.congr (Arena.agree_modify position) (fun q => ?_) rfl rfl rfl placed.ordered ?_
    · cases q <;> exact .refl _
    · intro entry queued
      rw [elsewhere]
      · exact placed.priced entry queued
      · intro same
        have listed : t ∈ k.queueAt .ready := by
          rw [← same]
          exact ReadyQueue.mem_threads_of_mem_entries queued
        obtain ⟨_, thread', found', place⟩ := placed.exists_of_mem listed
        cases found.symm.trans found'
        exact unqueued place

/-- A thread that is in no queue to run has a new priority. -/
theorem repriced_of_unqueued (placed : k.Placed) (found : k.threads.get? t = some thread)
    (unqueued : thread.place ≠ .ready) {f : Thread → Thread}
    (position : ∀ x, (f x).position = x.position) :
    (k.mapThread t f).Placed := by
  have placed' := placed.repriced found position rfl
  rw [if_neg unqueued] at placed'
  exact placed'

theorem setEffective (placed : k.Placed) {p : Priority}
    (h : (setEffective t p).run k = .ok ((), k')) : k'.Placed := by
  obtain ⟨thread, found, rfl⟩ := of_run_setEffective h
  exact placed.repriced found (fun _ => rfl) rfl

theorem donate (placed : k.Placed) (h : donate.run k = .ok ((), k')) : k'.Placed :=
  donate_induction
    (fun _ _ _ placed => placed.of_same_queues rfl rfl (fun p => by cases p <;> rfl) rfl rfl rfl)
    (fun _ _ _ _ placed ran => placed.setEffective ran) placed h

/-- A detached thread that can run is made ready. -/
theorem readied (placed : k.Placed) (found : k.threads.get? t = some thread)
    (detached : thread.place = .detached) (alive : thread.state ≠ .dying) :
    (k.readied t thread.priority).Placed := by
  refine placed.enter found detached alive (.inl ⟨rfl, rfl⟩) (Arena.Agree.refl _ _)
    (fun p => ?_) rfl rfl rfl (placed.ordered.insert t thread.priority) ?_
  · cases p
    case ready => exact ReadyQueue.threads_insert_perm k.ready t thread.priority
    all_goals exact .refl _
  · intro entry queued
    have same : (k.readied t thread.priority).priorityOf entry.1 = k.priorityOf entry.1 :=
      priorityOf_mapThread (f := fun old => { old with state := .ready, place := .ready }) fun _ => rfl
    rw [same]
    obtain rfl | old := ReadyQueue.mem_entries_insert.mp queued
    · exact priorityOf_of_get? found
    · exact placed.priced entry old

/-- The current thread stops running and is in no list. -/
theorem halted (placed : k.Placed) (found : k.threads.get? k.current = some thread)
    (running : thread.state = .running) {state : RunState}
    (halts : state = .blocked ∨ state = .dying ∧ k.idle ≠ some k.current) :
    (k.mapThread k.current fun old => { old with state }).Placed := by
  have detached := placed.detached_of_running found running
  have absent := placed.not_mem_of_detached found detached
  have same : k.threads.modify k.current (fun old => { old with state }) =
      k.threads.modify k.current fun old => { old with state, place := .detached } :=
    Arena.modify_congr found (by rw [detached])
  refine placed.shift found state .detached ?_ (fun p somewhere u => ?_) (fun p => ?_)
    ?_ ?_ ?_ ?_ placed.ordered ?_ ?_ rfl ?_
  · rw [mapThread_threads, same]
    exact Arena.Agree.refl _ _
  · rw [queueAt_mapThread]
    split
    · next here =>
      subst here
      exact ⟨fun listed => absurd listed (absent p), fun nowhere => absurd nowhere.symm somewhere⟩
    · exact Iff.rfl
  · rw [queueAt_mapThread]
    exact placed.nodup p
  · obtain rfl | ⟨rfl, _⟩ := halts <;> exact ⟨nofun, nofun⟩
  · exact fun somewhere => absurd rfl somewhere
  · exact fun _ => rfl
  · exact fun u record _ foundRecord runs => placed.running foundRecord runs
  · exact fun entry queued =>
      Eq.trans (priorityOf_mapThread fun _ => rfl) (placed.priced entry queued)
  · intro u left
    refine ⟨fun here => ?_, fun _ => placed.exited u left⟩
    subst here
    exact nomatch running.symm.trans (placed.dying_of_mem left found)
  · intro idles
    obtain rfl | ⟨rfl, other⟩ := halts
    · exact ⟨nofun, nofun⟩
    · exact absurd idles other

/-- A semaphore's record is changed, but not who waits. -/
theorem mapSemaphore (placed : k.Placed) {s : SemaphoreId} {semaphore : Semaphore}
    (found : k.semaphores.get? s = some semaphore) {f : Semaphore → Semaphore}
    (waiters : (f semaphore).waiters = semaphore.waiters) : (k.mapSemaphore s f).Placed := by
  refine placed.of_same_queues rfl rfl (fun p => ?_) rfl rfl rfl
  rw [queueAt_mapSemaphore found, waiters]
  split
  · next here => rw [here, queueAt_semaphore found]
  · rfl

/-- The current thread waits on a semaphore. -/
theorem queued (placed : k.Placed) (found : k.threads.get? k.current = some thread)
    (running : thread.state = .running) {s : SemaphoreId} {semaphore : Semaphore}
    (foundSemaphore : k.semaphores.get? s = some semaphore) (retry : Pending)
    {waiters : List ThreadId} (perm : waiters.Perm (k.current :: semaphore.waiters)) :
    (s.queued retry waiters k).Placed := by
  have alive : thread.state ≠ .dying := by rw [running]; exact nofun
  refine placed.enter found (placed.detached_of_running found running) alive
    (.inr ⟨nofun, rfl, fun _ => nofun⟩) (q := .semaphore s) ?_ (fun p => ?_) rfl rfl rfl
    placed.ordered ?_
  · exact Arena.agree_modify_modify fun _ => rfl
  · have same : (s.queued retry waiters k).queueAt p =
        (k.mapSemaphore s fun old => { old with waiters }).queueAt p := by cases p <;> rfl
    rw [same, queueAt_mapSemaphore foundSemaphore]
    split
    · next here =>
      rw [here, queueAt_semaphore foundSemaphore]
      exact perm
    · exact .refl _
  · exact fun entry queued => Eq.trans (priorityOf_mapThread fun _ => rfl) (placed.priced entry queued)

/-- The current thread sleeps. -/
theorem dozed (placed : k.Placed) (found : k.threads.get? k.current = some thread)
    (running : thread.state = .running) (wakes : k.idle ≠ some k.current) (tick : Nat)
    (events : List Event) :
    (((k.mapThread k.current fun old =>
        { old with wakeTick := tick, place := .sleep, state := .blocked }).withSleepers
      (k.sleepers.push k.current tick)).withEvents events).Placed := by
  have alive : thread.state ≠ .dying := by rw [running]; exact nofun
  refine placed.enter found (placed.detached_of_running found running) alive
    (.inr ⟨nofun, rfl, fun idles => absurd idles wakes⟩) (q := .sleep) ?_ (fun p => ?_) rfl rfl rfl
    placed.ordered ?_
  · exact Arena.agree_modify_modify fun _ => rfl
  · cases p
    case sleep => exact List.perm_append_singleton _ _
    all_goals exact .refl _
  · exact fun entry queued => Eq.trans (priorityOf_mapThread fun _ => rfl) (placed.priced entry queued)

/-- A thread is taken off a wait list. -/
theorem roused (placed : k.Placed) {s : SemaphoreId} {semaphore : Semaphore}
    (foundSemaphore : k.semaphores.get? s = some semaphore) {waiters : List ThreadId}
    (perm : semaphore.waiters.Perm (t :: waiters)) : (s.roused t waiters k).Placed := by
  have listed : t ∈ k.queueAt (.semaphore s) := by
    rw [queueAt_semaphore foundSemaphore]
    exact perm.mem_iff.mpr List.mem_cons_self
  obtain ⟨_, thread, found, there⟩ := placed.exists_of_mem listed
  refine placed.leave found there nofun nofun (Arena.Agree.refl _ _) (fun p => ?_) rfl rfl rfl
    placed.ordered ?_
  · have same : (s.roused t waiters k).queueAt p =
        (k.mapSemaphore s fun old => { old with value := old.value + 1, waiters }).queueAt p := by
      cases p <;> rfl
    rw [same, queueAt_mapSemaphore foundSemaphore]
    split
    · next here =>
      rw [here, queueAt_semaphore foundSemaphore]
      exact perm.symm
    · exact .refl _
  · exact fun entry queued => Eq.trans (priorityOf_mapThread fun _ => rfl) (placed.priced entry queued)

/-- A thread is taken off the sleep queue. -/
theorem risen (placed : k.Placed) {sleepers : SleepQueue}
    (perm : k.sleepers.sleepers.Perm (t :: sleepers.sleepers)) (events : List Event) :
    (((k.mapThread t fun old => { old with place := .detached }).withSleepers sleepers).withEvents
      events).Placed := by
  have listed : t ∈ k.queueAt .sleep := perm.mem_iff.mpr List.mem_cons_self
  obtain ⟨_, thread, found, there⟩ := placed.exists_of_mem listed
  refine placed.leave found there nofun nofun (Arena.Agree.refl _ _) (fun p => ?_) rfl rfl rfl
    placed.ordered ?_
  · cases p
    case sleep => exact perm.symm
    all_goals exact .refl _
  · exact fun entry queued => Eq.trans (priorityOf_mapThread fun _ => rfl) (placed.priced entry queued)

/-- The thread at the front of the ready queue is known to be there. -/
theorem ready_of_pop? (placed : k.Placed) (found : k.threads.get? t = some thread)
    {ready : ReadyQueue} (pop : k.ready.pop? = some (t, ready)) : thread.place = .ready := by
  obtain ⟨_, thread', found', there⟩ := placed.exists_of_mem (mem_queueAt_of_pop? pop)
  cases found.symm.trans found'
  exact there

/-- The thread at the front of the ready queue is in there once. -/
theorem not_mem_of_pop? (placed : k.Placed) {ready : ReadyQueue}
    (pop : k.ready.pop? = some (t, ready)) : t ∉ ready.threads := by
  have nodup := placed.nodup .ready
  rw [queueAt, ReadyQueue.threads_of_pop? pop] at nodup
  exact (List.nodup_cons.mp nodup).1

/-- The thread picked is in no list, unless it is the front of the ready queue. -/
theorem awake_of_picks (placed : k.Placed) {next : ThreadId}
    (found : k.threads.get? next = some thread) {place : Place} {ready : ReadyQueue}
    (picks : k.Picks next thread place ready)
    (fallback : k.ready.pop? = none → k.idle = some next → thread.place = .detached) :
    thread.place = .ready ∨ thread.place = .detached := by
  cases picks with
  | front pop => exact .inl (placed.ready_of_pop? found pop)
  | fallback empty idles => exact .inr (fallback empty idles)

/-- Nobody who has exited is picked. -/
theorem alive_of_picks (placed : k.Placed) {next : ThreadId}
    (found : k.threads.get? next = some thread) {place : Place} {ready : ReadyQueue}
    (picks : k.Picks next thread place ready) : thread.state ≠ .dying := by
  cases picks with
  | front pop =>
    rw [(placed.ready_iff found).mp (placed.ready_of_pop? found pop)]
    exact nofun
  | fallback empty idles =>
    obtain ⟨idler, foundIdler, alive, _⟩ := placed.idle next idles
    cases found.symm.trans foundIdler
    exact alive

/-- Those left to be reclaimed when `next` gets the processor have exited; `next` itself has not. -/
theorem exited_of_departs (placed : k.Placed) {previous : Thread}
    (foundPrevious : k.threads.get? k.current = some previous) {next : ThreadId}
    (found : k.threads.get? next = some thread) (alive : thread.state ≠ .dying)
    {dying : List ThreadId} (departs : Departs k.dying k.current next previous dying) :
    ∀ u ∈ dying, u ≠ next ∧ ∃ record, k.threads.get? u = some record ∧ record.state = .dying := by
  have old : ∀ u ∈ k.dying, u ≠ next ∧
      ∃ record, k.threads.get? u = some record ∧ record.state = .dying := by
    intro u listed
    refine ⟨?_, placed.exited u listed⟩
    rintro rfl
    exact alive (placed.dying_of_mem listed found)
  intro u listed
  cases departs with
  | stays _ => exact old u listed
  | exits other exits _ =>
    rcases List.mem_append.mp listed with before | last
    · exact old u before
    · cases List.mem_singleton.mp last
      exact ⟨other.symm, previous, foundPrevious, exits⟩

/-- The front of the ready queue gets the processor. -/
theorem handed_front (placed : k.Placed) {next : ThreadId}
    (found : k.threads.get? next = some thread) {ready : ReadyQueue}
    (pop : k.ready.pop? = some (next, ready))
    (others : ∀ u record, u ≠ next → k.threads.get? u = some record → record.state = .running →
      u = next)
    {dying : List ThreadId}
    (exited : ∀ u ∈ dying, (u = next → RunState.running = .dying) ∧
      (u ≠ next → ∃ record, k.threads.get? u = some record ∧ record.state = .dying))
    (processor : Processor) (events : List Event) :
    (k.dispatched next .detached ready processor dying events).Placed := by
  obtain ⟨p, entries, _⟩ := ReadyQueue.pop?_eq_some_iff.mp pop
  have queues : ∀ p, (if p = .ready then
      next :: (k.dispatched next .detached ready processor dying events).queueAt p
      else (k.dispatched next .detached ready processor dying events).queueAt p).Perm
        (k.queueAt p) := by
    intro p
    cases p
    case ready => exact ReadyQueue.threads_of_pop? pop ▸ .refl _
    all_goals exact .refl _
  obtain ⟨mem, nodup⟩ := placed.queues_of_leave found (placed.ready_of_pop? found pop) queues
  refine placed.shift found .running .detached (Arena.agree_modify_modify fun _ => rfl) mem nodup
    ⟨nofun, nofun⟩ (fun somewhere => absurd rfl somewhere) (fun _ => rfl) others ?_ ?_
    exited rfl (fun _ => ⟨nofun, nofun⟩)
  · have ordered : Ranked.Descending Prod.snd ((next, p) :: ready.entries) :=
      entries ▸ placed.ordered
    exact (List.pairwise_cons.mp ordered).2
  · intro entry queued
    refine Eq.trans (priorityOf_mapThread fun _ => rfl) (placed.priced entry ?_)
    rw [entries]
    exact List.mem_cons_of_mem _ queued

/-- The idle thread, which is in no list, gets the processor for want of another. -/
theorem handed_idle (placed : k.Placed) {next : ThreadId}
    (found : k.threads.get? next = some thread) (idles : k.idle = some next)
    (detached : thread.place = .detached)
    (others : ∀ u record, u ≠ next → k.threads.get? u = some record → record.state = .running →
      u = next)
    {dying : List ThreadId}
    (exited : ∀ u ∈ dying, (u = next → RunState.running = .dying) ∧
      (u ≠ next → ∃ record, k.threads.get? u = some record ∧ record.state = .dying))
    (processor : Processor) (events : List Event) :
    (k.dispatched next thread.place k.ready processor dying events).Placed := by
  have absent := placed.not_mem_of_detached found detached
  obtain ⟨_, idler, _, awake⟩ := placed.idle next idles
  cases found.symm.trans idler
  have same : (k.dispatched next thread.place k.ready processor dying events).queueAt =
      k.queueAt := by
    funext p
    cases p <;> rfl
  refine placed.shift found .running thread.place (Arena.agree_modify_modify fun _ => rfl)
    (fun p somewhere u => ?_) (fun p => ?_) ?_ ?_ (fun _ => rfl) others placed.ordered ?_
    exited rfl (fun _ => ⟨nofun, awake⟩)
  · rw [same, detached]
    split
    · next here =>
      subst here
      exact ⟨fun listed => absurd listed (absent p), fun nowhere => absurd nowhere.symm somewhere⟩
    · exact Iff.rfl
  · rw [same]
    exact placed.nodup p
  · rw [detached]
    exact ⟨nofun, nofun⟩
  · exact fun somewhere => absurd detached somewhere
  · exact fun entry queued => Eq.trans (priorityOf_mapThread fun _ => rfl) (placed.priced entry queued)

/-- The processor is handed to the thread picked. -/
theorem handed (placed : k.Placed) {previous : Thread}
    (foundPrevious : k.threads.get? k.current = some previous)
    (halted : previous.state ≠ .running) {next : ThreadId}
    (found : k.threads.get? next = some thread) {place : Place} {ready : ReadyQueue}
    (picks : k.Picks next thread place ready)
    (fallback : k.ready.pop? = none → k.idle = some next → thread.place = .detached)
    {dying : List ThreadId}
    (departs : Departs k.dying k.current next previous dying)
    (processor : Processor) (events : List Event) :
    (k.dispatched next place ready processor dying events).Placed := by
  have others : ∀ u record, u ≠ next → k.threads.get? u = some record →
      record.state = .running → u = next := by
    intro u record _ foundRecord runs
    cases placed.running foundRecord runs
    cases foundPrevious.symm.trans foundRecord
    exact absurd runs halted
  have left := placed.exited_of_departs foundPrevious found (placed.alive_of_picks found picks) departs
  have exited : ∀ u ∈ dying, (u = next → RunState.running = .dying) ∧
      (u ≠ next → ∃ record, k.threads.get? u = some record ∧ record.state = .dying) :=
    fun u listed => ⟨fun here => absurd here (left u listed).1, fun _ => (left u listed).2⟩
  cases picks with
  | front pop => exact placed.handed_front found pop others exited processor events
  | fallback empty idles =>
    exact placed.handed_idle found idles (fallback empty idles) others exited processor events

/-! ## Records that come and go -/

theorem push (placed : k.Placed) (blocked : thread.state = .blocked)
    (detached : thread.place = .detached) :
    Placed { k with threads := k.threads.push thread } := by
  have old : ∀ {t thread'}, k.threads.get? t = some thread' →
      (k.threads.push thread).get? t = some thread' := Arena.get?_push_of_get? thread
  have back : ∀ {t thread'}, (k.threads.push thread).get? t = some thread' →
      thread' = thread ∨ k.threads.get? t = some thread' :=
    fun found => (Arena.of_get?_push found).imp_left And.right
  have queues : ∀ p, queueAt { k with threads := k.threads.push thread } p = k.queueAt p := by
    intro p
    cases p <;> rfl
  constructor
  case mem_queueAt =>
    intro p somewhere t
    rw [queues, placed.mem_queueAt somewhere]
    constructor
    · exact fun ⟨thread', found, there⟩ => ⟨thread', old found, there⟩
    · rintro ⟨thread', found, there⟩
      obtain rfl | found := back found
      · exact absurd (there.symm.trans detached) somewhere
      · exact ⟨thread', found, there⟩
  case nodup => exact fun p => queues p ▸ placed.nodup p
  case ready_iff =>
    intro t thread' found
    obtain rfl | found := back found
    · rw [blocked, detached]
      exact ⟨nofun, nofun⟩
    · exact placed.ready_iff found
  case blocked =>
    intro t thread' found
    obtain rfl | found := back found
    · exact fun _ _ => blocked
    · exact placed.blocked found
  case running =>
    intro t thread' found
    obtain rfl | found := back found
    · exact fun runs => nomatch blocked.symm.trans runs
    · exact placed.running found
  case ordered => exact placed.ordered
  case priced =>
    intro entry queued
    obtain ⟨_, thread', found, _⟩ := placed.exists_of_mem (p := .ready)
      (ReadyQueue.mem_threads_of_mem_entries queued)
    rw [← placed.priced entry queued, priorityOf_of_get? found, priorityOf_of_get? (old found)]
  case exited =>
    intro t left
    obtain ⟨thread', found, exits⟩ := placed.exited t left
    exact ⟨thread', old found, exits⟩
  case idle =>
    intro t idles
    obtain ⟨thread', found, rest⟩ := placed.idle t idles
    exact ⟨thread', old found, rest⟩

theorem reclaimed (placed : k.Placed) {threads : ThreadTable}
    (gone : ∀ t, threads.get? t = if t ∈ k.dying then none else k.threads.get? t)
    (events : List Event) : Placed { k with dying := [], threads, events } := by
  have old : ∀ {t thread}, k.threads.get? t = some thread → thread.state ≠ .dying →
      threads.get? t = some thread := by
    intro t thread found alive
    rw [gone, if_neg fun left => alive (placed.dying_of_mem left found), found]
  have back : ∀ {t thread}, threads.get? t = some thread → k.threads.get? t = some thread :=
    get?_of_gone gone
  have queues : ∀ p, queueAt { k with dying := [], threads, events } p = k.queueAt p := by
    intro p
    cases p <;> rfl
  constructor
  case mem_queueAt =>
    intro p somewhere t
    rw [queues, placed.mem_queueAt somewhere]
    constructor
    · rintro ⟨thread, found, there⟩
      refine ⟨thread, old found fun dying => somewhere ?_, there⟩
      refine there.symm.trans (placed.detached_of_state found ?_ ?_) <;> rw [dying] <;> exact nofun
    · exact fun ⟨thread, found, there⟩ => ⟨thread, back found, there⟩
  case nodup => exact fun p => queues p ▸ placed.nodup p
  case ready_iff => exact fun found => placed.ready_iff (back found)
  case blocked => exact fun found => placed.blocked (back found)
  case running => exact fun found => placed.running (back found)
  case ordered => exact placed.ordered
  case priced =>
    intro entry queued
    obtain ⟨_, thread, found, there⟩ := placed.exists_of_mem (p := .ready)
      (ReadyQueue.mem_threads_of_mem_entries queued)
    have alive : thread.state ≠ .dying := by
      rw [(placed.ready_iff found).mp there]
      exact nofun
    rw [← placed.priced entry queued, priorityOf_of_get? found,
      priorityOf_of_get? (k := { k with dying := [], threads, events }) (old found alive)]
  case exited => exact fun _ left => absurd left List.not_mem_nil
  case idle =>
    intro t idles
    obtain ⟨thread, found, alive, awake⟩ := placed.idle t idles
    exact ⟨thread, old found alive, alive, awake⟩

/-- The idle thread is appointed. -/
theorem appointed (placed : k.Placed) (found : k.threads.get? t = some thread)
    (alive : thread.state ≠ .dying) (awake : thread.place ≠ .sleep) :
    Placed { k with idle := some t } := by
  have queues : ∀ p, queueAt { k with idle := some t } p = k.queueAt p := by
    intro p
    cases p <;> rfl
  constructor
  case mem_queueAt => exact fun {p} somewhere u => queues p ▸ placed.mem_queueAt somewhere u
  case nodup => exact fun p => queues p ▸ placed.nodup p
  case idle =>
    intro u idles
    cases idles
    exact ⟨thread, found, alive, awake⟩
  case ready_iff => exact placed.ready_iff
  case blocked => exact placed.blocked
  case running => exact placed.running
  case ordered => exact placed.ordered
  case priced => exact placed.priced
  case exited => exact placed.exited

/-- A semaphore is made, and nobody waits on it. -/
theorem pushSemaphore (placed : k.Placed) (value : Nat) (purpose : Purpose) :
    Placed { k with semaphores := k.semaphores.push { value, purpose } } := by
  refine placed.of_same_queues rfl rfl (fun p => ?_) rfl rfl rfl
  cases p with
  | semaphore s =>
    simp only [queueAt, Arena.get?_push]
    split
    · next new =>
      rw [new, Arena.get?_next]
      rfl
    · rfl
  | _ => rfl

/-- A semaphore nobody waits on is destroyed. -/
theorem eraseSemaphore (placed : k.Placed) {s : SemaphoreId} {semaphore : Semaphore}
    (found : k.semaphores.get? s = some semaphore) (unawaited : semaphore.waiters = []) :
    (s.destroyed k).Placed := by
  refine placed.of_same_queues rfl rfl (fun p => ?_) rfl rfl rfl
  cases p with
  | semaphore s' =>
    simp only [queueAt, SemaphoreId.destroyed_semaphores, Arena.get?_erase]
    split
    · next same =>
      rw [← same, found, Option.elim_some, unawaited]
      rfl
    · rfl
  | _ => rfl

end Placed

/-- A fresh kernel knows the initial thread alone. -/
theorem get?_fresh {config : Config} {rule : Reposition}
    (found : (fresh config rule).threads.get? t = some thread) :
    t = .main ∧ thread = { name := "main", base := Priority.default, state := .running } := by
  simp only [fresh, ThreadTable.withMain, Arena.get?_push] at found
  split at found
  · next main =>
    cases found
    exact ⟨main, rfl⟩
  · rw [Arena.get?_empty] at found
    cases found

theorem placed_fresh (config : Config) (rule : Reposition) : (fresh config rule).Placed := by
  have unlisted : ∀ p, (fresh config rule).queueAt p = [] := by
    intro p
    cases p with
    | semaphore s => rw [queueAt, fresh, Arena.get?_empty, Option.elim_none]
    | _ => rfl
  constructor
  case mem_queueAt =>
    intro p somewhere t
    rw [unlisted]
    refine ⟨nofun, ?_⟩
    rintro ⟨thread, found, there⟩
    obtain ⟨_, rfl⟩ := get?_fresh found
    exact absurd there.symm somewhere
  case nodup => exact fun p => unlisted p ▸ List.nodup_nil
  case ready_iff =>
    intro t thread found
    obtain ⟨_, rfl⟩ := get?_fresh found
    exact ⟨nofun, nofun⟩
  case blocked =>
    intro t thread found
    obtain ⟨_, rfl⟩ := get?_fresh found
    exact fun somewhere => absurd rfl somewhere
  case running => exact fun found _ => (get?_fresh found).1
  case ordered => exact List.Pairwise.nil
  case priced => exact fun _ queued => absurd queued List.not_mem_nil
  case exited => exact fun _ left => absurd left List.not_mem_nil
  case idle => exact nofun

end Kernel

end ThreadKernel
