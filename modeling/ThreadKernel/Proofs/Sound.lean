import ThreadKernel.Proofs.Attended

/-!
# What every move keeps

`Sound` gathers what is true of a machine whatever is asked of it: threads are
where their records say (`Placed`) and units are spoken for (`Attended`).  Two
further parts depend on the discipline: pending work names no lock's unit
(`Plain`), and the idle thread is in no list (`IdleKept`).

`Sound.move` says that each move keeps all of it.
-/

namespace ThreadKernel

namespace Kernel

variable {k k' k'' : Kernel} {t : ThreadId} {thread : Thread}

/-! ## Donations change priorities only -/

/-- Nothing but priorities and the order of the ready queue has changed. -/
structure Repriced (k k' : Kernel) : Prop where
  threads : Arena.Agree (fun thread : Thread => { thread with priority := 0 }) k'.threads k.threads
  next : k'.threads.next = k.threads.next
  ready : k'.ready.threads.Perm k.ready.threads
  rest : k' = (({ k with threads := k'.threads }).withReady k'.ready).withEvents k'.events
  events : Remarks k.events k'.events

theorem Repriced.refl (k : Kernel) : k.Repriced k :=
  ⟨Arena.Agree.refl _ _, rfl, .refl _, rfl, .refl _⟩

theorem Repriced.trans (first : k.Repriced k') (second : k'.Repriced k'') : k.Repriced k'' := by
  refine ⟨second.threads.trans first.threads, second.next.trans first.next,
    second.ready.trans first.ready, ?_, first.events.trans second.events⟩
  rw [second.rest, first.rest]
  rfl

theorem Repriced.view {β : Type} (repriced : k.Repriced k') (view : Thread → β)
    (blind : ∀ x : Thread, view { x with priority := 0 } = view x) :
    Arena.Agree view k'.threads k.threads := by
  have same := repriced.threads.coarsen view
  simpa only [blind] using same

theorem Repriced.locks (repriced : k.Repriced k') : k'.locks = k.locks := by
  rw [repriced.rest]
  rfl

theorem repriced_of_setEffective {p : Priority} (h : (setEffective t p).run k = .ok ((), k')) :
    k.Repriced k' := by
  obtain ⟨thread, found, rfl⟩ := of_run_setEffective h
  refine ⟨Arena.agree_modify fun _ => rfl, Arena.next_modify _ _ _, ?_, rfl, .refl _⟩
  rw [withReady_ready]
  split
  · exact ReadyQueue.threads_reprioritize_perm k.ready t p
  · exact .refl _

theorem repriced_of_donate (h : donate.run k = .ok ((), k')) : k.Repriced k' := by
  refine donate_induction (motive := k.Repriced) (fun middle event remark before => ?_)
    (fun middle last t p before ran => before.trans (repriced_of_setEffective ran)) (.refl k) h
  exact before.trans ⟨Arena.Agree.refl _ _, rfl, .refl _, rfl, .cons _ _ remark⟩

/-! ## Handles keep their meaning -/

/-- Whether the semaphore that pending work names was made for such work. -/
def PlainWork (k : Kernel) : Pending → Prop
  | .unit s => k.MadeFor s .plain
  | .lock _ => True
  | .signal s _ => k.MadeFor s .signal

/-- Semaphores that were there before are what they were, if they still are. -/
structure KeepsPurposes (k k' : Kernel) : Prop where
  issued : k.semaphores.next.index ≤ k'.semaphores.next.index
  purpose : ∀ s semaphore', k'.semaphores.get? s = some semaphore' →
    s.index < k.semaphores.next.index →
    ∃ semaphore, k.semaphores.get? s = some semaphore ∧ semaphore.purpose = semaphore'.purpose

theorem KeepsPurposes.madeFor (keeps : k.KeepsPurposes k') {s : SemaphoreId} {purpose : Purpose}
    (made : k.MadeFor s purpose) : k'.MadeFor s purpose := by
  refine ⟨Nat.lt_of_lt_of_le made.issued keeps.issued, fun semaphore' found' => ?_⟩
  obtain ⟨semaphore, found, same⟩ := keeps.purpose s semaphore' found' made.issued
  rw [← same]
  exact made.purpose semaphore found

theorem KeepsPurposes.plainWork (keeps : k.KeepsPurposes k') {p : Pending}
    (plain : k.PlainWork p) : k'.PlainWork p := by
  cases p with
  | lock l => trivial
  | _ => exact keeps.madeFor plain

theorem keepsPurposes_of_eq (same : k'.semaphores = k.semaphores) : k.KeepsPurposes k' := by
  refine ⟨Nat.le_of_eq (by rw [same]), fun s semaphore' found' _ => ⟨semaphore', ?_, rfl⟩⟩
  rwa [same] at found'

theorem keepsPurposes_of_modify {s : SemaphoreId} {f : Semaphore → Semaphore}
    (same : k'.semaphores = k.semaphores.modify s f)
    (blind : ∀ x, (f x).purpose = x.purpose) : k.KeepsPurposes k' := by
  refine ⟨Nat.le_of_eq (by rw [same, Arena.next_modify]), fun s' semaphore' found' _ => ?_⟩
  rw [same] at found'
  have agree : Arena.Agree (fun x : Semaphore => x.purpose) (k.semaphores.modify s f)
      k.semaphores := Arena.agree_modify blind
  obtain ⟨semaphore, found, purpose⟩ := agree.exists_get? found'
  exact ⟨semaphore, found, purpose⟩

theorem keepsPurposes_of_push {semaphore : Semaphore}
    (same : k'.semaphores = k.semaphores.push semaphore) : k.KeepsPurposes k' := by
  refine ⟨?_, fun s semaphore' found' issued => ⟨semaphore', ?_, rfl⟩⟩
  · rw [same, Arena.next_push]
    exact Nat.le_succ _
  · rw [same, Arena.get?_push, if_neg] at found'
    · exact found'
    · exact fun new => Nat.lt_irrefl _ (new ▸ issued)

theorem keepsPurposes_of_erase {s : SemaphoreId}
    (same : k'.semaphores = k.semaphores.erase s) : k.KeepsPurposes k' := by
  refine ⟨Nat.le_of_eq (by rw [same, Arena.next_erase]),
    fun s' semaphore' found' _ => ⟨semaphore', ?_, rfl⟩⟩
  rw [same, Arena.get?_erase] at found'
  split at found'
  · cases found'
  · exact found'

end Kernel

open Kernel

/-- All that is left to be done names semaphores for what they were made for. -/
structure Plain (m : Machine) : Prop where
  pending : ∀ t p, m.kernel.pending? t = some p → m.kernel.PlainWork p
  due : ∀ p, m.due = some p → m.kernel.PlainWork p
  awaited : ∀ c, ∀ waiter ∈ m.kernel.enlisted c, m.kernel.MadeFor waiter.semaphore .signal

/-- The idle thread is in no list and has nothing to finish. -/
def IdleKept (m : Machine) : Prop :=
  ∀ t, m.kernel.idle = some t → ∃ thread, m.kernel.threads.get? t = some thread ∧
    thread.place = .detached ∧ thread.state ≠ .ready ∧ thread.pending = none ∧
    (t = m.kernel.current → m.due = none)

/-- What holds of a machine in every run that abides by `d`. -/
structure Sound (d : Discipline) (m : Machine) : Prop where
  placed : m.kernel.Placed
  attended : Attended m
  plain : d.plainHandles = true → Plain m
  idle : d.sparesIdle → IdleKept m

variable {d : Discipline} {m m' : Machine} {k k' : Kernel} {due due' : Option Pending}
  {t : ThreadId} {thread : Thread} {s : SemaphoreId} {semaphore : Semaphore}

theorem Plain.step (plain : Plain m) (keeps : m.kernel.KeepsPurposes m'.kernel)
    (pending : ∀ t p, m'.kernel.pending? t = some p →
      m.kernel.pending? t = some p ∨ m.kernel.PlainWork p)
    (due : ∀ p, m'.due = some p → m.kernel.PlainWork p)
    (awaited : ∀ c, ∀ waiter ∈ m'.kernel.enlisted c,
      waiter ∈ m.kernel.enlisted c ∨ m.kernel.MadeFor waiter.semaphore .signal) : Plain m' := by
  constructor
  case pending =>
    intro t p left
    obtain old | new := pending t p left
    · exact keeps.plainWork (plain.pending t p old)
    · exact keeps.plainWork new
  case due => exact fun p taken => keeps.plainWork (due p taken)
  case awaited =>
    intro c waiter queued
    obtain old | made := awaited c waiter queued
    · exact keeps.madeFor (plain.awaited c waiter old)
    · exact keeps.madeFor made

/-- Nothing is due afterwards. -/
theorem Plain.still (plain : Plain m) (keeps : m.kernel.KeepsPurposes k')
    (pending : ∀ t p, k'.pending? t = some p →
      m.kernel.pending? t = some p ∨ m.kernel.PlainWork p)
    (awaited : ∀ c, ∀ waiter ∈ k'.enlisted c,
      waiter ∈ m.kernel.enlisted c ∨ m.kernel.MadeFor waiter.semaphore .signal) :
    Plain ⟨k', none⟩ :=
  plain.step keeps pending nofun awaited

/-- The idle thread is not the one that changes. -/
theorem IdleKept.step (kept : IdleKept m) (idle : m'.kernel.idle = m.kernel.idle)
    (record : ∀ t, m.kernel.idle = some t →
      (m'.kernel.threads.get? t).map (fun x => (x.position, x.pending)) =
        (m.kernel.threads.get? t).map fun x => (x.position, x.pending))
    (due : m'.due = none ∨ m'.due = m.due ∧ m'.kernel.current = m.kernel.current) :
    IdleKept m' := by
  intro t idles
  rw [idle] at idles
  obtain ⟨thread, found, detached, unready, pending, undue⟩ := kept t idles
  have same := record t idles
  rw [found, Option.map_some, Option.map_eq_some_iff] at same
  obtain ⟨thread', found', eq⟩ := same
  obtain ⟨position, pending'⟩ := Prod.mk.inj eq
  obtain ⟨state, place⟩ := Prod.mk.inj position
  refine ⟨thread', found', place.trans detached, ?_, pending'.trans pending, fun here => ?_⟩
  · rw [state]
    exact unready
  · obtain none | ⟨same, current⟩ := due
    · exact none
    · rw [same]
      exact undue (here.trans current)

/-! ## Small steps -/

/-- What the kernel goes by and counts, apart from threads and what they share, and who runs
when nobody else does. -/
def Kernel.gauges (k : Kernel) : Config × Clock × Usage × Nat × Option ThreadId :=
  (k.config, k.clock, k.usage, k.slice, k.idle)

/-- Neither where threads are has changed nor what they have left to do. -/
structure Kernel.Retouched (k k' : Kernel) : Prop where
  threads : Arena.Agree (fun thread : Thread => (thread.position, thread.pending)) k'.threads
    k.threads
  ready : k'.ready.threads.Perm k.ready.threads
  locks : Arena.Agree (fun lock : Lock => lock.semaphore) k'.locks k.locks
  semaphores : k'.semaphores = k.semaphores
  conditions : k'.conditions = k.conditions
  current : k'.current = k.current
  idle : k'.idle = k.idle
  wakeTicks : Arena.Agree (fun thread : Thread => thread.wakeTick) k'.threads k.threads
  gauges : k'.gauges = k.gauges

theorem Kernel.Retouched.runs (same : k.Retouched k') (runs : k.Runs) : k'.Runs := by
  obtain ⟨thread, found, running, pending⟩ := runs
  obtain ⟨thread', found', eq⟩ := same.threads.symm.exists_get? found
  obtain ⟨position, pending'⟩ := Prod.mk.inj eq
  rw [← same.current] at found'
  exact ⟨thread', found', (Prod.mk.inj position).1.trans running, pending'.trans pending⟩

theorem Kernel.Repriced.retouched (repriced : k.Repriced k') : k.Retouched k' := by
  have rest := repriced.rest
  refine ⟨repriced.view _ fun _ => rfl, repriced.ready, ?_, ?_, ?_, ?_, ?_,
    repriced.view _ fun _ => rfl, ?_⟩ <;> rw [rest]
  · exact Arena.Agree.refl _ _
  all_goals rfl

theorem LockId.Asks.retouched {l : LockId} {lock : Lock} {asking : Kernel}
    (asks : l.Asks lock k asking) : k.Retouched asking := by
  cases asks with
  | free _ =>
    exact ⟨Arena.Agree.refl _ _, .refl _, Arena.Agree.refl _ _, rfl, rfl, rfl, rfl,
      Arena.Agree.refl _ _, rfl⟩
  | held holds found joins donated =>
    have repriced := (repriced_of_donate donated).retouched
    exact ⟨repriced.threads.trans (Arena.Agree.trans (Arena.agree_modify fun _ => rfl) (Arena.agree_modify fun _ => rfl)),
      repriced.ready, repriced.locks, repriced.semaphores, repriced.conditions, repriced.current,
      repriced.idle, repriced.wakeTicks.trans
        (Arena.Agree.trans (Arena.agree_modify fun _ => rfl) (Arena.agree_modify fun _ => rfl)),
      repriced.gauges⟩

/-- Asking a holder to hurry changes threads and their order, and nothing else. -/
theorem LockId.Asks.rest {l : LockId} {lock : Lock} {asking : Kernel}
    (asks : l.Asks lock k asking) :
    asking.locks = k.locks ∧ asking.dying = k.dying ∧ asking.processor = k.processor ∧
      asking.inInterrupt = k.inInterrupt := by
  cases asks with
  | free _ => exact ⟨rfl, rfl, rfl, rfl⟩
  | held _ _ _ donated =>
    rw [(repriced_of_donate donated).rest]
    exact ⟨rfl, rfl, rfl, rfl⟩

theorem LockId.retouched_of_run_hold {l : LockId} (found : k.threads.get? k.current = some thread)
    (unqueued : thread.place ≠ .ready) (h : l.hold.run k = .ok ((), k')) : k.Retouched k' := by
  obtain ⟨_, _, _, _, _, _, _, _, _, rfl⟩ := LockId.of_run_hold found unqueued h
  exact ⟨Arena.agree_modify fun _ => rfl, .refl _, Arena.agree_modify fun _ => rfl, rfl, rfl, rfl, rfl,
    Arena.agree_modify fun _ => rfl, rfl⟩

theorem LockId.retouched_of_run_hold_taken {l : LockId} {s : SemaphoreId} (placed : k.Placed)
    (running : k.Running) (h : l.hold.run (s.taken k) = .ok ((), k')) :
    (s.taken k).Retouched k' := by
  obtain ⟨thread, found, runs⟩ := running
  exact retouched_of_run_hold (k := s.taken k) found (placed.unqueued_of_running found runs) h

/-- A lock is freed, once its donors are dropped. -/
theorem LockId.retouched_of_run_dropDonors {l : LockId} {dropped : Kernel} (placed : k.Placed)
    (running : k.Running) (h : l.dropDonors.run k = .ok ((), dropped)) (events : List Event) :
    k.Retouched ((dropped.mapLock l fun old => { old with holder := none }).withEvents events) := by
  obtain ⟨thread, found, runs⟩ := running
  obtain ⟨_, _, _, _, _, _, rfl⟩ :=
    LockId.of_run_dropDonors found (placed.unqueued_of_running found runs) h
  exact ⟨Arena.agree_modify fun _ => rfl, .refl _, Arena.agree_modify fun _ => rfl, rfl, rfl, rfl, rfl,
    Arena.agree_modify fun _ => rfl, rfl⟩

theorem Kernel.retouched_of_run_rebase {base : Priority} (placed : k.Placed) (running : k.Running)
    (h : (refresh k.current).run (k.mapThread k.current fun old => { old with base }) =
      .ok ((), k')) : k.Retouched k' := by
  obtain ⟨thread, found, runs⟩ := running
  obtain ⟨_, _, _, _, rfl⟩ := of_run_rebase found (placed.unqueued_of_running found runs) h
  exact ⟨Arena.agree_modify fun _ => rfl, .refl _, Arena.Agree.refl _ _, rfl, rfl, rfl, rfl,
    Arena.agree_modify fun _ => rfl, rfl⟩

theorem Kernel.awaited_of_eq (conditions : k'.conditions = k.conditions) (c : ConditionId)
    (waiter : Waiter) (queued : waiter ∈ k'.enlisted c) :
    waiter ∈ k.enlisted c ∨ k.MadeFor waiter.semaphore .signal := by
  rw [enlisted, conditions] at queued
  exact .inl queued

namespace Sound

theorem retouched (sound : Sound d ⟨k, due⟩) (placed : k'.Placed) (same : k.Retouched k') :
    Sound d ⟨k', due⟩ := by
  have pending := pending?_of_agree (same.threads.coarsen Prod.snd)
  have targets := target?_congr same.locks
  refine ⟨placed, ?_, fun named => ?_, fun spares => ?_⟩
  · refine sound.attended.congr same.semaphores same.ready (fun _ t _ => ?_) ?_
    · rw [aim?, pending, targets, aim?]
    · dsimp only
      rw [targets]
  · refine (sound.plain named).step (keepsPurposes_of_eq same.semaphores) (fun t p left => ?_)
      (sound.plain named).due (awaited_of_eq same.conditions)
    dsimp only at left
    rw [pending] at left
    exact .inl left
  · exact (sound.idle spares).step same.idle (fun t _ => same.threads t)
      (.inr ⟨rfl, same.current⟩)

/-- A detached thread that can run is made ready. -/
theorem readied (sound : Sound d ⟨k, none⟩) (found : k.threads.get? t = some thread)
    (detached : thread.place = .detached) (alive : thread.state ≠ .dying)
    (spared : d.sparesIdle → k.idle ≠ some t) : Sound d ⟨k.readied t thread.priority, none⟩ := by
  refine ⟨sound.placed.readied found detached alive, sound.attended.readied _, fun named => ?_,
    fun spares => ?_⟩
  · refine (sound.plain named).still (keepsPurposes_of_eq rfl) (fun u p left => .inl ?_)
      (awaited_of_eq rfl)
    exact Eq.trans (pending?_mapThread (f := fun thread =>
      { thread with state := .ready, place := .ready }) fun _ => rfl).symm left
  · refine (sound.idle spares).step rfl (fun u idles => ?_) (.inl rfl)
    have other : t ≠ u := fun same => spared spares (same ▸ idles)
    dsimp only
    rw [readied_threads, Arena.get?_modify_of_ne _ other]

/-- The first waiter of a semaphore is woken. -/
theorem woken (sound : Sound d ⟨k, none⟩) (found : k.semaphores.get? s = some semaphore)
    {waiters : List ThreadId} (perm : semaphore.waiters.Perm (t :: waiters))
    (foundThread : (s.roused t waiters k).threads.get? t = some thread) :
    Sound d ⟨(s.roused t waiters k).readied t thread.priority, none⟩ := by
  have listed : t ∈ k.queueAt (.semaphore s) := by
    rw [queueAt_semaphore found]
    exact perm.mem_iff.mpr List.mem_cons_self
  obtain ⟨_, record, foundRecord, there⟩ := sound.placed.exists_of_mem listed
  rw [SemaphoreId.roused_threads, Arena.get?_modify_self _ foundRecord, Option.some.injEq]
    at foundThread
  subst foundThread
  have blocked := sound.placed.blocked foundRecord (by rw [there]; exact nofun)
    (by rw [there]; exact nofun)
  refine ⟨(sound.placed.roused found perm).readied (Arena.get?_modify_self _ foundRecord) rfl ?_,
    sound.attended.woken found perm _, fun named => ?_, fun spares => ?_⟩
  · dsimp only
    rw [blocked]
    exact nofun
  · refine (sound.plain named).still (keepsPurposes_of_modify rfl fun _ => rfl) (fun u p left => .inl ?_)
      (awaited_of_eq rfl)
    exact Eq.trans (Eq.trans
      (pending?_mapThread (f := fun thread => { thread with state := .ready, place := .ready }) fun _ => rfl)
      (pending?_mapThread (f := fun thread => { thread with place := .detached }) fun _ => rfl)).symm left
  · refine (sound.idle spares).step rfl (fun u idles => ?_) (.inl rfl)
    have other : t ≠ u := by
      intro same
      subst same
      obtain ⟨idler, foundIdler, detached, _⟩ := sound.idle spares t idles
      cases foundRecord.symm.trans foundIdler
      cases there.symm.trans detached
    dsimp only
    rw [readied_threads, Arena.get?_modify_of_ne _ other, SemaphoreId.roused_threads,
      Arena.get?_modify_of_ne _ other]

/-- A unit is returned, and wakes the first waiter if there is one. -/
theorem wake (sound : Sound d ⟨k, none⟩) (h : s.wake.run k = .ok ((), k')) :
    Sound d ⟨k', none⟩ := by
  obtain ⟨semaphore, found, ⟨unawaited, rfl⟩ | ⟨t, rest, first, h⟩⟩ := SemaphoreId.of_run_wake h
  · refine ⟨?_, sound.attended.given found, fun named => ?_, fun spares => ?_⟩
    · exact (sound.placed.mapSemaphore (f := fun old =>
        { old with value := old.value + 1, waiters := [] }) found unawaited.symm).of_same_queues
          rfl rfl (fun p => by cases p <;> rfl) rfl rfl rfl
    · exact (sound.plain named).still (keepsPurposes_of_modify rfl fun _ => rfl) (fun _ _ left => .inl left)
        (awaited_of_eq rfl)
    · exact (sound.idle spares).step rfl (fun _ _ => rfl) (.inl rfl)
  · obtain ⟨thread, foundThread, _, _, _, rfl⟩ := of_run_unblock h
    exact sound.woken found (Ranked.perm_of_sort_eq_cons first) foundThread

theorem taken (sound : Sound d ⟨k, due⟩) (found : k.semaphores.get? s = some semaphore)
    (targets : due = none ∨ due.bind k.target? = some s) : Sound d ⟨s.taken k, none⟩ := by
  refine ⟨?_, sound.attended.taken found targets, fun named => ?_, fun spares => ?_⟩
  · exact (sound.placed.mapSemaphore (f := fun old => { old with value := old.value - 1 }) found
      rfl).of_same_queues rfl rfl (fun p => by cases p <;> rfl) rfl rfl rfl
  · exact (sound.plain named).still (keepsPurposes_of_modify rfl fun _ => rfl) (fun _ _ left => .inl left)
      (awaited_of_eq rfl)
  · exact (sound.idle spares).step rfl (fun _ _ => rfl) (.inl rfl)

/-- A try on a semaphore: a unit is taken, or the current thread waits. -/
theorem attempt (sound : Sound d ⟨k, due⟩) (runs : k.Runs) {retry : Pending}
    (retries : k.target? retry = some s) (takes : due = none ∨ due = some retry)
    (plain : d.plainHandles = true → k.PlainWork retry)
    (direct : due = none → d.sparesIdle → k.idle ≠ some k.current) {success : Bool}
    (h : (s.attempt retry).run k = .ok (success, k')) : Sound d ⟨k', none⟩ := by
  have targets : due = none ∨ due.bind k.target? = some s := by
    refine takes.imp_right fun taken => ?_
    rw [taken]
    exact retries
  obtain ⟨semaphore, found, ⟨rfl, positive, rfl⟩ | ⟨rfl, zero, waiters, joins, rfl⟩⟩ :=
    SemaphoreId.of_run_attempt h
  · exact sound.taken found targets
  · have perm : waiters.Perm (k.current :: semaphore.waiters) := joins ▸ Ranked.join_perm _ _ _
    obtain ⟨thread, foundCurrent, running, _⟩ := runs
    refine ⟨sound.placed.queued foundCurrent running found retry perm,
      sound.attended.queued sound.placed ⟨thread, foundCurrent, running⟩ found zero targets retries
        perm, fun named => ?_, fun spares => ?_⟩
    · refine (sound.plain named).still (keepsPurposes_of_modify rfl fun _ => rfl) (fun u p left => ?_)
        (awaited_of_eq rfl)
      by_cases here : u = k.current
      · subst here
        have record := Arena.get?_modify_self (fun thread : Thread => { thread with
          state := .blocked, place := .semaphore s, pending := some retry }) foundCurrent
        cases (pending?_of_get? (k := s.queued retry waiters k) record).symm.trans left
        exact .inr (plain named)
      · exact .inl (Eq.trans (pending?_mapThread_of_ne here).symm left)
    · refine (sound.idle spares).step rfl (fun u idles => ?_) (.inl rfl)
      have other : k.current ≠ u := by
        intro same
        subst same
        obtain none | taken := takes
        · exact direct none spares idles
        · obtain ⟨_, _, _, _, _, undue⟩ := sound.idle spares _ idles
          exact nomatch taken.symm.trans (undue rfl)
      dsimp only
      rw [SemaphoreId.queued_threads, Arena.get?_modify_of_ne _ other]

/-- The current thread becomes the holder of a lock. -/
theorem hold (sound : Sound d ⟨k, none⟩) (runs : k.Runs) {l : LockId}
    (h : l.hold.run k = .ok ((), k')) : Sound d ⟨k', none⟩ := by
  obtain ⟨thread, found, running, _⟩ := runs
  have unqueued := sound.placed.unqueued_of_running found running
  obtain ⟨lock, semaphore, donors, priority, events, _, _, _, _, rfl⟩ :=
    LockId.of_run_hold found unqueued h
  refine sound.retouched ?_ (LockId.retouched_of_run_hold found unqueued h)
  have placed := sound.placed.repriced_of_unqueued found unqueued (f := fun old =>
    { old with waitingOn := none, donors, priority }) fun _ => rfl
  exact placed.of_same_queues rfl rfl (fun p => by cases p <;> rfl) rfl rfl rfl

/-- Before the unit of a held lock is tried, priorities are donated. -/
theorem asks (sound : Sound d ⟨k, due⟩) {l : LockId} {lock : Lock} {asking : Kernel}
    (asks : l.Asks lock k asking) : Sound d ⟨asking, due⟩ := by
  refine sound.retouched ?_ asks.retouched
  cases asks with
  | free _ => exact sound.placed
  | held holds found joins donated =>
    refine Placed.donate ?_ donated
    exact Placed.mapThread (Placed.mapThread sound.placed (fun _ => by rfl) fun _ => by rfl)
      (fun _ => by rfl) fun _ => by rfl

/-- A try on a lock. -/
theorem attemptLock (sound : Sound d ⟨k, due⟩) (runs : k.Runs) {l : LockId}
    (takes : due = none ∨ due = some (.lock l))
    (direct : due = none → d.sparesIdle → k.idle ≠ some k.current) {success : Bool}
    (h : l.attempt.run k = .ok (success, k')) : Sound d ⟨k', none⟩ := by
  obtain ⟨lock, asking, tried, found, asks, tries, ended⟩ := LockId.of_run_attempt h
  have sound := sound.asks asks
  have same := asks.retouched
  have retries : asking.target? (.lock l) = some lock.semaphore := by
    rw [target?_congr same.locks, target?, found, Option.map_some]
  have tried := sound.attempt (same.runs runs) retries takes (fun _ => trivial)
    (by rw [same.idle, same.current]; exact direct) tries
  obtain ⟨rfl, holds⟩ | ⟨_, rfl⟩ := ended
  · obtain ⟨_, _, _, rfl⟩ := SemaphoreId.of_run_attempt_true tries
    exact tried.hold (same.runs runs) holds
  · exact tried

/-- A try on a lock keeps what is kept when threads are retouched and when a unit is tried for. -/
theorem attemptLock_induction (sound : Sound d ⟨k, due⟩) (runs : k.Runs) {l : LockId}
    {success : Bool} (h : l.attempt.run k = .ok (success, k')) {motive : Kernel → Prop}
    (retouched : ∀ {k k' : Kernel}, k.Retouched k' → motive k → motive k')
    (attempt : ∀ {k k' : Kernel} {s : SemaphoreId} {work : Pending} {success : Bool},
      (s.attempt work).run k = .ok (success, k') → motive k → motive k')
    (start : motive k) : motive k' := by
  obtain ⟨lock, asking, tried, _, asks, tries, ended⟩ := LockId.of_run_attempt h
  have done := attempt tries (retouched asks.retouched start)
  obtain ⟨rfl, holds⟩ | ⟨_, rfl⟩ := ended
  · obtain ⟨_, _, _, rfl⟩ := SemaphoreId.of_run_attempt_true tries
    exact retouched (LockId.retouched_of_run_hold_taken (sound.asks asks).placed
      (asks.retouched.runs runs).running holds) done
  · exact done

/-- The current thread's priority is recomputed. -/
theorem repriced (sound : Sound d ⟨k, none⟩) {thread : Thread}
    (found : k.threads.get? k.current = some thread) (unqueued : thread.place ≠ .ready)
    (donors : List ThreadId) (priority : Priority) (events : List Event) :
    Sound d ⟨(k.repriced k.current donors priority).withEvents events, none⟩ := by
  refine sound.retouched ?_ ⟨Arena.agree_modify fun _ => rfl, .refl _,
    Arena.Agree.refl _ _, rfl, rfl, rfl, rfl, Arena.agree_modify fun _ => rfl, rfl⟩
  have placed := sound.placed.repriced_of_unqueued found unqueued (f := fun old =>
    { old with donors, priority }) fun _ => rfl
  exact placed.of_same_queues rfl rfl (fun p => by cases p <;> rfl) rfl rfl rfl

/-- The current thread drops the donors that a lock brought it, and frees the lock. -/
theorem free (sound : Sound d ⟨k, none⟩) (running : k.Running) {l : LockId} {dropped : Kernel}
    (drops : l.dropDonors.run k = .ok ((), dropped)) (events : List Event) :
    Sound d ⟨(dropped.mapLock l fun old => { old with holder := none }).withEvents events,
      none⟩ := by
  refine sound.retouched ?_ (LockId.retouched_of_run_dropDonors sound.placed running drops events)
  obtain ⟨thread, found, runs⟩ := running
  have unqueued := sound.placed.unqueued_of_running found runs
  obtain ⟨donors, told, _, _, _, _, rfl⟩ := LockId.of_run_dropDonors found unqueued drops
  exact (sound.repriced found unqueued donors _ told).placed.of_same_queues rfl rfl
    (fun p => by cases p <;> rfl) rfl rfl rfl

/-- The current thread's base priority is set. -/
theorem rebase (sound : Sound d ⟨k, none⟩) (running : k.Running) {base : Priority}
    (h : (refresh k.current).run (k.mapThread k.current fun old => { old with base }) =
      .ok ((), k')) : Sound d ⟨k', none⟩ := by
  refine sound.retouched ?_ (retouched_of_run_rebase sound.placed running h)
  obtain ⟨thread, found, runs⟩ := running
  have unqueued := sound.placed.unqueued_of_running found runs
  obtain ⟨donors, events, _, _, rfl⟩ := of_run_rebase found unqueued h
  have placed := sound.placed.repriced_of_unqueued found unqueued (f := fun old =>
    { old with base, donors, priority := k.fairPriority { thread with base, donors } }) fun _ => rfl
  exact placed.of_same_queues rfl rfl (fun p => by cases p <;> rfl) rfl rfl rfl

/-! ## Steps without a lock or a semaphore -/

theorem quiet (sound : Sound d ⟨k, none⟩) (same : k.SameWork k') : Sound d ⟨k', none⟩ := by
  have queues : ∀ p, (k'.queueAt p).Perm (k.queueAt p) := by
    intro p
    cases p with
    | detached => exact .refl _
    | ready => rw [queueAt, same.ready, queueAt]
    | sleep => exact same.sleepers.perm
    | semaphore s => rw [queueAt, same.semaphores, queueAt]
  have pending : ∀ t, k'.pending? t = k.pending? t := fun t => by
    rw [pending?, same.threads, pending?]
  have targets : k'.target? = k.target? := target?_congr (by
    rw [same.locks]
    exact Arena.Agree.refl _ _)
  have placed : k'.Placed := by
    refine sound.placed.congr ?_ queues same.current same.dying same.idle ?_ ?_
    · rw [same.threads]
      exact Arena.Agree.refl _ _
    · rw [same.ready]
      exact sound.placed.ordered
    · simp only [priorityOf, same.threads, same.ready]
      exact sound.placed.priced
  refine ⟨placed, ?_, fun named => ?_, fun spares => ?_⟩
  · refine sound.attended.congr same.semaphores (by rw [same.ready]) (fun _ t _ => ?_) rfl
    rw [aim?, pending, targets, aim?]
  · exact (sound.plain named).still (keepsPurposes_of_eq same.semaphores)
      (fun t p left => .inl ((pending t).symm.trans left)) fun c waiter queued =>
        .inl (same.enlisted c ▸ queued)
  · refine (sound.idle spares).step same.idle (fun t _ => ?_) (.inl rfl)
    dsimp only
    rw [same.threads]

/-- A tick passes. -/
theorem ticked (sound : Sound d ⟨k, none⟩) (usage : Usage) : Sound d ⟨k.ticked usage, none⟩ := by
  refine ⟨?_, ?_, fun named => ?_, fun spares => ?_⟩
  · exact sound.placed.of_same_queues rfl rfl (fun p => by cases p <;> rfl) rfl rfl rfl
  · exact sound.attended.congr rfl (.refl _) (fun _ _ _ => rfl) rfl
  · exact (sound.plain named).still (keepsPurposes_of_eq rfl) (fun _ _ left => .inl left)
      (awaited_of_eq rfl)
  · exact (sound.idle spares).step rfl (fun _ _ => rfl) (.inl rfl)

theorem enroll (sound : Sound d ⟨k, none⟩) (blocked : thread.state = .blocked)
    (detached : thread.place = .detached) (pending : thread.pending = none) :
    Sound d ⟨{ k with threads := k.threads.push thread }, none⟩ := by
  have old : ∀ {t record}, k.threads.get? t = some record →
      (k.threads.push thread).get? t = k.threads.get? t := by
    intro t record found
    rw [Arena.get?_push_of_get? thread found, found]
  refine ⟨sound.placed.push blocked detached, ?_, fun named => ?_, fun spares => ?_⟩
  · refine sound.attended.congr rfl (.refl _) (fun p t listed => ?_) rfl
    obtain ⟨_, record, found, _⟩ := sound.placed.exists_of_mem listed
    simp only [aim?, pending?, old found]
    rfl
  · refine (sound.plain named).still (keepsPurposes_of_eq rfl) (fun t p left => .inl ?_)
      (awaited_of_eq rfl)
    simp only [pending?, Arena.get?_push] at left ⊢
    split at left
    · rw [Option.bind_some, pending] at left
      cases left
    · exact left
  · refine (sound.idle spares).step rfl (fun t idles => ?_) (.inl rfl)
    obtain ⟨record, found, _⟩ := sound.idle spares t idles
    exact congrArg _ (old found)

theorem appoint (sound : Sound d ⟨k, none⟩) (found : k.threads.get? t = some thread)
    (blocked : thread.state = .blocked) (detached : thread.place = .detached)
    (pending : thread.pending = none) : Sound d ⟨{ k with idle := some t }, none⟩ := by
  refine ⟨sound.placed.appointed found (by rw [blocked]; exact nofun)
    (by rw [detached]; exact nofun), ?_, fun named => ?_, fun _ => ?_⟩
  · exact sound.attended.congr rfl (.refl _) (fun _ _ _ => rfl) rfl
  · exact (sound.plain named).still (keepsPurposes_of_eq rfl) (fun _ _ left => .inl left)
      (awaited_of_eq rfl)
  · intro u idles
    cases idles
    exact ⟨thread, found, detached, by rw [blocked]; exact nofun, pending, fun _ => rfl⟩

theorem halt (sound : Sound d ⟨k, none⟩) (running : k.Running) {state : RunState}
    (halts : state = .blocked ∨ state = .dying ∧ k.idle ≠ some k.current) :
    Sound d ⟨k.mapThread k.current fun old => { old with state }, none⟩ := by
  obtain ⟨thread, found, running⟩ := running
  refine ⟨sound.placed.halted found running halts, ?_, fun named => ?_, fun spares => ?_⟩
  · exact sound.attended.congr rfl (.refl _) (fun _ _ _ => aim?_mapThread fun _ => rfl) rfl
  · exact (sound.plain named).still (keepsPurposes_of_eq rfl)
      (fun _ _ left => .inl ((pending?_mapThread fun _ => by rfl).symm.trans left))
      (awaited_of_eq rfl)
  · intro t idles
    obtain ⟨record, foundRecord, detached, unready, pending, undue⟩ := sound.idle spares t idles
    by_cases here : k.current = t
    · subst here
      refine ⟨_, Arena.get?_modify_self _ foundRecord, detached, ?_, pending, fun _ => rfl⟩
      obtain rfl | ⟨_, other⟩ := halts
      · exact nofun
      · exact absurd idles other
    · exact ⟨record, (Arena.get?_modify_of_ne _ here).trans foundRecord, detached, unready, pending,
        fun _ => rfl⟩

theorem doze (sound : Sound d ⟨k, none⟩) (running : k.Running) (other : k.idle ≠ some k.current)
    (tick : Nat) (events : List Event) :
    Sound d ⟨((k.mapThread k.current fun old =>
      { old with wakeTick := tick, place := .sleep, state := .blocked }).withSleepers
        (k.sleepers.push k.current tick)).withEvents events, none⟩ := by
  obtain ⟨thread, found, running⟩ := running
  refine ⟨sound.placed.dozed found running other tick events, ?_, fun named => ?_,
    fun spares => ?_⟩
  · exact sound.attended.congr rfl (.refl _) (fun _ _ _ => aim?_mapThread (k := k) fun _ => rfl) rfl
  · exact (sound.plain named).step (keepsPurposes_of_eq rfl)
      (fun _ _ left => .inl ((pending?_mapThread (k := k) fun _ => by rfl).symm.trans left)) nofun
      (awaited_of_eq rfl)
  · refine (sound.idle spares).step rfl (fun t idles => ?_) (.inl rfl)
    exact congrArg _ (Arena.get?_modify_of_ne _ fun same => other (same ▸ idles))

/-- A thread is taken off the sleep queue and made ready. -/
theorem rise (sound : Sound d ⟨k, none⟩) (found : k.threads.get? t = some thread)
    {sleepers : SleepQueue} (perm : k.sleepers.sleepers.Perm (t :: sleepers.sleepers))
    (events : List Event) :
    Sound d ⟨(((k.mapThread t fun old => { old with place := .detached }).withSleepers
      sleepers).withEvents events).readied t thread.priority, none⟩ := by
  have there := sound.placed.asleep_of_perm found perm
  have blocked := sound.placed.blocked found (by rw [there]; exact nofun)
    (by rw [there]; exact nofun)
  have other : d.sparesIdle → k.idle ≠ some t := by
    intro spares idles
    obtain ⟨idler, foundIdler, detached, _⟩ := sound.idle spares t idles
    cases found.symm.trans foundIdler
    cases there.symm.trans detached
  suffices risen : Sound d ⟨((k.mapThread t fun old => { old with place := .detached }).withSleepers
      sleepers).withEvents events, none⟩ by
    have record : (((k.mapThread t fun old => { old with place := .detached }).withSleepers
        sleepers).withEvents events).threads.get? t = some { thread with place := .detached } :=
      Arena.get?_modify_self _ found
    have up := risen.readied record rfl (by dsimp only; rw [blocked]; exact nofun) other
    exact up
  refine ⟨sound.placed.risen perm events, ?_, fun named => ?_, fun spares => ?_⟩
  · exact sound.attended.congr rfl (.refl _) (fun _ _ _ => aim?_mapThread (k := k) fun _ => rfl) rfl
  · exact (sound.plain named).step (keepsPurposes_of_eq rfl)
      (fun _ _ left => .inl ((pending?_mapThread (k := k) fun _ => by rfl).symm.trans left)) nofun
      (awaited_of_eq rfl)
  · refine (sound.idle spares).step rfl (fun u idles => ?_) (.inl rfl)
    exact congrArg _ (Arena.get?_modify_of_ne _ fun same => other spares (same ▸ idles))

theorem reclaim (sound : Sound d ⟨k, none⟩) (h : reclaim.run k = .ok ((), k')) :
    Sound d ⟨k', none⟩ := by
  obtain ⟨threads, events, _, _, gone, rfl⟩ := of_run_reclaim h
  have kept : ∀ t thread, k.threads.get? t = some thread → thread.state ≠ .dying →
      threads.get? t = k.threads.get? t := by
    intro t thread found alive
    rw [gone, if_neg fun left => alive (sound.placed.dying_of_mem left found)]
  refine ⟨sound.placed.reclaimed gone events, ?_, fun named => ?_, fun spares => ?_⟩
  · refine sound.attended.congr rfl (.refl _) (fun p t listed => ?_) rfl
    obtain ⟨somewhere, thread, found, there⟩ := sound.placed.exists_of_mem listed
    have alive : thread.state ≠ .dying := by
      intro dying
      rw [← there] at somewhere
      refine somewhere (sound.placed.detached_of_state found ?_ ?_) <;> rw [dying] <;> exact nofun
    simp only [aim?, pending?, kept t thread found alive]
    rfl
  · refine (sound.plain named).still (keepsPurposes_of_eq rfl) (fun t p left => .inl ?_)
      (awaited_of_eq rfl)
    simp only [pending?, gone] at left ⊢
    split at left
    · cases left
    · exact left
  · refine (sound.idle spares).step rfl (fun t idles => ?_) (.inl rfl)
    obtain ⟨thread, found, alive, _⟩ := sound.placed.idle t idles
    exact congrArg _ (kept t thread found alive)

theorem pick (sound : Sound d ⟨k, none⟩) {previous : Thread}
    (foundPrevious : k.threads.get? k.current = some previous)
    (halted : previous.state ≠ .running) {next : ThreadId}
    (found : k.threads.get? next = some thread) {place : Place} {ready : ReadyQueue}
    (picks : k.Picks next thread place ready)
    (fallback : k.ready.pop? = none → k.idle = some next → thread.place = .detached)
    {dying : List ThreadId} (departs : Departs k.dying k.current next previous dying)
    (processor : Processor) (events : List Event) :
    Sound d ⟨k.dispatched next place ready processor dying events, thread.pending⟩ := by
  refine ⟨sound.placed.handed foundPrevious halted found picks fallback departs processor events,
    sound.attended.picked sound.placed found picks fallback rfl rfl rfl fun u other =>
      aim?_mapThread_of_ne (k := k) other, fun named => ?_, fun spares => ?_⟩
  · refine (sound.plain named).step (keepsPurposes_of_eq rfl) (fun t p left => .inl ?_)
      (fun p taken => ?_) (awaited_of_eq rfl)
    · by_cases here : t = next
      · subst here
        have record := Arena.get?_modify_self (fun old : Thread =>
          { old with state := .running, place, pending := none }) found
        exact nomatch (pending?_of_get? (k := k.mapThread t fun old =>
          { old with state := .running, place, pending := none }) record).symm.trans left
      · exact Eq.trans (Eq.symm (pending?_mapThread_of_ne (k := k) here)) left
    · exact (sound.plain named).pending next p ((pending?_of_get? found).trans taken)
  · intro t idles
    obtain ⟨record, foundRecord, detached, unready, pending, _⟩ := sound.idle spares t idles
    by_cases here : t = next
    · subst here
      cases found.symm.trans foundRecord
      refine ⟨_, Arena.get?_modify_self _ found, ?_, nofun, rfl, fun _ => pending⟩
      cases picks with
      | front _ => rfl
      | fallback _ _ => exact detached
    · exact ⟨record, (Arena.get?_modify_of_ne _ (Ne.symm here)).trans foundRecord, detached,
        unready, pending, fun same => absurd same here⟩

/-- The current thread makes plans for when it next runs, and queues on conditions. -/
theorem plan (sound : Sound d ⟨k, none⟩) (running : k.Running) (pending : Option Pending)
    (plain : d.plainHandles = true → ∀ p ∈ pending, k.PlainWork p)
    (waits : d.sparesIdle → k.idle = some k.current → pending = none)
    {conditions : Arena .condition Condition} (events : List Event)
    (awaited : ∀ c, ∀ waiter ∈ enlisted { k with conditions } c,
      waiter ∈ k.enlisted c ∨ k.MadeFor waiter.semaphore .signal) :
    Sound d ⟨{ k.mapThread k.current fun old => { old with pending } with conditions, events },
      none⟩ := by
  obtain ⟨thread, found, running⟩ := running
  have record := Arena.get?_modify_self (fun old : Thread => { old with pending }) found
  refine ⟨?_, ?_, fun named => ?_, fun spares => ?_⟩
  · have planned : (k.mapThread k.current fun old => { old with pending }).Placed :=
      Placed.mapThread sound.placed (fun _ => rfl) fun _ => rfl
    exact planned.of_same_queues rfl rfl (fun p => by cases p <;> rfl) rfl rfl rfl
  · refine sound.attended.congr rfl (.refl _) (fun p t listed => aim?_mapThread_of_ne (k := k) ?_) rfl
    intro here
    rw [here] at listed
    exact sound.placed.not_mem_of_detached found (sound.placed.detached_of_running found running) p
      listed
  · refine (sound.plain named).still (keepsPurposes_of_eq rfl) (fun t p left => ?_) awaited
    by_cases here : t = k.current
    · subst here
      have planned := (pending?_of_get? (k := k.mapThread k.current fun old =>
        { old with pending }) record).symm.trans left
      exact .inr (plain named p planned)
    · exact .inl (Eq.trans (Eq.symm (pending?_mapThread_of_ne (k := k) here)) left)
  · intro t idles
    obtain ⟨idler, foundIdler, detached, unready, nothing, undue⟩ := sound.idle spares t idles
    by_cases here : k.current = t
    · subst here
      cases found.symm.trans foundIdler
      exact ⟨_, record, detached, unready, waits spares idles, fun _ => rfl⟩
    · exact ⟨idler, (Arena.get?_modify_of_ne _ here).trans foundIdler, detached, unready, nothing,
        fun _ => rfl⟩

/-- Work is taken up for the current thread. -/
theorem takeUp (sound : Sound d ⟨k, none⟩) {work : Pending}
    (plain : d.plainHandles = true → k.PlainWork work)
    (waits : d.sparesIdle → k.idle ≠ some k.current) : Sound d ⟨k, some work⟩ := by
  refine ⟨sound.placed, ⟨sound.attended.retries, fun s semaphore found waited => ?_⟩,
    fun named => ⟨(sound.plain named).pending, fun p taken => ?_, (sound.plain named).awaited⟩,
    fun spares t idles => ?_⟩
  · exact Nat.le_trans (sound.attended.bounded s semaphore found waited) (Nat.le_add_right _ _)
  · cases taken
    exact plain named
  · obtain ⟨thread, found, detached, unready, nothing, _⟩ := sound.idle spares t idles
    exact ⟨thread, found, detached, unready, nothing,
      fun here => absurd (here ▸ idles) (waits spares)⟩

/-- The idle thread has no work to take up. -/
theorem idle_ne_of_pending (sound : Sound d ⟨k, none⟩) (spares : d.sparesIdle)
    (found : k.threads.get? t = some thread) {work : Pending} (pending : thread.pending = some work) :
    k.idle ≠ some t := by
  intro idles
  obtain ⟨_, found', _, _, nothing, _⟩ := sound.idle spares t idles
  cases found.symm.trans found'
  cases nothing.symm.trans pending

/-- The current thread begins with what it had left for later. -/
theorem undertake (sound : Sound d ⟨k, none⟩) (found : k.threads.get? k.current = some thread)
    (running : thread.state = .running) {work : Pending} (pending : thread.pending = some work) :
    Sound d ⟨k.mapThread k.current fun old => { old with pending := none }, some work⟩ := by
  have cleared := sound.plan ⟨thread, found, running⟩ none (fun _ _ => nofun)
    (fun _ _ => rfl) k.events (awaited_of_eq rfl)
  refine cleared.takeUp (fun named => ?_) fun spares => sound.idle_ne_of_pending spares found pending
  have keeps : k.KeepsPurposes (k.mapThread k.current fun old => { old with pending := none }) :=
    keepsPurposes_of_eq rfl
  exact keeps.plainWork
    ((sound.plain named).pending k.current _ ((pending?_of_get? found).trans pending))

/-! ## Semaphores and locks that come and go -/

theorem create (sound : Sound d ⟨k, none⟩) (value : Nat) (purpose : Purpose) :
    Sound d ⟨{ k with semaphores := k.semaphores.push { value, purpose } }, none⟩ := by
  refine ⟨sound.placed.pushSemaphore value purpose, ?_, fun named => ?_, fun spares => ?_⟩
  · refine sound.attended.of_semaphores rfl (fun s semaphore found waited => ?_)
      fun _ _ _ _ _ => Iff.rfl
    obtain ⟨_, rfl⟩ | old := Arena.of_get?_push found
    · exact absurd rfl waited
    · exact old
  · exact (sound.plain named).still (keepsPurposes_of_push rfl) (fun _ _ left => .inl left)
      (awaited_of_eq rfl)
  · exact (sound.idle spares).step rfl (fun _ _ => rfl) (.inl rfl)

theorem destroy (sound : Sound d ⟨k, none⟩) (h : s.destroy.run k = .ok ((), k')) :
    Sound d ⟨k', none⟩ := by
  obtain ⟨semaphore, found, unawaited, rfl⟩ := SemaphoreId.of_run_destroy h
  refine ⟨sound.placed.eraseSemaphore found unawaited, ?_, fun named => ?_, fun spares => ?_⟩
  · refine sound.attended.of_semaphores rfl (fun s' semaphore' found' _ => ?_)
      fun _ _ _ _ _ => Iff.rfl
    rw [SemaphoreId.destroyed_semaphores, Arena.get?_erase] at found'
    split at found'
    · cases found'
    · exact found'
  · exact (sound.plain named).still (keepsPurposes_of_erase rfl) (fun _ _ left => .inl left)
      (awaited_of_eq rfl)
  · exact (sound.idle spares).step rfl (fun _ _ => rfl) (.inl rfl)

/-- Nobody aims at a semaphore through a lock that comes or goes, unless it comes or
goes with the lock. -/
theorem relocked (sound : Sound d ⟨k, none⟩) {locks : Arena .lock Lock}
    (same : ∀ s semaphore, k.semaphores.get? s = some semaphore → semaphore.waiters ≠ [] → ∀ l,
      (locks.get? l).map (·.semaphore) = some s ↔ (k.locks.get? l).map (·.semaphore) = some s) :
    Sound d ⟨{ k with locks }, none⟩ := by
  refine ⟨sound.placed.of_same_queues rfl rfl (fun p => by cases p <;> rfl) rfl rfl rfl, ?_,
    fun named => ?_, fun spares => ?_⟩
  · refine sound.attended.of_semaphores rfl (fun _ _ found _ => found)
      fun s semaphore found waited t => ?_
    have unchanged : pending? { k with locks } t = k.pending? t := rfl
    rw [aim?, aim?, unchanged]
    cases k.pending? t with
    | none => exact Iff.rfl
    | some p =>
      rw [Option.bind_some, Option.bind_some]
      cases p with
      | lock l => exact same s semaphore found waited l
      | _ => exact Iff.rfl
  · exact (sound.plain named).still (keepsPurposes_of_eq rfl) (fun _ _ left => .inl left)
      (awaited_of_eq rfl)
  · exact (sound.idle spares).step rfl (fun _ _ => rfl) (.inl rfl)

theorem createLock (sound : Sound d ⟨k, none⟩) :
    Sound d ⟨{ k with
      semaphores := k.semaphores.push { value := 1, purpose := .lock }
      locks := k.locks.push { semaphore := k.semaphores.next } }, none⟩ := by
  refine (sound.create 1 .lock).relocked fun s semaphore found waited l => ?_
  rw [Arena.get?_push] at found ⊢
  split
  · next new =>
    rw [new, Arena.get?_next]
    split at found
    · cases found
      exact absurd rfl waited
    · next other => exact ⟨fun same => absurd (Option.some.inj same).symm other, nofun⟩
  · exact Iff.rfl

theorem destroyLock (sound : Sound d ⟨k, none⟩) {l : LockId} {lock : Lock}
    (found : k.locks.get? l = some lock)
    (h : lock.semaphore.destroy.run { k with locks := k.locks.erase l } = .ok ((), k')) :
    Sound d ⟨k', none⟩ := by
  obtain ⟨semaphore, foundSemaphore, unawaited, _⟩ := SemaphoreId.of_run_destroy h
  suffices unlocked : Sound d ⟨{ k with locks := k.locks.erase l }, none⟩ from unlocked.destroy h
  refine sound.relocked fun s semaphore' found' waited l' => ?_
  rw [Arena.get?_erase]
  split
  · next here =>
    subst here
    rw [found]
    refine ⟨nofun, fun same => ?_⟩
    cases Option.some.inj same
    cases foundSemaphore.symm.trans found'
    exact absurd unawaited waited
  · exact Iff.rfl

/-! ## Conditions -/

/-- The current thread queues a wait on a condition. -/
theorem enlist (sound : Sound d ⟨k, none⟩) (running : k.Running)
    (waits : d.sparesIdle → k.idle ≠ some k.current) {c : ConditionId} {l : LockId}
    {condition : Condition} {waiters : List Waiter} (found : k.conditions.get? c = some condition)
    (perm : waiters.Perm (⟨k.semaphores.next, k.current⟩ :: condition.waiters)) :
    Sound d ⟨c.joined l waiters k, none⟩ := by
  have made : MadeFor { k with semaphores := k.semaphores.push { value := 0, purpose := .signal } }
      k.semaphores.next .signal := by
    refine ⟨?_, fun semaphore foundNew => ?_⟩
    · rw [Arena.next_push]
      exact Nat.lt_succ_self _
    · cases (Arena.get?_push_next _ _).symm.trans foundNew
      rfl
  refine (sound.create 0 .signal).plan running _ ?_ (fun spares idles => absurd idles (waits spares))
    _ ?_
  · intro _ p planned
    cases planned
    exact made
  · intro c' waiter queued
    rw [Kernel.enlisted, Arena.get?_modify] at queued
    split at queued
    · next here =>
      subst here
      rw [found] at queued
      obtain rfl | old := List.mem_cons.mp (perm.mem_iff.mp queued)
      · exact .inr made
      · rw [← enlisted_of_get? found] at old
        exact .inl old
    · exact .inl queued

/-- A condition takes waits off and sends signals. -/
theorem call (sound : Sound d ⟨k, none⟩) {c : ConditionId} {condition : Condition}
    {waiters : List Waiter} (found : k.conditions.get? c = some condition)
    (fewer : ∀ waiter ∈ waiters, waiter ∈ condition.waiters) (t : ThreadId) :
    Sound d ⟨c.called t waiters k, none⟩ := by
  refine ⟨?_, ?_, fun named => ?_, fun spares => ?_⟩
  · exact sound.placed.of_same_queues rfl rfl (fun p => by cases p <;> rfl) rfl rfl rfl
  · exact sound.attended.congr rfl (.refl _) (fun _ _ _ => rfl) rfl
  · refine (sound.plain named).still (keepsPurposes_of_eq rfl) (fun _ _ left => .inl left)
      fun c' waiter queued => .inl ?_
    rw [Kernel.enlisted, ConditionId.called_conditions, Arena.get?_modify] at queued
    split at queued
    · next here =>
      subst here
      rw [found] at queued
      exact enlisted_of_get? found ▸ fewer waiter queued
    · exact queued
  · exact (sound.idle spares).step rfl (fun _ _ => rfl) (.inl rfl)

/-- The first wait is taken off a condition to be sent the signal. -/
theorem callFirst (sound : Sound d ⟨k, none⟩) {c : ConditionId} {condition : Condition}
    {waiter : Waiter} {rest : List Waiter} (found : k.conditions.get? c = some condition)
    (first : Ranked.sort k.worth condition.waiters = waiter :: rest) (t : ThreadId) :
    Sound d ⟨c.called t rest k, none⟩ :=
  sound.call found (fun _ left =>
    (Ranked.perm_of_sort_eq_cons first).mem_iff.mpr (List.mem_cons_of_mem _ left)) t

/-- The signal is taken, and what is left to do is to get the lock. -/
theorem signalled {l : LockId} {tried : Kernel} (sound : Sound d ⟨k, some (.signal s l)⟩)
    (runs : k.Runs)
    (takes : (s.attempt (.signal s l)).run k = .ok (true, tried))
    (h : s.destroy.run tried = .ok ((), k')) : Sound d ⟨k', some (.lock l)⟩ := by
  have busy : d.sparesIdle → k.idle ≠ some k.current := by
    intro spares idles
    obtain ⟨_, _, _, _, _, undue⟩ := sound.idle spares _ idles
    cases undue rfl
  have taken := sound.attempt runs rfl (.inr rfl) (fun named => (sound.plain named).due _ rfl)
    nofun takes
  refine (taken.destroy h).takeUp (fun _ => trivial) ?_
  obtain ⟨_, _, _, rfl⟩ := SemaphoreId.of_run_attempt_true takes
  obtain ⟨_, _, _, rfl⟩ := SemaphoreId.of_run_destroy h
  exact busy

end Sound

/-! ## Every move -/

theorem Sound.move {act : Option Act} (sound : Sound d m) (move : Move d act m m') :
    Sound d m' := by
  cases move with
  | quiet same => exact sound.quiet same
  | tick charged => exact sound.ticked _
  | enroll blocked detached pending _ _ _ => exact sound.enroll blocked detached pending
  | appoint found blocked detached pending _ => exact sound.appoint found blocked detached pending
  | unblock spared ran =>
    obtain ⟨thread, found, blocked, detached, _, rfl⟩ := of_run_unblock ran
    exact sound.readied found detached (by rw [blocked]; exact nofun) spared
  | ready found running other =>
    exact sound.readied found (sound.placed.detached_of_running found running)
      (by rw [running]; exact nofun) fun _ => other
  | halt running whole halts =>
    exact sound.halt running (halts.imp_right fun ⟨exits, other, _⟩ => ⟨exits, other⟩)
  | doze runs other told ahead => exact sound.doze runs.running other _ _
  | rise sleepers found perm due told => exact sound.rise found perm _
  | reclaim ran => exact sound.reclaim ran
  | pick foundPrevious halted found picks fallback departs handed swept =>
    exact sound.pick foundPrevious halted found picks fallback departs _ _
  | create => exact sound.create _ _
  | destroy plain unnamed ran => exact sound.destroy ran
  | createLock => exact sound.createLock
  | destroyLock found unheld unnamed ran => exact sound.destroyLock found ran
  | take runs plain ran =>
    obtain ⟨_, found, _, rfl⟩ := SemaphoreId.of_run_take_true ran
    exact sound.taken found (.inl rfl)
  | attempt runs plain onset ran =>
    exact sound.attempt runs rfl onset.due plain (fun undue => onset.waits undue) ran
  | attemptLock runs onset ran => exact sound.attemptLock runs onset.due onset.waits ran
  | seize runs found takes ran =>
    obtain ⟨_, foundUnit, _, rfl⟩ := SemaphoreId.of_run_take_true takes
    exact (sound.taken foundUnit (.inl rfl)).hold runs ran
  | release running found holds drops ran => exact (sound.free running drops _).wake ran
  | wake plain ran => exact sound.wake ran
  | rebase running ran => exact sound.rebase running ran
  | enlist runs waits holds found joins =>
    exact sound.enlist runs.running (fun spares => waits (.inl spares.1)) found
      (joins ▸ Ranked.join_perm _ _ _)
  | undertake found running pending => exact sound.undertake found running pending
  | signal found first ran => exact (sound.callFirst found first _).wake ran
  | signalled runs takes ran => exact sound.signalled runs takes ran
  | unsignalled runs ran =>
    exact sound.attempt runs rfl (.inr rfl) (fun named => (sound.plain named).due _ rfl) nofun ran

theorem Sound.moves {deeds : List Deed} (sound : Sound d m) (moves : Moves d deeds m m') :
    Sound d m' :=
  moves.induction sound fun move sound => sound.move move

end ThreadKernel
