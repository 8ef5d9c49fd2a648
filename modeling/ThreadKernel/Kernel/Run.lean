import Mathlib.Tactic.Simps.Basic
import ThreadKernel.Kernel.Basic

/-!
# Runs of kernel operations

An operation run from a kernel either faults or ends well, with an answer and
the kernel it leaves.  Each lemma says when one of the building blocks ends
well, and how.  `run_bind_eq_ok_iff` splits a sequence into its steps;
`run_masked_eq_ok_iff` says that masking interrupts leaves their level alone.

What a step has changed is said by name: `mapThread` for one record, `withReady`
for the ready queue, and so on.
-/

namespace ThreadKernel.Kernel

variable {α β : Type} {k : Kernel}

/-! ## Changed kernels -/

/-- The kernel with the record of `t` changed. -/
@[simps]
def mapThread (k : Kernel) (t : ThreadId) (f : Thread → Thread) : Kernel :=
  { k with threads := k.threads.modify t f }

/-- The kernel with the record of `s` changed. -/
@[simps]
def mapSemaphore (k : Kernel) (s : SemaphoreId) (f : Semaphore → Semaphore) : Kernel :=
  { k with semaphores := k.semaphores.modify s f }

/-- The kernel with the record of `l` changed. -/
@[simps]
def mapLock (k : Kernel) (l : LockId) (f : Lock → Lock) : Kernel :=
  { k with locks := k.locks.modify l f }

/-- The kernel with the record of `c` changed. -/
@[simps]
def mapCondition (k : Kernel) (c : ConditionId) (f : Condition → Condition) : Kernel :=
  { k with conditions := k.conditions.modify c f }

@[simps]
def withReady (k : Kernel) (ready : ReadyQueue) : Kernel := { k with ready }

@[simps]
def withSleepers (k : Kernel) (sleepers : SleepQueue) : Kernel := { k with sleepers }

@[simps]
def withEvents (k : Kernel) (events : List Event) : Kernel := { k with events }

/-- The kernel with interrupts at `level`. -/
@[simps]
def atLevel (k : Kernel) (level : Level) : Kernel :=
  { k with processor := k.processor.setLevel level }

theorem mapThread_mapThread (k : Kernel) (t : ThreadId) (f g : Thread → Thread) :
    (k.mapThread t f).mapThread t g = k.mapThread t fun thread => g (f thread) := by
  rw [mapThread, mapThread_threads, Arena.modify_modify]
  rfl

/-- Only what is done to the record counts. -/
theorem mapThread_congr {t : ThreadId} {thread : Thread} {f g : Thread → Thread}
    (found : k.threads.get? t = some thread) (same : f thread = g thread) :
    k.mapThread t f = k.mapThread t g := by
  rw [mapThread, mapThread, Arena.modify_congr found same]

theorem mapThread_eq_self {t : ThreadId} {thread : Thread} {f : Thread → Thread}
    (found : k.threads.get? t = some thread) (same : f thread = thread) :
    k.mapThread t f = k := by
  rw [mapThread, Arena.modify_eq_self found same]

/-! ## Sequences, answers and faults -/

theorem run_bind_eq_ok_iff {first : KernelM α} {rest : α → KernelM β} {r : β × Kernel} :
    (first >>= rest).run k = .ok r ↔
      ∃ a middle, first.run k = .ok (a, middle) ∧ (rest a).run middle = .ok r := by
  simp only [StateT.run_bind]
  cases first.run k with
  | error fault => simp [bind, Except.bind]
  | ok step =>
    exact ⟨fun h => ⟨step.1, step.2, rfl, h⟩, fun ⟨_, _, same, h⟩ => by cases same; exact h⟩

theorem run_pure_eq_ok_iff {a : α} {r : α × Kernel} :
    (pure a : KernelM α).run k = .ok r ↔ r = (a, k) :=
  ⟨fun h => by cases h; rfl, fun h => by cases h; rfl⟩

theorem run_throw (fault : Fault) : (throw fault : KernelM α).run k = .error fault := rfl

/-- A plain computation leaves the kernel as it is. -/
theorem run_lift_eq_ok_iff {x : Except Fault α} {r : α × Kernel} :
    (liftM x : KernelM α).run k = .ok r ↔ x = .ok r.1 ∧ r.2 = k := by
  rcases r with ⟨a, after⟩
  change (x.bind fun a => .ok (a, k)) = _ ↔ _
  cases x <;> simp [Except.bind, eq_comm]

theorem run_require_eq_ok_iff {p : Prop} [Decidable p] {fault : Fault} {r : Unit × Kernel} :
    (require p fault).run k = .ok r ↔ p ∧ r = ((), k) := by
  unfold require
  split
  · next holds =>
    rw [run_pure_eq_ok_iff]
    exact ⟨fun h => ⟨holds, h⟩, And.right⟩
  · next fails =>
    rw [run_throw]
    exact ⟨nofun, fun h => absurd h.1 fails⟩

theorem run_map_eq_ok_iff {first : KernelM α} {f : α → β} {b : β} {k' : Kernel} :
    (do return f (← first) : KernelM β).run k = .ok (b, k') ↔
      ∃ a, first.run k = .ok (a, k') ∧ f a = b := by
  rw [run_bind_eq_ok_iff]
  constructor
  · rintro ⟨a, middle, ran, h⟩
    cases h
    exact ⟨a, ran, rfl⟩
  · rintro ⟨a, ran, rfl⟩
    exact ⟨a, k', ran, rfl⟩

/-- What a first step that cannot fail hands on. -/
theorem run_bind_of_ok {first : KernelM α} {rest : α → KernelM β} {a : α} {middle : Kernel}
    (ran : first.run k = .ok (a, middle)) :
    (first >>= rest).run k = (rest a).run middle := by
  rw [StateT.run_bind, ran]
  rfl

/-- A first step that faults is all there is. -/
theorem run_bind_of_error {first : KernelM α} {rest : α → KernelM β} {fault : Fault}
    (faults : first.run k = .error fault) : (first >>= rest).run k = .error fault := by
  rw [StateT.run_bind, faults]
  rfl

theorem run_pure_bind {rest : α → KernelM β} {a : α} :
    ((pure a : KernelM α) >>= rest).run k = (rest a).run k :=
  run_bind_of_ok rfl

theorem run_get_bind {rest : Kernel → KernelM β} :
    (get >>= rest).run k = (rest k).run k :=
  run_bind_of_ok rfl

theorem run_set_bind {rest : PUnit → KernelM β} {next : Kernel} :
    (set next >>= rest).run k = (rest ()).run next :=
  run_bind_of_ok rfl

theorem run_modify_bind {rest : PUnit → KernelM β} {f : Kernel → Kernel} :
    (modify f >>= rest).run k = (rest ()).run (f k) :=
  run_bind_of_ok rfl

theorem run_set_eq_ok_iff {next : Kernel} {r : PUnit × Kernel} :
    (set next : KernelM PUnit).run k = .ok r ↔ r = ((), next) :=
  ⟨fun h => by cases h; rfl, fun h => by cases h; rfl⟩

theorem run_modify_eq_ok_iff {f : Kernel → Kernel} {r : PUnit × Kernel} :
    (modify f : KernelM PUnit).run k = .ok r ↔ r = ((), f k) :=
  ⟨fun h => by cases h; rfl, fun h => by cases h; rfl⟩

theorem run_caller_bind {rest : ThreadId → KernelM β} :
    (caller >>= rest).run k = (rest k.current).run k :=
  run_bind_of_ok rfl

theorem run_ranks_bind {rest : (ThreadId → Except Fault Priority) → KernelM β} :
    (ranks >>= rest).run k = (rest k.threads.rank).run k :=
  run_bind_of_ok rfl

theorem run_require_bind_eq_ok_iff {p : Prop} [Decidable p] {fault : Fault}
    {rest : PUnit → KernelM β} {r : β × Kernel} :
    (require p fault >>= rest).run k = .ok r ↔ p ∧ (rest ()).run k = .ok r := by
  rw [run_bind_eq_ok_iff]
  constructor
  · rintro ⟨_, _, ran, h⟩
    obtain ⟨holds, same⟩ := run_require_eq_ok_iff.mp ran
    cases same
    exact ⟨holds, h⟩
  · rintro ⟨holds, h⟩
    exact ⟨(), k, run_require_eq_ok_iff.mpr ⟨holds, rfl⟩, h⟩

theorem run_lift_bind_eq_ok_iff {x : Except Fault α} {rest : α → KernelM β} {r : β × Kernel} :
    ((liftM x : KernelM α) >>= rest).run k = .ok r ↔
      ∃ a, x = .ok a ∧ (rest a).run k = .ok r := by
  rw [run_bind_eq_ok_iff]
  constructor
  · rintro ⟨a, _, ran, h⟩
    obtain ⟨same, rfl⟩ := run_lift_eq_ok_iff.mp ran
    exact ⟨a, same, h⟩
  · rintro ⟨a, same, h⟩
    exact ⟨a, k, run_lift_eq_ok_iff.mpr ⟨same, rfl⟩, h⟩

theorem run_forM_nil_eq_ok_iff {f : α → KernelM PUnit} {r : PUnit × Kernel} :
    (([] : List α).forM f).run k = .ok r ↔ r = ((), k) :=
  run_pure_eq_ok_iff

theorem run_forM_cons_eq_ok_iff {f : α → KernelM PUnit} {x : α} {xs : List α}
    {r : PUnit × Kernel} :
    ((x :: xs).forM f).run k = .ok r ↔
      ∃ middle, (f x).run k = .ok ((), middle) ∧ (xs.forM f).run middle = .ok r := by
  rw [List.forM, run_bind_eq_ok_iff]
  exact ⟨fun ⟨_, middle, ran, h⟩ => ⟨middle, ran, h⟩, fun ⟨middle, ran, h⟩ => ⟨(), middle, ran, h⟩⟩

/-! ## Records -/

theorem run_findThread_eq_ok_iff {t : ThreadId} {r : Thread × Kernel} :
    (findThread t).run k = .ok r ↔ k.threads.get? t = some r.1 ∧ r.2 = k := by
  rw [← Arena.find_eq_ok_iff]
  exact run_lift_eq_ok_iff

theorem run_findThread_of_missing {t : ThreadId} (gone : k.threads.get? t = none) :
    (findThread t).run k = .error (.missing .thread t.index) := by
  have faults : k.threads.find t = .error (.missing .thread t.index) := by
    rw [Arena.find, gone]
  rw [findThread, run_get_bind, faults]
  rfl

theorem run_findSemaphore_eq_ok_iff {s : SemaphoreId} {r : Semaphore × Kernel} :
    (findSemaphore s).run k = .ok r ↔ k.semaphores.get? s = some r.1 ∧ r.2 = k := by
  rw [← Arena.find_eq_ok_iff]
  exact run_lift_eq_ok_iff

theorem run_findLock_eq_ok_iff {l : LockId} {r : Lock × Kernel} :
    (findLock l).run k = .ok r ↔ k.locks.get? l = some r.1 ∧ r.2 = k := by
  rw [← Arena.find_eq_ok_iff]
  exact run_lift_eq_ok_iff

theorem run_findCondition_eq_ok_iff {c : ConditionId} {r : Condition × Kernel} :
    (findCondition c).run k = .ok r ↔ k.conditions.get? c = some r.1 ∧ r.2 = k := by
  rw [← Arena.find_eq_ok_iff]
  exact run_lift_eq_ok_iff

/-- To end well an edit needs the record it changes. -/
theorem run_find_then_modify_eq_ok_iff {find : KernelM α} {found : α → Prop}
    {edit : Kernel → Kernel} {r : Unit × Kernel}
    (finds : ∀ {r : α × Kernel}, find.run k = .ok r ↔ found r.1 ∧ r.2 = k) :
    (find >>= fun _ => modify edit).run k = .ok r ↔ (∃ a, found a) ∧ r = ((), edit k) := by
  rw [run_bind_eq_ok_iff]
  constructor
  · rintro ⟨a, middle, ran, h⟩
    rcases finds.mp ran with ⟨holds, rfl⟩
    exact ⟨⟨a, holds⟩, by cases h; rfl⟩
  · rintro ⟨⟨a, holds⟩, rfl⟩
    exact ⟨a, k, finds.mpr ⟨holds, rfl⟩, rfl⟩

theorem run_modifyThread_eq_ok_iff {t : ThreadId} {f : Thread → Thread} {r : Unit × Kernel} :
    (modifyThread t f).run k = .ok r ↔
      (∃ thread, k.threads.get? t = some thread) ∧
        r = ((), k.mapThread t f) :=
  run_find_then_modify_eq_ok_iff run_findThread_eq_ok_iff

theorem run_modifySemaphore_eq_ok_iff {s : SemaphoreId} {f : Semaphore → Semaphore}
    {r : Unit × Kernel} :
    (modifySemaphore s f).run k = .ok r ↔
      (∃ semaphore, k.semaphores.get? s = some semaphore) ∧
        r = ((), k.mapSemaphore s f) :=
  run_find_then_modify_eq_ok_iff run_findSemaphore_eq_ok_iff

theorem run_modifyLock_eq_ok_iff {l : LockId} {f : Lock → Lock} {r : Unit × Kernel} :
    (modifyLock l f).run k = .ok r ↔
      (∃ lock, k.locks.get? l = some lock) ∧
        r = ((), k.mapLock l f) :=
  run_find_then_modify_eq_ok_iff run_findLock_eq_ok_iff

theorem run_modifyCondition_eq_ok_iff {c : ConditionId} {f : Condition → Condition}
    {r : Unit × Kernel} :
    (modifyCondition c f).run k = .ok r ↔
      (∃ condition, k.conditions.get? c = some condition) ∧
        r = ((), k.mapCondition c f) :=
  run_find_then_modify_eq_ok_iff run_findCondition_eq_ok_iff

/-- A step that only looks something up hands on what it found. -/
theorem run_bind_eq_ok_iff_of_finds {find : KernelM α} {found : α → Prop} {rest : α → KernelM β}
    {r : β × Kernel}
    (finds : ∀ {r : α × Kernel}, find.run k = .ok r ↔ found r.1 ∧ r.2 = k) :
    (find >>= rest).run k = .ok r ↔ ∃ a, found a ∧ (rest a).run k = .ok r := by
  rw [run_bind_eq_ok_iff]
  constructor
  · rintro ⟨a, _, ran, h⟩
    obtain ⟨holds, rfl⟩ := finds.mp ran
    exact ⟨a, holds, h⟩
  · rintro ⟨a, holds, h⟩
    exact ⟨a, k, finds.mpr ⟨holds, rfl⟩, h⟩

theorem run_findThread_bind_eq_ok_iff {t : ThreadId} {rest : Thread → KernelM β}
    {r : β × Kernel} :
    (findThread t >>= rest).run k = .ok r ↔
      ∃ thread, k.threads.get? t = some thread ∧ (rest thread).run k = .ok r :=
  run_bind_eq_ok_iff_of_finds run_findThread_eq_ok_iff

theorem run_findSemaphore_bind_eq_ok_iff {s : SemaphoreId} {rest : Semaphore → KernelM β}
    {r : β × Kernel} :
    (findSemaphore s >>= rest).run k = .ok r ↔
      ∃ semaphore, k.semaphores.get? s = some semaphore ∧ (rest semaphore).run k = .ok r :=
  run_bind_eq_ok_iff_of_finds run_findSemaphore_eq_ok_iff

theorem run_findLock_bind_eq_ok_iff {l : LockId} {rest : Lock → KernelM β} {r : β × Kernel} :
    (findLock l >>= rest).run k = .ok r ↔
      ∃ lock, k.locks.get? l = some lock ∧ (rest lock).run k = .ok r :=
  run_bind_eq_ok_iff_of_finds run_findLock_eq_ok_iff

theorem run_findCondition_bind_eq_ok_iff {c : ConditionId} {rest : Condition → KernelM β}
    {r : β × Kernel} :
    (findCondition c >>= rest).run k = .ok r ↔
      ∃ condition, k.conditions.get? c = some condition ∧ (rest condition).run k = .ok r :=
  run_bind_eq_ok_iff_of_finds run_findCondition_eq_ok_iff

/-- A step that changes the kernel, if it may, hands on the changed kernel. -/
theorem run_bind_eq_ok_iff_of_edits {edit : KernelM Unit} {allowed : Prop} {after : Kernel}
    {rest : Unit → KernelM β} {r : β × Kernel}
    (edits : ∀ {r : Unit × Kernel}, edit.run k = .ok r ↔ allowed ∧ r = ((), after)) :
    (edit >>= rest).run k = .ok r ↔ allowed ∧ (rest ()).run after = .ok r := by
  rw [run_bind_eq_ok_iff]
  constructor
  · rintro ⟨_, _, ran, h⟩
    obtain ⟨holds, same⟩ := edits.mp ran
    cases same
    exact ⟨holds, h⟩
  · rintro ⟨holds, h⟩
    exact ⟨(), after, edits.mpr ⟨holds, rfl⟩, h⟩

theorem run_modifyThread_bind_eq_ok_iff {t : ThreadId} {f : Thread → Thread}
    {rest : Unit → KernelM β} {r : β × Kernel} :
    (modifyThread t f >>= rest).run k = .ok r ↔
      (∃ thread, k.threads.get? t = some thread) ∧
        (rest ()).run (k.mapThread t f) = .ok r :=
  run_bind_eq_ok_iff_of_edits run_modifyThread_eq_ok_iff

theorem run_modifySemaphore_bind_eq_ok_iff {s : SemaphoreId} {f : Semaphore → Semaphore}
    {rest : Unit → KernelM β} {r : β × Kernel} :
    (modifySemaphore s f >>= rest).run k = .ok r ↔
      (∃ semaphore, k.semaphores.get? s = some semaphore) ∧
        (rest ()).run (k.mapSemaphore s f) = .ok r :=
  run_bind_eq_ok_iff_of_edits run_modifySemaphore_eq_ok_iff

theorem run_modifyLock_bind_eq_ok_iff {l : LockId} {f : Lock → Lock}
    {rest : Unit → KernelM β} {r : β × Kernel} :
    (modifyLock l f >>= rest).run k = .ok r ↔
      (∃ lock, k.locks.get? l = some lock) ∧
        (rest ()).run (k.mapLock l f) = .ok r :=
  run_bind_eq_ok_iff_of_edits run_modifyLock_eq_ok_iff

theorem run_modifyCondition_bind_eq_ok_iff {c : ConditionId} {f : Condition → Condition}
    {rest : Unit → KernelM β} {r : β × Kernel} :
    (modifyCondition c f >>= rest).run k = .ok r ↔
      (∃ condition, k.conditions.get? c = some condition) ∧
        (rest ()).run (k.mapCondition c f) = .ok r :=
  run_bind_eq_ok_iff_of_edits run_modifyCondition_eq_ok_iff

/-! ## The journal and the interrupt level -/

theorem run_note (event : Event) :
    (note event).run k = .ok ((), k.withEvents (event :: k.events)) := rfl

theorem run_note_bind {event : Event} {rest : Unit → KernelM β} :
    (note event >>= rest).run k = (rest ()).run (k.withEvents (event :: k.events)) :=
  run_bind_of_ok rfl

/-- All that an observer that is told something does is to remark on it. -/
theorem run_announce (event : String → Event)
    (remark : ∀ label, (event label).isRemark = true) :
    ∃ events, Remarks k.events events ∧
      (announce event).run k = .ok ((), k.withEvents events) := by
  cases label : k.observer.bind Observer.label with
  | none =>
    refine ⟨k.events, .refl _, ?_⟩
    rw [announce, run_get_bind, label]
    rfl
  | some text =>
    refine ⟨event text :: k.events, .cons _ _ (remark text), ?_⟩
    rw [announce, run_get_bind, label]
    rfl

theorem run_setLevel_bind {level : Level} {rest : Level → KernelM β} :
    (setLevel level >>= rest).run k =
      (rest k.processor.level).run (k.atLevel level) :=
  run_bind_of_ok rfl

theorem run_setLevel (level : Level) :
    (setLevel level).run k = .ok (k.processor.level, k.atLevel level) := rfl

@[simp]
theorem level_atLevel (k : Kernel) (level : Level) :
    (k.atLevel level).processor.level = level := rfl

/-- What runs masked ends as it does by itself, and then the level is put back. -/
theorem run_masked {body : KernelM α} : (masked body).run k =
    (body.run (k.atLevel .off)).map fun r => (r.1, r.2.atLevel k.processor.level) := by
  rw [masked, run_setLevel_bind]
  cases ran : body.run (k.atLevel .off) with
  | error fault => exact run_bind_of_error ran
  | ok r => exact run_bind_of_ok ran

theorem run_masked_eq_ok_iff {body : KernelM α} {a : α} {after : Kernel} :
    (masked body).run k = .ok (a, after) ↔
      ∃ last, body.run (k.atLevel .off) = .ok (a, last) ∧
        after = last.atLevel k.processor.level := by
  constructor
  · intro h
    rcases run_bind_eq_ok_iff.mp h with ⟨_, _, ran, h⟩
    cases ran
    rcases run_bind_eq_ok_iff.mp h with ⟨b, last, ran, h⟩
    cases h
    exact ⟨last, ran, rfl⟩
  · rintro ⟨last, ran, rfl⟩
    exact run_bind_eq_ok_iff.mpr ⟨_, _, rfl, run_bind_eq_ok_iff.mpr ⟨a, last, ran, rfl⟩⟩

/-- What runs masked leaves the interrupt level as it found it. -/
theorem level_of_run_masked {body : KernelM α} {a : α} {after : Kernel}
    (h : (masked body).run k = .ok (a, after)) : after.processor.level = k.processor.level := by
  rcases run_masked_eq_ok_iff.mp h with ⟨_, _, rfl⟩
  exact level_atLevel _ _

end ThreadKernel.Kernel
