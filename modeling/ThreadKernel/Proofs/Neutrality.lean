import ThreadKernel.Proofs.Placed

/-!
# What does not depend on the reposition rule

`Kernel.ruled` exchanges the rule of the ready queue.  An operation is `Neutral` at a kernel if
it does the same under every rule: it faults alike, or ends with the same answer and with kernels
that differ in the rule alone.

Only `setEffective` goes by the rule, and there it makes no difference if the thread is not
queued or is raised above the priority that it is queued with.  `InLine` is what the second case
takes, and it says so little that it holds even while the dispatcher picks a thread that it
should not have picked.
-/

namespace ThreadKernel

namespace ReadyQueue

/-- The same queue under `rule`. -/
@[simps]
def ruled (q : ReadyQueue) (rule : Reposition) : ReadyQueue := { q with rule }

variable {q : ReadyQueue} {t : ThreadId} {p : Priority} {rule : Reposition}

theorem reprioritize_ruled (ordered : q.Ordered)
    (raises : ∀ entry ∈ q.entries, entry.1 = t → entry.2 < p) :
    (q.ruled rule).reprioritize t p = (q.reprioritize t p).ruled rule := by
  have same : (q.ruled rule).contains t = q.contains t := rfl
  rw [reprioritize_of_raises ordered raises,
    reprioritize_of_raises (q := q.ruled rule) ordered raises, same]
  split
  · rfl
  · rfl

/-- The rules move a queued thread to different places only if one of its new equals is behind
it, so never if it is raised. -/
theorem requeue_eq_stable_iff {front back : List (ThreadId × Priority)} {old : Priority}
    (ordered : q.Ordered) (once : q.threads.Nodup)
    (entries : q.entries = front ++ (t, old) :: back) :
    (q.ruled .requeue).reprioritize t p =
        ((q.ruled .stable).reprioritize t p).ruled .requeue ↔ ∀ entry ∈ back, entry.2 ≠ p := by
  have absent : ∀ entry ∈ front ++ back, entry.1 ≠ t := by
    rw [threads, entries, (List.perm_middle.map Prod.fst).nodup_iff, List.map_cons] at once
    intro entry member same
    exact (List.nodup_cons.mp once).1 (List.mem_map.mpr ⟨entry, member, same⟩)
  have queued : ∀ rule, (q.ruled rule).contains t = true := fun rule =>
    contains_iff.mpr (by simp [threads, entries])
  have ahead : ∀ entry ∈ front, entry.1 ≠ t := fun entry member =>
    absent entry (List.mem_append_left back member)
  rw [Ordered, entries] at ordered
  rw [← sort_relabel_eq_insert_iff ordered ahead fun again =>
    absent _ (List.mem_append_right front again) rfl, reprioritize, if_pos (queued .requeue),
    reprioritize, if_pos (queued .stable), ← entries, eq_comm]
  exact ⟨fun same => congrArg ReadyQueue.entries same, fun same =>
    congrArg (fun entries => { rule := .requeue, entries : ReadyQueue }) same⟩

theorem enqueue_ruled : (q.ruled rule).enqueue t p = (q.enqueue t p).map (·.ruled rule) := by
  have same : (q.ruled rule).contains t = q.contains t := rfl
  rw [enqueue, enqueue, same]
  split
  · rfl
  · rfl

theorem pop?_ruled :
    (q.ruled rule).pop? = q.pop?.map fun popped => (popped.1, popped.2.ruled rule) := by
  rcases q with ⟨_, _ | ⟨entry, rest⟩⟩
  · rfl
  · rfl

end ReadyQueue

namespace Kernel

variable {α β : Type} {k k' : Kernel} {t : ThreadId} {l : LockId} {c : ConditionId}
  {thread : Thread} {rule : Reposition}

/-- The same kernel, with its ready queue under `rule`. -/
def ruled (k : Kernel) (rule : Reposition) : Kernel := k.withReady (k.ready.ruled rule)

theorem ready_ruled : (k.ruled rule).ready = k.ready.ruled rule := rfl

/-- What `x` does at `k` it does under every rule. -/
def Neutral (x : KernelM α) (k : Kernel) : Prop :=
  ∀ rule, x.run (k.ruled rule) = (x.run k).map fun r => (r.1, r.2.ruled rule)

section Sequences

variable {x : KernelM α} {f : α → KernelM β}

theorem neutral_pure (a : α) : Neutral (pure a) k := fun _ => rfl

theorem neutral_lift (x : Except Fault α) : Neutral (liftM x) k := by
  intro rule
  cases x with
  | error fault => rfl
  | ok a => rfl

theorem neutral_throw (fault : Fault) : Neutral (throw fault : KernelM α) k := fun _ => rfl

theorem neutral_require {p : Prop} [Decidable p] (fault : Fault) : Neutral (require p fault) k := by
  unfold require
  split
  · exact neutral_pure ()
  · exact neutral_throw fault

/-- What is captured of the kernel need not be the same, as long as it leads to the same. -/
theorem Neutral.run_bind {g : α → KernelM β} (first : Neutral x k)
    (rest : ∀ a k', x.run k = .ok (a, k') →
      (g a).run (k'.ruled rule) = ((f a).run k').map fun r => (r.1, r.2.ruled rule)) :
    (x >>= g).run (k.ruled rule) = ((x >>= f).run k).map fun r => (r.1, r.2.ruled rule) := by
  rw [StateT.run_bind, StateT.run_bind, first rule]
  cases ran : x.run k with
  | error fault => rfl
  | ok step => exact rest step.1 step.2 ran

theorem Neutral.bind (first : Neutral x k)
    (rest : ∀ a k', x.run k = .ok (a, k') → Neutral (f a) k') : Neutral (x >>= f) k :=
  fun rule => first.run_bind fun a k' ran => rest a k' ran rule

theorem Neutral.map (neutral : Neutral x k) (f : α → β) : Neutral (do return f (← x)) k :=
  neutral.bind fun _ _ _ => neutral_pure _

theorem Neutral.finds {found : α → Prop} (neutral : Neutral x k)
    (rest : ∀ a, found a → Neutral (f a) k)
    (finds : ∀ {r : α × Kernel}, x.run k = .ok r ↔ found r.1 ∧ r.2 = k) : Neutral (x >>= f) k := by
  apply neutral.bind
  intro a k' ran
  rcases finds.mp ran with ⟨holds, rfl⟩
  exact rest a holds

theorem Neutral.edits {edit : KernelM Unit} {f : Unit → KernelM β} {allowed : Prop} {after : Kernel}
    (neutral : Neutral edit k)
    (edits : ∀ {r : Unit × Kernel}, edit.run k = .ok r ↔ allowed ∧ r = ((), after))
    (rest : allowed → Neutral (f ()) after) : Neutral (edit >>= f) k := by
  apply neutral.bind
  intro _ k' ran
  rcases edits.mp ran with ⟨holds, same⟩
  cases same
  exact rest holds

theorem Neutral.require {p : Prop} [Decidable p] {fault : Fault} {f : Unit → KernelM β}
    (rest : p → Neutral (f ()) k) : Neutral (Kernel.require p fault >>= f) k :=
  .edits (neutral_require fault) run_require_eq_ok_iff rest

theorem Neutral.lift {x : Except Fault α} {f : α → KernelM β}
    (rest : ∀ a, x = .ok a → Neutral (f a) k) : Neutral (liftM x >>= f) k :=
  .finds (neutral_lift x) rest run_lift_eq_ok_iff

/-- What is read off the kernel is not the rule. -/
theorem Neutral.get {f : Kernel → KernelM β} (unseen : ∀ rule, f (k.ruled rule) = f k)
    (rest : Neutral (f k) k) : Neutral (MonadState.get >>= f) k := by
  intro rule
  rw [run_get_bind, run_get_bind, unseen rule]
  exact rest rule

theorem neutral_modify {g : Kernel → Kernel}
    (unseen : ∀ rule, g (k.ruled rule) = (g k).ruled rule) : Neutral (modify g) k := by
  intro rule
  exact congrArg (fun k' : Kernel => Except.ok (PUnit.unit, k')) (unseen rule)

theorem Neutral.masked (body : Neutral x (k.atLevel .off)) : Neutral (Kernel.masked x) k := by
  apply Neutral.bind (fun rule => rfl)
  intro level masked ran
  cases ran
  apply body.bind
  intro a k' _
  apply Neutral.bind (fun rule => rfl)
  exact fun _ _ _ => neutral_pure a

theorem neutral_forM {list : List α} {f : α → KernelM PUnit} (each : ∀ a k, Neutral (f a) k) :
    Neutral (list.forM f) k := by
  induction list generalizing k with
  | nil => exact neutral_pure ()
  | cons a rest ih =>
    unfold List.forM
    exact (each a k).bind fun _ _ _ => ih

end Sequences

/-! ## Records and the journal -/

theorem neutral_findThread (t : ThreadId) (k : Kernel) : Neutral (findThread t) k :=
  .get (fun _ => rfl) (neutral_lift _)

theorem neutral_findSemaphore (s : SemaphoreId) (k : Kernel) : Neutral (findSemaphore s) k :=
  .get (fun _ => rfl) (neutral_lift _)

theorem neutral_findLock (l : LockId) (k : Kernel) : Neutral (findLock l) k :=
  .get (fun _ => rfl) (neutral_lift _)

theorem neutral_findCondition (c : ConditionId) (k : Kernel) : Neutral (findCondition c) k :=
  .get (fun _ => rfl) (neutral_lift _)

theorem Neutral.findThread {f : Thread → KernelM β}
    (rest : ∀ thread, k.threads.get? t = some thread → Neutral (f thread) k) :
    Neutral (Kernel.findThread t >>= f) k :=
  .finds (neutral_findThread t k) rest run_findThread_eq_ok_iff

theorem neutral_modifyThread (t : ThreadId) (f : Thread → Thread) (k : Kernel) :
    Neutral (modifyThread t f) k :=
  (neutral_findThread t k).bind fun _ _ _ => neutral_modify fun _ => rfl

theorem Neutral.modifyThread {g : Thread → Thread} {f : Unit → KernelM β}
    (rest : ∀ thread, k.threads.get? t = some thread → Neutral (f ()) (k.mapThread t g)) :
    Neutral (Kernel.modifyThread t g >>= f) k :=
  .edits (neutral_modifyThread t g k) run_modifyThread_eq_ok_iff fun ⟨thread, found⟩ =>
    rest thread found

theorem neutral_modifySemaphore (s : SemaphoreId) (f : Semaphore → Semaphore) (k : Kernel) :
    Neutral (modifySemaphore s f) k :=
  (neutral_findSemaphore s k).bind fun _ _ _ => neutral_modify fun _ => rfl

theorem neutral_modifyLock (l : LockId) (f : Lock → Lock) (k : Kernel) :
    Neutral (modifyLock l f) k :=
  (neutral_findLock l k).bind fun _ _ _ => neutral_modify fun _ => rfl

theorem Neutral.findLock {f : Lock → KernelM β}
    (rest : ∀ lock, k.locks.get? l = some lock → Neutral (f lock) k) :
    Neutral (Kernel.findLock l >>= f) k :=
  .finds (neutral_findLock l k) rest run_findLock_eq_ok_iff

theorem Neutral.modifyLock {g : Lock → Lock} {f : Unit → KernelM β}
    (rest : Neutral (f ()) (k.mapLock l g)) : Neutral (Kernel.modifyLock l g >>= f) k :=
  .edits (neutral_modifyLock l g k) run_modifyLock_eq_ok_iff fun _ => rest

theorem neutral_modifyCondition (c : ConditionId) (f : Condition → Condition) (k : Kernel) :
    Neutral (modifyCondition c f) k :=
  (neutral_findCondition c k).bind fun _ _ _ => neutral_modify fun _ => rfl

theorem Neutral.findCondition {f : Condition → KernelM β}
    (rest : ∀ condition, k.conditions.get? c = some condition → Neutral (f condition) k) :
    Neutral (Kernel.findCondition c >>= f) k :=
  .finds (neutral_findCondition c k) rest run_findCondition_eq_ok_iff

theorem neutral_caller (k : Kernel) : Neutral caller k := fun _ => rfl

theorem neutral_ranks (k : Kernel) : Neutral ranks k := fun _ => rfl

theorem neutral_note (event : Event) (k : Kernel) : Neutral (note event) k := fun _ => rfl

theorem Neutral.caller {f : ThreadId → KernelM β} (rest : Neutral (f k.current) k) :
    Neutral (Kernel.caller >>= f) k :=
  (neutral_caller k).bind fun _ _ ran => by
    cases ran
    exact rest

theorem Neutral.note {event : Event} {f : Unit → KernelM β}
    (rest : Neutral (f ()) (k.withEvents (event :: k.events))) :
    Neutral (Kernel.note event >>= f) k :=
  (neutral_note event k).bind fun _ _ ran => by
    cases ran
    exact rest

theorem neutral_announce (event : String → Event) (k : Kernel) : Neutral (announce event) k := by
  apply Neutral.get (fun _ => rfl)
  split
  · exact neutral_note _ k
  · exact neutral_pure ()

/-! ## Becoming ready, and donors -/

theorem neutral_makeReady (t : ThreadId) (k : Kernel) : Neutral (makeReady t) k := by
  unfold makeReady
  apply (neutral_modifyThread t _ k).bind
  intro _ k' _ rule
  rw [run_get_bind, run_get_bind, ready_ruled, ReadyQueue.enqueue_ruled]
  have same : (k'.ruled rule).priorityOf t = k'.priorityOf t := rfl
  rw [same]
  cases k'.ready.enqueue t (k'.priorityOf t) with
  | error fault => rfl
  | ok ready => rfl

theorem neutral_unblock (t : ThreadId) (k : Kernel) : Neutral (unblock t) k := by
  apply Neutral.masked
  apply (neutral_findThread t _).bind
  intro thread k' _
  apply (neutral_require _).bind
  intro _ k' _
  apply (neutral_require _).bind
  exact fun _ k' _ => neutral_makeReady t k'

theorem neutral_addDonor (holder donor : ThreadId) (k : Kernel) :
    Neutral (addDonor holder donor) k := by
  unfold addDonor
  apply (neutral_findThread holder k).bind
  intro thread k' _
  split
  · exact neutral_pure ()
  · apply (neutral_ranks k').bind
    intro rank k' _
    apply (neutral_lift _).bind
    exact fun donors k' _ => neutral_modifyThread holder _ k'

end Kernel

/-! ## Semaphores -/

namespace SemaphoreId

open Kernel

theorem neutral_take (s : SemaphoreId) (k : Kernel) : Neutral s.take k := by
  unfold take
  apply (neutral_findSemaphore s k).bind
  intro semaphore k' _
  split
  · apply (neutral_modifySemaphore s _ k').bind
    intro _ k' _
    apply (neutral_caller k').bind
    intro thread k' _
    apply (neutral_note _ k').bind
    exact fun _ _ _ => neutral_pure true
  · exact neutral_pure false

theorem neutral_attempt (s : SemaphoreId) (retry : Pending) (k : Kernel) :
    Neutral (s.attempt retry) k := by
  unfold attempt
  apply (neutral_take s k).bind
  intro taken k' _
  split
  · exact neutral_pure true
  · apply (neutral_caller k').bind
    intro thread k' _
    apply (neutral_ranks k').bind
    intro rank k' _
    apply (neutral_findSemaphore s k').bind
    intro semaphore k' _
    apply (neutral_lift _).bind
    intro queued k' _
    apply (neutral_lift _).bind
    intro waiters k' _
    apply (neutral_modifySemaphore s _ k').bind
    intro _ k' _
    apply (neutral_modifyThread thread _ k').bind
    intro _ k' _
    apply (neutral_note _ k').bind
    exact fun _ _ _ => neutral_pure false

theorem neutral_destroy (s : SemaphoreId) (k : Kernel) : Neutral s.destroy k := by
  unfold destroy
  apply (neutral_findSemaphore s k).bind
  intro semaphore k' _
  apply (neutral_require _).bind
  exact fun _ _ _ => neutral_modify fun _ => rfl

theorem neutral_wake (s : SemaphoreId) (k : Kernel) : Neutral s.wake k := by
  unfold wake
  apply (neutral_findSemaphore s k).bind
  intro semaphore k' _
  apply (neutral_ranks k').bind
  intro rank k' _
  apply (neutral_lift _).bind
  intro queued k' _
  apply (neutral_require _).bind
  intro _ k' _
  apply (neutral_modifySemaphore s _ k').bind
  intro _ k' _
  apply (neutral_note _ k').bind
  intro _ k' _
  split
  · exact neutral_pure ()
  · apply (neutral_note _ k').bind
    intro _ k' _
    apply (neutral_modifyThread _ _ k').bind
    exact fun _ k' _ => neutral_unblock _ k'

end SemaphoreId

/-! ## The queue in order -/

namespace Kernel

variable {k k' : Kernel} {t : ThreadId} {thread : Thread} {p : Priority} {u : Unit}

/-- The ready queue is in dispatch order, has no thread twice, and queues each at its effective
priority. -/
structure InLine (k : Kernel) : Prop where
  ordered : k.ready.Ordered
  once : k.ready.threads.Nodup
  record : ∀ entry ∈ k.ready.entries, ∃ thread, k.threads.get? entry.1 = some thread ∧
    thread.place = .ready ∧ thread.priority = entry.2

theorem Placed.inLine (placed : k.Placed) : k.InLine where
  ordered := placed.ordered
  once := placed.nodup .ready
  record entry queued := by
    have listed : entry.1 ∈ k.queueAt .ready := ReadyQueue.mem_threads_of_mem_entries queued
    rcases placed.exists_of_mem listed with ⟨_, thread, found, ready⟩
    have priced := placed.priced entry queued
    rw [priorityOf_of_get? found] at priced
    exact ⟨thread, found, ready, priced⟩

/-- The queue is in order, and the current thread is not in it. -/
structure Aloof (k : Kernel) : Prop extends InLine k where
  unqueued : k.current ∉ k.ready.threads

namespace InLine

variable (inLine : k.InLine)

include inLine

theorem queued (found : k.threads.get? t = some thread) (listed : t ∈ k.ready.threads) :
    thread.place = .ready := by
  rcases List.mem_map.mp listed with ⟨entry, member, rfl⟩
  rcases inLine.record entry member with ⟨thread', found', ready, _⟩
  cases found.symm.trans found'
  exact ready

/-- Only the places and priorities of queued threads count. -/
theorem kept (ready : k'.ready = k.ready) (same : ∀ t ∈ k.ready.threads, ∀ thread,
    k.threads.get? t = some thread → ∃ thread', k'.threads.get? t = some thread' ∧
      thread'.place = thread.place ∧ thread'.priority = thread.priority) : k'.InLine := by
  constructor
  case ordered =>
    rw [ready]
    exact inLine.ordered
  case once =>
    rw [ready]
    exact inLine.once
  case record =>
    rw [ready]
    intro entry member
    rcases inLine.record entry member with ⟨thread, found, queued, priced⟩
    rcases same _ (ReadyQueue.mem_threads_of_mem_entries member) thread found with
      ⟨thread', found', place, priority⟩
    exact ⟨thread', found', place.trans queued, priority.trans priced⟩

theorem mapThread {f : Thread → Thread}
    (blind : ∀ x, (f x).place = x.place ∧ (f x).priority = x.priority) :
    (k.mapThread t f).InLine := by
  have ready : (k.mapThread t f).ready = k.ready := rfl
  apply inLine.kept ready
  intro t' _ thread found
  rw [mapThread_threads, Arena.get?_modify]
  split
  · rw [found]
    exact ⟨f thread, rfl, blind thread⟩
  · exact ⟨thread, found, rfl, rfl⟩

theorem mapUnqueued {f : Thread → Thread} (unqueued : t ∉ k.ready.threads) :
    (k.mapThread t f).InLine := by
  have ready : (k.mapThread t f).ready = k.ready := rfl
  apply inLine.kept ready
  intro t' listed thread found
  have other : t ≠ t' := by
    rintro rfl
    exact unqueued listed
  exact ⟨thread, by rw [mapThread_threads, Arena.get?_modify_of_ne _ other, found], rfl, rfl⟩

/-- Whoever is given a priority is queued at it. -/
theorem setEffective (h : (setEffective t p).run k = .ok (u, k')) : k'.InLine := by
  rcases of_run_setEffective h with ⟨thread, found, rfl⟩
  split
  · next ready =>
    constructor
    case ordered => exact inLine.ordered.reprioritize t p
    case once => exact (k.ready.threads_reprioritize_perm t p).nodup_iff.mpr inLine.once
    case record =>
      intro entry member
      rcases ReadyQueue.mem_entries_reprioritize inLine.once member with rfl | ⟨old, other⟩
      · exact ⟨_, Arena.get?_modify_self _ found, ready, rfl⟩
      · rcases inLine.record entry old with ⟨thread', found', kept⟩
        refine ⟨thread', ?_, kept⟩
        rw [withReady_threads, mapThread_threads, Arena.get?_modify_of_ne _ (Ne.symm other), found']
  · next unready =>
    exact inLine.mapUnqueued fun listed => unready (inLine.queued found listed)

/-- Whoever is picked is not queued any more, even the idle thread where it should not be. -/
theorem picked {next : ThreadId} {place : Place} {ready : ReadyQueue}
    (picks : k.Picks next thread place ready) :
    (k.withReady ready).InLine ∧ next ∉ (k.withReady ready).ready.threads := by
  cases picks with
  | front pop =>
    have threads := ReadyQueue.threads_of_pop? pop
    rcases ReadyQueue.pop?_eq_some_iff.mp pop with ⟨p, entries, _⟩
    have ordered := inLine.ordered
    have once := inLine.once
    rw [ReadyQueue.Ordered, entries] at ordered
    rw [threads] at once
    rcases List.nodup_cons.mp once with ⟨gone, once⟩
    refine ⟨⟨(List.pairwise_cons.mp ordered).2, once, fun entry left => ?_⟩, gone⟩
    apply inLine.record
    rw [entries]
    exact List.mem_cons_of_mem _ left
  | fallback empty idles =>
    refine ⟨inLine, ?_⟩
    rw [withReady_ready, ReadyQueue.threads_of_pop?_eq_none empty]
    exact List.not_mem_nil

end InLine

namespace Aloof

variable (aloof : k.Aloof)

include aloof

theorem mapThread {f : Thread → Thread}
    (blind : ∀ x, (f x).place = x.place ∧ (f x).priority = x.priority) :
    (k.mapThread t f).Aloof :=
  ⟨aloof.toInLine.mapThread blind, aloof.unqueued⟩

theorem mapCurrent {f : Thread → Thread} : (k.mapThread k.current f).Aloof :=
  ⟨aloof.mapUnqueued aloof.unqueued, aloof.unqueued⟩

theorem setEffective (h : (setEffective t p).run k = .ok (u, k')) : k'.Aloof := by
  refine ⟨aloof.toInLine.setEffective h, ?_⟩
  rcases of_run_setEffective h with ⟨thread, _, rfl⟩
  split
  · intro listed
    exact aloof.unqueued ((k.ready.threads_reprioritize_perm t p).mem_iff.mp listed)
  · exact aloof.unqueued

theorem beside (threads : k'.threads = k.threads) (ready : k'.ready = k.ready)
    (current : k'.current = k.current) : k'.Aloof := by
  constructor
  case toInLine =>
    apply aloof.kept ready
    intro t _ thread found
    exact ⟨thread, by rw [threads, found], rfl, rfl⟩
  case unqueued =>
    rw [ready, current]
    exact aloof.unqueued

end Aloof

/-- Neutral, and afterwards the current thread is in no queue out of order. -/
structure Even {α : Type} (x : KernelM α) (k : Kernel) : Prop where
  neutral : Neutral x k
  keeps : ∀ a k', x.run k = .ok (a, k') → k'.Aloof

section Even

variable {α β : Type} {x : KernelM α} {f : α → KernelM β}

theorem Even.bind (first : Even x k)
    (rest : ∀ a k', x.run k = .ok (a, k') → k'.Aloof → Even (f a) k') : Even (x >>= f) k where
  neutral := first.neutral.bind fun a k' ran => (rest a k' ran (first.keeps a k' ran)).neutral
  keeps b last h := by
    rcases run_bind_eq_ok_iff.mp h with ⟨a, k', ran, h⟩
    exact (rest a k' ran (first.keeps a k' ran)).keeps b last h

theorem Neutral.even (first : Neutral x k) (rest : ∀ a k', x.run k = .ok (a, k') → Even (f a) k') :
    Even (x >>= f) k where
  neutral := first.bind fun a k' ran => (rest a k' ran).neutral
  keeps b last h := by
    rcases run_bind_eq_ok_iff.mp h with ⟨a, k', ran, h⟩
    exact (rest a k' ran).keeps b last h

/-- What looks something up, and goes on with what it found. -/
theorem Even.finds {found : α → Prop} (neutral : Neutral x k)
    (rest : ∀ a, found a → Even (f a) k)
    (finds : ∀ {r : α × Kernel}, x.run k = .ok r ↔ found r.1 ∧ r.2 = k) : Even (x >>= f) k := by
  apply neutral.even
  intro a k' ran
  rcases finds.mp ran with ⟨holds, rfl⟩
  exact rest a holds

/-- What changes the kernel, and goes on with the changed one. -/
theorem Even.edits {edit : KernelM Unit} {f : Unit → KernelM β} {allowed : Prop} {after : Kernel}
    (neutral : Neutral edit k)
    (edits : ∀ {r : Unit × Kernel}, edit.run k = .ok r ↔ allowed ∧ r = ((), after))
    (rest : allowed → Even (f ()) after) : Even (edit >>= f) k := by
  apply neutral.even
  intro _ k' ran
  rcases edits.mp ran with ⟨holds, same⟩
  cases same
  exact rest holds

theorem Even.findThread {f : Thread → KernelM β}
    (rest : ∀ thread, k.threads.get? t = some thread → Even (f thread) k) :
    Even (Kernel.findThread t >>= f) k :=
  .finds (neutral_findThread t k) rest run_findThread_eq_ok_iff

theorem Even.findSemaphore {s : SemaphoreId} {f : Semaphore → KernelM β}
    (rest : ∀ semaphore, k.semaphores.get? s = some semaphore → Even (f semaphore) k) :
    Even (Kernel.findSemaphore s >>= f) k :=
  .finds (neutral_findSemaphore s k) rest run_findSemaphore_eq_ok_iff

theorem Even.findLock {l : LockId} {f : Lock → KernelM β}
    (rest : ∀ lock, k.locks.get? l = some lock → Even (f lock) k) :
    Even (Kernel.findLock l >>= f) k :=
  .finds (neutral_findLock l k) rest run_findLock_eq_ok_iff

theorem Even.modifyThread {g : Thread → Thread} {f : Unit → KernelM β}
    (rest : ∀ thread, k.threads.get? t = some thread → Even (f ()) (k.mapThread t g)) :
    Even (Kernel.modifyThread t g >>= f) k :=
  .edits (neutral_modifyThread t g k) run_modifyThread_eq_ok_iff fun ⟨thread, found⟩ =>
    rest thread found

theorem Even.modifyLock {l : LockId} {g : Lock → Lock} {f : Unit → KernelM β}
    (rest : Even (f ()) (k.mapLock l g)) : Even (Kernel.modifyLock l g >>= f) k :=
  .edits (neutral_modifyLock l g k) run_modifyLock_eq_ok_iff fun _ => rest

theorem Even.caller {f : ThreadId → KernelM β} (rest : Even (f k.current) k) :
    Even (Kernel.caller >>= f) k :=
  (neutral_caller k).even fun _ _ ran => by
    cases ran
    exact rest

theorem Even.note {event : Event} {f : Unit → KernelM β}
    (rest : Even (f ()) (k.withEvents (event :: k.events))) : Even (Kernel.note event >>= f) k :=
  (neutral_note event k).even fun _ _ ran => by
    cases ran
    exact rest

theorem Even.get {f : Kernel → KernelM β} (unseen : ∀ rule, f (k.ruled rule) = f k)
    (rest : Even (f k) k) : Even (MonadState.get >>= f) k where
  neutral := .get unseen rest.neutral
  keeps b last h := by
    rw [run_get_bind] at h
    exact rest.keeps b last h

/-- What leaves threads, queue and current thread alone. -/
theorem Neutral.beside (neutral : Neutral x k) (aloof : k.Aloof) (same : ∀ a k',
    x.run k = .ok (a, k') → k'.threads = k.threads ∧ k'.ready = k.ready ∧ k'.current = k.current) :
    Even x k := by
  refine ⟨neutral, fun a k' ran => ?_⟩
  rcases same a k' ran with ⟨threads, ready, current⟩
  exact aloof.beside threads ready current

theorem even_pure (aloof : k.Aloof) (a : α) : Even (pure a) k :=
  (neutral_pure a).beside aloof fun _ _ ran => by
    cases ran
    exact ⟨rfl, rfl, rfl⟩

end Even

/-! ## Priorities -/

theorem neutral_setEffective (inLine : k.InLine) (raises : ∀ thread,
    k.threads.get? t = some thread → t ∈ k.ready.threads → thread.priority < p) :
    Neutral (setEffective t p) k := by
  have raised : ∀ entry ∈ k.ready.entries, entry.1 = t → entry.2 < p := by
    rintro entry queued rfl
    rcases inLine.record entry queued with ⟨thread, found, _, priced⟩
    rw [← priced]
    exact raises thread found (ReadyQueue.mem_threads_of_mem_entries queued)
  unfold setEffective
  apply Neutral.findThread
  intro thread _
  apply Neutral.modifyThread
  intro _ _
  split
  · apply neutral_modify
    intro rule
    exact congrArg (k.mapThread t fun thread => { thread with priority := p }).withReady
      (ReadyQueue.reprioritize_ruled inLine.ordered raised)
  · exact neutral_pure ()

/-- A donation only raises. -/
theorem neutral_donateFrom (start : ThreadId) (depth : Nat) (visited : List ThreadId)
    (donor : ThreadId) (inLine : k.InLine) : Neutral (donateFrom start depth visited donor) k := by
  induction depth generalizing k visited donor with
  | zero =>
    unfold donateFrom
    apply Neutral.get (fun _ => rfl)
    split
    · exact neutral_note _ k
    · exact neutral_pure ()
  | succ depth ih =>
    unfold donateFrom
    apply Neutral.get (fun _ => rfl)
    split
    · next holder _ =>
      split
      · next lower =>
        apply Neutral.note
        have inLine :
            (k.withEvents (.donates donor (k.priorityOf donor) holder :: k.events)).InLine :=
          inLine.kept rfl fun _ _ thread found => ⟨thread, found, rfl, rfl⟩
        apply Neutral.bind
        · apply neutral_setEffective inLine
          intro thread found _
          rwa [← priorityOf_of_get? found]
        · exact fun _ raised ran => ih _ _ (inLine.setEffective ran)
      · exact ih _ _ inLine
    · exact neutral_pure ()

theorem even_donate (aloof : k.Aloof) : Even donate k where
  neutral := .get (fun _ => rfl) (neutral_donateFrom _ _ _ _ aloof.toInLine)
  keeps _ k' h := by
    apply donate_induction (motive := Aloof) _ _ aloof h
    · exact fun k event _ aloof => aloof.beside rfl rfl rfl
    · exact fun k k' t p aloof ran => aloof.setEffective ran

theorem even_setEffective (aloof : k.Aloof) (unqueued : t ∉ k.ready.threads) :
    Even (setEffective t p) k where
  neutral := neutral_setEffective aloof.toInLine fun _ _ listed => absurd listed unqueued
  keeps _ _ h := aloof.setEffective h

/-- The current thread is not queued, so it makes no difference where its priority goes. -/
theorem even_refresh (aloof : k.Aloof) : Even (refresh k.current) k := by
  unfold refresh
  apply Even.get (fun _ => rfl)
  apply Even.findThread
  intro thread _
  apply Even.modifyThread
  intro _ _
  have dropped : (k.mapThread k.current fun old =>
      { old with donors := k.liveDonors thread }).Aloof := aloof.mapCurrent
  split
  · apply Even.note
    exact even_setEffective (dropped.beside rfl rfl rfl) dropped.unqueued
  · exact even_setEffective dropped dropped.unqueued

theorem even_addDonor (aloof : k.Aloof) (holder donor : ThreadId) :
    Even (addDonor holder donor) k where
  neutral := neutral_addDonor holder donor k
  keeps _ _ h := by
    rcases of_run_addDonor h with ⟨_, _, _, _, rfl⟩
    exact aloof.mapThread fun _ => ⟨rfl, rfl⟩

theorem even_forM_addDonor (aloof : k.Aloof) (holder : ThreadId) (waiters : List ThreadId) :
    Even (waiters.forM (addDonor holder)) k := by
  induction waiters generalizing k with
  | nil => exact even_pure aloof ()
  | cons waiter rest ih =>
    unfold List.forM
    exact (even_addDonor aloof holder waiter).bind fun _ _ _ aloof => ih aloof

end Kernel

/-! ## Attempts -/

open Kernel

variable {k k' : Kernel}

theorem SemaphoreId.even_attempt (aloof : k.Aloof) (s : SemaphoreId) (retry : Pending) :
    Even (s.attempt retry) k where
  neutral := neutral_attempt s retry k
  keeps _ _ h := by
    rcases of_run_attempt h with ⟨_, _, ⟨_, _, rfl⟩ | ⟨_, _, _, _, rfl⟩⟩
    · exact aloof.beside rfl rfl rfl
    · exact (aloof.mapCurrent).beside rfl rfl rfl

namespace LockId

theorem even_hold (aloof : k.Aloof) (l : LockId) : Even l.hold k := by
  have freed : (k.mapThread k.current fun old => { old with waitingOn := none }).Aloof :=
    aloof.mapCurrent
  unfold hold
  apply Even.caller
  apply Even.modifyThread
  intro thread found
  apply Even.modifyLock
  apply Even.note
  apply Even.findLock
  intro lock _
  apply Even.findSemaphore
  intro semaphore _
  dsimp only
  split
  · apply even_pure
    exact freed.beside rfl rfl rfl
  · apply Even.bind
    · apply even_forM_addDonor
      exact freed.beside rfl rfl rfl
    · intro _ known ran aloof
      rcases of_run_forM_addDonor (Arena.get?_modify_self _ found) ran with ⟨_, _, _, rfl⟩
      exact even_refresh aloof

theorem even_attempt (aloof : k.Aloof) (l : LockId) : Even l.attempt k := by
  have settled : ∀ {lock : Lock} {asking : Kernel}, asking.Aloof → Even (do
      if ← lock.semaphore.attempt (.lock l) then
        l.hold
        pure true
      else
        pure false : KernelM Bool) asking := by
    intro lock asking aloof
    apply (SemaphoreId.even_attempt aloof lock.semaphore _).bind
    intro success tried _ aloof
    split
    · exact (even_hold aloof l).bind fun _ _ _ aloof => even_pure aloof true
    · exact even_pure aloof false
  unfold attempt
  apply Even.caller
  apply Even.findLock
  intro lock _
  split
  · next holder _ =>
    have waits : (k.mapThread k.current fun old => { old with waitingOn := some l }).Aloof :=
      aloof.mapCurrent
    apply Even.modifyThread
    intro _ _
    apply (even_addDonor waits holder k.current).bind
    intro _ joined _ aloof
    exact (even_donate aloof).bind fun _ _ _ aloof => settled aloof
  · exact settled aloof

theorem even_reacquire (aloof : k.Aloof) (l : LockId) (signal : SemaphoreId) :
    Even (l.reacquire signal) k := by
  unfold reacquire
  apply (SemaphoreId.even_attempt aloof signal _).bind
  intro success tried _ aloof
  split
  · apply (signal.neutral_destroy tried).even
    intro _ destroyed destroys
    rcases SemaphoreId.of_run_destroy destroys with ⟨_, _, _, rfl⟩
    apply even_attempt
    exact aloof.beside rfl rfl rfl
  · exact even_pure aloof false

end LockId

/-! ## The dispatcher -/

namespace Kernel

theorem even_resume (aloof : k.Aloof) : Even resume k := by
  have taken : (k.mapThread k.current fun old => { old with pending := none }).Aloof :=
    aloof.mapCurrent
  unfold resume
  apply Even.caller
  apply Even.findThread
  intro thread _
  apply Even.modifyThread
  intro _ _
  split
  · exact even_pure taken true
  · exact SemaphoreId.even_attempt taken _ _
  · exact LockId.even_attempt taken _
  · exact LockId.even_reacquire taken _ _

theorem neutral_reclaim (k : Kernel) : Neutral reclaim k := by
  intro rule
  rw [reclaim, run_get_bind, run_get_bind, run_set_bind, run_set_bind]
  refine neutral_forM (k := { k with dying := [] }) (fun t k rule => ?_) rule
  have same : (k.ruled rule).threads = k.threads := rfl
  rw [run_get_bind, run_get_bind, same]
  cases k.threads.get? t with
  | none => rfl
  | some thread => rfl

theorem neutral_pickNext (k : Kernel) : Neutral pickNext k := by
  intro rule
  have same : (k.ruled rule).idle = k.idle := rfl
  rw [pickNext, run_get_bind, run_get_bind, ready_ruled, ReadyQueue.pop?_ruled, same]
  cases k.ready.pop? with
  | none =>
    cases k.idle with
    | none => rfl
    | some idle => rfl
  | some popped =>
    have picks : Neutral (do
        modifyThread popped.1 fun thread => { thread with place := .detached }
        pure popped.1 : KernelM ThreadId) (k.withReady popped.2) :=
      (neutral_modifyThread popped.1 _ _).bind fun _ _ _ => neutral_pure popped.1
    exact picks rule

theorem neutral_switchTo (previous next : ThreadId) (k : Kernel) :
    Neutral (switchTo previous next) k := by
  have switches : ∀ k, Neutral (do
      modify fun k => { k with current := next, processor := k.processor.switched }
      note (.switched previous next) : KernelM Unit) k := fun k =>
    (neutral_modify fun _ => rfl).bind fun _ k' _ => neutral_note _ k'
  unfold switchTo
  apply (neutral_findThread previous k).bind
  intro thread k' _
  split
  · exact (neutral_modify fun _ => rfl).bind fun _ k' _ => switches k'
  · exact switches k'

theorem even_dispatchOnce (inLine : k.InLine) : Even dispatchOnce k := by
  unfold dispatchOnce
  apply Even.caller
  apply Even.findThread
  intro previous _
  apply (neutral_require _).even
  intro _ k' checked
  cases (run_require_eq_ok_iff.mp checked).2
  apply (neutral_pickNext k).even
  intro next picked pick
  apply Even.modifyThread
  intro thread' found'
  rcases of_run_pickNext pick found' with ⟨thread, place, ready, found, picks, rfl⟩
  rcases inLine.picked picks with ⟨left, unqueued⟩
  have runs : ((k.withReady ready).mapThread next fun old =>
      { old with state := .running, place }).InLine := left.mapUnqueued unqueued
  apply (neutral_modify fun _ => rfl).even
  intro _ begun begins
  cases begins
  apply (neutral_announce _ _).even
  intro _ told tells
  rcases run_announce (k := _) (.activating · next) (fun _ => rfl) with ⟨events, _, announced⟩
  rw [announced, Except.ok.injEq, Prod.mk.injEq] at tells
  rcases tells with ⟨_, rfl⟩
  have kept : ∀ {last : Kernel}, last.ready = ready →
      last.threads = (((k.mapThread next fun old => { old with place }).withReady ready).mapThread
        next fun old => { old with state := .running }).threads → last.InLine := by
    intro last queue threads
    apply runs.kept queue
    intro t _ thread found
    refine ⟨thread, ?_, rfl, rfl⟩
    rw [threads, mapThread_threads, withReady_threads, mapThread_threads, Arena.modify_modify]
    exact found
  split
  · next other =>
    apply (neutral_switchTo _ next _).even
    intro _ switched switches
    rcases of_run_switchTo other switches with ⟨_, dying, _, _, rfl⟩
    exact even_resume ⟨kept rfl rfl, unqueued⟩
  · next here =>
    have here : k.current = next := Decidable.not_not.mp here
    exact even_resume ⟨kept rfl rfl, here ▸ unqueued⟩

theorem neutral_dispatch (inLine : k.InLine) (picks : Nat) : Neutral (dispatch picks) k := by
  induction picks generalizing k with
  | zero => exact neutral_throw .idleWaits
  | succ picks ih =>
    have once := even_dispatchOnce inLine
    apply once.neutral.bind
    intro running k' ran
    split
    · exact neutral_pure ()
    · exact ih (once.keeps running k' ran).toInLine

theorem neutral_schedule (placed : k.Placed) : Neutral schedule k := by
  unfold schedule
  apply Neutral.get (fun _ => rfl)
  apply Neutral.require
  intro _
  apply (neutral_reclaim k).bind
  intro _ reclaimed reclaims
  rcases of_run_reclaim reclaims with ⟨threads, events, _, _, gone, rfl⟩
  apply Neutral.get (fun _ => rfl)
  exact neutral_dispatch (placed.reclaimed gone events).inLine _

end Kernel

end ThreadKernel
