import Mathlib.Logic.Function.Basic
import ThreadKernel.Proofs.Calm

/-!
# The ledger of units, locks and waits

Most of what a move does has nothing to do with units, locks or waits.  The
`Ledger` of a machine is the part that has, and `Move.entry` says what a move
comes to there: nothing but remarks in the journal, or one of a few entries, each
of which says who acted and what for.

Laws about units, locks and waits are proved of `Entry`, not of `Move`.
-/

namespace ThreadKernel

/-- The units of a semaphore, and what they are for. -/
def Semaphore.stock (semaphore : Semaphore) : Nat × Purpose := (semaphore.value, semaphore.purpose)

/-- What there is to know of a machine about units, locks and waits. -/
@[ext]
structure Ledger where
  /-- Who has the processor. -/
  runner : ThreadId
  /-- What each thread has left to do. -/
  work : ThreadId → Option Pending
  semaphores : SemaphoreId → Option (Nat × Purpose)
  /-- The semaphore made next. -/
  next : SemaphoreId
  locks : LockId → Option Lock
  /-- The waits queued on each condition. -/
  enlisted : ConditionId → List Waiter
  events : List Event

/-- The entries of a machine's books. -/
def Machine.ledger (m : Machine) : Ledger where
  runner := m.kernel.current
  work := m.work?
  semaphores s := (m.kernel.semaphores.get? s).map Semaphore.stock
  next := m.kernel.semaphores.next
  locks := m.kernel.locks.get?
  enlisted := m.kernel.enlisted
  events := m.kernel.events

namespace Ledger

/-- The journal has got longer. -/
@[simps]
def told (a : Ledger) (events : List Event) : Ledger := { a with events }

/-- The current thread has other work left. -/
@[simps]
def engaged (a : Ledger) (work : Option Pending) : Ledger :=
  { a with work := Function.update a.work a.runner work }

/-- A semaphore has so many units. -/
@[simps]
def stocked (a : Ledger) (s : SemaphoreId) (value : Nat) (purpose : Purpose) : Ledger :=
  { a with semaphores := Function.update a.semaphores s (some (value, purpose)) }

/-- A semaphore is made. -/
@[simps]
def made (a : Ledger) (value : Nat) (purpose : Purpose) : Ledger :=
  { a with
    semaphores := Function.update a.semaphores a.next (some (value, purpose))
    next := ⟨a.next.index + 1⟩ }

/-- A semaphore is destroyed. -/
@[simps]
def unmade (a : Ledger) (s : SemaphoreId) : Ledger :=
  { a with semaphores := Function.update a.semaphores s none }

/-- A lock is made, passed on or destroyed. -/
@[simps]
def entitled (a : Ledger) (l : LockId) (lock : Option Lock) : Ledger :=
  { a with locks := Function.update a.locks l lock }

/-- Other waits are queued on a condition. -/
@[simps]
def listed (a : Ledger) (c : ConditionId) (waiters : List Waiter) : Ledger :=
  { a with enlisted := Function.update a.enlisted c waiters }

/-- The current thread sets out on `work` by an act of its own, or it is what it has left. -/
def Starts (a : Ledger) (own : List Act) (work : Pending) (act : Option Act) : Prop :=
  (∃ one ∈ own, act = some one) ∧ a.work a.runner = none ∨
    act = none ∧ a.work a.runner = some work

end Ledger

open Kernel

/-- What a move comes to in the ledger. -/
inductive Entry (d : Discipline) : Option Act → Ledger → Ledger → Prop
  | note {a : Ledger} {act : Option Act} {events : List Event}
      (aside : act = none ∨ act = some .tick ∨ act = some .undertake)
      (remarks : Remarks a.events events) : Entry d act a (a.told events)
  | pick {a : Ledger} {next : ThreadId} {events : List Event}
      (handed : HandedOn a.runner next a.events events) :
      Entry d none a { a.told events with runner := next }
  | create {a : Ledger} {value : Nat} : Entry d (some (.create a.next)) a (a.made value .plain)
  | destroy {a : Ledger} {s : SemaphoreId} {value : Nat} {purpose : Purpose}
      (found : a.semaphores s = some (value, purpose))
      (plain : d.plainHandles = true → purpose = .plain)
      (unnamed : d.careful = true → ∀ t, a.work t ≠ some (.unit s)) :
      Entry d (some (.destroy s)) a (a.unmade s)
  | createLock {a : Ledger} {l : LockId} (new : a.locks l = none) :
      Entry d none a ((a.made 1 .lock).entitled l (some { semaphore := a.next }))
  | destroyLock {a : Ledger} {l : LockId} {lock : Lock} (found : a.locks l = some lock)
      (unheld : lock.holder = none)
      (unnamed : d.careful = true → ∀ t p, a.work t = some p → p.lock? ≠ some l) :
      Entry d none a ((a.entitled l none).unmade lock.semaphore)
  | take {a : Ledger} {act : Option Act} {s : SemaphoreId} {value : Nat} {purpose : Purpose}
      (starts : a.Starts [.take s, .down s] (.unit s) act)
      (found : a.semaphores s = some (value + 1, purpose))
      (plain : d.plainHandles = true → purpose = .plain) :
      Entry d act a
        (((a.stocked s value purpose).engaged none).told (.takes a.runner s :: a.events))
  | want {a : Ledger} {act : Option Act} {s : SemaphoreId} {events : List Event}
      (starts : a.Starts [.down s] (.unit s) act) (remarks : Remarks a.events events)
      (live : ∃ stock, a.semaphores s = some stock) :
      Entry d act a ((a.engaged (some (.unit s))).told events)
  | hold {a : Ledger} {act : Option Act} {l : LockId} {lock : Lock} {value : Nat}
      {purpose : Purpose} {asked events : List Event}
      (starts : a.Starts [.acquire l, .seize l] (.lock l) act) (found : a.locks l = some lock)
      (unit : a.semaphores lock.semaphore = some (value + 1, purpose))
      (before : Remarks a.events asked)
      (after : Remarks (.holds a.runner l :: .takes a.runner lock.semaphore :: asked) events) :
      Entry d act a ((((a.stocked lock.semaphore value purpose).engaged none).entitled l
        (some { lock with holder := some a.runner })).told events)
  | await {a : Ledger} {act : Option Act} {l : LockId} {events : List Event}
      (starts : a.Starts [.acquire l] (.lock l) act) (remarks : Remarks a.events events)
      (live : ∃ lock, a.locks l = some lock) :
      Entry d act a ((a.engaged (some (.lock l))).told events)
  | release {a : Ledger} {l : LockId} {lock : Lock} {value : Nat} {purpose : Purpose}
      {dropped events : List Event} (found : a.locks l = some lock)
      (holds : lock.holder = some a.runner)
      (unit : a.semaphores lock.semaphore = some (value, purpose))
      (before : Remarks a.events dropped)
      (after : Remarks (.gives lock.semaphore :: .releases a.runner l :: dropped) events) :
      Entry d (some (.release l)) a (((a.stocked lock.semaphore (value + 1) purpose).entitled l
        (some { lock with holder := none })).told events)
  | give {a : Ledger} {s : SemaphoreId} {value : Nat} {purpose : Purpose} {events : List Event}
      (found : a.semaphores s = some (value, purpose))
      (plain : d.plainHandles = true → purpose = .plain)
      (after : Remarks (.gives s :: a.events) events) :
      Entry d none a ((a.stocked s (value + 1) purpose).told events)
  | enlist {a : Ledger} {c : ConditionId} {l : LockId} {waiters : List Waiter} {events : List Event}
      (idle : a.work a.runner = none)
      (holds : ∃ lock, a.locks l = some lock ∧ lock.holder = some a.runner)
      (perm : waiters.Perm (⟨a.next, a.runner⟩ :: a.enlisted c))
      (remarks : Remarks a.events events) :
      Entry d (some (.enlist c l)) a
        ((((a.made 0 .signal).engaged (some (.signal a.next l))).listed c waiters).told events)
  | signal {a : Ledger} {c : ConditionId} {waiter : Waiter} {rest : List Waiter} {value : Nat}
      {purpose : Purpose} {called events : List Event}
      (perm : (a.enlisted c).Perm (waiter :: rest))
      (found : a.semaphores waiter.semaphore = some (value, purpose))
      (before : Remarks a.events called)
      (after : Remarks (.gives waiter.semaphore :: called) events) :
      Entry d (some (.signal c)) a
        (((a.stocked waiter.semaphore (value + 1) purpose).listed c rest).told events)
  | receive {a : Ledger} {s : SemaphoreId} {l : LockId} {value : Nat} {purpose : Purpose}
      (due : a.work a.runner = some (.signal s l))
      (found : a.semaphores s = some (value + 1, purpose)) :
      Entry d none a
        (((a.unmade s).engaged (some (.lock l))).told (.takes a.runner s :: a.events))

variable {d : Discipline} {m m' : Machine} {k k' : Kernel} {due due' : Option Pending}
  {t : ThreadId} {thread : Thread} {s : SemaphoreId} {semaphore : Semaphore} {l : LockId}
  {lock : Lock} {c : ConditionId} {act : Option Act}

/-! ## Tables as functions -/

section Views

variable {kind : Kind} {α β : Type} {a : Arena kind α} {h : Handle kind} {x : α}

theorem view_modify (found : a.get? h = some x) (f : α → α) (view : α → β) :
    (fun h' => ((a.modify h f).get? h').map view) =
      Function.update (fun h' => (a.get? h').map view) h (some (view (f x))) := by
  funext h'
  rw [Arena.get?_modify, Function.update_apply]
  by_cases same : h = h'
  · subst same
    rw [if_pos rfl, if_pos rfl, found, Option.map_some, Option.map_some]
  · rw [if_neg same, if_neg (Ne.symm same)]

theorem get?_modify_eq_update (found : a.get? h = some x) (f : α → α) :
    (a.modify h f).get? = Function.update a.get? h (some (f x)) := by
  have same := view_modify found f id
  simpa only [Option.map_id, id] using same

theorem view_push (a : Arena kind α) (x : α) (view : α → β) :
    (fun h' => ((a.push x).get? h').map view) =
      Function.update (fun h' => (a.get? h').map view) a.next (some (view x)) := by
  funext h'
  rw [Arena.get?_push, Function.update_apply]
  split
  · rfl
  · rfl

theorem get?_push_eq_update (a : Arena kind α) (x : α) :
    (a.push x).get? = Function.update a.get? a.next (some x) := by
  have same := view_push a x id
  simpa only [Option.map_id, id] using same

theorem view_erase (a : Arena kind α) (h : Handle kind) (view : α → β) :
    (fun h' => ((a.erase h).get? h').map view) =
      Function.update (fun h' => (a.get? h').map view) h none := by
  funext h'
  rw [Arena.get?_erase, Function.update_apply]
  by_cases same : h = h'
  · rw [if_pos same, if_pos same.symm, Option.map_none]
  · rw [if_neg same, if_neg (Ne.symm same)]

theorem get?_erase_eq_update (a : Arena kind α) (h : Handle kind) :
    (a.erase h).get? = Function.update a.get? h none := by
  have same := view_erase a h id
  simpa only [Option.map_id, id] using same

end Views

/-! ## Who has what left to do -/

theorem Machine.work?_congr (pending : ∀ t, m'.kernel.pending? t = m.kernel.pending? t)
    (current : m'.kernel.current = m.kernel.current) (due : m'.due = m.due) :
    m'.work? = m.work? := by
  funext t
  rw [work?, work?, pending t, current, due]

/-- Only the current thread's work has changed. -/
theorem Machine.work?_eq_update {work : Option Pending}
    (others : ∀ t, t ≠ m.kernel.current → m'.kernel.pending? t = m.kernel.pending? t)
    (current : m'.kernel.current = m.kernel.current)
    (now : (m'.kernel.pending? m.kernel.current).or m'.due = work) :
    m'.work? = Function.update m.work? m.kernel.current work := by
  funext t
  rw [Function.update_apply]
  split
  · next here => rw [work?, here, current, if_pos rfl, now]
  · next other => rw [work?, work?, others t other, current, if_neg other, if_neg other]

/-- The current thread has only taken up what is due. -/
theorem Kernel.Runs.work? (runs : k.Runs) (due : Option Pending) :
    (⟨k, due⟩ : Machine).work? k.current = due := by
  obtain ⟨thread, found, _, pending⟩ := runs
  rw [Machine.work?, pending?_of_get? found, pending, Option.none_or, if_pos rfl]

theorem Kernel.Runs.pending? (runs : k.Runs) : k.pending? k.current = none := by
  obtain ⟨thread, found, _, pending⟩ := runs
  rw [pending?_of_get? found, pending]

theorem Kernel.pending?_reclaimed {threads : ThreadTable} (placed : k.Placed) (tidy : k.Tidy)
    (gone : ∀ t, threads.get? t = if t ∈ k.dying then none else k.threads.get? t)
    (same : k'.threads = threads) (t : ThreadId) : k'.pending? t = k.pending? t := by
  rw [Kernel.pending?, same, gone]
  split
  · next left =>
    obtain ⟨thread, found, dying⟩ := placed.exited t left
    rw [pending?_of_get? found, tidy.finished t thread found dying, Option.bind_none]
  · rw [Kernel.pending?]

/-! ## The ledger after each step -/

/-- Nothing that the ledger tells has changed, apart from the journal. -/
theorem ledger_eq_told (work : m'.work? = m.work?) (current : m'.kernel.current = m.kernel.current)
    (semaphores : m'.kernel.semaphores = m.kernel.semaphores)
    (locks : m'.kernel.locks = m.kernel.locks)
    (enlisted : m'.kernel.enlisted = m.kernel.enlisted) :
    m'.ledger = m.ledger.told m'.kernel.events := by
  refine Ledger.ext current work ?_ ?_ ?_ enlisted rfl
  · exact congrArg (fun (a : Arena .semaphore Semaphore) s => (a.get? s).map Semaphore.stock)
      semaphores
  · exact congrArg Arena.next semaphores
  · exact congrArg Arena.get? locks

/-- A record is changed, but not what its thread has left to do. -/
theorem ledger_mapThread {f : Thread → Thread} {m' : Machine}
    (threads : m'.kernel.threads = m.kernel.threads.modify t f)
    (blind : ∀ x, (f x).pending = x.pending) (due : m'.due = m.due)
    (same : (m'.kernel.current, m'.kernel.semaphores, m'.kernel.locks, m'.kernel.conditions) =
      (m.kernel.current, m.kernel.semaphores, m.kernel.locks, m.kernel.conditions)) :
    m'.ledger = m.ledger.told m'.kernel.events := by
  simp only [Prod.mk.injEq] at same
  obtain ⟨current, semaphores, locks, conditions⟩ := same
  refine ledger_eq_told (Machine.work?_congr (pending?_of_agree ?_) current due) current semaphores
    locks ?_
  · rw [threads]
    exact Arena.agree_modify blind
  · funext c
    rw [enlisted, enlisted, conditions]

theorem ledger_readied (k : Kernel) (t : ThreadId) (p : Priority) (due : Option Pending) :
    (⟨k.readied t p, due⟩ : Machine).ledger = (⟨k, due⟩ : Machine).ledger :=
  ledger_mapThread (m := ⟨k, due⟩) (t := t) rfl (fun _ => rfl) rfl rfl

/-- Places and plans are as they were, and so are locks. -/
theorem Kernel.Retouched.ledger (same : k.Retouched k') (locks : k'.locks = k.locks) :
    (⟨k', due⟩ : Machine).ledger = (⟨k, due⟩ : Machine).ledger.told k'.events := by
  refine ledger_eq_told (Machine.work?_congr (pending?_of_agree ?_) same.current rfl) same.current
    same.semaphores locks ?_
  · exact same.threads.coarsen Prod.snd
  · funext c
    rw [enlisted, enlisted, same.conditions]

/-- Places and plans are as they were, and a lock is passed on. -/
theorem Kernel.Retouched.ledger_entitled (due : Option Pending) (same : k.Retouched k')
    (found : k.locks.get? l = some lock) {f : Lock → Lock} (locks : k'.locks = k.locks.modify l f) :
    (⟨k', due⟩ : Machine).ledger =
      ((⟨k, due⟩ : Machine).ledger.entitled l (some (f lock))).told k'.events := by
  have work : (⟨k', due⟩ : Machine).work? = (⟨k, due⟩ : Machine).work? :=
    Machine.work?_congr (pending?_of_agree (same.threads.coarsen Prod.snd)) same.current rfl
  have enlisted : k'.enlisted = k.enlisted := by
    funext c
    rw [enlisted, enlisted, same.conditions]
  refine Ledger.ext same.current work ?_ (congrArg Arena.next same.semaphores) ?_ enlisted rfl
  · exact congrArg (fun (a : Arena .semaphore Semaphore) s => (a.get? s).map Semaphore.stock)
      same.semaphores
  · exact (congrArg Arena.get? locks).trans (get?_modify_eq_update found f)

theorem ledger_semaphores (due : Option Pending) (found : k.semaphores.get? s = some semaphore) :
    (⟨k, due⟩ : Machine).ledger.semaphores s = some (semaphore.value, semaphore.purpose) := by
  exact congrArg (Option.map Semaphore.stock) found

/-- A unit is taken for the current thread. -/
theorem ledger_taken (due : Option Pending) (runs : k.Runs)
    (found : k.semaphores.get? s = some semaphore) {value : Nat}
    (positive : semaphore.value = value + 1) :
    (⟨s.taken k, none⟩ : Machine).ledger =
      (((⟨k, due⟩ : Machine).ledger.stocked s value semaphore.purpose).engaged none).told
        (.takes k.current s :: k.events) := by
  refine Ledger.ext rfl ?_ ?_ (Arena.next_modify _ _ _) rfl rfl rfl
  · exact Machine.work?_eq_update (m := ⟨k, due⟩) (fun _ _ => rfl) rfl
      (by rw [Option.or_none]; exact runs.pending?)
  · refine (view_modify found _ Semaphore.stock).trans ?_
    rw [Semaphore.stock, positive]
    rfl

/-- The current thread is queued on a semaphore. -/
theorem ledger_queued (due : Option Pending) (found : k.semaphores.get? s = some semaphore)
    (running : k.Running) (retry : Pending) (waiters : List ThreadId) :
    (⟨s.queued retry waiters k, none⟩ : Machine).ledger =
      ((⟨k, due⟩ : Machine).ledger.engaged (some retry)).told (.waits k.current s :: k.events) := by
  obtain ⟨thread, foundCurrent, _⟩ := running
  refine Ledger.ext rfl ?_ ?_ (Arena.next_modify _ _ _) rfl rfl rfl
  · refine Machine.work?_eq_update (m := ⟨k, due⟩) (fun t other => ?_) rfl ?_
    · rw [pending?, SemaphoreId.queued_threads, Arena.get?_modify_of_ne _ (Ne.symm other), pending?]
    · rw [Option.or_none]
      exact pending?_of_get? (k := s.queued retry waiters k)
        (Arena.get?_modify_self _ foundCurrent)
  · refine (view_modify found _ Semaphore.stock).trans (Function.update_eq_self_iff.mpr ?_)
    exact (ledger_semaphores due found).symm

/-- A unit is returned, and the first waiter woken. -/
theorem ledger_of_run_wake (due : Option Pending) (h : s.wake.run k = .ok ((), k')) :
    ∃ semaphore events, k.semaphores.get? s = some semaphore ∧
      Remarks (.gives s :: k.events) events ∧
      (⟨k', due⟩ : Machine).ledger =
        ((⟨k, due⟩ : Machine).ledger.stocked s (semaphore.value + 1) semaphore.purpose).told
          events := by
  obtain ⟨semaphore, found, ⟨_, rfl⟩ | ⟨t, rest, _, woken⟩⟩ := SemaphoreId.of_run_wake h
  · refine ⟨semaphore, _, found, .refl _, ?_⟩
    exact Ledger.ext rfl rfl (view_modify found _ Semaphore.stock) (Arena.next_modify _ _ _) rfl rfl
      rfl
  · obtain ⟨_, _, _, _, _, rfl⟩ := of_run_unblock woken
    refine ⟨semaphore, _, found, .cons (.wakes s t) _ rfl, ?_⟩
    rw [ledger_readied]
    refine Ledger.ext rfl ?_ (view_modify found _ Semaphore.stock) (Arena.next_modify _ _ _) rfl rfl
      rfl
    exact Machine.work?_congr (m := ⟨k, due⟩)
      (pending?_of_agree (Arena.agree_modify fun _ => rfl)) rfl rfl

theorem ledger_destroyed (k : Kernel) (s : SemaphoreId) :
    (⟨s.destroyed k, due⟩ : Machine).ledger = (⟨k, due⟩ : Machine).ledger.unmade s :=
  Ledger.ext rfl rfl (view_erase _ _ _) (Arena.next_erase _ _) rfl rfl rfl

/-- Before a held lock is tried, nothing but priorities and donors change. -/
theorem ledger_of_asks (due : Option Pending) {asking : Kernel} (asks : l.Asks lock k asking) :
    ∃ events, Remarks k.events events ∧
      (⟨asking, due⟩ : Machine).ledger = (⟨k, due⟩ : Machine).ledger.told events := by
  have retouched := asks.retouched
  cases asks with
  | free _ => exact ⟨_, .refl _, rfl⟩
  | held holds found joins donated =>
    have repriced := repriced_of_donate donated
    exact ⟨_, repriced.events, retouched.ledger repriced.locks⟩

/-- A lock is recorded as the current thread's. -/
theorem ledger_of_run_hold (due : Option Pending) (placed : k.Placed) (running : k.Running)
    (found : k.locks.get? l = some lock) (h : l.hold.run (s.taken k) = .ok ((), k')) :
    ∃ events, Remarks (.holds k.current l :: .takes k.current s :: k.events) events ∧
      (⟨k', due⟩ : Machine).ledger = ((⟨s.taken k, due⟩ : Machine).ledger.entitled l
        (some { lock with holder := some k.current })).told events := by
  obtain ⟨thread, foundCurrent, runs⟩ := running
  have unqueued := placed.unqueued_of_running foundCurrent runs
  have retouched := LockId.retouched_of_run_hold (k := s.taken k) foundCurrent unqueued h
  obtain ⟨_, _, _, _, events, _, _, told, _, rfl⟩ :=
    LockId.of_run_hold (k := s.taken k) foundCurrent unqueued h
  exact ⟨events, told, retouched.ledger_entitled _ (k := s.taken k) found rfl⟩

/-- A condition has other waiters. -/
theorem enlisted_modify {condition : Condition} {waiters : List Waiter}
    (found : k.conditions.get? c = some condition) (same : k'.conditions =
      k.conditions.modify c fun old => { old with waiters }) :
    k'.enlisted = Function.update k.enlisted c waiters := by
  funext c'
  rw [enlisted, same, Function.update_apply]
  split
  · next here => rw [here, Arena.get?_modify_self _ found, Option.elim_some]
  · next other => rw [Arena.get?_modify_of_ne _ (Ne.symm other), enlisted]

/-- The thread that is picked goes on with what it has left to do. -/
theorem ledger_dispatched {next : ThreadId} {place : Place} {ready : ReadyQueue}
    {processor : Processor} {dying : List ThreadId} {events : List Event}
    (found : k.threads.get? next = some thread) :
    (⟨k.dispatched next place ready processor dying events, thread.pending⟩ : Machine).ledger =
      { (⟨k, none⟩ : Machine).ledger.told events with runner := next } := by
  have work : (⟨k.dispatched next place ready processor dying events, thread.pending⟩ :
      Machine).work? = (⟨k, none⟩ : Machine).work? := by
    funext t
    rw [Machine.work?_none, Machine.work?, pending?, dispatched_threads, dispatched_current]
    split
    · next here =>
      rw [here, Arena.get?_modify_self _ found, pending?_of_get? found, Option.bind_some,
        Option.none_or]
    · next other => rw [Arena.get?_modify_of_ne _ (Ne.symm other), Option.or_none, pending?]
  exact Ledger.ext rfl work rfl rfl rfl rfl rfl

theorem ledger_created (k : Kernel) (value : Nat) (purpose : Purpose) :
    (⟨{ k with semaphores := k.semaphores.push { value, purpose } }, due⟩ : Machine).ledger =
      (⟨k, due⟩ : Machine).ledger.made value purpose :=
  Ledger.ext rfl rfl (view_push _ _ _) (Arena.next_push _ _) rfl rfl rfl

theorem ledger_createdLock (k : Kernel) (lock : Lock) :
    (⟨{ k with locks := k.locks.push lock }, due⟩ : Machine).ledger =
      (⟨k, due⟩ : Machine).ledger.entitled k.locks.next (some lock) :=
  Ledger.ext rfl rfl rfl rfl (get?_push_eq_update _ _) rfl rfl

theorem ledger_erasedLock (k : Kernel) (l : LockId) :
    (⟨{ k with locks := k.locks.erase l }, due⟩ : Machine).ledger =
      (⟨k, due⟩ : Machine).ledger.entitled l none :=
  Ledger.ext rfl rfl rfl rfl (get?_erase_eq_update _ _) rfl rfl

/-- A wait begins, with a semaphore of its own. -/
theorem ledger_joined {condition : Condition} {waiters : List Waiter} (running : k.Running)
    (found : k.conditions.get? c = some condition) :
    (⟨c.joined l waiters k, none⟩ : Machine).ledger =
      ((((⟨k, none⟩ : Machine).ledger.made 0 .signal).engaged
        (some (.signal k.semaphores.next l))).listed c waiters).told
          (.awaits k.current c :: k.events) := by
  rcases running with ⟨thread, foundCurrent, _⟩
  refine Ledger.ext rfl ?_ (view_push _ _ _) (Arena.next_push _ _) rfl
    (enlisted_modify found rfl) rfl
  refine Machine.work?_eq_update (m := ⟨k, none⟩) (fun t other => ?_) rfl ?_
  · rw [pending?, ConditionId.joined_threads, Arena.get?_modify_of_ne _ (Ne.symm other), pending?]
  · rw [Option.or_none]
    exact pending?_of_get? (k := c.joined l waiters k) (Arena.get?_modify_self _ foundCurrent)

/-- What was recorded is now due. -/
theorem ledger_undertaken {p : Pending} (found : k.threads.get? k.current = some thread)
    (pending : thread.pending = some p) :
    (⟨k.mapThread k.current fun old => { old with pending := none }, some p⟩ : Machine).ledger =
      (⟨k, none⟩ : Machine).ledger.told k.events := by
  have record := Arena.get?_modify_self (fun old : Thread => { old with pending := none }) found
  have work : (⟨k.mapThread k.current fun old => { old with pending := none }, some p⟩ :
      Machine).work? = Function.update (⟨k, none⟩ : Machine).work? k.current (some p) := by
    refine Machine.work?_eq_update (m := ⟨k, none⟩) (fun t other =>
      pending?_mapThread_of_ne (f := fun old => { old with pending := none }) other) rfl ?_
    rw [pending?_of_get? record, Option.none_or]
  refine ledger_eq_told (work.trans (Function.update_eq_self_iff.mpr ?_)) rfl rfl rfl rfl
  rw [Machine.work?_none, pending?_of_get? found, pending]

theorem ledger_called {condition : Condition} {waiter : ThreadId} {rest : List Waiter}
    (found : k.conditions.get? c = some condition) :
    (⟨c.called waiter rest k, none⟩ : Machine).ledger =
      ((⟨k, none⟩ : Machine).ledger.listed c rest).told (.signals c waiter :: k.events) :=
  Ledger.ext rfl rfl rfl rfl rfl (enlisted_modify found rfl) rfl

/-- The signal has been taken, and the lock is next. -/
theorem ledger_signalled (runs : k.Runs) (found : k.semaphores.get? s = some semaphore) :
    (⟨s.destroyed (s.taken k), some (.lock l)⟩ : Machine).ledger =
      (((⟨k, some (.signal s l)⟩ : Machine).ledger.unmade s).engaged (some (.lock l))).told
        (.takes k.current s :: k.events) := by
  refine Ledger.ext rfl ?_ ?_ ?_ rfl rfl rfl
  · exact Machine.work?_eq_update (m := ⟨k, some (.signal s l)⟩) (fun _ _ => rfl) rfl
      (congrArg (Option.or · _) runs.pending?)
  · refine (view_erase _ _ _).trans ?_
    rw [SemaphoreId.taken_semaphores, view_modify found, Function.update_idem]
    rfl
  · exact (Arena.next_erase _ _).trans (Arena.next_modify _ _ _)

/-! ## Every move is an entry -/

theorem Entry.of_eq {a b : Ledger} {events : List Event} (same : b = a.told events)
    (remarks : Remarks a.events events)
    (aside : act = none ∨ act = some .tick ∨ act = some .undertake) : Entry d act a b :=
  same ▸ .note aside remarks

/-- How a try begins is in the ledger. -/
theorem Onset.starts {one : Act} {work : Pending} {own : List Act} (runs : k.Runs)
    (onset : Onset d k one work act due) (among : one ∈ own) :
    (⟨k, due⟩ : Machine).ledger.Starts own work act := by
  cases onset with
  | direct _ => exact .inl ⟨⟨one, among, rfl⟩, runs.work? none⟩
  | resumed => exact .inr ⟨rfl, runs.work? (some work)⟩

/-- A unit that can be taken is in the ledger. -/
theorem exists_stock (due : Option Pending) (found : k.semaphores.get? s = some semaphore)
    (positive : 0 < semaphore.value) :
    ∃ value, semaphore.value = value + 1 ∧
      (⟨k, due⟩ : Machine).ledger.semaphores s = some (value + 1, semaphore.purpose) := by
  obtain ⟨value, units⟩ := Nat.exists_eq_add_one.mpr positive
  exact ⟨value, units, (ledger_semaphores due found).trans (by rw [units])⟩

/-! ### Threads that come, go and change -/

theorem entry_enrolled (pending : thread.pending = none) :
    Entry d none (⟨k, none⟩ : Machine).ledger
      (⟨{ k with threads := k.threads.push thread }, none⟩ : Machine).ledger := by
  refine .of_eq (ledger_eq_told (Machine.work?_congr (fun t => ?_) rfl rfl) rfl rfl rfl rfl)
    (.refl _) (.inl rfl)
  show pending? { k with threads := k.threads.push thread } t = k.pending? t
  rw [pending?, Arena.get?_push]
  split
  · next new => rw [Option.bind_some, pending, pending?, new, Arena.get?_next, Option.bind_none]
  · rw [pending?]

theorem entry_of_run_rebase {base : Priority}
    (h : (refresh k.current).run (k.mapThread k.current fun old => { old with base }) =
      .ok ((), k')) :
    Entry d none (⟨k, none⟩ : Machine).ledger (⟨k', none⟩ : Machine).ledger := by
  obtain ⟨_, _, _, _, _, told, rfl⟩ := of_run_refresh h
  refine .of_eq (ledger_eq_told (Machine.work?_congr (pending?_of_agree ?_) rfl rfl) rfl rfl rfl
    rfl) told (.inl rfl)
  exact Arena.Agree.trans (Arena.agree_modify fun _ => by rfl) (Arena.agree_modify fun _ => by rfl)

/-! ### Semaphores -/

theorem entry_of_run_destroy (plain : d.plainHandles = true → k.MadeFor s .plain)
    (unnamed : d.careful = true → ∀ t, k.pending? t ≠ some (.unit s))
    (h : s.destroy.run k = .ok ((), k')) :
    Entry d (some (.destroy s)) (⟨k, none⟩ : Machine).ledger (⟨k', none⟩ : Machine).ledger := by
  obtain ⟨semaphore, found, _, rfl⟩ := SemaphoreId.of_run_destroy h
  rw [ledger_destroyed]
  exact .destroy (ledger_semaphores _ found) (fun named => (plain named).purpose _ found)
    fun careful t => (Machine.work?_none _ t).trans_ne (unnamed careful t)

theorem entry_of_run_take (runs : k.Runs) (plain : d.plainHandles = true → k.MadeFor s .plain)
    (h : s.take.run k = .ok (true, k')) :
    Entry d (some (.take s)) (⟨k, none⟩ : Machine).ledger (⟨k', none⟩ : Machine).ledger := by
  obtain ⟨semaphore, found, positive, rfl⟩ := SemaphoreId.of_run_take_true h
  obtain ⟨value, units, stocked⟩ := exists_stock none found positive
  rw [ledger_taken none runs found units]
  exact .take (.inl ⟨⟨_, .head _, rfl⟩, runs.work? none⟩) stocked
    fun named => (plain named).purpose _ found

theorem entry_of_run_attempt {success : Bool} (runs : k.Runs)
    (plain : d.plainHandles = true → k.MadeFor s .plain)
    (onset : Onset d k (.down s) (.unit s) act due)
    (h : (s.attempt (.unit s)).run k = .ok (success, k')) :
    Entry d act (⟨k, due⟩ : Machine).ledger (⟨k', none⟩ : Machine).ledger := by
  obtain ⟨semaphore, found, ⟨_, positive, rfl⟩ | ⟨_, _, waiters, _, rfl⟩⟩ :=
    SemaphoreId.of_run_attempt h
  · obtain ⟨value, units, stocked⟩ := exists_stock due found positive
    rw [ledger_taken due runs found units]
    exact .take (onset.starts runs (.tail _ (.head _))) stocked
      fun named => (plain named).purpose _ found
  · rw [ledger_queued due found runs.running]
    exact .want (onset.starts runs (.head _)) (.cons _ _ rfl) ⟨_, ledger_semaphores _ found⟩

theorem entry_of_run_wake (plain : d.plainHandles = true → k.MadeFor s .plain)
    (h : s.wake.run k = .ok ((), k')) :
    Entry d none (⟨k, none⟩ : Machine).ledger (⟨k', none⟩ : Machine).ledger := by
  obtain ⟨semaphore, events, found, after, woken⟩ := ledger_of_run_wake none h
  rw [woken]
  exact .give (ledger_semaphores _ found) (fun named => (plain named).purpose _ found) after

/-! ### Locks -/

theorem entry_of_run_destroyLock (found : k.locks.get? l = some lock) (unheld : lock.holder = none)
    (unnamed : d.careful = true → ∀ t p, k.pending? t = some p → p.lock? ≠ some l)
    (h : lock.semaphore.destroy.run { k with locks := k.locks.erase l } = .ok ((), k')) :
    Entry d none (⟨k, none⟩ : Machine).ledger (⟨k', none⟩ : Machine).ledger := by
  obtain ⟨_, _, _, rfl⟩ := SemaphoreId.of_run_destroy h
  rw [ledger_destroyed, ledger_erasedLock]
  refine .destroyLock found unheld fun careful t p left => ?_
  exact unnamed careful t p ((Machine.work?_none _ t).symm.trans left)

theorem entry_of_run_attemptLock {success : Bool} (sound : Sound d ⟨k, due⟩) (runs : k.Runs)
    (onset : Onset d k (.acquire l) (.lock l) act due)
    (h : l.attempt.run k = .ok (success, k')) :
    Entry d act (⟨k, due⟩ : Machine).ledger (⟨k', none⟩ : Machine).ledger := by
  obtain ⟨lock, asking, tried, found, asks, tries, ended⟩ := LockId.of_run_attempt h
  have running := asks.retouched.runs runs
  have current : asking.current = k.current := asks.retouched.current
  obtain ⟨asked, before, ledger⟩ := ledger_of_asks due asks
  obtain rfl : asking.events = asked := congrArg Ledger.events ledger
  obtain ⟨rfl, holds⟩ | ⟨rfl, rfl⟩ := ended
  · obtain ⟨semaphore, foundUnit, positive, rfl⟩ := SemaphoreId.of_run_attempt_true tries
    obtain ⟨value, units, stocked⟩ := exists_stock due foundUnit positive
    have locks : asking.locks.get? l = some lock := (congrArg (·.locks l) ledger).trans found
    obtain ⟨events, after, same⟩ := ledger_of_run_hold none (sound.asks asks).placed
      running.running locks holds
    rw [ledger] at stocked
    rw [current] at after
    rw [same, ledger_taken due running foundUnit units, ledger, current]
    exact .hold (onset.starts runs (.head _)) found stocked before after
  · obtain ⟨semaphore, waiters, foundUnit, _, _, rfl⟩ := SemaphoreId.of_run_attempt_false tries
    rw [ledger_queued due foundUnit running.running, ledger]
    exact .await (onset.starts runs (.head _)) (before.trans (.cons _ _ rfl)) ⟨lock, found⟩

theorem entry_seized {taken : Kernel} (placed : k.Placed) (runs : k.Runs)
    (found : k.locks.get? l = some lock) (takes : lock.semaphore.take.run k = .ok (true, taken))
    (h : l.hold.run taken = .ok ((), k')) :
    Entry d (some (.seize l)) (⟨k, none⟩ : Machine).ledger (⟨k', none⟩ : Machine).ledger := by
  obtain ⟨semaphore, foundUnit, positive, rfl⟩ := SemaphoreId.of_run_take_true takes
  obtain ⟨value, units, stocked⟩ := exists_stock none foundUnit positive
  obtain ⟨events, after, same⟩ := ledger_of_run_hold none placed runs.running found h
  rw [same, ledger_taken none runs foundUnit units]
  exact .hold (.inl ⟨⟨_, .tail _ (.head _), rfl⟩, runs.work? none⟩) found stocked (.refl _) after

theorem entry_released {dropped : Kernel} (placed : k.Placed) (running : k.Running)
    (found : k.locks.get? l = some lock) (holds : lock.holder = some k.current)
    (drops : l.dropDonors.run k = .ok ((), dropped))
    (h : lock.semaphore.wake.run ((dropped.mapLock l fun old => { old with holder := none }).withEvents
      (.releases k.current l :: dropped.events)) = .ok ((), k')) :
    Entry d (some (.release l)) (⟨k, none⟩ : Machine).ledger (⟨k', none⟩ : Machine).ledger := by
  have retouched := LockId.retouched_of_run_dropDonors placed running drops
    (.releases k.current l :: dropped.events)
  obtain ⟨thread, foundCurrent, runs⟩ := running
  obtain ⟨donors, events, told, _, _, _, rfl⟩ :=
    LockId.of_run_dropDonors foundCurrent (placed.unqueued_of_running foundCurrent runs) drops
  obtain ⟨semaphore, events', foundUnit, after, woken⟩ := ledger_of_run_wake none h
  rw [woken, retouched.ledger_entitled none found rfl]
  exact .release found holds (ledger_semaphores _ foundUnit) told after

/-! ### Conditions -/

theorem entry_joined {condition : Condition} {waiters : List Waiter} (runs : k.Runs)
    (holds : k.holder? l = some k.current) (found : k.conditions.get? c = some condition)
    (joins : waiters = Ranked.join k.worth ⟨k.semaphores.next, k.current⟩ condition.waiters) :
    Entry d (some (.enlist c l)) (⟨k, none⟩ : Machine).ledger
      (⟨c.joined l waiters k, none⟩ : Machine).ledger := by
  obtain ⟨lock, foundLock, holder⟩ := Option.bind_eq_some_iff.mp holds
  have queued : waiters.Perm (⟨k.semaphores.next, k.current⟩ :: k.enlisted c) := by
    rw [enlisted_of_get? found, joins]
    exact Ranked.join_perm _ _ _
  rw [ledger_joined runs.running found]
  exact .enlist (runs.work? none) ⟨lock, foundLock, holder⟩ queued (.cons _ _ rfl)

theorem entry_called {condition : Condition} {waiter : Waiter} {rest : List Waiter}
    (found : k.conditions.get? c = some condition)
    (first : Ranked.sort k.worth condition.waiters = waiter :: rest)
    (h : waiter.semaphore.wake.run (c.called waiter.thread rest k) = .ok ((), k')) :
    Entry d (some (.signal c)) (⟨k, none⟩ : Machine).ledger (⟨k', none⟩ : Machine).ledger := by
  obtain ⟨semaphore, events, foundSignal, after, woken⟩ := ledger_of_run_wake none h
  have queued : (k.enlisted c).Perm (waiter :: rest) := by
    rw [enlisted_of_get? found]
    exact Ranked.perm_of_sort_eq_cons first
  rw [woken, ledger_called found]
  exact .signal queued (ledger_semaphores _ foundSignal) (.cons _ _ rfl) after

theorem entry_signalled {tried : Kernel} (runs : k.Runs)
    (takes : (s.attempt (.signal s l)).run k = .ok (true, tried))
    (h : s.destroy.run tried = .ok ((), k')) :
    Entry d none (⟨k, some (.signal s l)⟩ : Machine).ledger
      (⟨k', some (.lock l)⟩ : Machine).ledger := by
  obtain ⟨semaphore, found, positive, rfl⟩ := SemaphoreId.of_run_attempt_true takes
  obtain ⟨value, _, stocked⟩ := exists_stock (some (.signal s l)) found positive
  obtain ⟨_, _, _, rfl⟩ := SemaphoreId.of_run_destroy h
  rw [ledger_signalled runs found]
  exact .receive (runs.work? _) stocked

/-- Who waits for the signal again has as much left to do as before. -/
theorem entry_unsignalled (runs : k.Runs)
    (h : (s.attempt (.signal s l)).run k = .ok (false, k')) :
    Entry d none (⟨k, some (.signal s l)⟩ : Machine).ledger (⟨k', none⟩ : Machine).ledger := by
  obtain ⟨semaphore, waiters, found, _, _, rfl⟩ := SemaphoreId.of_run_attempt_false h
  have same : (⟨k, some (.signal s l)⟩ : Machine).ledger.engaged (some (.signal s l)) =
      (⟨k, some (.signal s l)⟩ : Machine).ledger :=
    Ledger.ext rfl (Function.update_eq_self_iff.mpr (runs.work? _).symm) rfl rfl rfl rfl rfl
  rw [ledger_queued (some (.signal s l)) found runs.running, same]
  exact .note (.inl rfl) (.cons _ _ rfl)

/-! ### The moves -/

theorem Move.entry (move : Move d act m m') (sound : Sound d m) (tidy : m.kernel.Tidy) :
    Entry d act m.ledger m'.ledger := by
  have placed := sound.placed
  cases move with
  | quiet same =>
    refine .of_eq (ledger_eq_told (Machine.work?_congr (fun t => ?_) same.current rfl) same.current
      same.semaphores same.locks (funext same.enlisted)) same.events (.inl rfl)
    rw [pending?, same.threads, pending?]
  | tick _ => exact .of_eq (ledger_eq_told rfl rfl rfl rfl rfl) (.refl _) (.inr (.inl rfl))
  | enroll blocked detached pending => exact entry_enrolled pending
  | appoint => exact .of_eq (ledger_eq_told rfl rfl rfl rfl rfl) (.refl _) (.inl rfl)
  | unblock spared ran =>
    obtain ⟨_, _, _, _, _, rfl⟩ := of_run_unblock ran
    exact .of_eq (ledger_readied _ _ _ _) (.refl _) (.inl rfl)
  | ready => exact .of_eq (ledger_readied _ _ _ _) (.refl _) (.inl rfl)
  | halt => exact .of_eq (ledger_mapThread rfl (fun _ => rfl) rfl rfl) (.refl _) (.inl rfl)
  | doze runs other told ahead =>
    exact .of_eq (ledger_mapThread rfl (fun _ => rfl) rfl rfl) told (.inl rfl)
  | rise sleepers found perm due told =>
    exact .of_eq ((ledger_readied _ _ _ _).trans (ledger_mapThread rfl (fun _ => rfl) rfl rfl))
      told (.inl rfl)
  | reclaim ran =>
    obtain ⟨threads, events, told, _, gone, rfl⟩ := of_run_reclaim ran
    exact .of_eq (ledger_eq_told (Machine.work?_congr (pending?_reclaimed placed tidy gone rfl) rfl
      rfl) rfl rfl rfl rfl) told (.inl rfl)
  | pick foundPrevious halted found picks fallback left handed =>
    rw [ledger_dispatched found]
    exact .pick handed
  | create =>
    rename_i k value
    rw [ledger_created]
    exact Entry.create (a := (⟨k, none⟩ : Machine).ledger)
  | destroy plain unnamed ran => exact entry_of_run_destroy plain unnamed ran
  | createLock =>
    rename_i k
    rw [ledger_createdLock { k with semaphores := k.semaphores.push _ }, ledger_created]
    exact .createLock (Arena.get?_next k.locks)
  | destroyLock found unheld unnamed ran => exact entry_of_run_destroyLock found unheld unnamed ran
  | take runs plain ran => exact entry_of_run_take runs plain ran
  | attempt runs plain onset ran => exact entry_of_run_attempt runs plain onset ran
  | attemptLock runs onset ran => exact entry_of_run_attemptLock sound runs onset ran
  | seize runs found takes ran => exact entry_seized placed runs found takes ran
  | release running found holds drops ran => exact entry_released placed running found holds drops ran
  | wake plain ran => exact entry_of_run_wake plain ran
  | rebase running ran => exact entry_of_run_rebase ran
  | enlist runs waits holds found joins => exact entry_joined runs holds found joins
  | undertake found running pending =>
    exact .of_eq (ledger_undertaken found pending) (.refl _) (.inr (.inr rfl))
  | signal found first ran => exact entry_called found first ran
  | signalled runs takes ran => exact entry_signalled runs takes ran
  | unsignalled runs ran => exact entry_unsignalled runs ran

/-! ## Ledgers in order -/

namespace Ledger

/-- Who holds `l`, if anybody does. -/
def holder? (a : Ledger) (l : LockId) : Option ThreadId := (a.locks l).bind (·.holder)

theorem holder?_of_locks {a : Ledger} (found : a.locks l = some lock) :
    a.holder? l = lock.holder := by
  rw [holder?, found, Option.bind_some]

theorem holder?_eq_none {a : Ledger} (gone : a.locks l = none) : a.holder? l = none := by
  rw [holder?, gone, Option.bind_none]

theorem holder?_entitled (a : Ledger) (l l' : LockId) (lock : Option Lock) :
    (a.entitled l lock).holder? l' = if l' = l then lock.bind (·.holder) else a.holder? l' := by
  rw [holder?, entitled_locks, Function.update_apply]
  split <;> rfl

theorem of_work_engaged {a : Ledger} {work : Option Pending} {p : Pending}
    (left : (a.engaged work).work t = some p) : a.work t = some p ∨ t = a.runner ∧ work = some p := by
  rw [engaged_work, Function.update_apply] at left
  split at left
  · next here => exact .inr ⟨here, left⟩
  · exact .inl left

/-- Who has something left to do sets out for that. -/
theorem Starts.eq_of_work {a : Ledger} {own : List Act} {work p : Pending} (starts : a.Starts own work act)
    (left : a.work a.runner = some p) : p = work := by
  obtain ⟨_, free⟩ | ⟨_, same⟩ := starts
  · cases free.symm.trans left
  · exact Option.some.inj (left.symm.trans same)

/-- A semaphore that was made for `purpose`, whether or not it is still there. -/
structure MadeFor (a : Ledger) (s : SemaphoreId) (purpose : Purpose) : Prop where
  issued : s.index < a.next.index
  purpose : ∀ stock, a.semaphores s = some stock → stock.2 = purpose

/-- Each lock has a unit of its own, which is there if nobody holds the lock, and what
is left to be done names semaphores for what they were made for. -/
structure Sorted (a : Ledger) : Prop where
  issued : ∀ s stock, a.semaphores s = some stock → s.index < a.next.index
  unit : ∀ l lock, a.locks l = some lock →
    a.semaphores lock.semaphore = some (if lock.holder.isSome then 0 else 1, .lock)
  distinct : ∀ l l' lock lock', a.locks l = some lock → a.locks l' = some lock' →
    lock.semaphore = lock'.semaphore → l = l'
  plain : ∀ t s, a.work t = some (.unit s) → a.MadeFor s .plain
  signal : ∀ t s l, a.work t = some (.signal s l) → a.MadeFor s .signal
  enlisted : ∀ c, ∀ waiter ∈ a.enlisted c, a.MadeFor waiter.semaphore .signal

/-- The unit of a lock is in a semaphore made for that. -/
theorem Sorted.purpose_of_unit {a : Ledger} (sorted : a.Sorted) (found : a.locks l = some lock)
    {value : Nat} {purpose : Purpose} (unit : a.semaphores lock.semaphore = some (value, purpose)) :
    purpose = .lock :=
  congrArg Prod.snd (Option.some.inj (unit.symm.trans (sorted.unit l lock found)))

/-- A lock whose unit is there is held by nobody. -/
theorem Sorted.unheld {a : Ledger} (sorted : a.Sorted) (found : a.locks l = some lock)
    {value : Nat} {purpose : Purpose}
    (unit : a.semaphores lock.semaphore = some (value + 1, purpose)) : lock.holder = none := by
  have same := (sorted.unit l lock found).symm.trans unit
  cases held : lock.holder with
  | none => rfl
  | some holder =>
    rw [held] at same
    cases same

end Ledger

theorem Kernel.MadeFor.ledger {purpose : Purpose} (made : k.MadeFor s purpose)
    (due : Option Pending) : (⟨k, due⟩ : Machine).ledger.MadeFor s purpose := by
  refine ⟨made.issued, fun stock stocked => ?_⟩
  obtain ⟨semaphore, found, rfl⟩ := Option.map_eq_some_iff.mp stocked
  exact made.purpose semaphore found

theorem Regular.sorted (regular : Regular d m) (named : d.plainHandles = true) :
    m.ledger.Sorted := by
  have graph := regular.graph named
  have plain := regular.plain named
  have works : ∀ t p, m.ledger.work t = some p → m.kernel.PlainWork p := by
    intro t p left
    obtain pending | ⟨_, due⟩ := Option.or_eq_some_iff.mp left
    · exact plain.pending t p pending
    · rw [Option.ite_none_right_eq_some] at due
      exact plain.due p due.2
  constructor
  case issued =>
    intro s stock stocked
    obtain ⟨semaphore, found, _⟩ := Option.map_eq_some_iff.mp stocked
    exact Arena.lt_next_of_get? found
  case unit =>
    intro l lock found
    obtain ⟨semaphore, foundUnit, purpose, value⟩ := graph.unit l lock found
    rw [← purpose, ← value]
    exact ledger_semaphores m.due foundUnit
  case distinct => exact graph.distinct
  case plain => exact fun t s left => Kernel.MadeFor.ledger (works t _ left) m.due
  case signal => exact fun t s l left => Kernel.MadeFor.ledger (works t _ left) m.due
  case enlisted => exact fun c waiter queued => (plain.awaited c waiter queued).ledger m.due

/-- What every entry keeps any number of moves keep.  The ledger is in order all the while,
and every act is one of the given deeds. -/
theorem Moves.ledger {deeds : List Deed} {motive : Ledger → Prop} (moves : Moves d deeds m m')
    (regular : Regular d m) (named : d.plainHandles = true) (start : motive m.ledger)
    (step : ∀ {act a b}, Entry d act a b → a.Sorted →
      (∀ one, act = some one → ⟨a.runner, one⟩ ∈ deeds) → motive a → motive b) :
    motive m'.ledger := by
  induction moves with
  | refl m => exact start
  | tail before move ih =>
    have middle := regular.moves before
    refine step (move.entry middle.toSound middle.tidy) (middle.sorted named) (fun one is => ?_)
      (ih regular start fun entry sorted acts => step entry sorted fun one is =>
        List.mem_append_left _ (acts one is))
    subst is
    exact List.mem_append_right _ (List.mem_singleton.mpr rfl)

end ThreadKernel
