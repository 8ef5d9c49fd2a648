import ThreadKernel.Proofs.Effects
import ThreadKernel.Proofs.Reachable

/-!
# Moves

An operation is a sequence of moves, each of which does one thing that makes
sense by itself: a thread becomes ready, the processor is handed on, a unit is
taken, a lock is released and its first waiter woken.  In between the moves of
an operation the state is a `Machine`: a kernel, and the pending work that the
dispatcher has taken up for the thread it switched to and not yet tried.

A move that the current thread makes of its own accord is an `Act`, and `Moves`
keeps the account of who has acted how.  What the dispatcher does for a thread
is nobody's act.

An invariant is proved once for every move.  `ThreadKernel/Proofs/Operations.lean`
decomposes the operations into moves, and so carries the invariant to every run.
-/

namespace ThreadKernel

/-- A kernel, and what is left to be tried for its current thread. -/
structure Machine where
  kernel : Kernel
  due : Option Pending := none

namespace Kernel

/-- The semaphore that pending work tries next. -/
def target? (k : Kernel) : Pending → Option SemaphoreId
  | .unit s => some s
  | .lock l => (k.locks.get? l).map (·.semaphore)
  | .signal s _ => some s

/-- What `t` has left to do when it next runs. -/
def pending? (k : Kernel) (t : ThreadId) : Option Pending :=
  (k.threads.get? t).bind (·.pending)

/-- The tick that `t` last slept until, zero if there is no such thread. -/
def wakeTickOf (k : Kernel) (t : ThreadId) : Nat := (k.threads.get? t).elim 0 (·.wakeTick)

/-- The semaphore that `t` tries when it next runs. -/
def aim? (k : Kernel) (t : ThreadId) : Option SemaphoreId := (k.pending? t).bind k.target?

/-- Who holds `l`, if anybody does. -/
def holder? (k : Kernel) (l : LockId) : Option ThreadId := (k.locks.get? l).bind (·.holder)

/-- A semaphore that was made for `purpose`, whether or not it is still there. -/
structure MadeFor (k : Kernel) (s : SemaphoreId) (purpose : Purpose) : Prop where
  issued : s.index < k.semaphores.next.index
  purpose : ∀ semaphore, k.semaphores.get? s = some semaphore → semaphore.purpose = purpose

/-- A semaphore that was made, and not to be the unit of a lock. -/
structure Ordinary (k : Kernel) (s : SemaphoreId) : Prop where
  issued : s.index < k.semaphores.next.index
  purpose : ∀ semaphore, k.semaphores.get? s = some semaphore → semaphore.purpose ≠ .lock

theorem MadeFor.ordinary {k : Kernel} {s : SemaphoreId} {purpose : Purpose}
    (made : k.MadeFor s purpose) (other : purpose ≠ .lock) : k.Ordinary s := by
  refine ⟨made.issued, fun semaphore found => ?_⟩
  rw [made.purpose semaphore found]
  exact other

/-- The waits queued on `c`, none if there is no such condition. -/
def enlisted (k : Kernel) (c : ConditionId) : List Waiter :=
  (k.conditions.get? c).elim [] (·.waiters)

theorem enlisted_of_get? {k : Kernel} {c : ConditionId} {condition : Condition}
    (found : k.conditions.get? c = some condition) : k.enlisted c = condition.waiters := by
  rw [enlisted, found, Option.elim_some]

theorem isIdle_iff {k : Kernel} {t : ThreadId} : k.isIdle t = true ↔ k.idle = some t := by
  rw [isIdle, decide_eq_true_iff]

theorem idles_iff {k : Kernel} : k.idles = true ↔ k.idle = some k.current := isIdle_iff

/-- The current thread has the processor. -/
def Running (k : Kernel) : Prop :=
  ∃ thread, k.threads.get? k.current = some thread ∧ thread.state = .running

/-- The current thread has the processor, and nothing to finish first. -/
def Runs (k : Kernel) : Prop :=
  ∃ thread, k.threads.get? k.current = some thread ∧ thread.state = .running ∧
    thread.pending = none

/-- If the current thread has exited, no other one is left to be reclaimed. -/
def Swept (k : Kernel) : Prop :=
  ∀ thread, k.threads.get? k.current = some thread → thread.state = .dying → k.dying = []

theorem Runs.running {k : Kernel} (runs : k.Runs) : k.Running := by
  obtain ⟨thread, found, running, _⟩ := runs
  exact ⟨thread, found, running⟩

/-- No thread, list, semaphore, lock or account has changed. -/
structure SameWork (k k' : Kernel) : Prop where
  config : k'.config = k.config
  threads : k'.threads = k.threads
  ready : k'.ready = k.ready
  sleepers : k.sleepers.Rescanned k.clock.ticks k.wakeTickOf k'.sleepers
  semaphores : k'.semaphores = k.semaphores
  locks : k'.locks = k.locks
  enlisted : ∀ c, k'.enlisted c = k.enlisted c
  current : k'.current = k.current
  idle : k'.idle = k.idle
  dying : k'.dying = k.dying
  clock : k'.clock = k.clock
  usage : k'.usage = k.usage
  slice : k'.slice = k.slice
  events : Remarks k.events k'.events

/-- The kernel one tick later, which may have asked for a yield. -/
@[simps]
def ticked (k : Kernel) (usage : Usage) : Kernel :=
  { k with
    clock := { k.clock with ticks := k.clock.ticks + 1 }
    usage
    slice := k.slice + 1
    yieldDue := k.yieldDue || decide (k.config.timeSlice ≤ k.slice + 1) }

end Kernel

/-- What `t` has left to do, be it taken up or not. -/
def Machine.work? (m : Machine) (t : ThreadId) : Option Pending :=
  (m.kernel.pending? t).or (if t = m.kernel.current then m.due else none)

theorem Machine.work?_none (k : Kernel) (t : ThreadId) : (⟨k, none⟩ : Machine).work? t = k.pending? t := by
  rw [work?, ite_self, Option.or_none]

/-- The idle thread is known never to wait, nor to be unblocked. -/
def Discipline.sparesIdle (d : Discipline) : Prop := d.idleNeverWaits = true ∧ d.idleSpared = true

/-- What a thread does of its own accord to a unit, a lock or a wait. -/
inductive Act
  | create (semaphore : SemaphoreId)
  | destroy (semaphore : SemaphoreId)
  | take (semaphore : SemaphoreId)
  | down (semaphore : SemaphoreId)
  | acquire (lock : LockId)
  | seize (lock : LockId)
  | release (lock : LockId)
  /-- To queue a wait on a condition, with a lock in hand. -/
  | enlist (condition : ConditionId) (lock : LockId)
  /-- To begin to wait for the signal. -/
  | undertake
  | signal (condition : ConditionId)
  | tick
deriving DecidableEq

/-- A thread tries for what it wants of its own accord, or the dispatcher tries for it. -/
inductive Onset (d : Discipline) (k : Kernel) (act : Act) (work : Pending) :
    Option Act → Option Pending → Prop
  | direct (waits : d.sparesIdle → k.idle ≠ some k.current) : Onset d k act work (some act) none
  | resumed : Onset d k act work none (some work)

namespace Onset

variable {d : Discipline} {k : Kernel} {act : Act} {work : Pending} {own : Option Act}
  {taken : Option Pending}

theorem due (onset : Onset d k act work own taken) : taken = none ∨ taken = some work := by
  cases onset with
  | direct _ => exact .inl rfl
  | resumed => exact .inr rfl

theorem waits (onset : Onset d k act work own taken) (undue : taken = none)
    (spares : d.sparesIdle) : k.idle ≠ some k.current := by
  cases onset with
  | direct waits => exact waits spares
  | resumed => cases undue

end Onset

open Kernel in
/-- One thing that an operation does, of the current thread's own accord if it is an act. -/
inductive Move (d : Discipline) : Option Act → Machine → Machine → Prop
  | quiet {k k' : Kernel} (same : k.SameWork k') : Move d none ⟨k, none⟩ ⟨k', none⟩
  | tick {k : Kernel} {usage : Usage} (charged : usage = k.usage.chargeIdle ∨
      usage = k.usage.chargeUser ∨ usage = k.usage.chargeKernel) :
      Move d (some .tick) ⟨k, none⟩ ⟨k.ticked usage, none⟩
  | enroll {k : Kernel} {thread : Thread} (blocked : thread.state = .blocked)
      (detached : thread.place = .detached) (pending : thread.pending = none)
      (unwaiting : thread.waitingOn = none) (donors : thread.donors = [])
      (priority : thread.priority = thread.base) :
      Move d none ⟨k, none⟩ ⟨{ k with threads := k.threads.push thread }, none⟩
  | appoint {k : Kernel} {t : ThreadId} {thread : Thread}
      (found : k.threads.get? t = some thread) (blocked : thread.state = .blocked)
      (detached : thread.place = .detached) (pending : thread.pending = none)
      (other : t ≠ k.current) : Move d none ⟨k, none⟩ ⟨{ k with idle := some t }, none⟩
  | unblock {k k' : Kernel} {t : ThreadId} (spared : d.sparesIdle → k.idle ≠ some t)
      (ran : (unblock t).run k = .ok ((), k')) : Move d none ⟨k, none⟩ ⟨k', none⟩
  | ready {k : Kernel} {thread : Thread} (found : k.threads.get? k.current = some thread)
      (running : thread.state = .running) (other : k.idle ≠ some k.current) :
      Move d none ⟨k, none⟩ ⟨k.readied k.current thread.priority, none⟩
  | halt {k : Kernel} {state : RunState} (running : k.Running)
      (whole : k.Runs ∨ k.idle = some k.current)
      (halts : state = .blocked ∨ state = .dying ∧ k.idle ≠ some k.current ∧
        (d.careful = true → ∀ l, k.holder? l ≠ some k.current)) :
      Move d none ⟨k, none⟩ ⟨k.mapThread k.current fun old => { old with state }, none⟩
  | doze {k : Kernel} {tick : Nat} {events : List Event} (runs : k.Runs)
      (other : k.idle ≠ some k.current) (told : Remarks k.events events)
      (ahead : k.clock.ticks < tick) :
      Move d none ⟨k, none⟩ ⟨((k.mapThread k.current fun old =>
        { old with wakeTick := tick, place := .sleep, state := .blocked }).withSleepers
          (k.sleepers.push k.current tick)).withEvents events, none⟩
  | rise {k : Kernel} {t : ThreadId} {thread : Thread} {events : List Event}
      (sleepers : SleepQueue) (found : k.threads.get? t = some thread)
      (perm : k.sleepers.sleepers.Perm (t :: sleepers.sleepers))
      (due : thread.wakeTick ≤ k.clock.ticks) (told : Remarks k.events events) :
      Move d none ⟨k, none⟩ ⟨(((k.mapThread t fun old =>
        { old with place := .detached }).withSleepers sleepers).withEvents events).readied t
          thread.priority, none⟩
  | reclaim {k k' : Kernel} (ran : reclaim.run k = .ok ((), k')) :
      Move d none ⟨k, none⟩ ⟨k', none⟩
  | pick {k : Kernel} {previous thread : Thread} {next : ThreadId} {place : Place}
      {ready : ReadyQueue} {processor : Processor} {dying : List ThreadId} {events : List Event}
      (foundPrevious : k.threads.get? k.current = some previous)
      (halted : previous.state ≠ .running) (found : k.threads.get? next = some thread)
      (picks : k.Picks next thread place ready)
      (fallback : k.ready.pop? = none → k.idle = some next → thread.place = .detached)
      (departs : Departs k.dying k.current next previous dying)
      (handed : HandedOn k.current next k.events events) (swept : k.Swept) :
      Move d none ⟨k, none⟩ ⟨k.dispatched next place ready processor dying events, thread.pending⟩
  | create {k : Kernel} {value : Nat} :
      Move d (some (.create k.semaphores.next)) ⟨k, none⟩
        ⟨{ k with semaphores := k.semaphores.push { value, purpose := .plain } }, none⟩
  | destroy {k k' : Kernel} {s : SemaphoreId} (plain : d.plainHandles = true → k.MadeFor s .plain)
      (unnamed : d.careful = true → ∀ t, k.pending? t ≠ some (.unit s))
      (ran : s.destroy.run k = .ok ((), k')) : Move d (some (.destroy s)) ⟨k, none⟩ ⟨k', none⟩
  | createLock {k : Kernel} :
      Move d none ⟨k, none⟩ ⟨{ k with
        semaphores := k.semaphores.push { value := 1, purpose := .lock }
        locks := k.locks.push { semaphore := k.semaphores.next } }, none⟩
  | destroyLock {k k' : Kernel} {l : LockId} {lock : Lock}
      (found : k.locks.get? l = some lock) (unheld : lock.holder = none)
      (unnamed : d.careful = true → ∀ t p, k.pending? t = some p → p.lock? ≠ some l)
      (ran : lock.semaphore.destroy.run { k with locks := k.locks.erase l } = .ok ((), k')) :
      Move d none ⟨k, none⟩ ⟨k', none⟩
  | take {k k' : Kernel} {s : SemaphoreId} (runs : k.Runs)
      (plain : d.plainHandles = true → k.MadeFor s .plain)
      (ran : s.take.run k = .ok (true, k')) : Move d (some (.take s)) ⟨k, none⟩ ⟨k', none⟩
  | attempt {k k' : Kernel} {act : Option Act} {due : Option Pending} {s : SemaphoreId}
      {success : Bool} (runs : k.Runs) (plain : d.plainHandles = true → k.MadeFor s .plain)
      (onset : Onset d k (.down s) (.unit s) act due)
      (ran : (s.attempt (.unit s)).run k = .ok (success, k')) : Move d act ⟨k, due⟩ ⟨k', none⟩
  | attemptLock {k k' : Kernel} {act : Option Act} {due : Option Pending} {l : LockId}
      {success : Bool} (runs : k.Runs) (onset : Onset d k (.acquire l) (.lock l) act due)
      (ran : l.attempt.run k = .ok (success, k')) : Move d act ⟨k, due⟩ ⟨k', none⟩
  | seize {k taken k' : Kernel} {l : LockId} {lock : Lock} (runs : k.Runs)
      (found : k.locks.get? l = some lock)
      (takes : lock.semaphore.take.run k = .ok (true, taken))
      (ran : l.hold.run taken = .ok ((), k')) : Move d (some (.seize l)) ⟨k, none⟩ ⟨k', none⟩
  | release {k dropped k' : Kernel} {l : LockId} {lock : Lock} (running : k.Running)
      (found : k.locks.get? l = some lock) (holds : lock.holder = some k.current)
      (drops : l.dropDonors.run k = .ok ((), dropped))
      (ran : lock.semaphore.wake.run ((dropped.mapLock l fun old =>
        { old with holder := none }).withEvents (.releases k.current l :: dropped.events)) =
          .ok ((), k')) : Move d (some (.release l)) ⟨k, none⟩ ⟨k', none⟩
  | wake {k k' : Kernel} {s : SemaphoreId} (plain : d.plainHandles = true → k.MadeFor s .plain)
      (ran : s.wake.run k = .ok ((), k')) : Move d none ⟨k, none⟩ ⟨k', none⟩
  | rebase {k k' : Kernel} {base : Priority} (running : k.Running)
      (ran : (refresh k.current).run (k.mapThread k.current fun old => { old with base }) =
        .ok ((), k')) : Move d none ⟨k, none⟩ ⟨k', none⟩
  | enlist {k : Kernel} {c : ConditionId} {l : LockId} {condition : Condition}
      {waiters : List Waiter} (runs : k.Runs)
      (waits : d.idleNeverWaits = true ∨ d.idleNeverAwaits = true → k.idle ≠ some k.current)
      (holds : k.holder? l = some k.current) (found : k.conditions.get? c = some condition)
      (joins : waiters = Ranked.join k.worth ⟨k.semaphores.next, k.current⟩ condition.waiters) :
      Move d (some (.enlist c l)) ⟨k, none⟩ ⟨c.joined l waiters k, none⟩
  | undertake {k : Kernel} {thread : Thread} {s : SemaphoreId} {l : LockId}
      (found : k.threads.get? k.current = some thread) (running : thread.state = .running)
      (pending : thread.pending = some (.signal s l)) :
      Move d (some .undertake) ⟨k, none⟩
        ⟨k.mapThread k.current fun old => { old with pending := none }, some (.signal s l)⟩
  | signal {k k' : Kernel} {c : ConditionId} {condition : Condition} {waiter : Waiter}
      {rest : List Waiter} (found : k.conditions.get? c = some condition)
      (first : Ranked.sort k.worth condition.waiters = waiter :: rest)
      (ran : waiter.semaphore.wake.run (c.called waiter.thread rest k) = .ok ((), k')) :
      Move d (some (.signal c)) ⟨k, none⟩ ⟨k', none⟩
  | signalled {k tried k' : Kernel} {s : SemaphoreId} {l : LockId} (runs : k.Runs)
      (takes : (s.attempt (.signal s l)).run k = .ok (true, tried))
      (ran : s.destroy.run tried = .ok ((), k')) :
      Move d none ⟨k, some (.signal s l)⟩ ⟨k', some (.lock l)⟩
  | unsignalled {k k' : Kernel} {s : SemaphoreId} {l : LockId} (runs : k.Runs)
      (ran : (s.attempt (.signal s l)).run k = .ok (false, k')) :
      Move d none ⟨k, some (.signal s l)⟩ ⟨k', none⟩

/-- An act, and the thread whose it is. -/
structure Deed where
  thread : ThreadId
  act : Act
deriving DecidableEq

/-- The deed that a move from `m` is, if it is one. -/
def Machine.deeds (m : Machine) (act : Option Act) : List Deed :=
  act.toList.map fun act => ⟨m.kernel.current, act⟩

/-- Any number of moves, with the deeds that are among them. -/
inductive Moves (d : Discipline) : List Deed → Machine → Machine → Prop
  | refl (m : Machine) : Moves d [] m m
  | tail {deeds : List Deed} {act : Option Act} {m m' m'' : Machine} (before : Moves d deeds m m')
      (move : Move d act m' m'') : Moves d (deeds ++ m'.deeds act) m m''

namespace Moves

variable {d : Discipline} {deeds deeds' : List Deed} {act : Option Act} {m m' m'' : Machine}

theorem single (move : Move d act m m') : Moves d (m.deeds act) m m' := (refl m).tail move

theorem trans (first : Moves d deeds m m') (second : Moves d deeds' m' m'') :
    Moves d (deeds ++ deeds') m m'' := by
  induction second with
  | refl m =>
    rw [List.append_nil]
    exact first
  | tail _ move ih =>
    rw [← List.append_assoc]
    exact (ih first).tail move

theorem head (move : Move d act m m') (rest : Moves d deeds m' m'') :
    Moves d (m.deeds act ++ deeds) m m'' :=
  (single move).trans rest

/-- A move that is nobody's act adds no deed. -/
theorem silent (before : Moves d deeds m m') (move : Move d none m' m'') :
    Moves d deeds m m'' := by
  have moved := before.tail move
  rwa [Machine.deeds, Option.toList_none, List.map_nil, List.append_nil] at moved

theorem silentHead (move : Move d none m m') (rest : Moves d deeds m' m'') :
    Moves d deeds m m'' := head move rest

/-- What every move keeps any number of moves keep. -/
theorem induction {motive : Machine → Prop} (moves : Moves d deeds m m') (start : motive m)
    (step : ∀ {act m m'}, Move d act m m' → motive m → motive m') : motive m' := by
  induction moves with
  | refl m => exact start
  | tail _ move ih => exact step move (ih start)

end Moves

end ThreadKernel
