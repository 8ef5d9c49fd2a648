import ThreadKernel.Session.Request

/-!
# Reachable kernels

A run starts from a fresh kernel and performs one request after the other, some
of them inside an interrupt handler.  What holds of every run is said about
`Reachable`; a `Discipline` says what the run is known not to ask for.

An operation that faults leaves no kernel behind, so a run has only operations
that end well.
-/

namespace ThreadKernel

/-- What the requests of a run are known to abide by. -/
structure Discipline where
  /-- Semaphore operations name semaphores made by `Request.createSemaphore` only,
  neither a lock's own nor the private one of a wait. -/
  plainHandles : Bool := false
  /-- The idle thread waits for no semaphore, lock or condition. -/
  idleNeverWaits : Bool := false
  /-- Nobody unblocks the idle thread by name. -/
  idleSpared : Bool := false
  /-- Nobody unblocks a thread by name at all. -/
  neverUnblocks : Bool := false
  /-- The idle thread waits for no condition. -/
  idleNeverAwaits : Bool := false
  /-- Nobody exits with a lock in hand, and nothing is destroyed that a suspended
  operation still names. -/
  careful : Bool := false
deriving DecidableEq

/-- The semaphore that is named by itself, and not through its lock. -/
def Pending.semaphore? : Pending → Option SemaphoreId
  | .unit s => some s
  | .lock _ => none
  | .signal s _ => some s

/-- The lock that a thread has in the end when it has finished this work. -/
def Pending.lock? : Pending → Option LockId
  | .unit _ => none
  | .lock l => some l
  | .signal _ l => some l

namespace Request

/-- The semaphore that a semaphore operation names. -/
def namedSemaphore? : Request → Option SemaphoreId
  | .destroySemaphore s | .down s | .tryDown s | .up s | .semaphoreValue s
  | .semaphoreWaiters s => some s
  | _ => none

/-- Whether the operation may make its caller wait for a semaphore, a lock or a
condition. -/
def mayWait : Request → Bool
  | .down _ | .acquire _ | .wait _ _ => true
  | _ => false

/-- Whether the operation may make its caller wait for a condition. -/
def mayAwait : Request → Bool
  | .wait _ _ => true
  | _ => false

/-- The thread that is unblocked by name. -/
def unblocked? : Request → Option ThreadId
  | .unblock t => some t
  | _ => none

/-- The semaphore that is destroyed. -/
def destroyedSemaphore? : Request → Option SemaphoreId
  | .destroySemaphore s => some s
  | _ => none

/-- The lock that is destroyed. -/
def destroyedLock? : Request → Option LockId
  | .destroyLock l => some l
  | _ => none

/-- What the operation ends is nobody's concern any more. -/
def Careful (k : Kernel) (r : Request) : Prop :=
  (r = .exit → k.heldBy k.current = []) ∧
    (∀ s ∈ r.destroyedSemaphore?, ∀ entry ∈ k.threads.entries, entry.2.pending ≠ some (.unit s)) ∧
    ∀ l ∈ r.destroyedLock?, ∀ entry ∈ k.threads.entries, ∀ p ∈ entry.2.pending, p.lock? ≠ some l

instance (k : Kernel) (r : Request) : Decidable (r.Careful k) :=
  inferInstanceAs (Decidable (_ ∧ _ ∧ _))

/-- The request abides by `d` when it is made from `k`. -/
structure Obeys (r : Request) (d : Discipline) (k : Kernel) : Prop where
  plain : d.plainHandles = true → ∀ s ∈ r.namedSemaphore?,
    ∀ semaphore ∈ k.semaphores.get? s, semaphore.purpose = .plain
  idles : d.idleNeverWaits = true → r.mayWait = true → k.idles = false
  spared : d.idleSpared = true → ∀ t ∈ r.unblocked?, k.isIdle t = false
  unblocks : d.neverUnblocks = true → r.unblocked? = none
  awaits : d.idleNeverAwaits = true → r.mayAwait = true → k.idles = false
  careful : d.careful = true → r.Careful k

instance (r : Request) (d : Discipline) (k : Kernel) : Decidable (r.Obeys d k) :=
  decidable_of_iff
    ((d.plainHandles = true → ∀ s ∈ r.namedSemaphore?,
        ∀ semaphore ∈ k.semaphores.get? s, semaphore.purpose = .plain) ∧
      (d.idleNeverWaits = true → r.mayWait = true → k.idles = false) ∧
      (d.idleSpared = true → ∀ t ∈ r.unblocked?, k.isIdle t = false) ∧
      (d.neverUnblocks = true → r.unblocked? = none) ∧
      (d.idleNeverAwaits = true → r.mayAwait = true → k.idles = false) ∧
      (d.careful = true → r.Careful k))
    ⟨fun ⟨plain, idles, spared, unblocks, awaits, careful⟩ =>
        ⟨plain, idles, spared, unblocks, awaits, careful⟩,
      fun ⟨plain, idles, spared, unblocks, awaits, careful⟩ =>
        ⟨plain, idles, spared, unblocks, awaits, careful⟩⟩

/-- Every request abides by nothing at all. -/
theorem obeys_nothing (r : Request) (k : Kernel) : r.Obeys {} k := by
  constructor
  all_goals
    intro asked
    cases asked

end Request

open Kernel in
/-- One operation of a run that abides by `d`.  A handler's operations are requests
between the interrupt's delivery and its return. -/
inductive Transit (d : Discipline) : Kernel → Kernel → Prop
  | request {k k' : Kernel} {r : Request} {reply : Reply} (obeys : r.Obeys d k)
      (ran : r.perform.run k = .ok (reply, k')) : Transit d k k'
  | enter {k k' : Kernel} (ran : enterInterrupt.run k = .ok ((), k')) : Transit d k k'
  | leave {k k' : Kernel} (inside : k.inInterrupt = true)
      (ran : leaveInterrupt.run k = .ok ((), k')) : Transit d k k'

/-- The kernels that a run abiding by `d` can get to, in between its operations
and in between those of an interrupt handler. -/
inductive Reachable (d : Discipline) : Kernel → Prop
  | fresh (config : Config) (rule : Reposition) : Reachable d (.fresh config rule)
  | step {k k' : Kernel} (before : Reachable d k) (transit : Transit d k k') : Reachable d k'

/-! ## Runs that can be carried out -/

/-- What happens in a run, one after the other. -/
inductive Occurrence
  | request (request : Request)
  | enter
  | leave

open Kernel in
/-- Carry out one operation of a run.  `none` if it faults or does not abide by `d`. -/
def Discipline.occur (d : Discipline) (k : Kernel) : Occurrence → Option Kernel
  | .request r => if r.Obeys d k then (r.perform.run k).toOption.map Prod.snd else none
  | .enter => (enterInterrupt.run k).toOption.map Prod.snd
  | .leave => if k.inInterrupt then (leaveInterrupt.run k).toOption.map Prod.snd else none

/-- Carry out a run. -/
def Discipline.occurAll (d : Discipline) : List Occurrence → Kernel → Option Kernel
  | [], k => some k
  | first :: rest, k => (d.occur k first).bind (d.occurAll rest)

/-- Perform requests, one after the other. -/
def Discipline.performAll (d : Discipline) (requests : List Request) : Kernel → Option Kernel :=
  d.occurAll (requests.map .request)

theorem ok_of_toOption {α : Type} {x : Except Fault α} {a : α} (h : x.toOption = some a) :
    x = .ok a := by
  cases x with
  | error => cases h
  | ok => exact congrArg _ (Option.some.inj h)

theorem ran_of_toOption {α : Type} {x : Except Fault (α × Kernel)} {k' : Kernel}
    (h : x.toOption.map Prod.snd = some k') : ∃ a, x = .ok (a, k') := by
  obtain ⟨step, ran, rfl⟩ := Option.map_eq_some_iff.mp h
  exact ⟨step.1, ok_of_toOption ran⟩

open Kernel in
/-- What happens in a run, and the operation that carries it out. -/
inductive Discipline.Occurs (d : Discipline) (k : Kernel) : Occurrence → Kernel → Prop
  | request {k' : Kernel} {r : Request} {reply : Reply} (obeys : r.Obeys d k)
      (ran : r.perform.run k = .ok (reply, k')) : Occurs d k (.request r) k'
  | enter {k' : Kernel} (ran : enterInterrupt.run k = .ok ((), k')) : Occurs d k .enter k'
  | leave {k' : Kernel} (inside : k.inInterrupt = true)
      (ran : leaveInterrupt.run k = .ok ((), k')) : Occurs d k .leave k'

theorem Discipline.occur_eq_some_iff {d : Discipline} {k k' : Kernel} {o : Occurrence} :
    d.occur k o = some k' ↔ d.Occurs k o k' := by
  constructor
  · intro h
    cases o with
    | request r =>
      rw [occur] at h
      split at h
      · next obeys =>
        obtain ⟨reply, ran⟩ := ran_of_toOption h
        exact .request obeys ran
      · cases h
    | enter =>
      obtain ⟨_, ran⟩ := ran_of_toOption h
      exact .enter ran
    | leave =>
      rw [occur] at h
      split at h
      · next inside =>
        obtain ⟨_, ran⟩ := ran_of_toOption h
        exact .leave inside ran
      · cases h
  · intro occurs
    cases occurs with
    | request obeys ran =>
      rw [occur, if_pos obeys, ran]
      rfl
    | enter ran =>
      rw [occur, ran]
      rfl
    | leave inside ran =>
      rw [occur, if_pos inside, ran]
      rfl

theorem transit_of_occur {d : Discipline} {k k' : Kernel} {o : Occurrence}
    (h : d.occur k o = some k') : Transit d k k' := by
  cases Discipline.occur_eq_some_iff.mp h with
  | request obeys ran => exact .request obeys ran
  | enter ran => exact .enter ran
  | leave inside ran => exact .leave inside ran

theorem Reachable.occurAll {d : Discipline} {occurrences : List Occurrence} {k k' : Kernel}
    (before : Reachable d k) (h : d.occurAll occurrences k = some k') : Reachable d k' := by
  induction occurrences generalizing k with
  | nil =>
    cases h
    exact before
  | cons first rest ih =>
    obtain ⟨middle, occurs, h⟩ := Option.bind_eq_some_iff.mp h
    exact ih (before.step (transit_of_occur occurs)) h

theorem Reachable.performAll {d : Discipline} {requests : List Request} {k k' : Kernel}
    (before : Reachable d k) (h : d.performAll requests k = some k') : Reachable d k' :=
  before.occurAll h

end ThreadKernel
