import ThreadKernel.Config
import ThreadKernel.Journal
import ThreadKernel.Processor
import ThreadKernel.ReadyQueue
import ThreadKernel.SleepQueue
import ThreadKernel.Primitive
import ThreadKernel.Thread
import ThreadKernel.Clock

/-!
# The kernel and its operations' monad

`Kernel` is the whole state: the thread table, the queues, the primitives and
the processor.  Every operation acts for the current thread and is a `KernelM`
action, which changes the kernel or ends in a fault; a fault leaves no kernel
behind.

The rest of the module is what all operations are made of: finding and changing
a record, writing to the journal, and running with interrupts masked.
-/

namespace ThreadKernel

/-- A process layer that is told which threads run and exit.  It keeps a record
only under a label. -/
structure Observer where
  label : Option String
deriving DecidableEq

/-- The state of a kernel. -/
structure Kernel where
  config : Config
  threads : ThreadTable
  ready : ReadyQueue
  clock : Clock
  processor : Processor := {}
  sleepers : SleepQueue := {}
  semaphores : Arena .semaphore Semaphore := .empty 0
  locks : Arena .lock Lock := .empty 0
  conditions : Arena .condition Condition := .empty 0
  /-- The thread that has the processor. -/
  current : ThreadId := .main
  /-- The thread that runs when nothing is ready, once there is one. -/
  idle : Option ThreadId := none
  /-- Exited threads, to be reclaimed at the next dispatch. -/
  dying : List ThreadId := []
  usage : Usage := {}
  /-- Ticks the current thread has run since it was dispatched. -/
  slice : Nat := 0
  inInterrupt : Bool := false
  /-- The handler that runs wants the processor given up when it returns. -/
  yieldDue : Bool := false
  observer : Option Observer := none
  /-- What happened, latest first. -/
  events : List Event := []
deriving DecidableEq

/-- An operation of the kernel. -/
abbrev KernelM := StateT Kernel (Except Fault)

namespace Kernel

/-- A kernel around the code that already runs, which becomes the initial
thread.  Interrupts are masked until the scheduler is started. -/
def fresh (config : Config) (rule : Reposition) : Kernel where
  config
  threads := .withMain { name := "main", base := Priority.default, state := .running }
  ready := { rule }
  clock := { frequency := config.timerHz }

/-- Whether `t` is the idle thread. -/
def isIdle (k : Kernel) (t : ThreadId) : Bool := k.idle = some t

/-- Whether the idle thread has the processor. -/
def idles (k : Kernel) : Bool := k.isIdle k.current

/-- The effective priority of `t`, the lowest if there is no such thread. -/
def priorityOf (k : Kernel) (t : ThreadId) : Priority :=
  (k.threads.get? t).elim Priority.lowest (·.priority)

/-! ## Checks and records -/

/-- Go on only if `p` holds. -/
def require (p : Prop) [Decidable p] (fault : Fault) : KernelM Unit :=
  if p then pure () else throw fault

/-- The thread an operation acts for. -/
def caller : KernelM ThreadId := return (← get).current

def findThread (t : ThreadId) : KernelM Thread := do (← get).threads.find t

def findSemaphore (s : SemaphoreId) : KernelM Semaphore := do (← get).semaphores.find s

def findLock (l : LockId) : KernelM Lock := do (← get).locks.find l

def findCondition (c : ConditionId) : KernelM Condition := do (← get).conditions.find c

/-- Change the record of a thread that must exist. -/
def modifyThread (t : ThreadId) (f : Thread → Thread) : KernelM Unit := do
  let _ ← findThread t
  modify fun k => { k with threads := k.threads.modify t f }

def modifySemaphore (s : SemaphoreId) (f : Semaphore → Semaphore) : KernelM Unit := do
  let _ ← findSemaphore s
  modify fun k => { k with semaphores := k.semaphores.modify s f }

def modifyLock (l : LockId) (f : Lock → Lock) : KernelM Unit := do
  let _ ← findLock l
  modify fun k => { k with locks := k.locks.modify l f }

def modifyCondition (c : ConditionId) (f : Condition → Condition) : KernelM Unit := do
  let _ ← findCondition c
  modify fun k => { k with conditions := k.conditions.modify c f }

/-- The priority of a thread that must exist, for putting lists in order. -/
def ranks : KernelM (ThreadId → Except Fault Priority) := return (← get).threads.rank

/-! ## The journal -/

/-- What happened, in order. -/
def journal (k : Kernel) : Journal := k.events.reverse

def note (event : Event) : KernelM Unit :=
  modify fun k => { k with events := event :: k.events }

/-- Tell the observer, which records it under its label. -/
def announce (event : String → Event) : KernelM Unit := do
  match (← get).observer.bind Observer.label with
  | some label => note (event label)
  | none => pure ()

/-- Install an observer, and say whether there was one. -/
def observe (observer : Observer) : KernelM Bool := do
  let k ← get
  set { k with observer := some observer }
  pure k.observer.isSome

/-! ## Interrupt levels -/

/-- Change the interrupt level, and return the one it replaces. -/
def setLevel (level : Level) : KernelM Level := do
  let k ← get
  set { k with processor := k.processor.setLevel level }
  pure k.processor.level

/-- Run `body` with interrupts masked, then restore the level found. -/
def masked {α : Type} (body : KernelM α) : KernelM α := do
  let level ← setLevel .off
  let result ← body
  let _ ← setLevel level
  pure result

end Kernel

end ThreadKernel
