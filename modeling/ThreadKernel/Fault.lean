import ThreadKernel.Handle
import ThreadKernel.Priority

/-!
# Fatal diagnostics

Misuse of the kernel, and any breach of its own bookkeeping, ends the run with
a `Fault`.  Each constructor is a cause; `Fault.message` is the one place that
words it.
-/

namespace ThreadKernel

/-- The operations that diagnostics name. -/
inductive Operation
  | create
  | setPriority
  | block
  | yield
  | exit
  | schedule
  | sleep
  | down
  | acquire
  | tryAcquire
  | release
  | wait
  | signal
  | broadcast
deriving DecidableEq

/-- An operation's name in diagnostics. -/
def Operation.text : Operation → String
  | .create => "create"
  | .setPriority => "set_priority"
  | .block => "block"
  | .yield => "yield"
  | .exit => "exit"
  | .schedule => "schedule"
  | .sleep => "sleep"
  | .down => "sema_down"
  | .acquire => "lock_acquire"
  | .tryAcquire => "lock_try_acquire"
  | .release => "lock_release"
  | .wait => "cond_wait"
  | .signal => "cond_signal"
  | .broadcast => "cond_broadcast"

instance : ToString Operation := ⟨Operation.text⟩

/-- Why a run cannot go on. -/
inductive Fault
  /-- A handle of this kind names nothing. -/
  | missing (kind : Kind) (index : Nat)
  /-- A thread was to be given a priority outside the range. -/
  | priorityOutOfRange (operation : Operation) (priority : Priority)
  /-- An operation that may give up the processor was called by a handler. -/
  | inInterrupt (operation : Operation)
  /-- The operation needs interrupts masked. -/
  | interruptsEnabled (operation : Operation)
  /-- The idle thread must stay runnable. -/
  | idleThread (operation : Operation)
  /-- Only a blocked thread can be unblocked. -/
  | notBlocked (thread : ThreadId)
  /-- A thread on a wait structure is not free to be made ready. -/
  | stillQueued (thread : ThreadId)
  | queuedTwice (thread : ThreadId)
  /-- The dispatcher was entered by a thread that has not given up running. -/
  | stillRunning (thread : ThreadId)
  /-- The current thread's record does not say that it runs. -/
  | notRunning (thread : ThreadId)
  /-- Nothing is ready and there is no idle thread yet. -/
  | nothingRunnable
  /-- The idle thread blocked with nothing ready, so the dispatcher would pick
  it for ever. -/
  | idleWaits
  | nestedInterrupt
  /-- An interrupt arrived while interrupts were masked. -/
  | interruptsMasked
  | semaphoreAwaited (semaphore : SemaphoreId) (waiters : Nat)
  | semaphoreOverflow (semaphore : SemaphoreId)
  | conditionAwaited (condition : ConditionId) (waiters : Nat)
  /-- A held lock cannot be destroyed. -/
  | lockHeld (lock : LockId) (holder : ThreadId)
  | alreadyHeld (operation : Operation) (lock : LockId) (thread : ThreadId)
  | notHeld (operation : Operation) (lock : LockId) (thread : ThreadId)
  /-- A counter outgrew its word. -/
  | counterOverflow
deriving DecidableEq

/-- The diagnostic's wording. -/
def Fault.message : Fault → String
  | .missing .thread index => s!"thread {index}: no such thread"
  | .missing .semaphore index => s!"unknown semaphore #{index}"
  | .missing .lock index => s!"unknown lock #{index}"
  | .missing .condition index => s!"unknown condition #{index}"
  | .priorityOutOfRange operation priority =>
    s!"{operation}: priority {priority} outside {Priority.lowest}..={Priority.highest}"
  | .inInterrupt operation => s!"{operation}: called from interrupt context"
  | .interruptsEnabled operation => s!"{operation}: interrupts must be disabled"
  | .idleThread operation => s!"{operation}: idle thread cannot {operation}"
  | .notBlocked thread => s!"unblock: thread {thread} is not blocked"
  | .stillQueued thread => s!"unblock: thread {thread} is still queued"
  | .queuedTwice thread => s!"thread {thread} queued twice"
  | .stillRunning thread => s!"schedule: thread {thread} is still running"
  | .notRunning thread => s!"current thread {thread} is not running"
  | .nothingRunnable => "schedule: no runnable thread before start"
  | .idleWaits => "schedule: idle thread waits with nothing ready"
  | .nestedInterrupt => "nested external interrupt"
  | .interruptsMasked => "interrupt delivered while interrupts are masked"
  | .semaphoreAwaited semaphore waiters => s!"sema_destroy: {semaphore} has {waiters} waiters"
  | .semaphoreOverflow semaphore => s!"sema_up: {semaphore} overflow"
  | .conditionAwaited condition waiters => s!"cond_destroy: {condition} has {waiters} waiters"
  | .lockHeld lock holder =>
    s!"lock_destroy: {lock} is held by thread Some(ThreadId({holder}))"
  | .alreadyHeld operation lock thread =>
    s!"{operation}: {lock} already held by thread {thread}"
  | .notHeld operation lock thread => s!"{operation}: {lock} not held by thread {thread}"
  | .counterOverflow => "attempt to add with overflow"

end ThreadKernel
