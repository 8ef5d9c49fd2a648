import ThreadKernel.Lock

/-!
# Condition variables

A wait releases the lock, waits for its own signal and takes the lock again
before it returns, so whoever waits has to look at the condition once more.  A
signal goes to the waiter whose thread has the highest effective priority at
that moment.
-/

namespace ThreadKernel

open Kernel

/-- Make a condition variable. -/
def Condition.create : KernelM ConditionId := do
  let k ← get
  set { k with conditions := k.conditions.push {} }
  pure k.conditions.next

namespace ConditionId

/-- Destroy a condition variable nobody waits on. -/
def destroy (c : ConditionId) : KernelM Unit := do
  let condition ← findCondition c
  require (condition.waiters = []) (.conditionAwaited c condition.waiters.length)
  modify fun k => { k with conditions := k.conditions.erase c }

/-- The waiting threads, in the order they were last put in. -/
def waiters (c : ConditionId) : KernelM (List ThreadId) :=
  return (← findCondition c).waiters.map Waiter.thread

/-- The waits on `c`, highest priority first. -/
def ranked (c : ConditionId) : KernelM (List Waiter) := do
  let rank ← ranks
  Ranked.sortWith (fun waiter => rank waiter.thread) (← findCondition c).waiters

/-- Queue a wait of the caller. -/
def enlist (c : ConditionId) (signal : SemaphoreId) : KernelM Unit := do
  let thread ← caller
  let rank ← ranks
  let waiters ← Ranked.insertWith (fun waiter => rank waiter.thread)
    { semaphore := signal, thread } (← c.ranked)
  modifyCondition c fun condition => { condition with waiters }
  note (.awaits thread c)

/-- Release the lock and wait for a signal, then take the lock again.  Releasing
may hand the processor on before the caller has begun to wait; the rest is then
left to the dispatcher. -/
def wait (c : ConditionId) (l : LockId) : KernelM Wait := do
  requireThreadContext .wait
  l.requireHeld .wait
  masked do
    let thread ← caller
    let signal ← Semaphore.create 0 .signal
    c.enlist signal
    modifyThread thread fun t => { t with pending := some (.signal signal l) }
    l.release
    if (← caller) ≠ thread then
      pure .suspended
    else
      modifyThread thread fun t => { t with pending := none }
      if ← l.reacquire signal then
        pure .completed
      else
        schedule
        pure .suspended

/-- Send a signal to the first waiter.  Says whether there was one. -/
def wakeFirst (c : ConditionId) : KernelM Bool := do
  let queued ← c.ranked
  modifyCondition c fun condition => { condition with waiters := queued.tail }
  match queued with
  | [] => pure false
  | waiter :: _ =>
    note (.signals c waiter.thread)
    waiter.semaphore.wake
    pure true

/-- Send signals to the first `count` waiters. -/
def wakeMany (c : ConditionId) : Nat → KernelM Unit
  | 0 => pure ()
  | count + 1 => do
    let _ ← c.wakeFirst
    c.wakeMany count

/-- Wake the waiter of highest priority, if any. -/
def signal (c : ConditionId) (l : LockId) : KernelM Unit := do
  requireThreadContext .signal
  l.requireHeld .signal
  masked do
    if ← c.wakeFirst then preempt

/-- Wake every waiter. -/
def broadcast (c : ConditionId) (l : LockId) : KernelM Unit := do
  requireThreadContext .broadcast
  l.requireHeld .broadcast
  masked do
    let count := (← findCondition c).waiters.length
    c.wakeMany count
    if 0 < count then preempt

end ConditionId

end ThreadKernel
