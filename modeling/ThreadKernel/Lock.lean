import ThreadKernel.Semaphore

/-!
# Lock operations

A lock is not recursive, and only its holder may release it.
-/

namespace ThreadKernel

open Kernel

/-- Make a lock that nobody holds. -/
def Lock.create : KernelM LockId := do
  let semaphore ← Semaphore.create 1 .lock
  let k ← get
  set { k with locks := k.locks.push { semaphore } }
  pure k.locks.next

namespace LockId

def holder (l : LockId) : KernelM (Option ThreadId) := return (← findLock l).holder

def isHeldByCaller (l : LockId) : KernelM Bool := return (← l.holder) = some (← caller)

/-- The threads waiting to acquire the lock. -/
def waiters (l : LockId) : KernelM (List ThreadId) := do (← findLock l).semaphore.waiters

/-- Destroy a lock that nobody holds. -/
def destroy (l : LockId) : KernelM Unit := do
  let lock ← findLock l
  match lock.holder with
  | some holder => throw (.lockHeld l holder)
  | none =>
    modify fun k => { k with locks := k.locks.erase l }
    lock.semaphore.destroy

/-- Fail unless the caller holds the lock. -/
def requireHeld (l : LockId) (operation : Operation) : KernelM Unit := do
  require (← l.isHeldByCaller) (.notHeld operation l (← caller))

/-- Fail if the caller holds the lock. -/
def requireNotHeld (l : LockId) (operation : Operation) : KernelM Unit := do
  require (¬ (← l.isHeldByCaller)) (.alreadyHeld operation l (← caller))

/-- Take the lock, blocking until it is free. -/
def acquire (l : LockId) : KernelM Wait := do
  requireThreadContext .acquire
  l.requireNotHeld .acquire
  masked do
    if ← l.attempt then
      pure .completed
    else
      schedule
      pure .suspended

/-- Take the lock if it is free. -/
def tryAcquire (l : LockId) : KernelM Bool := do
  l.requireNotHeld .tryAcquire
  masked do
    if ← (← findLock l).semaphore.tryDown then
      l.hold
      pure true
    else
      pure false

/-- Give the caller's donors back that wait for this lock, and those that are
gone. -/
def dropDonors (l : LockId) : KernelM Unit := do
  let k ← get
  let waitsElsewhere := fun donor =>
    (k.threads.get? donor).any fun thread => thread.waitingOn ≠ some l
  modifyThread k.current fun thread =>
    { thread with donors := thread.donors.filter waitsElsewhere }
  refresh k.current

/-- Release the lock, and yield to the woken waiter if it outranks the caller. -/
def release (l : LockId) : KernelM Unit := do
  l.requireHeld .release
  masked do
    let t ← caller
    l.dropDonors
    modifyLock l fun lock => { lock with holder := none }
    note (.releases t l)
    (← findLock l).semaphore.up

end LockId

end ThreadKernel
