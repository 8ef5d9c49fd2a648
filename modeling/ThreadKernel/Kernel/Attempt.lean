import ThreadKernel.Kernel.Donation

/-!
# Attempts

A blocking operation is an attempt that either takes what it wants or queues
the caller, marks it blocked and leaves behind, as its pending work, how to try
again.  After a failed attempt the processor must be given up.  Attempts never
dispatch, so the dispatcher can run them for a thread it has just switched to.
-/

namespace ThreadKernel

open Kernel

/-- Make a semaphore. -/
def Semaphore.create (value : Nat) (purpose : Purpose) : KernelM SemaphoreId := do
  let k ← get
  set { k with semaphores := k.semaphores.push { value, purpose } }
  pure k.semaphores.next

/-- Destroy a semaphore nobody waits on. -/
def SemaphoreId.destroy (s : SemaphoreId) : KernelM Unit := do
  let semaphore ← findSemaphore s
  require (semaphore.waiters = []) (.semaphoreAwaited s semaphore.waiters.length)
  modify fun k => { k with semaphores := k.semaphores.erase s }

/-- Take a unit for the caller if there is one. -/
def SemaphoreId.take (s : SemaphoreId) : KernelM Bool := do
  let semaphore ← findSemaphore s
  if 0 < semaphore.value then
    modifySemaphore s fun semaphore => { semaphore with value := semaphore.value - 1 }
    note (.takes (← caller) s)
    pure true
  else
    pure false

/-- Take a unit for the caller, or queue the caller with `retry` as its pending
work.  Says whether the unit was taken. -/
def SemaphoreId.attempt (s : SemaphoreId) (retry : Pending) : KernelM Bool := do
  if ← s.take then
    pure true
  else
    let thread ← caller
    let rank ← ranks
    let queued ← Ranked.sortWith rank (← findSemaphore s).waiters
    let waiters ← Ranked.insertWith rank thread queued
    modifySemaphore s fun semaphore => { semaphore with waiters }
    modifyThread thread fun t =>
      { t with state := .blocked, place := .semaphore s, pending := some retry }
    note (.waits thread s)
    pure false

/-- Record the caller as holder of a lock whose unit it has taken.  Threads
still queued on the lock become its donors. -/
def LockId.hold (l : LockId) : KernelM Unit := do
  let thread ← caller
  modifyThread thread fun t => { t with waitingOn := none }
  modifyLock l fun lock => { lock with holder := some thread }
  note (.holds thread l)
  let waiters := (← findSemaphore (← findLock l).semaphore).waiters
  unless waiters.isEmpty do
    waiters.forM (addDonor thread)
    refresh thread

/-- Take a lock for the caller, or make the caller a waiter, and a donor of the
holder.  Says whether the lock was taken. -/
def LockId.attempt (l : LockId) : KernelM Bool := do
  let thread ← caller
  let lock ← findLock l
  match lock.holder with
  | some holder =>
    modifyThread thread fun t => { t with waitingOn := some l }
    addDonor holder thread
    donate
  | none => pure ()
  if ← lock.semaphore.attempt (.lock l) then
    l.hold
    pure true
  else
    pure false

/-- Take the signal of a wait on a condition, then the lock. -/
def LockId.reacquire (l : LockId) (signal : SemaphoreId) : KernelM Bool := do
  if ← signal.attempt (.signal signal l) then
    signal.destroy
    l.attempt
  else
    pure false

end ThreadKernel
