import ThreadKernel.Kernel.Scheduling

/-!
# Semaphore operations

`down` takes a unit, waiting for one if need be; `up` returns a unit and wakes
the waiter of highest effective priority.  A woken thread still has to take the
unit itself when it next runs.
-/

namespace ThreadKernel.SemaphoreId

open Kernel

/-- Take a unit, blocking until there is one. -/
def down (s : SemaphoreId) : KernelM Wait := do
  requireThreadContext .down
  masked do
    if ← s.attempt (.unit s) then
      pure .completed
    else
      schedule
      pure .suspended

/-- Take a unit if there is one. -/
def tryDown (s : SemaphoreId) : KernelM Bool := masked s.take

/-- Return a unit and unblock the waiter of highest priority, without looking
for preemption. -/
def wake (s : SemaphoreId) : KernelM Unit := do
  let semaphore ← findSemaphore s
  let queued ← Ranked.sortWith (← ranks) semaphore.waiters
  require (semaphore.value < maxHalfWord) (.semaphoreOverflow s)
  modifySemaphore s fun semaphore =>
    { semaphore with value := semaphore.value + 1, waiters := queued.tail }
  note (.gives s)
  match queued with
  | [] => pure ()
  | t :: _ =>
    note (.wakes s t)
    modifyThread t fun thread => { thread with place := .detached }
    unblock t

/-- Return a unit, and yield to the woken waiter if it outranks the caller. -/
def up (s : SemaphoreId) : KernelM Unit := masked do
  s.wake
  preempt

def value (s : SemaphoreId) : KernelM Nat := return (← findSemaphore s).value

/-- The waiting threads, in the order they were last put in. -/
def waiters (s : SemaphoreId) : KernelM (List ThreadId) := return (← findSemaphore s).waiters

end ThreadKernel.SemaphoreId
