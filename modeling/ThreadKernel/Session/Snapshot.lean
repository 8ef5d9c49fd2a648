import ThreadKernel.Kernel.Basic

/-!
# Snapshots

What a reader sees of a kernel between two operations.  Semaphores that are
part of a lock or of a wait on a condition are not listed: a lock shows its own
waiters.
-/

namespace ThreadKernel

/-- How much of the kernel to show. -/
inductive Extent
  | full
  | brief
  | off
deriving DecidableEq

/-- A lock as shown: who holds it and who waits for it. -/
structure LockView where
  lock : LockId
  holder : Option ThreadId
  waiters : List ThreadId
deriving DecidableEq

/-- All that is listed in a full snapshot. -/
structure Inventory where
  level : Level
  ticks : Nat
  usage : Usage
  nextWake : Nat
  threads : List (ThreadId × Thread)
  semaphores : List (SemaphoreId × Semaphore)
  locks : List LockView
  conditions : List (ConditionId × Condition)
deriving DecidableEq

structure Snapshot where
  current : ThreadId
  /-- Ready threads in dispatch order. -/
  ready : List ThreadId
  switches : Nat
  inventory : Option Inventory
deriving DecidableEq

namespace Kernel

/-- The lock `l` with the threads queued on its semaphore, which must exist. -/
def viewLock (k : Kernel) (l : LockId) (lock : Lock) : Except Fault LockView := do
  let semaphore ← k.semaphores.find lock.semaphore
  pure { lock := l, holder := lock.holder, waiters := semaphore.waiters }

def viewLocks (k : Kernel) : List (LockId × Lock) → Except Fault (List LockView)
  | [] => .ok []
  | (l, lock) :: rest => do
    let view ← k.viewLock l lock
    pure (view :: (← k.viewLocks rest))

def inventory (k : Kernel) : Except Fault Inventory := do
  let locks ← k.viewLocks k.locks.entries
  pure {
    level := k.processor.level
    ticks := k.clock.ticks
    usage := k.usage
    nextWake := k.sleepers.nextWake
    threads := k.threads.entries
    semaphores := k.semaphores.entries.filter fun entry => entry.2.purpose = .plain
    locks
    conditions := k.conditions.entries }

/-- The kernel without its inventory. -/
def outline (k : Kernel) : Snapshot where
  current := k.current
  ready := k.ready.threads
  switches := k.processor.switches
  inventory := none

def snapshot (k : Kernel) : Extent → Except Fault (Option Snapshot)
  | .off => .ok none
  | .brief => .ok (some k.outline)
  | .full => do
    let inventory ← k.inventory
    pure (some { k.outline with inventory := some inventory })

end Kernel

end ThreadKernel
