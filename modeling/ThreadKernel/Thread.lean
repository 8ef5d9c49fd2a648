import ThreadKernel.Arena
import ThreadKernel.Name

/-!
# Threads

A thread's record is all the kernel keeps about it.  Records refer to each
other by identity only; donations and lock waits are relations between
identities.
-/

namespace ThreadKernel

/-- A thread's lifecycle. -/
inductive RunState
  /-- It has the processor. -/
  | running
  /-- It waits for the processor. -/
  | ready
  /-- It waits for an event. -/
  | blocked
  /-- It has exited; its record is reclaimed later. -/
  | dying
deriving DecidableEq

/-- The one structure a thread is queued on, if any. -/
inductive Place
  | detached
  | ready
  | sleep
  | semaphore (semaphore : SemaphoreId)
deriving DecidableEq

/-- What a suspended thread still has to do when it next runs. -/
inductive Pending
  /-- Take a unit of a semaphore. -/
  | unit (semaphore : SemaphoreId)
  /-- Take a lock. -/
  | lock (lock : LockId)
  /-- Take the signal sent to this private semaphore, then the lock. -/
  | signal (semaphore : SemaphoreId) (lock : LockId)
deriving DecidableEq

/-- A thread's record. -/
structure Thread where
  name : String
  /-- The priority the thread was given. -/
  base : Priority
  /-- The base priority, raised by donation. -/
  priority : Priority := base
  state : RunState := .blocked
  place : Place := .detached
  /-- The lock the thread is acquiring. -/
  waitingOn : Option LockId := none
  /-- The threads whose priority this one borrows, highest first when last put
  in order. -/
  donors : List ThreadId := []
  /-- When to wake, while asleep. -/
  wakeTick : Nat := 0
  pending : Option Pending := none
  /-- It backs a user process, which only tick accounting looks at. -/
  user : Bool := false
  /-- The word handed to the thread's entry point. -/
  argument : Nat := 0
deriving DecidableEq

/-- Whether a blocking operation is still in progress. -/
def Thread.isWaiting (t : Thread) : Bool := t.pending.isSome

/-- The records of all threads that have not been reclaimed. -/
abbrev ThreadTable := Arena .thread Thread

namespace ThreadTable

/-- A table without threads.  Zero is no identity, and one is the initial
thread's. -/
def empty : ThreadTable := Arena.empty 2

/-- A table that holds the initial thread alone. -/
def withMain (main : Thread) : ThreadTable := (Arena.empty 1).push main

/-- Threads that have not exited, whether or not they are reclaimed. -/
def liveCount (table : ThreadTable) : Nat :=
  table.entries.countP fun entry => entry.2.state ≠ .dying

/-- The effective priority of a thread that must exist. -/
def rank (table : ThreadTable) (t : ThreadId) : Except Fault Priority :=
  (table.find t).map (·.priority)

end ThreadTable

end ThreadKernel
