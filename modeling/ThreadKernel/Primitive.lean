import ThreadKernel.Arena

/-!
# Synchronization primitives

A semaphore counts units and queues the threads that wait for one.  A lock is a
semaphore of one unit with an owner.  A condition variable queues waits, each
with a private semaphore that the signal arrives on.
-/

namespace ThreadKernel

/-- What a semaphore was made for. -/
inductive Purpose
  /-- A caller asked for it. -/
  | plain
  /-- It holds the one unit of a lock. -/
  | lock
  /-- A single wait on a condition receives its signal here. -/
  | signal
deriving DecidableEq

structure Semaphore where
  value : Nat
  purpose : Purpose := .plain
  /-- Waiting threads, highest priority first when last put in order. -/
  waiters : List ThreadId := []
deriving DecidableEq

structure Lock where
  /-- The lock's unit, and the threads that wait for it. -/
  semaphore : SemaphoreId
  /-- The only thread that may release the lock. -/
  holder : Option ThreadId := none
deriving DecidableEq

/-- One wait on a condition. -/
structure Waiter where
  semaphore : SemaphoreId
  thread : ThreadId
deriving DecidableEq

structure Condition where
  /-- Waits, highest priority first when last put in order. -/
  waiters : List Waiter := []
deriving DecidableEq

/-- How an operation that may block came back. -/
inductive Wait
  /-- It is done, and the caller still runs. -/
  | completed
  /-- The caller was switched out; it finishes when it next runs. -/
  | suspended
deriving DecidableEq

end ThreadKernel
