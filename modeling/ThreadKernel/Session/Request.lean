import ThreadKernel.Kernel.Load
import ThreadKernel.Kernel.Spawn
import ThreadKernel.Kernel.Timer
import ThreadKernel.Condition

/-!
# Requests and replies

`Request` lists the operations a kernel offers, and `Request.perform` runs one.
A run of the kernel is a sequence of requests, so what holds of every run is
said about `Request`.
-/

namespace ThreadKernel

/-- One operation on a kernel, with its arguments. -/
inductive Request
  | start
  | spawn (blueprint : Blueprint)
  | exit
  | block
  | yield
  | preempt
  | unblock (thread : ThreadId)
  | setPriority (priority : Priority)
  | observe (observer : Observer)
  | setLevel (level : Level)
  | timer (count : Nat)
  | sleepUntil (tick : Nat)
  | sleep (ticks : Nat)
  | sleepFor (duration : Duration)
  | elapsed (since : Nat)
  | reportUsage
  | createSemaphore (value : Nat)
  | destroySemaphore (semaphore : SemaphoreId)
  | down (semaphore : SemaphoreId)
  | tryDown (semaphore : SemaphoreId)
  | up (semaphore : SemaphoreId)
  | semaphoreValue (semaphore : SemaphoreId)
  | semaphoreWaiters (semaphore : SemaphoreId)
  | createLock
  | destroyLock (lock : LockId)
  | acquire (lock : LockId)
  | tryAcquire (lock : LockId)
  | release (lock : LockId)
  | lockHolder (lock : LockId)
  | lockHeldByCaller (lock : LockId)
  | lockWaiters (lock : LockId)
  | createCondition
  | destroyCondition (condition : ConditionId)
  | wait (condition : ConditionId) (lock : LockId)
  | signal (condition : ConditionId) (lock : LockId)
  | broadcast (condition : ConditionId) (lock : LockId)
  | conditionWaiters (condition : ConditionId)
  | summary
  | profile (thread : ThreadId)
  | setNiceness (niceness : Int)
deriving DecidableEq

/-- The kernel at a glance, from the current thread. -/
structure Summary where
  name : String
  current : ThreadId
  priority : Priority
  idle : Option ThreadId
  initial : ThreadId
  inInterrupt : Bool
  threads : Nat
  ready : ReadyQueue
  config : Config
  nextWake : Nat
deriving DecidableEq

/-- What an operation answers. -/
inductive Reply
  | done
  | flag (value : Bool)
  | number (value : Nat)
  | identity (thread : Option ThreadId)
  | identities (threads : List ThreadId)
  | level (level : Level)
  | wait (wait : Wait)
  | started (result : Except Refusal ThreadId)
  | spawned (result : Except SpawnRefusal ThreadId)
  | summary (summary : Summary)
  | profile (thread : Option Thread)
  | load (load : Load)

namespace Kernel

/-- The current thread's record, which must say that it runs. -/
def currentRecord : KernelM Thread := do
  let t ← caller
  let thread ← findThread t
  require (thread.state = .running) (.notRunning t)
  pure thread

def summary : KernelM Summary := do
  let thread ← currentRecord
  let k ← get
  pure {
    name := thread.name
    current := k.current
    priority := thread.priority
    idle := k.idle
    initial := ThreadId.main
    inInterrupt := k.inInterrupt
    threads := k.threads.size
    ready := k.ready
    config := k.config
    nextWake := k.sleepers.nextWake }

end Kernel

open Kernel in
/-- Run one operation. -/
def Request.perform : Request → KernelM Reply
  | .start => return .started (← Kernel.start)
  | .spawn blueprint => return .spawned (← Kernel.spawn blueprint)
  | .exit => do Kernel.exit; pure .done
  | .block => do Kernel.block; pure .done
  | .yield => do Kernel.yield; pure .done
  | .preempt => do Kernel.preempt; pure .done
  | .unblock t => do Kernel.unblock t; pure .done
  | .setPriority p => do Kernel.setPriority p; pure .done
  | .observe observer => return .flag (← Kernel.observe observer)
  | .setLevel level => return .level (← Kernel.setLevel level)
  | .timer count => do timerInterrupts count; pure .done
  | .sleepUntil tick => return .wait (← Kernel.sleepUntil tick)
  | .sleep ticks => return .wait (← Kernel.sleep ticks)
  | .sleepFor duration => return .wait (← Kernel.sleepFor duration)
  | .elapsed since => return .number ((← get).clock.elapsed since)
  | .reportUsage => do
    Kernel.reportUsage
    return .number (← (← get).usage.total)
  | .createSemaphore value => return .number (← Semaphore.create value .plain).index
  | .destroySemaphore s => do s.destroy; pure .done
  | .down s => return .wait (← s.down)
  | .tryDown s => return .flag (← s.tryDown)
  | .up s => do s.up; pure .done
  | .semaphoreValue s => return .number (← s.value)
  | .semaphoreWaiters s => return .identities (← s.waiters)
  | .createLock => return .number (← Lock.create).index
  | .destroyLock l => do l.destroy; pure .done
  | .acquire l => return .wait (← l.acquire)
  | .tryAcquire l => return .flag (← l.tryAcquire)
  | .release l => do l.release; pure .done
  | .lockHolder l => return .identity (← l.holder)
  | .lockHeldByCaller l => return .flag (← l.isHeldByCaller)
  | .lockWaiters l => return .identities (← l.waiters)
  | .createCondition => return .number (← Condition.create).index
  | .destroyCondition c => do c.destroy; pure .done
  | .wait c l => return .wait (← c.wait l)
  | .signal c l => do c.signal l; pure .done
  | .broadcast c l => do c.broadcast l; pure .done
  | .conditionWaiters c => return .identities (← c.waiters)
  | .summary => return .summary (← Kernel.summary)
  | .profile t => return .profile ((← get).threads.get? t)
  | .setNiceness n => do
    Kernel.setNiceness n
    return .load (← Kernel.load)

end ThreadKernel
