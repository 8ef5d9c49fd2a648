import ThreadKernel.Kernel.Dispatch

/-!
# Scheduling operations

Blocking and unblocking threads, giving up the processor, preemption, exit and
changes of priority.
-/

namespace ThreadKernel.Kernel

/-- Fail in a handler, which must not give up the processor. -/
def requireThreadContext (operation : Operation) : KernelM Unit := do
  require (¬ (← get).inInterrupt) (.inInterrupt operation)

/-- Put a thread on the ready queue at its effective priority. -/
def makeReady (t : ThreadId) : KernelM Unit := do
  modifyThread t fun thread => { thread with state := .ready, place := .ready }
  let k ← get
  let ready ← k.ready.enqueue t (k.priorityOf t)
  set { k with ready }

/-- Make a blocked thread ready, without preempting the caller. -/
def unblock (t : ThreadId) : KernelM Unit := masked do
  let thread ← findThread t
  require (thread.state = .blocked) (.notBlocked t)
  require (thread.place = .detached) (.stillQueued t)
  makeReady t

/-- Put the caller to sleep until it is unblocked. -/
def block : KernelM Unit := do
  requireThreadContext .block
  require ((← get).processor.level = .off) (.interruptsEnabled .block)
  modifyThread (← caller) fun thread => { thread with state := .blocked }
  schedule

/-- Give up the processor.  The caller stays runnable, and may be picked again
at once; the idle thread leaves the ready queue to the others. -/
def yield : KernelM Unit := do
  requireThreadContext .yield
  masked do
    let k ← get
    if k.idles then
      modifyThread k.current fun thread => { thread with state := .blocked }
    else
      makeReady k.current
    schedule

/-- Whether a ready thread is to run in place of the current one: any that
outranks it, or any at all while the idle thread runs. -/
def outranked (k : Kernel) : Bool :=
  match k.ready.front? with
  | some (_, front) => k.idles || decide (k.priorityOf k.current < front)
  | none => false

/-- Yield if a ready thread outranks the caller.  In a handler the yield is put
off until it returns. -/
def preempt : KernelM Unit := do
  let k ← get
  if k.outranked then
    if k.inInterrupt then set { k with yieldDue := true } else yield

/-- Set the caller's base priority. -/
def setPriority (priority : Priority) : KernelM Unit := do
  require priority.Valid (.priorityOutOfRange .setPriority priority)
  masked do
    let t ← caller
    modifyThread t fun thread => { thread with base := priority }
    refresh t
    preempt

/-- The locks that `t` holds. -/
def heldBy (k : Kernel) (t : ThreadId) : List LockId :=
  (k.locks.entries.filter fun entry => entry.2.holder = some t).map Prod.fst

/-- End the caller.  Its record stays until a later dispatch reclaims it, the
initial thread's for good. -/
def exit : KernelM Unit := do
  requireThreadContext .exit
  let k ← get
  require (¬ k.idles) (.idleThread .exit)
  let t := k.current
  announce (.leaving · t)
  let held := (k.heldBy t).length
  if 0 < held then
    note (.exitingWithLocks t held)
  masked do
    note (.exiting t (← findThread t).name)
    modifyThread t fun thread => { thread with state := .dying }
    schedule

end ThreadKernel.Kernel
