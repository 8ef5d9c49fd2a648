import ThreadKernel.Kernel.Attempt

/-!
# The dispatcher

`schedule` gives the processor to the next thread: the front of the ready
queue, or the idle thread when nothing is ready.  The thread switched to first
finishes the operation it was suspended in; if that blocks it again, the next
one is picked.

Finishing an operation readies nobody, so every pick but one of the idle thread
shortens the ready queue, and `ready.size + 1` picks are enough.  Only an idle
thread that blocks with nothing ready would be picked for ever: `idleWaits`.
-/

namespace ThreadKernel.Kernel

/-- Drop the records of threads that have exited. -/
def reclaim : KernelM Unit := do
  let k ← get
  set { k with dying := [] }
  k.dying.forM fun t => do
    let k ← get
    match k.threads.get? t with
    | some thread =>
      set { k with threads := k.threads.erase t }
      note (.reclaimed t thread.name)
    | none => pure ()

/-- Take the next thread off the ready queue. -/
def pickNext : KernelM ThreadId := do
  let k ← get
  match k.ready.pop?, k.idle with
  | some (t, ready), _ =>
    set { k with ready }
    modifyThread t fun thread => { thread with place := .detached }
    pure t
  | none, some idle => pure idle
  | none, none => throw .nothingRunnable

/-- Make `next` the current thread in place of `previous`. -/
def switchTo (previous next : ThreadId) : KernelM Unit := do
  let thread ← findThread previous
  if thread.state = .dying ∧ previous ≠ ThreadId.main then
    modify fun k => { k with dying := k.dying ++ [previous] }
  modify fun k => { k with current := next, processor := k.processor.switched }
  note (.switched previous next)

/-- Finish what the current thread was suspended in.  Says whether it is still
running. -/
def resume : KernelM Bool := do
  let t ← caller
  let thread ← findThread t
  modifyThread t fun thread => { thread with pending := none }
  match thread.pending with
  | none => pure true
  | some (.unit s) => s.attempt (.unit s)
  | some (.lock l) => l.attempt
  | some (.signal s l) => l.reacquire s

/-- Pick a thread and switch to it.  Says whether it is still running after
finishing its pending work. -/
def dispatchOnce : KernelM Bool := do
  let previous ← caller
  let thread ← findThread previous
  require (thread.state ≠ .running) (.stillRunning previous)
  let next ← pickNext
  modifyThread next fun thread => { thread with state := .running }
  modify fun k => { k with slice := 0 }
  announce (.activating · next)
  if previous ≠ next then switchTo previous next
  resume

/-- Dispatch until a thread stays running, at most so many times. -/
def dispatch : Nat → KernelM Unit
  | 0 => throw .idleWaits
  | picks + 1 => do
    if ← dispatchOnce then pure () else dispatch picks

/-- Give the processor to the next thread.  The caller has already left the
running state. -/
def schedule : KernelM Unit := do
  require ((← get).processor.level = .off) (.interruptsEnabled .schedule)
  reclaim
  dispatch ((← get).ready.size + 1)

end ThreadKernel.Kernel
