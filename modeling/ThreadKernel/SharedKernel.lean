import ThreadKernel.Kernel.Timer

/-!
# A kernel shared with the timer

Threads use a shared kernel under a lock and with interrupts masked.  A timer
interrupt that finds the lock taken does not wait: it counts the tick as missed,
and the next one that gets in delivers the missed ticks before its own.
-/

namespace ThreadKernel

/-- A kernel behind a lock. -/
structure SharedKernel where
  kernel : Kernel
  /-- Ticks that found the lock taken and are still to be delivered.  The count has no bound: a
  64-bit counter would begin at zero again, but only after 2^64 ticks missed in a row, with none
  delivered in between. -/
  missed : Nat := 0
  /-- Whether the lock is taken. -/
  busy : Bool := false
deriving DecidableEq

/-- An operation on a shared kernel. -/
abbrev SharedM := StateT SharedKernel (Except Fault)

namespace SharedKernel

/-- Run a kernel operation. -/
def onKernel {α : Type} (operation : KernelM α) : SharedM α := do
  let shared ← get
  let (result, kernel) ← operation.run shared.kernel
  set { shared with kernel }
  pure result

/-- Run `body` under the lock, with interrupts masked. -/
def withKernel {α : Type} (body : SharedM α) : SharedM α := do
  modify fun shared => { shared with busy := true }
  let level ← onKernel (Kernel.setLevel .off)
  let result ← body
  let _ ← onKernel (Kernel.setLevel level)
  modify fun shared => { shared with busy := false }
  pure result

/-- A timer interrupt.  Says whether it got in. -/
def tick : SharedM Bool := do
  let shared ← get
  if shared.busy then
    set { shared with missed := shared.missed + 1 }
    pure false
  else
    set { shared with missed := 0 }
    onKernel (Kernel.timerInterrupts (shared.missed + 1))
    pure true

end SharedKernel

end ThreadKernel
