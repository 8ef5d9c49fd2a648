/-!
# Tunables

The settings a kernel is set up with.  They do not change while it runs.
-/

namespace ThreadKernel

/-- A kernel's settings. -/
structure Config where
  /-- Ticks a thread may run before it is preempted. -/
  timeSlice : Nat := 4
  /-- Most lock holders one donation walks through. -/
  donationDepth : Nat := 8
  /-- Most threads that have not exited, the idle and the initial one included. -/
  maxThreads : Nat := 256
  /-- Timer interrupts per second. -/
  timerHz : Nat := 100
deriving DecidableEq

end ThreadKernel
