import ThreadKernel.Kernel.Basic

/-!
# Niceness and load

Neither is tracked: niceness is accepted and ignored, and every figure is zero.
-/

namespace ThreadKernel

/-- A thread's niceness, and a hundred times the system's load average and the
thread's recent use of the processor. -/
structure Load where
  niceness : Int := 0
  average : Int := 0
  recent : Int := 0
deriving DecidableEq

namespace Kernel

def setNiceness (_ : Int) : KernelM Unit := pure ()

def load : KernelM Load := pure {}

end Kernel

end ThreadKernel
