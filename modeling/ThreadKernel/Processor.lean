/-!
# The processor

All the kernel knows of the single processor it runs on: whether interrupts
may be delivered, and how often it has switched from one thread to another.
Interrupts are masked at first.
-/

namespace ThreadKernel

/-- Whether interrupts may be delivered. -/
inductive Level
  | on
  | off
deriving DecidableEq

structure Processor where
  level : Level := .off
  switches : Nat := 0
deriving DecidableEq

namespace Processor

def setLevel (p : Processor) (level : Level) : Processor := { p with level }

/-- Count one switch. -/
def switched (p : Processor) : Processor := { p with switches := p.switches + 1 }

@[simp]
theorem level_setLevel (p : Processor) (level : Level) : (p.setLevel level).level = level := rfl

@[simp]
theorem switches_setLevel (p : Processor) (level : Level) :
    (p.setLevel level).switches = p.switches := rfl

@[simp]
theorem level_switched (p : Processor) : p.switched.level = p.level := rfl

@[simp]
theorem switches_switched (p : Processor) : p.switched.switches = p.switches + 1 := rfl

end Processor

end ThreadKernel
