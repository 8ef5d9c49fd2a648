import ThreadKernel.Fault
import ThreadKernel.Word

/-!
# The tick counter

The clock counts timer interrupts since the kernel was set up.
-/

namespace ThreadKernel

/-- Ticks so far, and how many make a second. -/
structure Clock where
  frequency : Nat
  ticks : Nat := 0
deriving DecidableEq

namespace Clock

/-- The clock one tick later.  The count may not outgrow its word. -/
def advance (c : Clock) : Except Fault Clock :=
  if c.ticks = maxWord then .error .counterOverflow
  else .ok { c with ticks := c.ticks + 1 }

/-- Ticks since `start`, none if that is still to come. -/
def elapsed (c : Clock) (start : Nat) : Nat := c.ticks - start

theorem ticks_of_advance {c d : Clock} (h : c.advance = .ok d) : d.ticks = c.ticks + 1 := by
  unfold advance at h
  split at h
  · cases h
  · cases h; rfl

end Clock

end ThreadKernel
