import ThreadKernel.Word

/-!
# Durations

A duration is a 64-bit number of nanoseconds.  Larger units are converted with
saturation.  `Duration.ticks` counts whole timer ticks and keeps the low 64
bits of the count.
-/

namespace ThreadKernel

/-- A span of time. -/
structure Duration where
  nanos : Nat
deriving DecidableEq

namespace Duration

def ofNanos (n : Nat) : Duration := ⟨n⟩

def ofMicros (n : Nat) : Duration := ⟨saturate (n * 1000)⟩

def ofMillis (n : Nat) : Duration := ⟨saturate (n * 1000000)⟩

/-- Whole milliseconds. -/
def millis (d : Duration) : Nat := d.nanos / 1000000

/-- Whole ticks of a timer at `hz`, as a 64-bit count. -/
def ticks (d : Duration) (hz : Nat) : Nat := d.nanos * hz / 1000000000 % (maxWord + 1)

/-- The order of durations is that of their lengths. -/
def compare (d e : Duration) : Ordering := Ord.compare d.nanos e.nanos

theorem ticks_le (d : Duration) (hz : Nat) : d.ticks hz ≤ maxWord :=
  Nat.le_of_lt_succ (Nat.mod_lt _ (Nat.succ_pos _))

end Duration

end ThreadKernel
