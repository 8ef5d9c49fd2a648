/-!
# Bounds of machine words

Counters are natural numbers here; these are the largest values the words that
hold them can take, and `saturate` is the arithmetic that stops there.
-/

namespace ThreadKernel

/-- The largest 64-bit value. -/
def maxWord : Nat := 0xFFFFFFFFFFFFFFFF

/-- The largest 32-bit value. -/
def maxHalfWord : Nat := 0xFFFFFFFF

/-- The 64-bit value closest to `n`. -/
def saturate (n : Nat) : Nat := min n maxWord

theorem saturate_le (n : Nat) : saturate n ≤ maxWord := Nat.min_le_right _ _

theorem saturate_mono {m n : Nat} (h : m ≤ n) : saturate m ≤ saturate n := by
  simp only [saturate]; omega

end ThreadKernel
