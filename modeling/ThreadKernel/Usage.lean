import ThreadKernel.Fault
import ThreadKernel.Word

/-!
# Where ticks were spent

Every tick is charged to one of three accounts, by the thread it interrupts.
-/

namespace ThreadKernel

/-- Ticks charged to the idle thread, to kernel threads and to threads that
back user processes. -/
structure Usage where
  idle : Nat := 0
  kernel : Nat := 0
  user : Nat := 0
deriving DecidableEq

namespace Usage

def chargeIdle (u : Usage) : Usage := { u with idle := u.idle + 1 }

def chargeKernel (u : Usage) : Usage := { u with kernel := u.kernel + 1 }

def chargeUser (u : Usage) : Usage := { u with user := u.user + 1 }

/-- All ticks charged.  The sum may not outgrow its word. -/
def total (u : Usage) : Except Fault Nat :=
  if u.idle + u.kernel + u.user ≤ maxWord then .ok (u.idle + u.kernel + u.user)
  else .error .counterOverflow

theorem total_eq_ok_iff {u : Usage} {n : Nat} :
    u.total = .ok n ↔ n = u.idle + u.kernel + u.user ∧ n ≤ maxWord := by
  unfold total
  split
  · simp only [Except.ok.injEq]
    constructor
    · rintro rfl; exact ⟨rfl, by assumption⟩
    · rintro ⟨rfl, -⟩; rfl
  · constructor
    · intro h; cases h
    · rintro ⟨rfl, le⟩; contradiction

end Usage

end ThreadKernel
