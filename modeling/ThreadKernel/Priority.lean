/-!
# Thread priorities

Larger values are more urgent.  A thread may be given any priority from
`Priority.lowest` to `Priority.highest`.
-/

namespace ThreadKernel

/-- A thread's urgency. -/
abbrev Priority := Nat

namespace Priority

/-- The idle thread runs here. -/
def lowest : Priority := 0

/-- New threads and the initial thread start here. -/
def default : Priority := 31

def highest : Priority := 63

/-- A priority a thread may be given. -/
def Valid (p : Priority) : Prop := lowest ≤ p ∧ p ≤ highest

instance (p : Priority) : Decidable p.Valid := inferInstanceAs (Decidable (_ ∧ _))

end Priority

end ThreadKernel
