import ThreadKernel.Kernel.Basic

/-!
# Priority donation

A thread that waits for a held lock lends its effective priority to the holder,
and through it to whomever the holder waits for, up to the configured depth.  A
donation only ever raises.  A holder gives donations back by `refresh`, which
recomputes its priority from its base and the donors it still has.
-/

namespace ThreadKernel.Kernel

/-- The holder of the lock that `t` waits for, if it is in the table.  A thread
that is ready to retry still names the lock, but no longer donates through it. -/
def blockingHolder (k : Kernel) (t : ThreadId) : Option ThreadId := do
  let thread ← k.threads.get? t
  guard (thread.state ≠ .ready)
  let lock ← k.locks.get? (← thread.waitingOn)
  let holder ← lock.holder
  guard (k.threads.contains holder)
  pure holder

/-- Set the effective priority of `t`, and move it in the ready queue if it is
there. -/
def setEffective (t : ThreadId) (priority : Priority) : KernelM Unit := do
  let thread ← findThread t
  modifyThread t fun thread => { thread with priority }
  if thread.place = .ready then
    modify fun k => { k with ready := k.ready.reprioritize t priority }

/-- Walk at most `depth` holders on from `donor`, raising each to its donor's
priority.  `visited` are the holders walked through since `start`, latest first. -/
def donateFrom (start : ThreadId) : Nat → List ThreadId → ThreadId → KernelM Unit
  | 0, visited, donor => do
    match (← get).blockingHolder donor with
    | some beyond => note (.truncated start visited.reverse beyond)
    | none => pure ()
  | depth + 1, visited, donor => do
    let k ← get
    match k.blockingHolder donor with
    | some holder =>
      if k.priorityOf holder < k.priorityOf donor then
        note (.donates donor (k.priorityOf donor) holder)
        setEffective holder (k.priorityOf donor)
      donateFrom start depth (holder :: visited) holder
    | none => pure ()

/-- Donate the caller's priority along the holders it waits behind. -/
def donate : KernelM Unit := do
  let k ← get
  donateFrom k.current k.config.donationDepth [] k.current

/-- The donors of `thread` that are in the table, highest priority first. -/
def liveDonors (k : Kernel) (thread : Thread) : List ThreadId :=
  Ranked.sort k.priorityOf (thread.donors.filter k.threads.contains)

/-- The larger of a base priority and the priority of the first donor. -/
def raised (k : Kernel) (base : Priority) (donors : List ThreadId) : Priority :=
  match donors with
  | [] => base
  | donor :: _ => max (k.priorityOf donor) base

/-- Recompute the effective priority of `t` from its base and its donors. -/
def refresh (t : ThreadId) : KernelM Unit := do
  let k ← get
  let thread ← findThread t
  let donors := k.liveDonors thread
  let effective := k.raised thread.base donors
  modifyThread t fun thread => { thread with donors }
  if effective ≠ thread.priority then
    note (.repriced t thread.priority effective)
  setEffective t effective

/-- Make `donor` a donor of `holder`, unless it is one already. -/
def addDonor (holder donor : ThreadId) : KernelM Unit := do
  let thread ← findThread holder
  unless thread.donors.contains donor do
    let donors ← Ranked.insertWith (← ranks) donor thread.donors
    modifyThread holder fun thread => { thread with donors }

end ThreadKernel.Kernel
