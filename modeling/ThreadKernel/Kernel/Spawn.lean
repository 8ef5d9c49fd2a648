import ThreadKernel.Kernel.Scheduling
import ThreadKernel.Refusal

/-!
# Starting the scheduler and creating threads
-/

namespace ThreadKernel

/-- What a new thread is to be like. -/
structure Blueprint where
  name : String := "thread"
  priority : Priority := Priority.default
  user : Bool := false
  argument : Nat := 0
deriving DecidableEq

namespace Kernel

/-- Store a new record under the next identity, none if they are used up. -/
def enroll (thread : Thread) : KernelM (Option ThreadId) := do
  let k ← get
  if k.threads.next.index < maxWord then
    set { k with threads := k.threads.push thread }
    pure (some k.threads.next)
  else
    pure none

/-- Create the idle thread and let interrupts in. -/
def start : KernelM (Except Refusal ThreadId) := do
  if (← get).idle.isSome then
    pure (.error (.schedule .alreadyStarted))
  else
    match ← enroll { name := "idle", base := Priority.lowest } with
    | none => pure (.error (.spawn .idsExhausted))
    | some t =>
      modify fun k => { k with idle := some t }
      note (.started t)
      let _ ← setLevel .on
      pure (.ok t)

/-- Create a thread and make it ready, preempting the caller if it is outranked. -/
def spawn (blueprint : Blueprint) : KernelM (Except SpawnRefusal ThreadId) := do
  require blueprint.priority.Valid (.priorityOutOfRange .create blueprint.priority)
  let k ← get
  if k.config.maxThreads ≤ k.threads.liveCount then
    pure (.error (.tooManyThreads k.config.maxThreads))
  else
    let name := Name.clip blueprint.name
    match ← enroll { name, base := blueprint.priority, user := blueprint.user,
                     argument := blueprint.argument } with
    | none => pure (.error .idsExhausted)
    | some t =>
      note (.created t name blueprint.priority)
      unblock t
      preempt
      pure (.ok t)

end Kernel

end ThreadKernel
