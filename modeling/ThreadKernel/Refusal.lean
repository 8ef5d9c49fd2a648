/-!
# Refusals

What a caller can recover from: running out of a resource when a thread is
created, and setting the scheduler up twice.  Everything else is a fault.
-/

namespace ThreadKernel

/-- Why no thread was created. -/
inductive SpawnRefusal
  /-- As many threads are alive as the configuration allows. -/
  | tooManyThreads (limit : Nat)
  /-- Every identity has been issued. -/
  | idsExhausted
  /-- There was no room for the thread's record. -/
  | outOfMemory
deriving DecidableEq

def SpawnRefusal.message : SpawnRefusal → String
  | .tooManyThreads limit => s!"Maximum number of threads reached ({limit})"
  | .idsExhausted => "No thread identifier available"
  | .outOfMemory => "Out of memory for thread creation"

/-- Why the scheduler was not set up. -/
inductive ScheduleRefusal
  | alreadyStarted
deriving DecidableEq

def ScheduleRefusal.message : ScheduleRefusal → String
  | .alreadyStarted => "Scheduler already started"

/-- Any refusal, with the part of the kernel it comes from. -/
inductive Refusal
  | spawn (cause : SpawnRefusal)
  | schedule (cause : ScheduleRefusal)
deriving DecidableEq

def Refusal.message : Refusal → String
  | .spawn cause => "Thread spawn error: " ++ cause.message
  | .schedule cause => "Scheduling error: " ++ cause.message

end ThreadKernel
