/-!
# Handles

Threads and synchronization primitives live in tables and refer to each other
only by handle: an index tagged with the kind of thing it names.  The tag keeps
a lock's index from being used where a semaphore's is meant; `Handle.text` is
the form diagnostics and the journal print.
-/

namespace ThreadKernel

/-- What a handle names. -/
inductive Kind
  | thread
  | semaphore
  | lock
  | condition
deriving DecidableEq

/-- An index into the table of one kind. -/
@[ext]
structure Handle (kind : Kind) where
  index : Nat
deriving DecidableEq

/-- A thread's identity.  Identities are issued in increasing order, never
reused and never zero. -/
abbrev ThreadId := Handle .thread

/-- A semaphore's handle. -/
abbrev SemaphoreId := Handle .semaphore

/-- A lock's handle. -/
abbrev LockId := Handle .lock

/-- A condition variable's handle. -/
abbrev ConditionId := Handle .condition

/-- The printed form: a bare number for a thread, a labelled one for a
primitive. -/
def Handle.text : {kind : Kind} → Handle kind → String
  | .thread, h => toString h.index
  | .semaphore, h => "sema#" ++ toString h.index
  | .lock, h => "lock#" ++ toString h.index
  | .condition, h => "cond#" ++ toString h.index

instance {kind : Kind} : ToString (Handle kind) := ⟨Handle.text⟩

/-- The thread that was already running when the kernel was set up. -/
def ThreadId.main : ThreadId := ⟨1⟩

/-- Zero names no thread. -/
def ThreadId.ofNat? (raw : Nat) : Option ThreadId :=
  if raw = 0 then none else some ⟨raw⟩

end ThreadKernel
