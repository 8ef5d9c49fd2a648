import ThreadKernel.Proofs.Handlers
import ThreadKernel.Proofs.Handover

/-!
# The check for preemption

One check is enough.  It may give up the processor, and the dispatcher may then try the suspended
operations of one thread after the other before a thread stays current.  Yet nothing that is ready
outranks that thread (`not_outranked_dispatched`), and taking what it was waiting for can only raise
it (`Placid`), so a second check has nothing to do.

Threads that were unblocked by name are the reason why the check is of use to a caller at all: an
unblock leaves the processor where it is.
-/

namespace ThreadKernel

open Kernel

variable {d : Discipline} {k k' : Kernel} {due : Option Pending}

/-- The thread that runs is one that should: no ready thread has a higher priority, and the idle
thread runs only if no thread is ready. -/
structure Kernel.Settled (k : Kernel) : Prop where
  above : ∀ t thread, k.threads.get? t = some thread → thread.state = .ready →
    thread.priority ≤ k.priorityOf k.current
  idle : k.idle = some k.current → k.ready.threads = []

/-- A kernel is settled if the check for preemption finds nobody. -/
theorem Kernel.Placed.settled_iff (placed : k.Placed) : k.Settled ↔ k.outranked = false := by
  rw [Bool.eq_false_iff, ne_eq, outranked_iff]
  constructor
  · rintro settled ⟨entry, front, idles | ahead⟩
    · have none := settled.idle (idles_iff.mp idles)
      rw [ReadyQueue.front?, List.map_eq_nil_iff.mp none] at front
      cases front
    · have below := placed.forall_entries (P := (· ≤ k.priorityOf k.current)) settled.above
      exact Nat.not_lt_of_le (below entry (List.mem_of_mem_head? front)) ahead
  · intro unranked
    constructor
    · intro t thread found ready
      rcases placed.exists_front found ready with ⟨front, stands, le⟩
      have below : front.2 ≤ k.priorityOf k.current :=
        Nat.le_of_not_lt fun ahead => unranked ⟨front, stands, .inr ahead⟩
      exact Nat.le_trans le below
    · intro idles
      by_contra occupied
      rcases List.exists_mem_of_ne_nil _ occupied with ⟨t, queued⟩
      rcases List.mem_map.mp queued with ⟨entry, member, _⟩
      rcases placed.ordered.exists_front member with ⟨front, stands, _⟩
      exact unranked ⟨front, stands, .inl (idles_iff.mpr idles)⟩

/-- What is known of runs does not depend on whether threads are unblocked by name. -/
theorem Regular.unblocking (regular : Regular d ⟨k, due⟩) :
    Regular { d with neverUnblocks := true } ⟨k, due⟩ where
  placed := regular.placed
  attended := regular.attended
  plain := regular.plain
  idle := regular.idle
  tidy := regular.tidy
  graph := regular.graph
  fair := regular.fair

/-- The check for preemption ends with a settled kernel, whatever was ready before. -/
theorem settled_of_run_preempt (steady : Steady d k) (named : d.plainHandles = true)
    (spares : d.sparesIdle) (outside : k.inInterrupt = false)
    (h : preempt.run k = .ok ((), k')) : k'.Settled := by
  -- the picks are the same in runs without unblocks, where the dispatcher is known to be calm
  have steady : Steady { d with neverUnblocks := true } k :=
    ⟨steady.regular.unblocking, steady.runs⟩
  have steps := steady.preempt h
  have calm : k'.Calm := steps.calm ⟨named, spares, rfl⟩ trivial
  have inside : k'.inInterrupt = k.inInterrupt :=
    congrArg Frame.inInterrupt (keeps_preempt k () k' h)
  apply ((steps.steady steady).regular.placed.settled_iff).mpr
  rw [Bool.eq_false_iff]
  intro outranked
  cases outside.symm.trans (inside.symm.trans (calm outranked).1)

/-- In a handler the check only asks for a yield, and asking twice is asking once. -/
theorem Kernel.run_preempt_of_inside (inside : k.inInterrupt = true)
    (h : preempt.run k = .ok ((), k')) : preempt.run k' = .ok ((), k') := by
  rw [run_preempt_inside inside] at h
  cases h
  have again : ({ k with yieldDue := k.yieldDue || k.outranked } : Kernel).outranked =
    k.outranked := rfl
  rw [run_preempt_inside (by exact inside), again, Bool.or_assoc, Bool.or_self]

/-- To check for preemption twice is to check once, a fault included.  The check does nothing at
all if the thread that runs should, and outside a handler it leaves such a thread running. -/
theorem preemption_settles (reachable : Reachable d k) (named : d.plainHandles = true)
    (spares : d.sparesIdle) :
    (do preempt; preempt : KernelM Unit).run k = preempt.run k ∧
    (k.Settled → preempt.run k = .ok ((), k)) ∧
    (k.inInterrupt = false → ∀ k', preempt.run k = .ok ((), k') → k'.Settled) := by
  have steady := reachable.steady
  have still : k.Settled → preempt.run k = .ok ((), k) := fun settled =>
    run_preempt_of_not_outranked (steady.regular.placed.settled_iff.mp settled)
  refine ⟨?_, still, fun outside k' ran => settled_of_run_preempt steady named spares outside ran⟩
  cases ran : preempt.run k with
  | error fault => exact run_bind_of_error ran
  | ok result =>
    rcases result with ⟨_, k'⟩
    rw [run_bind_of_ok ran]
    cases inside : k.inInterrupt with
    | true => exact run_preempt_of_inside inside ran
    | false =>
      have settled := settled_of_run_preempt steady named spares inside ran
      have steps := steady.preempt ran
      apply run_preempt_of_not_outranked
      exact (steps.steady steady).regular.placed.settled_iff.mp settled

/-- A thread of priority 40 that blocked itself is unblocked by name.  One check switches to it. -/
theorem preemption_settles_of_unblock : ∃ k k',
    Reachable { plainHandles := true, idleNeverWaits := true, idleSpared := true } k ∧
    (k.current, k.ready.threads) = (.main, [⟨3⟩]) ∧ ¬ k.Settled ∧
    preempt.run k = .ok ((), k') ∧ (k'.current, k'.ready.threads) = (⟨3⟩, [.main]) ∧
    (do preempt; preempt : KernelM Unit).run k = .ok ((), k') ∧ k'.Settled ∧
    preempt.run k' = .ok ((), k') := by
  have ran : ((Discipline.performAll
      { plainHandles := true, idleNeverWaits := true, idleSpared := true }
      [.start, .spawn { priority := 40 }, .setLevel .off, .block, .unblock ⟨3⟩]
      (.fresh {} .stable)).bind fun k => (preempt.run k).toOption.map fun given =>
        decide ((k.current, k.ready.threads) = (.main, [⟨3⟩]) ∧ k.outranked = true ∧
          k.inInterrupt = false ∧
          (given.2.current, given.2.ready.threads) = (⟨3⟩, [.main]))) = some true := by
    decide +kernel
  rcases Option.bind_eq_some_iff.mp ran with ⟨k, performed, rest⟩
  rcases Option.map_eq_some_iff.mp rest with ⟨⟨_, k'⟩, checks, told⟩
  rcases of_decide_eq_true told with ⟨before, outranked, outside, after⟩
  have reachable := (Reachable.fresh {} .stable).performAll performed
  have checks := ok_of_toOption checks
  rcases preemption_settles reachable rfl ⟨rfl, rfl⟩ with ⟨twice, _, settles⟩
  have settled := settles outside k' checks
  have unsettled : ¬ k.Settled := fun settled =>
    nomatch outranked.symm.trans (reachable.steady.regular.placed.settled_iff.mp settled)
  have again : (do preempt; preempt : KernelM Unit).run k = preempt.run k' := run_bind_of_ok checks
  exact ⟨k, k', reachable, before, unsettled, checks, after, twice.trans checks, settled,
    again.symm.trans (twice.trans checks)⟩

end ThreadKernel
