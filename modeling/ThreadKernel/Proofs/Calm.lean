import ThreadKernel.Proofs.FairPriority
import ThreadKernel.Proofs.Tidy
import ThreadKernel.Kernel.Scheduling

/-!
# When nobody is to be preempted

`Calm` says that no ready thread is to run in place of the current one, unless a
handler runs that will see to it when it returns.  What only adds to the current
thread's priority keeps the kernel calm (`Placid`), and the dispatcher hands the
processor to a thread that nothing ready outranks.
-/

namespace ThreadKernel

open Kernel

/-- What holds of a machine in every run that abides by `d`, who waits for whom
and what it is worth included. -/
structure Regular (d : Discipline) (m : Machine) : Prop extends Sound d m where
  tidy : m.kernel.Tidy
  graph : d.plainHandles = true → WaitGraph m
  fair : d.plainHandles = true → m.kernel.Fair

theorem Regular.move {d : Discipline} {act : Option Act} {m m' : Machine} (regular : Regular d m)
    (move : Move d act m m') : Regular d m' where
  toSound := regular.toSound.move move
  tidy := regular.tidy.move regular.toSound move
  graph named := (regular.graph named).move regular.toSound named move
  fair named := (regular.fair named).move regular.toSound (regular.graph named) move

theorem Regular.moves {d : Discipline} {deeds : List Deed} {m m' : Machine} (regular : Regular d m)
    (moves : Moves d deeds m m') : Regular d m' :=
  moves.induction regular fun move regular => regular.move move

/-- What every move keeps when it starts in order any number of moves keep. -/
theorem Regular.invariant {d : Discipline} {deeds : List Deed} {m m' : Machine}
    {motive : Machine → Prop} (regular : Regular d m) (moves : Moves d deeds m m')
    (start : motive m)
    (step : ∀ {act m m'}, Regular d m → Move d act m m' → motive m → motive m') : motive m' := by
  have both := moves.induction (motive := fun m => Regular d m ∧ motive m) ⟨regular, start⟩
    fun move ⟨regular, holds⟩ => ⟨regular.move move, step regular move holds⟩
  exact both.2

/-- The runs in which priorities decide who has the processor. -/
structure Discipline.Orderly (d : Discipline) : Prop where
  plainHandles : d.plainHandles = true
  sparesIdle : d.sparesIdle
  neverUnblocks : d.neverUnblocks = true

variable {d : Discipline} {k k' k'' : Kernel} {due : Option Pending} {t : ThreadId}
  {thread : Thread} {l : LockId}

namespace Kernel

/-- No ready thread is to run in place of the current one, but for the yield of a
handler that is about to return. -/
def Calm (k : Kernel) : Prop :=
  k.outranked = true → k.inInterrupt = true ∧ (k.yieldDue = true ∨ k.idles = true)

theorem outranked_iff : k.outranked = true ↔ ∃ entry, k.ready.front? = some entry ∧
    (k.idles = true ∨ k.priorityOf k.current < entry.2) := by
  rw [outranked]
  cases k.ready.front? with
  | none => simp only [Bool.false_eq_true, reduceCtorEq, false_and, exists_false]
  | some entry =>
    simp only [Bool.or_eq_true, decide_eq_true_eq, Option.some.injEq, exists_eq_left']

theorem calm_of_not_outranked (unranked : k.outranked = false) : k.Calm :=
  fun outranked => nomatch unranked.symm.trans outranked

/-- The current thread goes on, and no ready thread gets ahead of it. -/
structure Placid (k k' : Kernel) : Prop where
  outranked : k'.outranked = true → k.outranked = true
  inInterrupt : k'.inInterrupt = k.inInterrupt
  yieldDue : k.yieldDue = true → k'.yieldDue = true
  idles : k'.idles = k.idles

theorem Placid.refl (k : Kernel) : k.Placid k := ⟨id, rfl, id, rfl⟩

theorem Placid.trans (first : k.Placid k') (second : k'.Placid k'') : k.Placid k'' :=
  ⟨fun outranked => first.outranked (second.outranked outranked),
    second.inInterrupt.trans first.inInterrupt, fun due => second.yieldDue (first.yieldDue due),
    second.idles.trans first.idles⟩

theorem Placid.calm (placid : k.Placid k') (calm : k.Calm) : k'.Calm := by
  intro outranked
  rw [placid.inInterrupt, placid.idles]
  exact (calm (placid.outranked outranked)).imp_right fun due => due.imp_left placid.yieldDue

theorem placid_of_raised (raised : k.priorityOf k.current ≤ k'.priorityOf k.current)
    (ready : k'.ready = k.ready) (current : k'.current = k.current)
    (idle : k'.idle = k.idle)
    (inInterrupt : k'.inInterrupt = k.inInterrupt)
    (yieldDue : k.yieldDue = true → k'.yieldDue = true) : k.Placid k' := by
  have idles : k'.idles = k.idles := by rw [Kernel.idles, isIdle, idle, current]; rfl
  refine ⟨fun outranked => ?_, inInterrupt, yieldDue, idles⟩
  obtain ⟨entry, front, ahead⟩ := outranked_iff.mp outranked
  rw [ready] at front
  rw [idles, current] at ahead
  exact outranked_iff.mpr ⟨entry, front, ahead.imp_right (Nat.lt_of_le_of_lt raised)⟩

theorem placid_of_threads (threads : k'.threads = k.threads)
    (ready : k'.ready = k.ready) (current : k'.current = k.current)
    (idle : k'.idle = k.idle)
    (inInterrupt : k'.inInterrupt = k.inInterrupt)
    (yieldDue : k.yieldDue = true → k'.yieldDue = true) : k.Placid k' :=
  placid_of_raised (Nat.le_of_eq (by rw [priorityOf, priorityOf, threads])) ready current idle
    inInterrupt yieldDue

end Kernel

/-! ## What keeps the kernel calm -/

/-- Taking a lock may raise the current thread, and never lowers it. -/
theorem placid_of_run_hold (regular : Regular d ⟨k, due⟩) (named : d.plainHandles = true)
    (runs : k.Runs) {s : SemaphoreId} (h : l.hold.run (s.taken k) = .ok ((), k')) :
    k.Placid k' := by
  obtain ⟨thread, found, running, _⟩ := runs
  have detached := regular.placed.detached_of_running found running
  obtain ⟨lock, semaphore, donors, priority, events, _, _, _, price, rfl⟩ :=
    LockId.of_run_hold (k := s.taken k) found (by rw [detached]; exact nofun) h
  refine placid_of_raised ?_ rfl rfl rfl rfl id
  have record := Arena.get?_modify_self (fun old : Thread =>
    { old with waitingOn := none, donors, priority }) found
  rw [priorityOf_of_get? found, priorityOf_of_get? (k := (l.held donors priority
    (s.taken k)).withEvents events) record]
  dsimp only
  obtain ⟨_, _, rfl⟩ | ⟨members, _, _, rfl⟩ := price
  · exact Nat.le_refl _
  · have before := (regular.fair named).le_fair k.current thread found
    refine le_fairPriority_iff.mpr ((le_fairPriority_iff.mp before).imp_right ?_)
    rintro ⟨d, member, le⟩
    exact ⟨d, (members d).mpr ⟨.inl member,
      (regular.graph named).contains_of_mem_donors found member⟩, le⟩

/-- Taking a lock, or failing to. -/
theorem placid_of_run_attemptLock (regular : Regular d ⟨k, due⟩) (named : d.plainHandles = true)
    (runs : k.Runs) (h : l.attempt.run k = .ok (true, k')) : k.Placid k' := by
  obtain ⟨lock, found, ⟨_, _, holds⟩ | ⟨_, _, _, _, _, _, no, _⟩⟩ :=
    (regular.graph named).of_run_attempt h
  · exact placid_of_run_hold regular named runs holds
  · cases no

/-! ## The thread that is picked -/

/-- Nothing ready outranks the thread that the dispatcher picks. -/
theorem not_outranked_dispatched (sound : Sound d ⟨k, none⟩) (spares : d.sparesIdle)
    {next : ThreadId} {place : Place} {ready : ReadyQueue} (picks : k.Picks next thread place ready) (processor : Processor)
    (dying : List ThreadId) (events : List Event) :
    (k.dispatched next place ready processor dying events).outranked = false := by
  rw [Bool.eq_false_iff, ne_eq, outranked_iff]
  rintro ⟨entry, front, ahead⟩
  rw [dispatched_ready] at front
  cases picks with
  | front pop =>
    obtain ⟨p, entries, rule⟩ := ReadyQueue.pop?_eq_some_iff.mp pop
    have priced := sound.placed.priced (next, p) (by rw [entries]; exact List.mem_cons_self)
    have ordered := sound.placed.ordered
    rw [ReadyQueue.Ordered, entries] at ordered
    have below := (List.pairwise_cons.mp ordered).1 entry (List.mem_of_mem_head? front)
    obtain idles | ahead := ahead
    · have idle : k.idle = some next := idles_iff.mp idles
      obtain ⟨record, foundRecord, detached, _⟩ := sound.idle spares next idle
      cases detached.symm.trans (sound.placed.ready_of_pop? foundRecord pop)
    · rw [dispatched_current, priorityOf_dispatched, priced] at ahead
      exact Nat.not_lt_of_le below ahead
  | fallback empty idles =>
    rw [ReadyQueue.front?, List.map_eq_nil_iff.mp (ReadyQueue.threads_of_pop?_eq_none empty)] at front
    cases front

end ThreadKernel
