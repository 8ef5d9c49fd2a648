import ThreadKernel.Proofs.Handlers
import ThreadKernel.Proofs.RoundRobin

/-!
# How long a slice gets

`slice` counts the ticks since the dispatcher last made a thread run, as nobody else does
(`Move.dispatch`): a move that is not the dispatcher's lengthens it by the tick that it is, if any
(`Move.slice`).  A tick that uses the slice up asks for a yield, and the return of its handler does
that yield before anything else can happen (`lengthened_of_run`).  So the count stays below the
length of a slice in between operations, and gets no further than that length in a handler: it
needs no more room than the setting itself, and no thread gets more ticks than a slice has.
-/

namespace ThreadKernel

open Kernel

variable {d : Discipline} {m m' : Machine} {k k' last : Kernel} {act : Option Act} {u : Unit}

/-! ## Who gets to run -/

/-- A move of the dispatcher's: nobody runs, and it makes a thread run. -/
structure Dispatch (d : Discipline) (m m' : Machine) : Prop where
  move : ∃ act, Move d act m m'
  halted : ¬m.kernel.Running
  runs : m'.kernel.Running
  picked : ∃ next place ready processor dying events,
    m'.kernel = m.kernel.dispatched next place ready processor dying events

theorem running_of_modify {t : ThreadId} {f : Thread → Thread}
    (threads : k'.threads = k.threads.modify t f) (current : k'.current = k.current)
    (keeps : ∀ thread, (f thread).state = .running → thread.state = .running)
    (running : k'.Running) : k.Running := by
  rcases running with ⟨thread, found, runs⟩
  rw [threads, current, Arena.get?_modify] at found
  split at found
  · rcases Option.map_eq_some_iff.mp found with ⟨old, listed, rfl⟩
    exact ⟨old, listed, keeps old runs⟩
  · exact ⟨thread, found, runs⟩

theorem running_of_readied {t : ThreadId} {p : Priority} (running : (k.readied t p).Running) :
    k.Running :=
  running_of_modify (readied_threads k t p) rfl nofun running

theorem running_of_run_unblock {t : ThreadId} (h : (unblock t).run k = .ok (u, k'))
    (running : k'.Running) : k.Running := by
  rcases of_run_unblock h with ⟨_, _, _, _, _, rfl⟩
  exact running_of_readied running

theorem running_of_run_wake {s : SemaphoreId} (h : s.wake.run k = .ok (u, k'))
    (running : k'.Running) : k.Running := by
  rcases SemaphoreId.of_run_wake h with ⟨_, _, ⟨_, rfl⟩ | ⟨t, rest, _, woken⟩⟩
  · exact running
  · have roused := running_of_run_unblock woken running
    exact running_of_modify (s.roused_threads t rest k) rfl (fun _ same => same) roused

/-- Only the dispatcher makes a thread run. -/
theorem Move.dispatch (move : Move d act m m') (halted : ¬m.kernel.Running)
    (runs : m'.kernel.Running) : Dispatch d m m' := by
  refine ⟨⟨act, move⟩, halted, runs, ?_⟩
  cases move with
  | pick => exact ⟨_, _, _, _, _, _, rfl⟩
  | tick | appoint | create | createLock => exact absurd runs halted
  | halt running | release running | rebase running => exact absurd running halted
  | ready found running | undertake found running => exact absurd ⟨_, found, running⟩ halted
  | doze before | take before | attempt before | attemptLock before | seize before
  | enlist before | signalled before | unsignalled before => exact absurd before.running halted
  | quiet same =>
    rw [Running, same.threads, same.current] at runs
    exact absurd runs halted
  | enroll blocked =>
    rcases runs with ⟨thread, found, running⟩
    rcases Arena.of_get?_push found with ⟨_, rfl⟩ | old
    · cases blocked.symm.trans running
    · exact absurd ⟨thread, old, running⟩ halted
  | unblock spared ran => exact absurd (running_of_run_unblock ran runs) halted
  | rise =>
    rename_i k t thread events sleepers found perm due told
    have left := mapThread_threads k t fun old => { old with place := .detached }
    have roused := running_of_readied runs
    exact absurd (running_of_modify left rfl (fun _ same => same) roused) halted
  | reclaim ran =>
    rcases of_run_reclaim ran with ⟨_, _, _, _, left, rfl⟩
    rcases runs with ⟨thread, found, running⟩
    rw [left] at found
    split at found
    · cases found
    · exact absurd ⟨thread, found, running⟩ halted
  | destroy plain unnamed ran =>
    rcases SemaphoreId.of_run_destroy ran with ⟨_, _, _, rfl⟩
    exact absurd runs halted
  | destroyLock found unheld unnamed ran =>
    rcases SemaphoreId.of_run_destroy ran with ⟨_, _, _, rfl⟩
    exact absurd runs halted
  | wake plain ran => exact absurd (running_of_run_wake ran runs) halted
  | signal found first ran => exact absurd (running_of_run_wake ran runs) halted

/-! ## Ticks between dispatches -/

/-- Moves of which none is the dispatcher's. -/
def Undispatched (d : Discipline) : Machine → Machine → Prop :=
  Relation.ReflTransGen fun m m' => (∃ act, Move d act m m') ∧ ¬Dispatch d m m'

/-- A move that is not the dispatcher's lengthens the slice by the tick that it is, if any. -/
theorem Move.slice (move : Move d act m m') (sound : Sound d m) (idle : ¬Dispatch d m m') :
    m'.kernel.slice + m.kernel.clock.ticks = m.kernel.slice + m'.kernel.clock.ticks := by
  cases move.beat sound with
  | still same | appoint _ _ same =>
    have slice : m'.kernel.slice = m.kernel.slice := congrArg (·.2.2.2.1) same
    have clock : m'.kernel.clock = m.kernel.clock := congrArg (·.2.1) same
    rw [slice, clock]
  | tick account same =>
    have slice : m'.kernel.slice = m.kernel.slice + 1 := congrArg (·.2.2.2.1) same
    have ticks : m'.kernel.clock.ticks = m.kernel.clock.ticks + 1 := congrArg (·.2.1.ticks) same
    omega
  | begin halted runs same => exact absurd (move.dispatch halted runs) idle

theorem Undispatched.slice (idle : Undispatched d m m') (regular : Regular d m) :
    m'.kernel.slice + m.kernel.clock.ticks = m.kernel.slice + m'.kernel.clock.ticks := by
  suffices both : Regular d m' ∧
      m'.kernel.slice + m.kernel.clock.ticks = m.kernel.slice + m'.kernel.clock.ticks from both.2
  induction idle with
  | refl => exact ⟨regular, rfl⟩
  | tail before step ih =>
    rcases step with ⟨⟨act, move⟩, idle⟩
    rcases ih with ⟨regular, counted⟩
    have further := move.slice regular.toSound idle
    exact ⟨regular.move move, by omega⟩

/-- None of the moves is the dispatcher's, or one that is comes last. -/
theorem Moves.undispatched_or {deeds : List Deed} (moves : Moves d deeds m m') :
    Undispatched d m m' ∨ ∃ halted running, (∃ deeds, Moves d deeds m halted) ∧
      Dispatch d halted running ∧ Undispatched d running m' := by
  induction moves with
  | refl m => exact .inl .refl
  | tail before move ih =>
    rename_i deeds act m middle m'
    by_cases dispatch : Dispatch d middle m'
    · exact .inr ⟨middle, m', ⟨deeds, before⟩, dispatch, .refl⟩
    · rcases ih with none | ⟨halted, running, earlier, last, rest⟩
      · exact .inl (.tail none ⟨⟨act, move⟩, dispatch⟩)
      · exact .inr ⟨halted, running, earlier, last, .tail rest ⟨⟨act, move⟩, dispatch⟩⟩

/-! ## The handler of a tick -/

theorem Kernel.Timely.slice_lt (timely : k.Timely) : k.slice < k.sliceLength := by
  have short := timely.slice
  rw [sliceLength]
  omega

theorem steady_interrupted (steady : Steady d k) : Steady d k.interrupted :=
  have same : k.SameWork k.interrupted :=
    sameWork_of_remarks (.refl _) (.refl _) (fun _ => rfl) rfl
  ⟨steady.regular.move (.quiet same), steady.runs⟩

/-- In a handler a tick lengthens the slice by itself. -/
theorem slice_of_run_timerTick (inside : k.inInterrupt = true)
    (h : timerTick.run k = .ok (u, last)) : last.slice = k.slice + 1 := by
  rcases of_run_timerTick h with ⟨_, usage, _, ⟨_, rfl⟩ | ⟨_, woken, wakes, preempts⟩⟩
  · rfl
  · rcases handler_of_run_awaken wakes with ⟨within, _, slice⟩
    rw [run_preempt_inside (within.trans inside)] at preempts
    cases preempts
    exact slice

/-- What the timer's handler has done by the end of it.  If the slice is used up, the handler's
return is a yield, and whoever runs after that has a new slice. -/
structure Kernel.Lengthened (k last : Kernel) : Prop where
  clock : last.clock.ticks = k.clock.ticks + 1
  slice : last.slice = k.slice + 1
  within : last.slice ≤ k.sliceLength
  yields : last.slice = k.sliceLength →
    leaveInterrupt.run last = (yield.run last.resumed).map (Kernel.unmasked ())
  anew : last.slice = k.sliceLength → ∀ after, leaveInterrupt.run last = .ok ((), after) →
    after.slice = 0

theorem lengthened_of_run (steady : Steady d k) (timely : k.Timely)
    (h : timerTick.run k.interrupted = .ok ((), last)) : k.Lengthened last := by
  have inside := steady_interrupted steady
  have slice : last.slice = k.slice + 1 := slice_of_run_timerTick (k := k.interrupted) rfl h
  have short := timely.slice_lt
  have asks : last.slice = k.sliceLength → last.yieldDue = true := by
    intro full
    have seat := congrArg Seat.yieldDue (seat_of_run_timerTick (k := k.interrupted) rfl h)
    have used : k.config.timeSlice ≤ k.slice + 1 := by
      rw [← slice, full]
      exact Nat.le_max_right _ _
    rw [seat_yieldDue] at seat
    rw [seat, show decide (k.interrupted.config.timeSlice ≤ k.interrupted.slice + 1) = true from
      decide_eq_true used, Bool.or_true, Bool.or_true]
  refine ⟨(ticked_of_run_timerTick inside rfl h).clock, slice, by omega, fun full => ?_,
    fun full after leaves => ?_⟩
  · rw [run_leaveInterrupt, asks full, Bool.true_or, if_pos rfl]
  · have left := left_of_run_leaveInterrupt ((steps_of_run_timerTick inside h).steady inside) leaves
    exact left.yielded (asks full)

/-! ## Every run -/

/-- The slice is not used up, and outside of handlers no yield is put off. -/
def Kernel.Unspent (k : Kernel) : Prop :=
  k.slice < k.sliceLength ∧ (k.inInterrupt = false → k.yieldDue = false)

theorem Reachable.unspent (reachable : Reachable d k) : k.Unspent := by
  refine ⟨reachable.timely.slice_lt, fun outside => ?_⟩
  have settled := reachable.settled
  rwa [frame_overdue, outside, Bool.not_false, Bool.and_true] at settled

/-- The ticks on the way from `k` to `k'`: since the dispatcher ran last they are fewer than a slice
has, or as many when the handler of one more has not returned yet. -/
structure Kernel.Rationed (k k' : Kernel) : Prop where
  short : ∀ deeds m, Moves {} deeds ⟨k, none⟩ m → Undispatched {} m ⟨k', none⟩ →
    k'.clock.ticks < m.kernel.clock.ticks + k.sliceLength
  full : ∀ deeds m, Moves {} deeds ⟨k, none⟩ m → Undispatched {} m ⟨k', none⟩ →
    ∀ last, timerTick.run k'.interrupted = .ok ((), last) →
      last.clock.ticks ≤ m.kernel.clock.ticks + k.sliceLength
  dispatched : k.clock.ticks + k.sliceLength ≤ k'.clock.ticks → ∃ halted running,
    (∃ deeds, Moves {} deeds ⟨k, none⟩ halted) ∧ Dispatch {} halted running ∧
      Undispatched {} running ⟨k', none⟩

theorem Reachable.rationed (reachable : Reachable {} k)
    (later : Relation.ReflTransGen (Transit {}) k k') : k.Rationed k' := by
  have regular := reachable.steady.regular
  have reached := reachable.trans later
  rcases reachable.moves later with ⟨_, moves⟩
  have config : k'.config = k.config := moves.config regular
  have short : ∀ deeds m, Moves {} deeds ⟨k, none⟩ m → Undispatched {} m ⟨k', none⟩ →
      k'.clock.ticks < m.kernel.clock.ticks + k.sliceLength := by
    intro deeds m before idle
    have counted : k'.slice + m.kernel.clock.ticks = m.kernel.slice + k'.clock.ticks :=
      idle.slice (regular.moves before)
    have unspent := reached.timely.slice_lt
    rw [sliceLength, config, ← sliceLength] at unspent
    omega
  refine ⟨short, fun deeds m before idle last ran => ?_, fun many => ?_⟩
  · have clock := (lengthened_of_run reached.steady reached.timely ran).clock
    have fewer := short deeds m before idle
    omega
  · rcases moves.undispatched_or with idle | dispatched
    · exact absurd (short [] _ (.refl _) idle) (Nat.not_lt_of_le many)
    · exact dispatched

/-- In between operations the slice is shorter than it may get, and no yield is put off outside of
handlers.  Hence the timer's handler ends well until the clock is full; its own count reaches the
length of a slice at most, and then it returns by a yield.  As many ticks never come without the
dispatcher, whatever else is done.  All of this goes for a kernel that is shared, too, whose ticks
are delivered later. -/
theorem slice_is_bounded (reachable : Reachable {} k) :
    k.Unspent ∧
    (k.config.timeSlice ≤ maxHalfWord →
      ((∃ last, timerTick.run k.interrupted = .ok ((), last)) ↔ k.clock.ticks < maxWord)) ∧
    (∀ last, timerTick.run k.interrupted = .ok ((), last) → k.Lengthened last) ∧
    (∀ k', Relation.ReflTransGen (Transit {}) k k' → k.Rationed k') ∧
    ∀ uses log shared, (Use.runAll uses).run { kernel := k } = .ok (log, shared) →
      Reachable {} shared.kernel ∧ shared.kernel.Unspent := by
  have steady := reachable.steady
  refine ⟨reachable.unspent, fun fits => ⟨fun ⟨last, ran⟩ => ?_, fun room => ?_⟩,
    fun last => lengthened_of_run steady reachable.timely, fun k' => reachable.rationed,
    fun uses log shared ran => ?_⟩
  · have room : k.clock.ticks ≠ maxWord := (of_run_timerTick ran).1
    have ticks := reachable.timely.ticks
    omega
  · have counts := reachable.timely.counts fits
    rcases succeeds_timerTick (steady_interrupted steady) rfl room counts with ⟨⟨_, last⟩, ran⟩
    exact ⟨last, ran⟩
  · have advances := advances_of_run_uses reachable rfl ran
    exact ⟨advances.reachable, advances.reachable.unspent⟩

/-- One of two ticks of the initial thread's slice has come.  The next one ends in a yield, the
dispatcher runs when two come, and three that are delivered late leave a slice that is not used
up. -/
theorem slice_is_bounded_of_two : ∃ k last k' log shared, Reachable {} k ∧
    k.slice = 1 ∧ k.sliceLength = 2 ∧
    timerTick.run k.interrupted = .ok ((), last) ∧ last.slice = 2 ∧
    leaveInterrupt.run last = (yield.run last.resumed).map (Kernel.unmasked ()) ∧
    Relation.ReflTransGen (Transit {}) k k' ∧ (∃ halted running, Dispatch {} halted running ∧
      Undispatched {} running ⟨k', none⟩) ∧
    (Use.runAll [.hold [.tick, .tick], .tick]).run { kernel := k } = .ok (log, shared) ∧
    shared.kernel.clock.ticks = k.clock.ticks + 3 ∧ shared.kernel.Unspent := by
  have ran : ((({} : Discipline).performAll [.start, .spawn { priority := 31 }, .timer 1]
      (.fresh { timeSlice := 2 } .stable)).bind fun k =>
      (({} : Discipline).occurAll [.request (.timer 2)] k).map fun k' =>
        ((k.slice, k.config.timeSlice, k.clock.ticks, k'.clock.ticks),
          match (Use.runAll [.hold [.tick, .tick], .tick]).run { kernel := k } with
          | .ok (_, shared) => decide (shared.kernel.clock.ticks = k.clock.ticks + 3)
          | .error _ => false)) = some ((1, 2, 1, 3), true) := by decide +kernel
  rcases Option.bind_eq_some_iff.mp ran with ⟨k, performed, rest⟩
  rcases Option.map_eq_some_iff.mp rest with ⟨k', goes, told⟩
  simp only [Prod.mk.injEq] at told
  rcases told with ⟨⟨slice, lasts, early, late⟩, told⟩
  have reachable := (Reachable.fresh { timeSlice := 2 } .stable).performAll performed
  have later := transits_of_occurAll goes
  have length : k.sliceLength = 2 := by
    rw [sliceLength, lasts]
    rfl
  rcases slice_is_bounded reachable with ⟨_, ends, ticks, rations, shares⟩
  rcases (ends (by rw [lasts]; decide)).mpr (by rw [early]; decide) with ⟨last, ran⟩
  have tick := ticks last ran
  have full : last.slice = 2 := by rw [tick.slice, slice]
  rcases (rations k' later).dispatched (by rw [early, late, length]) with
    ⟨halted, running, _, dispatch, idle⟩
  split at told
  · next log shared runs =>
    exact ⟨k, last, k', log, shared, reachable, slice, length, ran, full,
      tick.yields (full.trans length.symm), later, ⟨halted, running, dispatch, idle⟩, runs,
      of_decide_eq_true told, (shares _ log shared runs).2⟩
  · cases told

end ThreadKernel
