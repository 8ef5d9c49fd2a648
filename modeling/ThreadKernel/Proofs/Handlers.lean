import ThreadKernel.Proofs.Frame

/-!
# Interrupt handlers

A handler runs on the processor of the thread that it interrupts.  An operation that would hand the
processor on is refused in it, and one that looks for preemption puts the yield off, so that all it
does to the seat is to ask for a yield (`seat_of_run_duty`).  The return of the handler is then one
yield, if any part of the handler has asked for one or the idle thread is not needed any more, and
none otherwise: `handlers_never_switch`.
-/

namespace ThreadKernel

open Kernel

variable {k k' : Kernel} {t : ThreadId} {u : Unit} {s : SemaphoreId} {l : LockId} {reply : Reply}
  {looked : Bool}

/-! ## What a handler does -/

/-- A part of a handler: an operation, or what the timer's handler does of its own. -/
inductive Duty
  | request (request : Request)
  | tick

def Duty.perform : Duty → KernelM Reply
  | .request r => r.perform
  | .tick => do timerTick; pure .done

/-- A part of a handler that has been done: what it answered, and the kernel before and after. -/
structure Call where
  duty : Duty
  before : Kernel
  reply : Reply
  after : Kernel

/-- Do the parts of a handler one after the other. -/
def performEach : List Duty → KernelM (List Call)
  | [] => pure []
  | duty :: rest => do
    let before ← get
    let reply ← duty.perform
    let after ← get
    let calls ← performEach rest
    pure (⟨duty, before, reply, after⟩ :: calls)

/-- Whether an operation that has ended well in a handler looked for preemption in the end. -/
def Request.checks : Request → Reply → Bool
  | .preempt, _ | .setPriority _, _ | .up _, _ | .release _, _ => true
  | .spawn _, .spawned (.ok _) => true
  | _, _ => false

/-- Whether the part has looked for preemption.  The timer's does when a sleeper is due. -/
def Call.checks (call : Call) : Bool :=
  match call.duty with
  | .request r => r.checks call.reply
  | .tick => call.before.sleepers.isDue (call.before.clock.ticks + 1)

/-- Whether the part has used up the slice. -/
def Call.usesUp (call : Call) : Bool :=
  match call.duty with
  | .request _ => false
  | .tick => decide (call.before.config.timeSlice ≤ call.before.slice + 1)

/-- Whether the part has found a thread that is to run instead of the current one. -/
def Call.defers (call : Call) : Bool := call.checks && call.after.outranked || call.usesUp

/-! ## What that does to the seat -/

/-- Nobody has got the processor.  A yield has been put off if there has been a look for preemption
and somebody outranks the current thread. -/
def Kernel.PutsOff (looked : Bool) (k k' : Kernel) : Prop :=
  k'.seat = { k.seat with yieldDue := k.yieldDue || (looked && k'.outranked) }

theorem putsOff_of_seat (same : k'.seat = k.seat) : k.PutsOff false k' := by
  rw [PutsOff, same, Bool.false_and, Bool.or_false]
  rfl

theorem Kernel.Keeps.putsOff {α : Type} {x : KernelM α} {a : α} (keeps : Keeps Kernel.seat x k)
    (h : x.run k = .ok (a, k')) : k.PutsOff false k' :=
  putsOff_of_seat (keeps a k' h)

/-- In a handler a look for preemption does no more than to put a yield off. -/
theorem Kernel.run_preempt_inside (inside : k.inInterrupt = true) :
    preempt.run k = .ok ((), { k with yieldDue := k.yieldDue || k.outranked }) := by
  rw [preempt, run_get_bind, inside, if_pos rfl]
  cases k.outranked with
  | true =>
    rw [Bool.or_true]
    rfl
  | false =>
    rw [if_neg Bool.false_ne_true, Bool.or_false, ← inside]
    rfl

theorem putsOff_of_run_preempt (inside : k.inInterrupt = true) (h : preempt.run k = .ok (u, k')) :
    k.PutsOff true k' := by
  rw [run_preempt_inside inside] at h
  cases h
  rfl

/-- What is done before a look for preemption does not show in the seat. -/
theorem Kernel.PutsOff.after {middle : Kernel} (puts : middle.PutsOff looked k')
    (same : middle.seat = k.seat) : k.PutsOff looked k' := by
  have due : middle.yieldDue = k.yieldDue := congrArg Seat.yieldDue same
  rw [PutsOff, puts, same, due]

theorem inInterrupt_of_frame (inside : k.inInterrupt = true) (same : k'.frame = k.frame) :
    k'.inInterrupt = true :=
  (congrArg Frame.inInterrupt same).trans inside

theorem putsOff_of_run_up (inside : k.inInterrupt = true) (h : s.up.run k = .ok (u, k')) :
    k.PutsOff true k' := by
  obtain ⟨woken, last, wakes, preempts, rfl⟩ := SemaphoreId.of_run_up h
  obtain ⟨frame, seat, _⟩ := SemaphoreId.frame_of_run_wake wakes
  have inside : woken.inInterrupt = true := (congrArg Frame.inInterrupt frame).trans inside
  exact (putsOff_of_run_preempt inside preempts).after seat

theorem putsOff_of_run_release (inside : k.inInterrupt = true) (h : l.release.run k = .ok (u, k')) :
    k.PutsOff true k' := by
  obtain ⟨lock, dropped, last, _, _, drops, ups, rfl⟩ := LockId.of_run_release h
  have still := Prod.mk.inj (l.still_dropDonors _ () dropped drops)
  have within := inInterrupt_of_frame (k := k.atLevel .off) inside still.1
  have puts : Kernel.PutsOff true _ last := putsOff_of_run_up (by exact within) ups
  exact puts.after still.2

theorem putsOff_of_run_setPriority {p : Priority} (inside : k.inInterrupt = true)
    (h : (setPriority p).run k = .ok (u, k')) : k.PutsOff true k' := by
  obtain ⟨refreshed, last, refreshes, preempts, rfl⟩ := of_run_setPriority h
  have still := Prod.mk.inj ((still_refresh _ _ () refreshed refreshes).trans (stance_mapThread _ _))
  exact (putsOff_of_run_preempt (inInterrupt_of_frame (k := k.atLevel .off) inside still.1)
    preempts).after still.2

theorem putsOff_of_run_spawn {blueprint : Blueprint} {result : Except SpawnRefusal ThreadId}
    (inside : k.inInterrupt = true) (h : (spawn blueprint).run k = .ok (result, k')) :
    k.PutsOff ((Request.spawn blueprint).checks (.spawned result)) k' := by
  cases of_run_spawn h with
  | refused => exact putsOff_of_seat rfl
  | made _ unblocks preempts =>
    have still := Prod.mk.inj (still_unblock _ _ () _ unblocks)
    exact (putsOff_of_run_preempt ((congrArg Frame.inInterrupt still.1).trans inside)
      preempts).after still.2

theorem putsOff_of_run_start {result : Except Refusal ThreadId}
    (h : start.run k = .ok (result, k')) : k.PutsOff false k' := by
  obtain rfl | ⟨_, rfl⟩ := of_run_start h
  · exact putsOff_of_seat rfl
  · exact putsOff_of_seat rfl

/-- No timer interrupt comes in the middle of another one, unless none is asked for. -/
theorem putsOff_of_run_timerInterrupts {count : Nat} (inside : k.inInterrupt = true)
    (h : (timerInterrupts count).run k = .ok (u, k')) : k.PutsOff false k' := by
  cases count with
  | zero =>
    cases h
    exact putsOff_of_seat rfl
  | succ count =>
    obtain ⟨_, middle, ran, _⟩ := run_bind_eq_ok_iff.mp h
    obtain ⟨_, entered, enters, _⟩ := run_bind_eq_ok_iff.mp ran
    cases inside.symm.trans (of_run_enterInterrupt enters).1

/-- What only a thread may do is refused in a handler. -/
theorem not_run_of_inside {α : Type} {operation : Operation} {rest : Unit → KernelM α}
    {r : α × Kernel} (inside : k.inInterrupt = true) :
    (requireThreadContext operation >>= rest).run k ≠ .ok r := by
  intro ran
  cases inside.symm.trans (run_requireThreadContext_bind_eq_ok_iff.mp ran).1

/-- What an operation in a handler does to the seat: no more than to put a yield off. -/
theorem putsOff_of_run_perform {r : Request} (inside : k.inInterrupt = true)
    (h : r.perform.run k = .ok (reply, k')) : k.PutsOff (r.checks reply) k' := by
  by_cases looks : r.looks = true
  · have unchecked : r.checks reply = false := by
      cases r <;> first | rfl | cases looks
    rw [unchecked]
    exact putsOff_of_seat (by rw [(looks_perform looks).eq_of_run h])
  cases r with
  | elapsed | semaphoreValue | semaphoreWaiters | lockHolder | lockHeldByCaller | lockWaiters
  | conditionWaiters | summary | profile | setNiceness => exact absurd rfl looks
  | exit | block | yield | sleepUntil | down | acquire | wait | signal | broadcast =>
    obtain ⟨_, ran, _⟩ := run_map_eq_ok_iff.mp h
    exact absurd ran (not_run_of_inside inside)
  | sleep ticks =>
    obtain ⟨_, ran, _⟩ := run_map_eq_ok_iff.mp h
    rw [run_sleep] at ran
    exact absurd ran (not_run_of_inside inside)
  | sleepFor duration =>
    obtain ⟨_, ran, _⟩ := run_map_eq_ok_iff.mp h
    rw [run_sleepFor] at ran
    exact absurd ran (not_run_of_inside inside)
  | timer count =>
    obtain ⟨_, ran, _⟩ := run_map_eq_ok_iff.mp h
    exact putsOff_of_run_timerInterrupts inside ran
  | start =>
    obtain ⟨_, ran, _⟩ := run_map_eq_ok_iff.mp h
    exact putsOff_of_run_start ran
  | spawn blueprint =>
    obtain ⟨_, ran, rfl⟩ := run_map_eq_ok_iff.mp h
    exact putsOff_of_run_spawn inside ran
  | preempt =>
    obtain ⟨_, ran, _⟩ := run_map_eq_ok_iff.mp h
    exact putsOff_of_run_preempt inside ran
  | setPriority p =>
    obtain ⟨_, ran, _⟩ := run_map_eq_ok_iff.mp h
    exact putsOff_of_run_setPriority inside ran
  | up s =>
    obtain ⟨_, ran, _⟩ := run_map_eq_ok_iff.mp h
    exact putsOff_of_run_up inside ran
  | release l =>
    obtain ⟨_, ran, _⟩ := run_map_eq_ok_iff.mp h
    exact putsOff_of_run_release inside ran
  | observe observer =>
    cases h
    exact putsOff_of_seat rfl
  | setLevel level =>
    cases h
    exact putsOff_of_seat rfl
  | reportUsage =>
    obtain rfl := of_run_perform_reportUsage h
    exact putsOff_of_seat rfl
  | unblock t => exact (still_unblock t k).seat.answer _ |>.putsOff h
  | createSemaphore value => exact (Semaphore.still_create _ _ k).seat.answer _ |>.putsOff h
  | destroySemaphore s => exact (s.still_destroy k).seat.answer _ |>.putsOff h
  | tryDown s => exact (Still.masked s.still_take k).seat.answer _ |>.putsOff h
  | createLock => exact (Lock.still_create k).seat.answer _ |>.putsOff h
  | destroyLock l => exact (l.still_destroy k).seat.answer _ |>.putsOff h
  | tryAcquire l => exact (l.still_tryAcquire k).seat.answer _ |>.putsOff h
  | createCondition => exact (Condition.still_create k).seat.answer _ |>.putsOff h
  | destroyCondition c => exact (c.still_destroy k).seat.answer _ |>.putsOff h

/-- The timer's part puts a yield off when the slice is used up, too. -/
theorem seat_of_run_timerTick (inside : k.inInterrupt = true) (h : timerTick.run k = .ok (u, k')) :
    k'.seat = { k.seat with yieldDue := k.yieldDue ||
      (k.sleepers.isDue (k.clock.ticks + 1) && k'.outranked ||
        decide (k.config.timeSlice ≤ k.slice + 1)) } := by
  obtain ⟨_, usage, _, rest⟩ := of_run_timerTick h
  obtain ⟨ahead, rfl⟩ | ⟨come, woken, wakes, preempts⟩ := rest
  · have undue : k.sleepers.isDue (k.clock.ticks + 1) = false :=
      Bool.eq_false_iff.mpr fun due => Nat.not_le_of_lt ahead (SleepQueue.isDue_iff.mp due)
    rw [undue, Bool.false_and, Bool.false_or]
    rfl
  · have due : k.sleepers.isDue (k.clock.ticks + 1) = true := SleepQueue.isDue_iff.mpr come
    have still := Prod.mk.inj (still_awaken _ _ () woken wakes)
    have within := inInterrupt_of_frame (k := k.ticked usage) inside still.1
    have puts : (k.ticked usage).PutsOff true k' :=
      (putsOff_of_run_preempt within preempts).after still.2
    rw [PutsOff] at puts
    rw [puts, due, Bool.true_and, ticked_yieldDue, Bool.or_assoc, Bool.or_comm (decide _)]
    rfl

theorem seat_of_run_duty {duty : Duty} (inside : k.inInterrupt = true)
    (h : duty.perform.run k = .ok (reply, k')) :
    k'.seat = { k.seat with yieldDue := k.yieldDue || Call.defers ⟨duty, k, reply, k'⟩ } := by
  cases duty with
  | request r =>
    have puts := putsOff_of_run_perform inside h
    rw [Call.defers, Call.usesUp, Bool.or_false]
    exact puts
  | tick =>
    obtain ⟨_, ran, _⟩ := run_map_eq_ok_iff.mp h
    exact seat_of_run_timerTick inside ran

theorem inInterrupt_of_run_duty {duty : Duty} (inside : k.inInterrupt = true)
    (h : duty.perform.run k = .ok (reply, k')) : k'.inInterrupt = true := by
  cases duty with
  | request r =>
    have settled : k.frame.overdue = false := by
      rw [frame_overdue, inside, Bool.not_true, Bool.and_false]
    exact (alters_of_run_perform settled h).inInterrupt.trans inside
  | tick =>
    obtain ⟨_, ran, _⟩ := run_map_eq_ok_iff.mp h
    exact inInterrupt_of_frame inside (frame_of_run_timerTick inside ran)

theorem steady_of_run_duty {duty : Duty} (steady : Steady {} k)
    (h : duty.perform.run k = .ok (reply, k')) : Steady {} k' := by
  cases duty with
  | request r =>
    obtain ⟨_, steps, _⟩ := steps_of_run_perform steady (r.obeys_nothing k) h
    exact steps.steady steady
  | tick =>
    obtain ⟨_, ran, _⟩ := run_map_eq_ok_iff.mp h
    exact (steps_of_run_timerTick steady ran).steady steady

/-! ## A whole handler -/

/-- The threads that are marked as running. -/
def Kernel.running (k : Kernel) : Set ThreadId :=
  {t | ∃ thread, k.threads.get? t = some thread ∧ thread.state = .running}

theorem running_eq (steady : Steady {} k) : k.running = {k.current} := by
  ext t
  constructor
  · rintro ⟨thread, found, running⟩
    exact steady.regular.placed.running found running
  · rintro rfl
    exact steady.runs.running

/-- The processor is where it was. -/
structure Kernel.SameProcessor (k k' : Kernel) : Prop where
  current : k'.current = k.current
  switches : k'.processor.switches = k.processor.switches
  running : k'.running = k.running

theorem run_performEach_cons {duty : Duty} {rest : List Duty} {calls : List Call} {last : Kernel}
    (h : (performEach (duty :: rest)).run k = .ok (calls, last)) :
    ∃ reply middle later, duty.perform.run k = .ok (reply, middle) ∧
      (performEach rest).run middle = .ok (later, last) ∧
      calls = ⟨duty, k, reply, middle⟩ :: later := by
  rw [performEach, run_get_bind] at h
  obtain ⟨reply, middle, ran, h⟩ := run_bind_eq_ok_iff.mp h
  rw [run_get_bind] at h
  obtain ⟨later, _, rest, h⟩ := run_bind_eq_ok_iff.mp h
  cases h
  exact ⟨reply, middle, later, ran, rest, rfl⟩

/-- What the parts of a handler have done by the end. -/
structure Handled (k : Kernel) (calls : List Call) (last : Kernel) : Prop where
  steady : Steady {} last
  inside : last.inInterrupt = true
  seat : last.seat = { k.seat with yieldDue := k.yieldDue || calls.any Call.defers }
  processor : ∀ call ∈ calls, k.SameProcessor call.after

theorem handled_of_run {duties : List Duty} {calls : List Call} {last : Kernel}
    (steady : Steady {} k) (inside : k.inInterrupt = true)
    (h : (performEach duties).run k = .ok (calls, last)) : Handled k calls last := by
  induction duties generalizing k calls with
  | nil =>
    cases h
    refine ⟨steady, inside, ?_, List.forall_mem_nil _⟩
    rw [List.any_nil, Bool.or_false]
    rfl
  | cons duty rest ih =>
    obtain ⟨reply, middle, later, ran, others, rfl⟩ := run_performEach_cons h
    have seat := seat_of_run_duty inside ran
    have steadyAfter := steady_of_run_duty steady ran
    obtain ⟨steadyLast, insideLast, seatLast, processor⟩ :=
      ih steadyAfter (inInterrupt_of_run_duty inside ran) others
    have current : middle.current = k.current := congrArg Seat.current seat
    have same : k.SameProcessor middle := by
      refine ⟨current, congrArg Seat.switches seat, ?_⟩
      rw [running_eq steadyAfter, running_eq steady, current]
    refine ⟨steadyLast, insideLast, ?_, List.forall_mem_cons.mpr ⟨same, fun call among => ?_⟩⟩
    · have due := congrArg Seat.yieldDue seat
      rw [seat_yieldDue] at due
      rw [seatLast, seat, due, List.any_cons, Bool.or_assoc]
    · have further := processor call among
      exact ⟨further.current.trans same.current, further.switches.trans same.switches,
        further.running.trans same.running⟩

/-- The kernel as a handler finds it. -/
def Kernel.interrupted (k : Kernel) : Kernel := { k.atLevel .off with inInterrupt := true }

/-- Whether the return of a handler has to give the processor up: a part of the handler has asked
for that, or the idle thread was interrupted and something is ready. -/
def Kernel.givesWay (last : Kernel) (calls : List Call) : Bool :=
  calls.any Call.defers || (last.idles && !last.ready.isEmpty)

/-- What the return of a handler leaves to be done in the end. -/
def Kernel.unmasked {α : Type} (a : α) (step : Unit × Kernel) : α × Kernel :=
  (a, step.2.atLevel .on)

theorem run_enterInterrupt (outside : k.inInterrupt = false) (unmasked : k.processor.level = .on) :
    enterInterrupt.run k = .ok ((), k.interrupted) := by
  rw [enterInterrupt, run_get_bind, run_require_bind_eq_ok_iff, run_require_bind_eq_ok_iff,
    run_setLevel_bind]
  exact ⟨by rw [outside]; exact Bool.false_ne_true, unmasked, rfl⟩

theorem run_leaveInterrupt (k : Kernel) : leaveInterrupt.run k =
    ((if k.yieldDue || (k.idles && !k.ready.isEmpty) then yield else pure () : KernelM Unit).run
      k.resumed).map (unmasked ()) := by
  rw [leaveInterrupt, run_get_bind, run_set_bind]
  split
  · rw [StateT.run_bind, resumed]
    cases yield.run { k with inInterrupt := false, yieldDue := false } <;> rfl
  · rfl

theorem run_performEach_tick (k : Kernel) : (performEach [.tick]).run k =
    (timerTick.run k).map fun step => ([⟨.tick, k, .done, step.2⟩], step.2) := by
  rw [performEach, run_get_bind, Duty.perform, bind_assoc, StateT.run_bind]
  cases timerTick.run k <;> rfl

/-- The timer's handler has one part. -/
theorem run_timerInterrupt (k : Kernel) :
    timerInterrupt.run k = ((interrupt (performEach [.tick])).run k).map fun step => ((), step.2) := by
  rw [timerInterrupt, interrupt, interrupt, StateT.run_bind, StateT.run_bind]
  cases enterInterrupt.run k with
  | error fault => rfl
  | ok entered =>
    have part := run_performEach_tick entered.2
    change (timerTick >>= fun a => leaveInterrupt >>= fun _ => pure a).run entered.2 =
      ((performEach [.tick] >>= fun a => leaveInterrupt >>= fun _ => pure a).run entered.2).map _
    rw [StateT.run_bind, StateT.run_bind, part]
    cases timerTick.run entered.2 with
    | error fault => rfl
    | ok ticked =>
      change (leaveInterrupt >>= fun _ => pure _).run ticked.2 =
        ((leaveInterrupt >>= fun _ => pure _).run ticked.2).map _
      rw [StateT.run_bind, StateT.run_bind]
      cases leaveInterrupt.run ticked.2 <;> rfl

/-- A handler leaves the processor where it is, whatever it does.  Its return is exactly one yield
if it has to give way, and none otherwise, and then no handler runs and nothing is put off. -/
theorem handlers_never_switch (reachable : Reachable {} k) (outside : k.inInterrupt = false)
    (unmasked : k.processor.level = .on) {duties : List Duty} {calls : List Call} {last : Kernel}
    (h : (performEach duties).run k.interrupted = .ok (calls, last)) :
    (∀ call ∈ calls, k.SameProcessor call.after) ∧
    (interrupt (performEach duties)).run k =
      ((if last.givesWay calls then yield else pure () : KernelM Unit).run last.resumed).map
        (Kernel.unmasked calls) ∧
    (∀ k', (interrupt (performEach duties)).run k = .ok (calls, k') →
      k'.inInterrupt = false ∧ k'.yieldDue = false) ∧
    timerInterrupt.run k = ((interrupt (performEach [.tick])).run k).map fun step => ((), step.2) := by
  have enters := run_enterInterrupt outside unmasked
  have steady : Steady {} k.interrupted :=
    (steps_of_run_enterInterrupt reachable.steady enters).steady reachable.steady
  have handled := handled_of_run steady rfl h
  have nothing : k.yieldDue = false := by
    have settled := reachable.settled
    rwa [frame_overdue, outside, Bool.not_false, Bool.and_true] at settled
  have due : last.yieldDue = calls.any Call.defers := by
    have due := congrArg Seat.yieldDue handled.seat
    rwa [seat_yieldDue, show k.interrupted.yieldDue = k.yieldDue from rfl, nothing,
      Bool.false_or] at due
  have ends : (interrupt (performEach duties)).run k =
      ((if last.givesWay calls then yield else pure () : KernelM Unit).run last.resumed).map
        (Kernel.unmasked calls) := by
    rw [interrupt, run_bind_of_ok enters, run_bind_of_ok h, StateT.run_bind, run_leaveInterrupt,
      due, givesWay]
    cases StateT.run (if (calls.any Call.defers || last.idles && !last.ready.isEmpty) = true then
      yield else pure () : KernelM Unit) last.resumed <;> rfl
  refine ⟨fun call among => ?_, ends, fun k' returns => ?_, run_timerInterrupt k⟩
  · have same := handled.processor call among
    exact ⟨same.current, same.switches, same.running⟩
  · rw [interrupt, run_bind_of_ok enters, run_bind_of_ok h] at returns
    obtain ⟨_, left, leaves, returns⟩ := run_bind_eq_ok_iff.mp returns
    cases returns
    have frame := frame_of_run_leaveInterrupt leaves
    have inInterrupt : k'.inInterrupt = false := congrArg Frame.inInterrupt frame
    have overdue := congrArg Frame.overdue frame
    rw [frame_overdue, inInterrupt, Bool.not_false, Bool.and_true] at overdue
    exact ⟨inInterrupt, overdue⟩

/-- A handler returns a unit that a thread of priority 40 waits for, and counts a tick.  The thread
that it interrupts goes on until it returns, and then the other one runs. -/
theorem handlers_never_switch_of_wakeup : ∃ k calls last k', Reachable {} k ∧ k.current = .main ∧
    (performEach [.request (.up ⟨0⟩), .tick]).run k.interrupted = .ok (calls, last) ∧
    last.givesWay calls = true ∧ (∀ call ∈ calls, call.after.current = .main) ∧
    (interrupt (performEach [.request (.up ⟨0⟩), .tick])).run k = .ok (calls, k') ∧
    k'.current = ⟨3⟩ ∧ k'.inInterrupt = false ∧ k'.yieldDue = false := by
  have ran : (({} : Discipline).performAll
      [.start, .createSemaphore 0, .spawn { priority := 40 }, .down ⟨0⟩] (.fresh {} .stable)).map
      (fun k => decide (k.current = .main ∧ k.inInterrupt = false ∧ k.processor.level = .on) &&
        match (performEach [.request (.up ⟨0⟩), .tick]).run k.interrupted,
          (interrupt (performEach [.request (.up ⟨0⟩), .tick])).run k with
        | .ok (calls, last), .ok (_, k') => last.givesWay calls && decide (k'.current = ⟨3⟩)
        | _, _ => false) = some true := by decide +kernel
  obtain ⟨k, performed, told⟩ := Option.map_eq_some_iff.mp ran
  obtain ⟨stands, told⟩ := Bool.and_eq_true_iff.mp told
  obtain ⟨here, outside, unmasked⟩ := of_decide_eq_true stands
  split at told
  · next calls last answers k' handled returns =>
    obtain ⟨way, there⟩ := Bool.and_eq_true_iff.mp told
    have reachable := (Reachable.fresh {} .stable).performAll performed
    obtain ⟨stays, ends, clears, _⟩ := handlers_never_switch reachable outside unmasked handled
    have same : answers = calls := by
      have returned := ends.symm.trans returns
      cases gives : (if last.givesWay calls then yield else pure () : KernelM Unit).run last.resumed with
      | error fault =>
        rw [gives] at returned
        cases returned
      | ok step =>
        rw [gives] at returned
        cases returned
        rfl
    subst same
    exact ⟨k, answers, last, k', reachable, here, handled, way,
      fun call among => (stays call among).current.trans here, returns, of_decide_eq_true there,
      clears k' returns⟩
  · cases told

end ThreadKernel
