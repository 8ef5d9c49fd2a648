import ThreadKernel.Proofs.Dispatching

/-!
# Ticks, accounts and slices

Every tick is charged to one account, and lengthens the current thread's slice.  When the slice
is used up the interrupt asks for a yield, and the next thread's slice starts anew.  So in
between operations the accounts add up to the clock (`Reachable.charged`), and no slice is
used up (`Reachable.timely`).
-/

namespace ThreadKernel

open Kernel

variable {d : Discipline} {m m' : Machine} {k k' : Kernel} {act : Option Act} {u : Unit}

/-! ## The accounts -/

/-- Every tick has been charged to one account. -/
def Kernel.Charged (k : Kernel) : Prop :=
  k.usage.idle + k.usage.kernel + k.usage.user = k.clock.ticks

theorem Beat.charged (beat : Beat k k' act) (charged : k.Charged) : k'.Charged := by
  have of_gauges : ∀ {gauges : Config × Clock × Usage × Nat × Option ThreadId},
      k'.gauges = gauges → k'.usage = gauges.2.2.1 ∧ k'.clock = gauges.2.1 := by
    rintro gauges rfl
    exact ⟨rfl, rfl⟩
  rw [Charged] at charged ⊢
  cases beat with
  | still same =>
    rcases of_gauges same with ⟨usage, clock⟩
    rwa [usage, clock]
  | begin _ _ same =>
    rcases of_gauges same with ⟨usage, clock⟩
    rwa [usage, clock]
  | appoint free other same =>
    rcases of_gauges same with ⟨usage, clock⟩
    rwa [usage, clock]
  | tick account same =>
    rcases of_gauges same with ⟨usage, clock⟩
    rw [usage, clock]
    rcases account with rfl | rfl | rfl
    · simp only [gauges, ticked_usage, ticked_clock_ticks, Usage.chargeIdle]
      omega
    · simp only [gauges, ticked_usage, ticked_clock_ticks, Usage.chargeUser]
      omega
    · simp only [gauges, ticked_usage, ticked_clock_ticks, Usage.chargeKernel]
      omega

/-- The accounts always add up to the clock. -/
theorem Reachable.charged (reachable : Reachable d k) : k.Charged :=
  reachable.invariant (motive := fun m => m.kernel.Charged) (fun _ _ => rfl)
    fun regular move charged => (move.beat regular.toSound).charged charged

/-! ## Slices -/

/-- The settings stay as they are. -/
theorem Beat.config (beat : Beat k k' act) : k'.config = k.config := by
  cases beat with
  | still same => exact congrArg (·.1) same
  | tick account same => exact congrArg (·.1) same
  | begin _ _ same => exact congrArg (·.1) same
  | appoint free other same => exact congrArg (·.1) same

theorem Moves.config {deeds : List Deed} (moves : Moves d deeds m m') (regular : Regular d m) :
    m'.kernel.config = m.kernel.config := by
  induction moves with
  | refl m => rfl
  | tail before move ih =>
    exact (move.beat (regular.moves before).toSound).config.trans (ih regular)

/-- No tick has come, though another thread's slice may have begun. -/
structure Kernel.Unticked (k k' : Kernel) : Prop where
  config : k'.config = k.config
  clock : k'.clock = k.clock
  slice : k'.slice = k.slice ∨ k'.slice = 0

theorem Kernel.Unticked.trans {k'' : Kernel} (first : k.Unticked k') (second : k'.Unticked k'') :
    k.Unticked k'' where
  config := second.config.trans first.config
  clock := second.clock.trans first.clock
  slice := by
    rcases second.slice with same | zero
    · rw [same]
      exact first.slice
    · exact .inr zero

theorem Beat.unticked (beat : Beat k k' act) (other : act ≠ some .tick) : k.Unticked k' := by
  cases beat with
  | still same =>
    exact ⟨congrArg (·.1) same, congrArg (·.2.1) same, .inl (congrArg (·.2.2.2.1) same)⟩
  | tick account same => exact absurd rfl other
  | begin _ _ same =>
    exact ⟨congrArg (·.1) same, congrArg (·.2.1) same, .inr (congrArg (·.2.2.2.1) same)⟩
  | appoint free apart same =>
    exact ⟨congrArg (·.1) same, congrArg (·.2.1) same, .inl (congrArg (·.2.2.2.1) same)⟩

theorem Moves.unticked {deeds : List Deed} (moves : Moves d deeds m m') (regular : Regular d m)
    (untick : ∀ deed ∈ deeds, deed.act ≠ .tick) : m.kernel.Unticked m'.kernel := by
  induction moves with
  | refl m => exact ⟨rfl, rfl, .inl rfl⟩
  | tail before move ih =>
    rename_i deeds act m m' m''
    apply (ih regular fun deed among => untick deed (List.mem_append_left _ among)).trans
    apply (move.beat (regular.moves before).toSound).unticked
    rintro rfl
    exact untick _ (List.mem_append_right _ (List.mem_singleton.mpr rfl)) rfl

/-- The dispatcher begins a slice, and no interrupt. -/
structure Kernel.Begins (d : Discipline) (k k' : Kernel) : Prop where
  slice : k'.slice = 0
  inInterrupt : d.plainHandles = true → k'.inInterrupt = k.inInterrupt

theorem begins_of_run_dispatchOnce (regular : Regular d ⟨k, none⟩) (free : ¬ Stuck k)
    (swept : k.Swept) {running : Bool} (h : dispatchOnce.run k = .ok (running, k')) : Begins d k k' := by
  rcases pick_of_run_dispatchOnce regular free swept h with
    ⟨next, thread, place, ready, processor, dying, events, found, picks, awake, pick, runs, ends⟩
  have tries := tries_of_run_finish (regular.move pick) runs ends
  constructor
  · have unticked := tries.moves.unticked (regular.move pick) (List.forall_mem_nil _)
    rcases unticked.slice with same | zero
    · exact same
    · exact zero
  · intro named
    cases running with
    | true => exact (tries.placid rfl named).inInterrupt
    | false => exact (vain_of_run_finish ends).inInterrupt

theorem Elects.begins (elects : Elects d k k') : Begins d k k' := by
  induction elects with
  | goes regular free swept once => exact begins_of_run_dispatchOnce regular free swept once
  | fails regular free swept once _ rest =>
    have first := begins_of_run_dispatchOnce regular free swept once
    exact ⟨rest.slice, fun named => (rest.inInterrupt named).trans (first.inInterrupt named)⟩

theorem begins_of_run_schedule (regular : Regular d ⟨k, none⟩)
    (h : schedule.run k = .ok (u, k')) : Begins d k k' := by
  rcases of_run_schedule regular h with ⟨reclaimed, ran, elects⟩
  have begins := elects.begins
  rcases of_run_reclaim ran with ⟨_, _, _, _, _, rfl⟩
  exact ⟨begins.slice, begins.inInterrupt⟩

theorem begins_of_run_yield (regular : Regular d ⟨k, none⟩) (running : k.Running)
    (h : yield.run k = .ok (u, k')) : Begins d k k' := by
  rcases of_run_yield h with ⟨aside, last, stands, ran, rfl⟩
  have regular := (regular.move (.quiet (sameWork_atLevel .off))).move (stands.move running)
  have begins := begins_of_run_schedule regular ran
  have same : aside.inInterrupt = k.inInterrupt := by cases stands <;> rfl
  exact ⟨begins.slice, fun named => (begins.inInterrupt named).trans same⟩

/-! ## Timer interrupts -/

/-- The current thread's slice is not used up, and the clock has not outgrown its word. -/
structure Kernel.Timely (k : Kernel) : Prop where
  slice : k.slice = 0 ∨ k.slice < k.config.timeSlice
  ticks : k.clock.ticks ≤ maxWord

/-- A slice whose length fits its word has room for the count. -/
theorem Kernel.Timely.counts (timely : k.Timely) (fits : k.config.timeSlice ≤ maxHalfWord) :
    k.slice < maxHalfWord := by
  rcases timely.slice with zero | short
  · rw [zero]
    decide
  · exact Nat.lt_of_lt_of_le short fits

theorem Kernel.Timely.unticked (timely : k.Timely) (unticked : k.Unticked k') : k'.Timely where
  slice := by
    rw [unticked.config]
    rcases unticked.slice with same | zero
    · rw [same]
      exact timely.slice
    · exact .inl zero
  ticks := by
    rw [unticked.clock]
    exact timely.ticks

/-- What the return from a handler leaves. -/
structure Kernel.Left (d : Discipline) (k k' : Kernel) : Prop where
  level : k'.processor.level = .on
  inInterrupt : d.plainHandles = true → k'.inInterrupt = false
  unticked : k.Unticked k'
  yielded : k.yieldDue = true → k'.slice = 0

theorem left_of_run_leaveInterrupt (steady : Steady d k) (h : leaveInterrupt.run k = .ok (u, k')) :
    Left d k k' := by
  have unticked := (steps_of_run_leaveInterrupt steady h).moves.unticked steady.regular
    (List.forall_mem_nil _)
  cases of_run_leaveInterrupt h with
  | resumes settled =>
    refine ⟨rfl, fun _ => rfl, unticked, fun due => ?_⟩
    rw [due] at settled
    cases settled
  | yields ran =>
    have begins := begins_of_run_yield (d := d)
      (steady.regular.move (.quiet (sameWork_resumed k))) steady.runs.running ran
    exact ⟨rfl, begins.inInterrupt, unticked, fun _ => begins.slice⟩

/-- Waking sleepers has nothing to do with the handler that does it, nor with the slice. -/
theorem handler_of_run_awaken {now : Nat} (h : (awaken now).run k = .ok (u, k')) :
    k'.inInterrupt = k.inInterrupt ∧ k'.yieldDue = k.yieldDue ∧ k'.slice = k.slice := by
  rw [awaken, run_get_bind] at h
  rcases run_bind_eq_ok_iff.mp h with ⟨_, same, checks, h⟩
  cases run_forM_findThread checks
  rw [run_set_bind] at h
  generalize k.sleepers.wake now (fun t => (k.threads.get? t).elim 0 (·.wakeTick)) = parts at h
  rcases parts with ⟨woken, rest⟩
  suffices given : ∀ {woken : List ThreadId} {k : Kernel}, (woken.forM fun t => do
      note (.awakens t now)
      modifyThread t fun thread => { thread with place := .detached }
      unblock t : KernelM PUnit).run (k.withSleepers rest) = .ok (u, k') →
        k'.inInterrupt = k.inInterrupt ∧ k'.yieldDue = k.yieldDue ∧ k'.slice = k.slice from given h
  intro woken k h
  induction woken generalizing k with
  | nil =>
    cases h
    exact ⟨rfl, rfl, rfl⟩
  | cons t woken ih =>
    rcases run_forM_cons_eq_ok_iff.mp h with ⟨middle, ran, h⟩
    rcases of_run_rise ran with ⟨thread, _, _, rfl⟩
    have kept := ih h
    exact kept

/-- The timer's handler counts the tick, and asks for a yield when the slice is used up. -/
structure Kernel.Ticked (k k' : Kernel) : Prop where
  config : k'.config = k.config
  clock : k'.clock.ticks = k.clock.ticks + 1
  room : k.clock.ticks ≠ maxWord
  slice : k'.yieldDue = true ∨ k'.slice = 0 ∨ k'.slice < k.config.timeSlice

theorem Kernel.Ticked.unticked {k'' : Kernel} (ticked : k.Ticked k') (unticked : k'.Unticked k'')
    (due : k'.yieldDue = true → k''.yieldDue = true) : k.Ticked k'' where
  config := unticked.config.trans ticked.config
  clock := by
    rw [unticked.clock]
    exact ticked.clock
  room := ticked.room
  slice := by
    rcases ticked.slice with asked | short
    · exact .inl (due asked)
    · rcases unticked.slice with same | zero
      · rw [same]
        exact .inr short
      · exact .inr (.inl zero)

theorem ticked_of_run_timerTick (steady : Steady d k) (inside : k.inInterrupt = true)
    (h : timerTick.run k = .ok (u, k')) : k.Ticked k' := by
  rcases of_run_timerTick h with ⟨room, usage, account, rest⟩
  have ticks : Move d (some .tick) ⟨k, none⟩ ⟨k.ticked usage, none⟩ := .tick account
  have ticked : k.Ticked (k.ticked usage) := by
    refine ⟨rfl, rfl, room, ?_⟩
    rw [ticked_yieldDue, ticked_slice, Bool.or_eq_true, decide_eq_true_eq]
    omega
  rcases rest with ⟨_, rfl⟩ | ⟨_, woken, wakes, preempts⟩
  · exact ticked
  · have steady : Steady d (k.ticked usage) := ⟨steady.regular.move ticks, steady.runs⟩
    rcases handler_of_run_awaken wakes with ⟨inside', due, _⟩
    have rises := (steps_of_run_awaken steady (Nat.le_refl _) wakes).moves
    have ticked := ticked.unticked (rises.unticked steady.regular (List.forall_mem_nil _))
      fun asked => due.trans asked
    rw [preempt, run_get_bind, inside'.trans inside, if_pos rfl] at preempts
    split at preempts
    · cases preempts
      exact ticked.unticked ⟨rfl, rfl, .inl rfl⟩ fun _ => rfl
    · cases preempts
      exact ticked

/-- What a timer interrupt leaves: interrupts may come again, and the clock has moved. -/
structure Kernel.Returned (d : Discipline) (k k' : Kernel) : Prop where
  level : k'.processor.level = .on
  inInterrupt : d.plainHandles = true → k'.inInterrupt = false
  config : k'.config = k.config
  clock : k'.clock.ticks = k.clock.ticks + 1
  timely : k.Timely → k'.Timely

theorem returned_of_run_timerInterrupt (steady : Steady d k)
    (h : timerInterrupt.run k = .ok (u, k')) : Returned d k k' := by
  rcases of_run_timerInterrupt h with ⟨entered, handled, enters, ticks, leaves⟩
  have steady := (steps_of_run_enterInterrupt steady enters).steady steady
  rcases of_run_enterInterrupt enters with ⟨_, rfl⟩
  have counts := ticked_of_run_timerTick steady rfl ticks
  have left := left_of_run_leaveInterrupt ((steps_of_run_timerTick steady ticks).steady steady) leaves
  have clock : k'.clock.ticks = k.clock.ticks + 1 := by
    rw [left.unticked.clock]
    exact counts.clock
  refine ⟨left.level, left.inInterrupt, left.unticked.config.trans counts.config, clock,
    fun timely => ⟨?_, ?_⟩⟩
  · rw [left.unticked.config, counts.config]
    rcases counts.slice with asked | short
    · exact .inl (left.yielded asked)
    · rcases left.unticked.slice with same | zero
      · rw [same]
        exact short
      · exact .inl zero
  · have room := counts.room
    have within := timely.ticks
    rw [clock]
    exact Nat.lt_of_le_of_ne within room

theorem timely_of_run_timerInterrupts {count : Nat} (steady : Steady d k) (timely : k.Timely)
    (h : (timerInterrupts count).run k = .ok (u, k')) : k'.Timely := by
  induction count generalizing k with
  | zero =>
    cases h
    exact timely
  | succ count ih =>
    rcases run_bind_eq_ok_iff.mp h with ⟨_, middle, first, h⟩
    rcases steps_of_run_timerInterrupt steady first with ⟨_, steps⟩
    exact ih (steps.steady steady) ((returned_of_run_timerInterrupt steady first).timely timely) h

/-- What happens is timer interrupts, or moves without a tick. -/
theorem timer_or_untick_of_occur {o : Occurrence} (steady : Steady d k)
    (h : d.occur k o = some k') :
    (∃ count, o = .request (.timer count) ∧ (timerInterrupts count).run k = .ok ((), k')) ∨
      ∃ deeds, Moves d deeds ⟨k, none⟩ ⟨k', none⟩ ∧ ∀ deed ∈ deeds, deed.act ≠ .tick := by
  rcases steps_of_occur steady h with ⟨deeds, steps, accounts⟩
  by_cases timer : ∃ count, o = .request (.timer count)
  · rcases timer with ⟨count, rfl⟩
    cases Discipline.occur_eq_some_iff.mp h with
    | request _ ran =>
      rcases run_bind_eq_ok_iff.mp ran with ⟨_, _, ran, same⟩
      cases same
      exact .inl ⟨count, rfl, ran⟩
  · refine .inr ⟨deeds, steps.moves, fun deed among is => ?_⟩
    rcases accounts deed among with ⟨does, _⟩
    rw [is] at does
    cases does with
    | request does =>
      cases does with
      | tick => exact timer ⟨_, rfl⟩

theorem timely_of_occur {o : Occurrence} (steady : Steady d k) (timely : k.Timely)
    (h : d.occur k o = some k') : k'.Timely := by
  rcases timer_or_untick_of_occur steady h with ⟨count, _, ran⟩ | ⟨deeds, moves, untick⟩
  · exact timely_of_run_timerInterrupts steady timely ran
  · exact timely.unticked (moves.unticked steady.regular untick)

theorem Reachable.timely (reachable : Reachable d k) : k.Timely := by
  induction reachable with
  | fresh config rule => exact ⟨.inl rfl, Nat.zero_le _⟩
  | step before transit ih =>
    rcases transit.occurs with ⟨o, occurs⟩
    exact timely_of_occur before.steady ih occurs

end ThreadKernel
