import ThreadKernel.Proofs.Steps

/-!
# Every operation is a sequence of moves

`steps_of_run_perform` goes through all requests.  Whatever it is that is asked
of a kernel whose current thread runs, it is done in moves, a thread runs
afterwards, and no ready thread is to run in its place.  `Request.Does` says
which acts are among the moves: those that the request is for, all of them the
caller's own.

* Threads and their priorities.
* Interrupts, the timer and timed sleep.
* Semaphores, locks and condition variables.
-/

namespace ThreadKernel

open Kernel

/-- What is done on request. -/
inductive Request.Does : Request → Act → Prop
  | create {value : Nat} {s : SemaphoreId} : Does (.createSemaphore value) (.create s)
  | destroy {s : SemaphoreId} : Does (.destroySemaphore s) (.destroy s)
  | take {s : SemaphoreId} : Does (.tryDown s) (.take s)
  | down {s : SemaphoreId} : Does (.down s) (.down s)
  | acquire {l : LockId} : Does (.acquire l) (.acquire l)
  | seize {l : LockId} : Does (.tryAcquire l) (.seize l)
  | release {l : LockId} : Does (.release l) (.release l)
  | enlist {c : ConditionId} {l : LockId} : Does (.wait c l) (.enlist c l)
  | handBack {c : ConditionId} {l : LockId} : Does (.wait c l) (.release l)
  | undertake {c : ConditionId} {l : LockId} : Does (.wait c l) .undertake
  | signal {c : ConditionId} {l : LockId} : Does (.signal c l) (.signal c)
  | broadcast {c : ConditionId} {l : LockId} : Does (.broadcast c l) (.signal c)
  | tick {count : Nat} : Does (.timer count) .tick

/-- A deed is done on request if the request is for it, and it is the caller's own.  Ticks
are charged to whoever runs. -/
def Request.Accounts (r : Request) (k : Kernel) (deeds : List Deed) : Prop :=
  ∀ deed ∈ deeds, r.Does deed.act ∧ (deed.thread = k.current ∨ deed.act = .tick)

theorem Request.accounts_nil (r : Request) (k : Kernel) : r.Accounts k [] := List.forall_mem_nil _

theorem Request.accounts_deeds {r : Request} {k : Kernel} {act : Act} (does : r.Does act)
    (due : Option Pending) : r.Accounts k (Machine.deeds ⟨k, due⟩ (some act)) :=
  List.forall_mem_singleton.mpr ⟨does, .inl rfl⟩

/-- What is only tried is a deed if it succeeds. -/
theorem Request.accounts_tried {r : Request} {k : Kernel} {act : Act} (does : r.Does act)
    (success : Bool) : r.Accounts k (if success then [⟨k.current, act⟩] else []) := by
  cases success with
  | true => exact Request.accounts_deeds does none
  | false => exact Request.accounts_nil _ _

variable {d : Discipline} {k k' k'' : Kernel} {t : ThreadId} {thread : Thread}
  {s : SemaphoreId} {l : LockId} {c : ConditionId} {u : Unit} {success : Bool} {result : Wait}

/-! ## Threads and their priorities -/

theorem steps_of_run_block (steady : Steady d k) (h : block.run k = .ok (u, k')) :
    Steps d [] True k k' := by
  rw [block, run_requireThreadContext_bind_eq_ok_iff] at h
  obtain ⟨_, h⟩ := h
  rw [run_get_bind, run_require_bind_eq_ok_iff, run_caller_bind,
    run_modifyThread_bind_eq_ok_iff] at h
  obtain ⟨_, _, h⟩ := h
  have halts : Move d none ⟨k, none⟩
      ⟨k.mapThread k.current fun thread => { thread with state := .blocked }, none⟩ :=
    .halt steady.runs.running (.inl steady.runs) (.inl rfl)
  exact steps_of_run_schedule_after steady.regular (.single halts) h

theorem steps_of_run_unblock (steady : Steady d k) (spared : d.sparesIdle → k.idle ≠ some t)
    (h : (unblock t).run k = .ok (u, k')) : Steps d [] False k k' :=
  steady.step (.unblock spared h) (keepsCurrent_of_run_unblock steady.runs.running h)

/-- The current thread is given another base priority. -/
theorem steps_of_run_rebase {base : Priority} (steady : Steady d k)
    (h : (refresh k.current).run (k.mapThread k.current fun old => { old with base }) =
      .ok (u, k')) : Steps d [] False k k' := by
  have keeps : k.KeepsCurrent k' := by
    have based : k.KeepsCurrent (k.mapThread k.current fun old => { old with base }) :=
      keepsCurrent_of_modify rfl (fun _ => rfl) rfl
    obtain ⟨_, _, _, _, _, _, rfl⟩ := of_run_refresh h
    exact based.trans (keepsCurrent_of_modify rfl (fun _ => rfl) rfl)
  exact steady.step (.rebase steady.runs.running h) keeps

theorem steps_of_run_setPriority {priority : Priority} (steady : Steady d k)
    (h : (setPriority priority).run k = .ok (u, k')) : Steps d [] True k k' := by
  obtain ⟨refreshed, last, refreshes, preempts, rfl⟩ := of_run_setPriority h
  have steady := steady.masked
  have rebased := steps_of_run_rebase steady refreshes
  exact (rebased.settle ((rebased.steady steady).preempt preempts)).unmask _

/-- What nobody holds is nobody's. -/
theorem holder?_ne_of_heldBy (none : k.heldBy t = []) (l : LockId) : k.holder? l ≠ some t := by
  intro holds
  obtain ⟨lock, found, holder⟩ := Option.bind_eq_some_iff.mp holds
  have member : l ∈ k.heldBy t := by
    refine List.mem_map.mpr ⟨(l, lock), List.mem_filter.mpr ⟨Arena.mem_entries.mpr found, ?_⟩, rfl⟩
    exact decide_eq_true holder
  rw [none] at member
  cases member

/-- To exit is to give up the processor for good. -/
theorem of_run_exit (steady : Steady d k) (empty : d.careful = true → k.heldBy k.current = [])
    (h : exit.run k = .ok (u, k')) :
    ∃ halted last, Moves d [] ⟨k, none⟩ ⟨halted, none⟩ ∧
      halted.threads = k.threads.modify k.current (fun old => { old with state := .dying }) ∧
      (halted.current, halted.dying) = (k.current, k.dying) ∧
      schedule.run halted = .ok (u, last) ∧ k' = last.atLevel k.processor.level := by
  rw [exit, run_requireThreadContext_bind_eq_ok_iff] at h
  obtain ⟨_, h⟩ := h
  rw [run_get_bind, run_require_bind_eq_ok_iff] at h
  obtain ⟨busy, h⟩ := h
  obtain ⟨_, told, ran, h⟩ := run_bind_eq_ok_iff.mp h
  obtain ⟨events, grown, announced⟩ := run_announce (k := k) (.leaving · k.current) fun _ => rfl
  rw [announced, Except.ok.injEq, Prod.mk.injEq] at ran
  obtain ⟨_, rfl⟩ := ran
  obtain ⟨events, grown, h⟩ : ∃ events, Remarks k.events events ∧
      (masked (do
        note (.exiting k.current (← findThread k.current).name)
        modifyThread k.current fun thread => { thread with state := .dying }
        schedule)).run (k.withEvents events) = .ok (u, k') := by
    dsimp only at h
    split at h
    · exact ⟨_, grown.trans (.cons _ _ rfl), h⟩
    · exact ⟨_, grown, h⟩
  obtain ⟨last, ran, rfl⟩ := run_masked_eq_ok_iff.mp h
  simp only [run_findThread_bind_eq_ok_iff, run_note_bind, run_modifyThread_bind_eq_ok_iff] at ran
  obtain ⟨thread, _, _, ran⟩ := ran
  have told := grown.trans (.cons (.exiting k.current thread.name) _ rfl)
  have noted := steady.masked.quiet (sameWork_withEvents told) rfl id
  have dies : RunState.dying = .blocked ∨ RunState.dying = .dying ∧ k.idle ≠ some k.current ∧
      (d.careful = true → ∀ l, k.holder? l ≠ some k.current) :=
    .inr ⟨rfl, fun idles => busy (idles_iff.mpr idles),
      fun careful => holder?_ne_of_heldBy (empty careful)⟩
  have runs := noted.runs
  have moves := (noted.moves.silent (.halt runs.running (.inl runs) dies))
  exact ⟨_, last, .silentHead (.quiet (sameWork_atLevel .off)) moves, rfl, rfl, ran, rfl⟩

theorem steps_of_run_exit (steady : Steady d k) (empty : d.careful = true → k.heldBy k.current = [])
    (h : exit.run k = .ok (u, k')) : Steps d [] True k k' := by
  obtain ⟨halted, last, moves, _, _, ran, rfl⟩ := of_run_exit steady empty h
  have given := steps_of_run_schedule_after steady.regular moves ran
  exact ⟨given.moves.silent (.quiet (sameWork_atLevel _)), given.runs, given.calm⟩

theorem Steady.enroll (steady : Steady d k) (record : Thread) (blocked : record.state = .blocked)
    (detached : record.place = .detached) (pending : record.pending = none)
    (unwaiting : record.waitingOn = none) (donors : record.donors = [])
    (priority : record.priority = record.base) :
    Steps d [] k.Calm k { k with threads := k.threads.push record } := by
  obtain ⟨thread, found, _⟩ := steady.runs
  have kept : (k.threads.push record).get? k.current = k.threads.get? k.current := by
    rw [Arena.get?_push, if_neg (Arena.ne_next_of_get? found)]
  refine steady.placidStep (.enroll blocked detached pending unwaiting donors priority)
      ⟨rfl, congrArg _ kept⟩ ?_
  refine placid_of_raised (Nat.le_of_eq ?_) rfl rfl rfl rfl id
  rw [priorityOf, priorityOf, kept]

theorem steps_of_enrolled (steady : Steady d k) (blueprint : Blueprint) :
    Steps d [] k.Calm k (blueprint.enrolled k) := by
  have first := steady.enroll blueprint.record rfl rfl rfl rfl rfl rfl
  have noted := (first.steady steady).quiet (sameWork_withEvents
    (.cons (.created k.threads.next (Name.clip blueprint.name) blueprint.priority) k.events rfl)) rfl id
  exact first.trans noted

/-- The idle thread is none that is still to be created. -/
theorem idle_ne_next (placed : k.Placed) : k.idle ≠ some k.threads.next := by
  intro idles
  obtain ⟨_, found, _⟩ := placed.idle _ idles
  exact Arena.ne_next_of_get? found rfl

theorem steps_of_run_spawn {blueprint : Blueprint} {result : Except SpawnRefusal ThreadId}
    (steady : Steady d k) (h : (spawn blueprint).run k = .ok (result, k')) :
    Steps d [] k.Calm k k' := by
  cases of_run_spawn h with
  | refused => exact steady.refl
  | made _ unblocks preempts =>
    have first := steps_of_enrolled steady blueprint
    have spared := idle_ne_next steady.regular.placed
    have steady := first.steady steady
    have readied := steps_of_run_unblock steady (fun _ => spared) unblocks
    have settled := (readied.steady steady).preempt preempts
    exact (first.settle (readied.settle settled)).weaken fun _ => trivial

/-- The first idle thread is not the one that runs. -/
theorem placid_of_appointed (unstarted : k.idle = none) (other : t ≠ k.current) :
    k.Placid { k with idle := some t } := by
  have before : k.idles = false := by
    rw [Bool.eq_false_iff, ne_eq, idles_iff, unstarted]
    exact nofun
  have after : idles { k with idle := some t } = false := by
    rw [Bool.eq_false_iff, ne_eq, idles_iff]
    exact fun same => other (Option.some.inj same)
  refine ⟨fun outranked => ?_, rfl, id, after.trans before.symm⟩
  obtain ⟨entry, front, ahead⟩ := outranked_iff.mp outranked
  rw [after] at ahead
  exact outranked_iff.mpr ⟨entry, front, .inr (ahead.resolve_left nofun)⟩

theorem steps_of_run_start {result : Except Refusal ThreadId} (steady : Steady d k)
    (h : start.run k = .ok (result, k')) : Steps d [] k.Calm k k' := by
  obtain rfl | ⟨unstarted, rfl⟩ := of_run_start h
  · exact steady.refl
  · obtain ⟨thread, found, _⟩ := id steady.runs
    have other : k.threads.next ≠ k.current := Ne.symm (Arena.ne_next_of_get? found)
    have first := steady.enroll { name := "idle", base := Priority.lowest } rfl rfl rfl rfl rfl rfl
    have steady := first.steady steady
    have appointed : Steps d [] _ { k with
        threads := k.threads.push { name := "idle", base := Priority.lowest } } { k with
        threads := k.threads.push { name := "idle", base := Priority.lowest }
        idle := some k.threads.next } :=
      steady.placidStep (.appoint (Arena.get?_push_next _ _) rfl rfl rfl other) ⟨rfl, rfl⟩
        (placid_of_appointed unstarted other)
    have noted : Steps d [] _ _ k.started := (appointed.steady steady).quiet
      (sameWork_of_remarks (.cons (.started k.threads.next) _ rfl) (.refl _) (fun _ => rfl) rfl) rfl id
    exact first.trans (appointed.trans noted)

/-! ## Interrupts, the timer and timed sleep -/

theorem steps_of_run_enterInterrupt (steady : Steady d k)
    (h : enterInterrupt.run k = .ok (u, k')) : Steps d [] k.Calm k k' := by
  obtain ⟨outside, rfl⟩ := of_run_enterInterrupt h
  refine steady.still (sameWork_of_remarks (.refl _) (.refl _) (fun _ => rfl) rfl) fun _ calm outranked => ?_
  cases outside.symm.trans (calm outranked).1

/-- A kernel that is calm inside a handler has a yield due if one is needed. -/
theorem not_outranked_of_calm (calm : k.Calm)
    (settled : (k.yieldDue || (k.idles && !k.ready.isEmpty)) = false) : k.outranked = false := by
  rw [Bool.or_eq_false_iff, Bool.and_eq_false_iff] at settled
  rw [Bool.eq_false_iff]
  intro outranked
  obtain ⟨entry, front, _⟩ := outranked_iff.mp outranked
  obtain ⟨_, due | idles⟩ := calm outranked
  · cases settled.1.symm.trans due
  · obtain busy | empty := settled.2
    · cases busy.symm.trans idles
    · rw [Bool.not_eq_false', ReadyQueue.isEmpty, List.isEmpty_iff] at empty
      rw [ReadyQueue.front?, empty] at front
      cases front

theorem steps_of_run_leaveInterrupt (steady : Steady d k)
    (h : leaveInterrupt.run k = .ok (u, k')) : Steps d [] k.Calm k k' := by
  cases of_run_leaveInterrupt h with
  | resumes settled =>
    have first : Steps d [] k.Calm k k.resumed := steady.still (sameWork_resumed k) fun _ calm => by
      have unranked := not_outranked_of_calm calm settled
      exact calm_of_not_outranked unranked
    exact first.trans ((first.steady steady).quiet (sameWork_atLevel .on) rfl id)
  | yields ran =>
    have first : Steps d [] False k k.resumed := steady.still (sameWork_resumed k) fun _ => nofun
    have steady := first.steady steady
    have rest := (steps_of_run_yield steady.regular steady.runs.running ran).1
    have last := (rest.steady steady).quiet (sameWork_atLevel .on) rfl id
    exact (first.settle (rest.trans last)).weaken fun _ => trivial

/-- The kernel in which `t` has been woken from its sleep at tick `now`. -/
def Kernel.risen (k : Kernel) (t : ThreadId) (now : Nat) (p : Priority) : Kernel :=
  ((k.withEvents (.awakens t now :: k.events)).mapThread t fun old =>
    { old with place := .detached }).readied t p

theorem of_run_rise {rest : SleepQueue} {now : Nat}
    (h : (do
      note (.awakens t now)
      modifyThread t fun thread => { thread with place := .detached }
      unblock t).run (k.withSleepers rest) = .ok (u, k')) :
    ∃ thread, k.threads.get? t = some thread ∧ thread.state = .blocked ∧
      k' = (k.risen t now thread.priority).withSleepers rest := by
  rw [run_note_bind, run_modifyThread_bind_eq_ok_iff] at h
  obtain ⟨⟨thread, found⟩, ran⟩ := h
  obtain ⟨record, foundRecord, blocked, _, _, rfl⟩ := of_run_unblock ran
  rw [mapThread_threads, Arena.get?_modify_self _ found, Option.some.injEq] at foundRecord
  subst foundRecord
  exact ⟨thread, found, blocked, rfl⟩

/-- One of the sleepers that have been taken off the queue is made ready. -/
theorem steps_of_risen {woken : List ThreadId} {rest : SleepQueue} (now : Nat)
    (steady : Steady d (k.withSleepers { rest with sleepers := t :: woken ++ rest.sleepers }))
    (found : k.threads.get? t = some thread) (blocked : thread.state = .blocked)
    (due : thread.wakeTick ≤ k.clock.ticks) :
    Steps d [] False (k.withSleepers { rest with sleepers := t :: woken ++ rest.sleepers })
      ((k.risen t now thread.priority).withSleepers
        { rest with sleepers := woken ++ rest.sleepers }) := by
  have rises : Move d none
      ⟨k.withSleepers { rest with sleepers := t :: woken ++ rest.sleepers }, none⟩
      ⟨(k.risen t now thread.priority).withSleepers
        { rest with sleepers := woken ++ rest.sleepers }, none⟩ :=
    .rise { rest with sleepers := woken ++ rest.sleepers } found (.refl _) due (.cons _ _ rfl)
  have other : t ≠ k.current := by
    obtain ⟨runner, foundRunner, running, _⟩ := steady.runs
    rintro rfl
    cases found.symm.trans foundRunner
    cases blocked.symm.trans running
  exact steady.step rises (keepsCurrent_of_ne other (Arena.modify_modify k.threads t _ _) rfl)

theorem wakeTick_of_risen {now : Nat} {p : Priority} {other : ThreadId}
    (found : (k.risen t now p).threads.get? other = some thread) :
    ∃ old, k.threads.get? other = some old ∧ old.wakeTick = thread.wakeTick := by
  have ticks : Arena.Agree (fun x : Thread => x.wakeTick) ((k.threads.modify t fun old =>
      { old with place := .detached }).modify t fun old =>
        { old with state := .ready, place := .ready }) k.threads :=
    Arena.Agree.trans (Arena.agree_modify fun _ => rfl) (Arena.agree_modify fun _ => rfl)
  exact ticks.exists_get? found

/-- Sleepers are woken one after the other.  They have all been taken off the sleep queue
at once, which comes to the same. -/
theorem steps_of_run_forM_awaken {woken : List ThreadId} {rest : SleepQueue} {now : Nat}
    (steady : Steady d (k.withSleepers { rest with sleepers := woken ++ rest.sleepers }))
    (come : now ≤ k.clock.ticks)
    (due : ∀ t ∈ woken, ∀ thread, k.threads.get? t = some thread → thread.wakeTick ≤ now)
    (h : (woken.forM fun t => do
      note (.awakens t now)
      modifyThread t fun thread => { thread with place := .detached }
      unblock t : KernelM PUnit).run (k.withSleepers rest) = .ok (u, k')) :
    Steps d [] False (k.withSleepers { rest with sleepers := woken ++ rest.sleepers }) k' := by
  induction woken generalizing k with
  | nil =>
    rw [run_forM_nil_eq_ok_iff, Prod.mk.injEq] at h
    obtain ⟨_, rfl⟩ := h
    exact steady.refl.weaken nofun
  | cons t woken ih =>
    obtain ⟨middle, ran, h⟩ := run_forM_cons_eq_ok_iff.mp h
    obtain ⟨thread, found, blocked, rfl⟩ := of_run_rise ran
    have first := steps_of_risen now steady found blocked
      (Nat.le_trans (due t List.mem_cons_self thread found) come)
    refine first.append (ih (first.steady steady) come (fun t' later record found' => ?_) h)
    obtain ⟨old, foundOld, same⟩ := wakeTick_of_risen found'
    rw [← same]
    exact due t' (List.mem_cons_of_mem _ later) old foundOld

theorem run_forM_findThread {sleepers : List ThreadId}
    (h : (sleepers.forM fun t => do
      let _ ← findThread t : KernelM PUnit).run k = .ok (u, k')) : k' = k := by
  induction sleepers generalizing k with
  | nil =>
    rw [run_forM_nil_eq_ok_iff, Prod.mk.injEq] at h
    exact h.2
  | cons t rest ih =>
    obtain ⟨middle, ran, h⟩ := run_forM_cons_eq_ok_iff.mp h
    rw [run_findThread_bind_eq_ok_iff] at ran
    obtain ⟨_, _, ran⟩ := ran
    cases ran
    exact ih h

/-- Those that are due leave the sleep queue, and nothing else has changed as long as they are counted
in. -/
theorem Kernel.exists_wake {now : Nat} (k : Kernel) (come : now ≤ k.clock.ticks) : ∃ woken rest,
    k.sleepers.wake now (fun t => (k.threads.get? t).elim 0 (·.wakeTick)) = (woken, rest) ∧
      k.SameWork (k.withSleepers { rest with sleepers := woken ++ rest.sleepers }) ∧
      ∀ t ∈ woken, ∀ thread, k.threads.get? t = some thread → thread.wakeTick ≤ now := by
  have perm := k.sleepers.wake_perm now fun t => (k.threads.get? t).elim 0 (·.wakeTick)
  have anew := k.sleepers.nextWake_wake now fun t => (k.threads.get? t).elim 0 (·.wakeTick)
  refine ⟨_, _, rfl, sameWork_of_remarks (.refl _) ⟨perm, .inr ⟨now, come, anew⟩⟩ (fun _ => rfl) rfl,
    fun t member thread found => ?_⟩
  have due := (SleepQueue.mem_woken.mp member).2
  rwa [found, Option.elim_some] at due

theorem steps_of_run_awaken {now : Nat} (steady : Steady d k) (come : now ≤ k.clock.ticks)
    (h : (awaken now).run k = .ok (u, k')) : Steps d [] False k k' := by
  rw [awaken, run_get_bind] at h
  obtain ⟨_, same, checks, h⟩ := run_bind_eq_ok_iff.mp h
  obtain rfl := (run_forM_findThread checks).symm
  rw [run_set_bind] at h
  obtain ⟨woken, rest, wakes, same, due⟩ := k.exists_wake come
  rw [wakes] at h
  have first : Steps d [] k.Calm k
      (k.withSleepers { rest with sleepers := woken ++ rest.sleepers }) := steady.quiet same rfl id
  exact first.append (steps_of_run_forM_awaken (first.steady steady) come due h)

theorem steps_of_run_timerTick (steady : Steady d k) (h : timerTick.run k = .ok (u, k')) :
    Steps d [⟨k.current, .tick⟩] k.Calm k k' := by
  obtain ⟨_, usage, account, rest⟩ := of_run_timerTick h
  have ticks : Steps d [⟨k.current, .tick⟩] k.Calm k (k.ticked usage) := by
    refine steady.placidStep (.tick account) ⟨rfl, rfl⟩ ?_
    refine placid_of_threads rfl rfl rfl rfl rfl fun due => ?_
    rw [ticked_yieldDue, due]
    rfl
  obtain ⟨_, rfl⟩ | ⟨_, woken, wakes, preempts⟩ := rest
  · exact ticks
  · have ticked := ticks.steady steady
    have rises := steps_of_run_awaken ticked (Nat.le_refl _) wakes
    have rest := (rises.steady ticked).preempt preempts
    exact (ticks.settle (rises.settle rest)).weaken fun _ => trivial

theorem steps_of_run_timerInterrupt (steady : Steady d k)
    (h : timerInterrupt.run k = .ok (u, k')) : ∃ t, Steps d [⟨t, .tick⟩] k.Calm k k' := by
  obtain ⟨entered, handled, enters, ticks, leaves⟩ := of_run_timerInterrupt h
  have first := steps_of_run_enterInterrupt steady enters
  have steady := first.steady steady
  have second := steps_of_run_timerTick steady ticks
  have steady := second.steady steady
  exact ⟨_, first.trans (second.trans (steps_of_run_leaveInterrupt steady leaves))⟩

theorem steps_of_run_timerInterrupts {count : Nat} (steady : Steady d k)
    (h : (timerInterrupts count).run k = .ok (u, k')) :
    ∃ deeds, (∀ deed ∈ deeds, deed.act = .tick) ∧ Steps d deeds k.Calm k k' := by
  induction count generalizing k with
  | zero =>
    cases h
    exact ⟨[], List.forall_mem_nil _, steady.refl⟩
  | succ count ih =>
    obtain ⟨_, middle, ran, h⟩ := run_bind_eq_ok_iff.mp h
    obtain ⟨t, first⟩ := steps_of_run_timerInterrupt steady ran
    obtain ⟨deeds, ticks, rest⟩ := ih (first.steady steady) h
    exact ⟨⟨t, .tick⟩ :: deeds, List.forall_mem_cons.mpr ⟨rfl, ticks⟩, first.trans rest⟩

/-- What becomes of a wait for a tick that is still to come. -/
structure Dozes (d : Discipline) (tick : Nat) (k k' : Kernel) : Prop where
  steps : Steps d [] True k k'
  away : k'.current ≠ k.current
  asleep : ∃ dozed thread, Moves d [] ⟨k, none⟩ ⟨dozed, none⟩ ∧
    dozed.threads.get? k.current = some thread ∧ thread.place = .sleep ∧ thread.wakeTick = tick ∧
    thread.pending = none ∧ Moves d [] ⟨dozed, none⟩ ⟨k', none⟩

theorem of_run_sleepUntil {tick : Nat} (steady : Steady d k)
    (h : (sleepUntil tick).run k = .ok (result, k')) :
    result = .completed ∧ tick ≤ k.clock.ticks ∧ k' = k ∨
      result = .suspended ∧ Dozes d tick k k' := by
  rw [sleepUntil, run_requireThreadContext_bind_eq_ok_iff] at h
  obtain ⟨_, h⟩ := h
  rw [run_get_bind, run_require_bind_eq_ok_iff] at h
  obtain ⟨busy, h⟩ := h
  split at h
  · next come =>
    cases h
    exact .inl ⟨rfl, come, rfl⟩
  · next ahead =>
    obtain ⟨last, ran, rfl⟩ := run_masked_eq_ok_iff.mp h
    rw [run_modifyThread_bind_eq_ok_iff, run_modify_bind, run_note_bind] at ran
    obtain ⟨⟨thread, found⟩, ran⟩ := ran
    obtain ⟨_, given, schedules, ran⟩ := run_bind_eq_ok_iff.mp ran
    rw [run_pure_eq_ok_iff, Prod.mk.injEq] at ran
    obtain ⟨rfl, rfl⟩ := ran
    have dozes : Move d none ⟨k.atLevel .off, none⟩ ⟨(((k.atLevel .off).mapThread k.current
        fun old => { old with wakeTick := tick, place := .sleep, state := .blocked }).withSleepers
          (k.sleepers.push k.current tick)).withEvents (.sleeps k.current tick :: k.events), none⟩ :=
      .doze steady.runs (fun idles => busy (idles_iff.mpr idles)) (.cons _ _ rfl)
        (Nat.lt_of_not_le ahead)
    have record := Arena.get?_modify_self (fun old : Thread =>
      { old with wakeTick := tick, place := .sleep, state := .blocked }) found
    obtain ⟨runner, foundRunner, _, free⟩ := id steady.runs
    cases found.symm.trans foundRunner
    have into := Moves.silentHead (.quiet (sameWork_atLevel .off)) (.single dozes)
    obtain ⟨rest, leaves⟩ := steps_of_run_schedule (steady.regular.moves into) schedules
    have out := rest.moves.silent (.quiet (sameWork_atLevel k.processor.level))
    exact .inr ⟨rfl, ⟨into.trans out, rest.runs, rest.calm⟩,
      leaves _ record nofun (.inr ⟨_, record, rfl⟩), _, _, into, record, rfl, rfl, free, out⟩

theorem steps_of_run_sleepUntil {tick : Nat} (steady : Steady d k)
    (h : (sleepUntil tick).run k = .ok (result, k')) : Steps d [] k.Calm k k' := by
  obtain ⟨_, _, rfl⟩ | ⟨_, dozes⟩ := of_run_sleepUntil steady h
  · exact steady.refl
  · exact dozes.steps.weaken fun _ => trivial

/-! ## Semaphores -/

/-- What is done to neither threads nor the processor changes nothing for the current thread. -/
theorem Steady.aside (steady : Steady d k) {act : Option Act}
    (move : Move d act ⟨k, none⟩ ⟨k', none⟩) (threads : k'.threads = k.threads)
    (ready : k'.ready = k.ready) (current : k'.current = k.current)
    (idle : k'.idle = k.idle)
    (inInterrupt : k'.inInterrupt = k.inInterrupt)
    (yieldDue : k.yieldDue = true → k'.yieldDue = true) :
    Steps d (Machine.deeds ⟨k, none⟩ act) k.Calm k k' :=
  steady.placidStep move ⟨current, by rw [threads]⟩
    (placid_of_threads threads ready current idle inInterrupt yieldDue)

theorem steps_of_run_createSemaphore {value : Nat} (steady : Steady d k)
    (h : (Semaphore.create value .plain).run k = .ok (s, k')) :
    Steps d [⟨k.current, .create s⟩] k.Calm k k' := by
  obtain ⟨rfl, rfl⟩ := of_run_createSemaphore h
  exact steady.aside .create rfl rfl rfl rfl rfl id

/-- A semaphore that is there was made for what it is for. -/
theorem madeFor_of_get? {semaphore : Semaphore} {purpose : Purpose}
    (found : k.semaphores.get? s = some semaphore) (same : semaphore.purpose = purpose) :
    k.MadeFor s purpose := by
  refine ⟨Arena.lt_next_of_get? found, fun semaphore' found' => ?_⟩
  cases found.symm.trans found'
  exact same

theorem steps_of_run_destroySemaphore (steady : Steady d k)
    (plain : d.plainHandles = true → ∀ semaphore ∈ k.semaphores.get? s, semaphore.purpose = .plain)
    (unnamed : d.careful = true → ∀ t, k.pending? t ≠ some (.unit s))
    (h : s.destroy.run k = .ok (u, k')) : Steps d [⟨k.current, .destroy s⟩] k.Calm k k' := by
  obtain ⟨semaphore, found, _, _⟩ := SemaphoreId.of_run_destroy h
  have move : Move d (some (.destroy s)) ⟨k, none⟩ ⟨k', none⟩ :=
    .destroy (fun named => madeFor_of_get? found (plain named semaphore found)) unnamed h
  obtain ⟨_, _, _, rfl⟩ := SemaphoreId.of_run_destroy h
  exact steady.aside move rfl rfl rfl rfl rfl id

/-- How an operation ends that blocks if what it tries fails. -/
inductive Ends (d : Discipline) (act : Act) (k : Kernel) : Wait → Kernel → Prop
  | completed {k' : Kernel} (steps : Steps d [⟨k.current, act⟩] k.Calm k k')
      (stays : k'.current = k.current) : Ends d act k .completed k'
  | suspended {k' : Kernel} (steps : Steps d [⟨k.current, act⟩] True k k')
      (away : k'.current ≠ k.current) : Ends d act k .suspended k'

theorem Ends.steps {act : Act} (ends : Ends d act k result k') :
    Steps d [⟨k.current, act⟩] k.Calm k k' := by
  cases ends with
  | completed steps _ => exact steps
  | suspended steps _ => exact steps.weaken fun _ => trivial

/-- Who has tried in vain gives up the processor and does not get it back at once. -/
theorem away_of_tries {act : Option Act} {due : Option Pending} {tried : Kernel}
    (regular : Regular d ⟨k, due⟩) (tries : Tries d act due k false tried)
    (h : schedule.run tried = .ok (u, k')) :
    Moves d (Machine.deeds ⟨k, due⟩ act) ⟨k, due⟩ ⟨k', none⟩ ∧ k'.Runs ∧ (d.Orderly → k'.Calm) ∧
      k'.current ≠ k.current := by
  obtain ⟨⟨thread, found, blocked⟩, away⟩ := tries.waits rfl
  obtain ⟨rest, leaves⟩ := steps_of_run_schedule (regular.moves tries.moves) h
  rw [tries.selfish.current] at leaves
  have moves := tries.moves.trans rest.moves
  rw [List.append_nil] at moves
  refine ⟨moves, rest.runs, fun orderly => rest.calm orderly trivial, leaves thread found ?_ away⟩
  rw [blocked]
  exact nofun

/-- To try, and to give up the processor if that fails. -/
theorem ends_of_run_try {act : Act} {attempt : KernelM Bool} (steady : Steady d k)
    (tries : ∀ {success k'}, attempt.run (k.atLevel .off) = .ok (success, k') →
      Tries d (some act) none (k.atLevel .off) success k')
    (h : (masked (do
      if ← attempt then
        pure .completed
      else
        schedule
        pure .suspended : KernelM Wait)).run k = .ok (result, k')) : Ends d act k result k' := by
  obtain ⟨last, ran, rfl⟩ := run_masked_eq_ok_iff.mp h
  obtain ⟨success, tried, attempts, ran⟩ := run_bind_eq_ok_iff.mp ran
  have tries := tries attempts
  cases success with
  | true =>
    cases ran
    have steps : Steps d [⟨k.current, act⟩] k.Calm (k.atLevel .off) last :=
      ⟨tries.moves, tries.runs rfl,
        fun orderly => (tries.placid rfl orderly.plainHandles).calm⟩
    exact .completed (steps.unmask _) tries.selfish.current
  | false =>
    obtain ⟨_, given, schedules, ran⟩ := run_bind_eq_ok_iff.mp ran
    cases ran
    obtain ⟨moves, runs, calm, away⟩ := away_of_tries steady.masked.regular tries schedules
    have steps : Steps d [⟨k.current, act⟩] True (k.atLevel .off) last :=
      ⟨moves, runs, fun orderly _ => calm orderly⟩
    exact .suspended (steps.unmask _) away

section Named

variable (steady : Steady d k)
  (plain : d.plainHandles = true → ∀ semaphore ∈ k.semaphores.get? s, semaphore.purpose = .plain)

include steady plain

theorem ends_of_run_down (waits : d.sparesIdle → k.idle ≠ some k.current)
    (h : s.down.run k = .ok (result, k')) : Ends d (.down s) k result k' := by
  rw [SemaphoreId.down, run_requireThreadContext_bind_eq_ok_iff] at h
  refine ends_of_run_try steady (fun ran => ?_) h.2
  obtain ⟨semaphore, found, _⟩ := SemaphoreId.of_run_attempt ran
  exact tries_of_run_attempt steady.masked.runs
    (fun named => madeFor_of_get? found (plain named semaphore found)) (.direct waits) ran

theorem steps_of_run_tryDown (h : s.tryDown.run k = .ok (success, k')) :
    Steps d (if success then [⟨k.current, .take s⟩] else []) k.Calm k k' := by
  obtain ⟨last, ran, rfl⟩ := run_masked_eq_ok_iff.mp h
  refine Steps.unmask (k := k) ?_ _
  obtain ⟨semaphore, found, ⟨rfl, _, rfl⟩ | ⟨rfl, _, rfl⟩⟩ := SemaphoreId.of_run_take ran
  · exact steady.masked.aside (.take steady.masked.runs
      (fun named => madeFor_of_get? found (plain named semaphore found)) ran) rfl rfl rfl rfl rfl id
  · exact steady.masked.refl

theorem steps_of_run_up (h : s.up.run k = .ok (u, k')) : Steps d [] True k k' := by
  obtain ⟨woken, last, wakes, preempts, rfl⟩ := SemaphoreId.of_run_up h
  refine Steps.unmask ?_ _
  have steady := steady.masked
  obtain ⟨semaphore, found, _⟩ := SemaphoreId.of_run_wake wakes
  have first := steady.step (.wake (fun named => madeFor_of_get? found (plain named semaphore found))
    wakes) (keepsCurrent_of_run_wake steady.runs.running wakes)
  exact first.settle ((first.steady steady).preempt preempts)

end Named

/-! ## Locks -/

theorem steps_of_run_createLock (steady : Steady d k)
    (h : Lock.create.run k = .ok (l, k')) : Steps d [] k.Calm k k' := by
  cases h
  exact steady.aside .createLock rfl rfl rfl rfl rfl id

theorem steps_of_run_destroyLock (steady : Steady d k)
    (unnamed : d.careful = true → ∀ t p, k.pending? t = some p → p.lock? ≠ some l)
    (h : l.destroy.run k = .ok (u, k')) : Steps d [] k.Calm k k' := by
  obtain ⟨lock, found, free, destroys⟩ := of_run_destroyLock h
  have move : Move d none ⟨k, none⟩ ⟨k', none⟩ := .destroyLock found free unnamed destroys
  obtain ⟨_, _, _, rfl⟩ := SemaphoreId.of_run_destroy destroys
  exact steady.aside move rfl rfl rfl rfl rfl id

theorem ends_of_run_acquire (steady : Steady d k) (waits : d.sparesIdle → k.idle ≠ some k.current)
    (h : l.acquire.run k = .ok (result, k')) : Ends d (.acquire l) k result k' := by
  rw [LockId.acquire, run_requireThreadContext_bind_eq_ok_iff, run_requireNotHeld_bind_eq_ok_iff] at h
  exact ends_of_run_try steady (fun ran => tries_of_run_attemptLock steady.masked.regular
    steady.masked.runs (.direct waits) ran) h.2.2

theorem steps_of_run_tryAcquire (steady : Steady d k)
    (h : l.tryAcquire.run k = .ok (success, k')) :
    Steps d (if success then [⟨k.current, .seize l⟩] else []) k.Calm k k' := by
  rw [LockId.tryAcquire, run_requireNotHeld_bind_eq_ok_iff] at h
  obtain ⟨last, ran, rfl⟩ := run_masked_eq_ok_iff.mp h.2
  refine Steps.unmask (k := k) ?_ _
  rw [run_findLock_bind_eq_ok_iff] at ran
  obtain ⟨lock, found, ran⟩ := ran
  obtain ⟨first, tried, tries, ran⟩ := run_bind_eq_ok_iff.mp ran
  obtain ⟨taken, takes, rfl⟩ := run_masked_eq_ok_iff.mp tries
  obtain ⟨_, _, ⟨rfl, _, rfl⟩ | ⟨rfl, _, rfl⟩⟩ := SemaphoreId.of_run_take takes
  · obtain ⟨_, held, holds, ran⟩ := run_bind_eq_ok_iff.mp ran
    cases ran
    have seizes : Move d (some (.seize l)) ⟨k.atLevel .off, none⟩ ⟨last, none⟩ :=
      .seize steady.masked.runs found takes holds
    have kept := LockId.retouched_of_run_hold_taken steady.masked.regular.placed
      steady.masked.runs.running holds
    exact ⟨.single seizes, kept.runs steady.masked.runs, fun orderly =>
      (placid_of_run_hold steady.masked.regular orderly.plainHandles steady.masked.runs holds).calm⟩
  · cases ran
    exact steady.masked.refl

/-- A release: the lock is freed and its first waiter is woken, and then comes a check for
preemption. -/
structure Releases (d : Discipline) (l : LockId) (k released k' : Kernel) : Prop where
  moves : Moves d [⟨k.current, .release l⟩] ⟨k, none⟩ ⟨released, none⟩
  keeps : k.KeepsCurrent released
  others : ∀ s, (∀ lock, k.locks.get? l = some lock → lock.semaphore ≠ s) →
    released.semaphores.get? s = k.semaphores.get? s
  rest : released.SameWork k' ∧ k'.Calm ∨ Steps d [] True released k' ∧
    (released.Barred released.current → k'.current ≠ released.current)

/-- Between giving the donors back and waking a waiter the current thread stays as it is. -/
theorem keepsCurrent_of_releases {dropped : Kernel} (unqueued : thread.place ≠ .ready)
    (found : k.threads.get? k.current = some thread) (runs : thread.state = .running)
    (drops : l.dropDonors.run k = .ok ((), dropped))
    (wakes : s.wake.run ((dropped.mapLock l fun old => { old with holder := none }).withEvents
      (.releases k.current l :: dropped.events)) = .ok ((), k')) : k.KeepsCurrent k' := by
  obtain ⟨donors, events, _, _, _, _, rfl⟩ := LockId.of_run_dropDonors found unqueued drops
  have repriced : k.KeepsCurrent ((((k.repriced k.current donors
      (k.fairPriority { thread with donors })).withEvents events).mapLock l fun old =>
        { old with holder := none }).withEvents (.releases k.current l :: events)) :=
    keepsCurrent_of_modify rfl (fun _ => rfl) rfl
  exact repriced.trans (keepsCurrent_of_run_wake (repriced.running ⟨thread, found, runs⟩) wakes)

theorem exists_releases (regular : Regular d ⟨k, none⟩) (running : k.Running)
    (h : l.release.run k = .ok (u, k')) : ∃ released, Releases d l k released k' := by
  obtain ⟨lock, dropped, last, found, holds, drops, ups, rfl⟩ := LockId.of_run_release h
  have masks : Move d none ⟨k, none⟩ ⟨k.atLevel .off, none⟩ := .quiet (sameWork_atLevel .off)
  obtain ⟨thread, foundCurrent, runs⟩ := id running
  have detached := regular.placed.detached_of_running foundCurrent runs
  obtain ⟨donors, events, _, _, _, _, rfl⟩ := LockId.of_run_dropDonors (k := k.atLevel .off)
    foundCurrent (by rw [detached]; exact nofun) drops
  -- interrupts are masked already when the unit is returned
  obtain ⟨released, ended, wakes, preempts, rfl⟩ := SemaphoreId.of_run_up ups
  have releases : Move d (some (.release l)) ⟨k.atLevel .off, none⟩ ⟨released, none⟩ :=
    .release running found holds drops wakes
  have kept := keepsCurrent_of_releases (k := k.atLevel .off) (by rw [detached]; exact nofun)
    foundCurrent runs drops wakes
  have keeps : k.KeepsCurrent released := ⟨kept.current, kept.record⟩
  have moves := Moves.silentHead masks (.single releases)
  refine ⟨released, moves, keeps, fun s other => ?_, ?_⟩
  · obtain ⟨semaphore, _, ⟨_, rfl⟩ | ⟨_, _, _, woken⟩⟩ := SemaphoreId.of_run_wake wakes
    · exact Arena.get?_modify_of_ne _ (other lock found)
    · obtain ⟨_, _, _, _, _, rfl⟩ := of_run_unblock woken
      exact Arena.get?_modify_of_ne _ (other lock found)
  · obtain ⟨same, calm⟩ | ⟨steps, leaves⟩ :=
      steps_of_run_preempt (regular.moves moves) (keeps.running running) preempts
    · exact .inl ⟨same.trans (sameWork_atLevel _), calm⟩
    · exact .inr ⟨⟨steps.moves.silent (.quiet (sameWork_atLevel _)), steps.runs, steps.calm⟩, leaves⟩

theorem steps_of_run_release (steady : Steady d k) (h : l.release.run k = .ok (u, k')) :
    Steps d [⟨k.current, .release l⟩] True k k' := by
  obtain ⟨released, moves, keeps, _, rest⟩ := exists_releases steady.regular steady.runs.running h
  obtain ⟨same, calm⟩ | ⟨steps, _⟩ := rest
  · exact ⟨moves.silent (.quiet same), same.runs (keeps.runs steady.runs), fun _ _ => calm⟩
  · exact ⟨moves.trans steps.moves, steps.runs, steps.calm⟩

/-! ## Conditions -/

/-- No wait is queued on a new condition. -/
theorem steps_of_run_createCondition (steady : Steady d k)
    (h : Condition.create.run k = .ok (c, k')) : Steps d [] k.Calm k k' := by
  obtain ⟨rfl, rfl⟩ := of_run_createCondition h
  refine steady.quiet (sameWork_of_remarks (.refl _) (.refl _) (fun c => ?_) rfl) rfl id
  rw [enlisted, enlisted, Arena.get?_push]
  split
  · next new => rw [new, Arena.get?_next]; rfl
  · rfl

/-- No wait is queued on a condition that is destroyed. -/
theorem steps_of_run_destroyCondition (steady : Steady d k)
    (h : c.destroy.run k = .ok (u, k')) : Steps d [] k.Calm k k' := by
  obtain ⟨condition, found, unawaited, rfl⟩ := of_run_destroyCondition h
  refine steady.quiet (sameWork_of_remarks (.refl _) (.refl _) (fun c' => ?_) rfl) rfl id
  by_cases here : c = c'
  · subst here
    rw [enlisted_of_get? found, unawaited, enlisted, Arena.get?_erase, if_pos rfl]
    rfl
  · rw [enlisted, enlisted, Arena.get?_erase, if_neg here]

/-- A wait is queued, the lock is given back, and the signal is not there yet: `middle` is
where the caller has only the wait to finish. -/
structure Awaits (d : Discipline) (c : ConditionId) (l : LockId) (k k' : Kernel) : Prop where
  away : k'.current ≠ k.current
  runs : k'.Runs
  calm : d.Orderly → k'.Calm
  moves : ∃ deeds middle s, (deeds = [] ∨ deeds = [⟨k.current, .undertake⟩]) ∧
    Moves d (⟨k.current, .enlist c l⟩ :: ⟨k.current, .release l⟩ :: deeds) ⟨k, none⟩ middle ∧
    middle.work? k.current = some (.signal s l) ∧ Moves d [] middle ⟨k', none⟩

/-- Once a wait has been queued and the lock given back, the caller is in want of a signal. -/
theorem barred_of_releases {released : Kernel} {waiters : List Waiter} (tidy : k.Tidy)
    (foundCurrent : k.threads.get? k.current = some thread)
    (releases : Releases d l (c.joined l waiters k) released k') :
    ∃ thread', released.threads.get? released.current = some thread' ∧
      thread'.state = thread.state ∧
      thread'.pending = some (.signal k.semaphores.next l) ∧
      released.Barren (.signal k.semaphores.next l) := by
  have record := Arena.get?_modify_self (fun old : Thread =>
    { old with pending := some (.signal k.semaphores.next l) }) foundCurrent
  obtain ⟨thread', found', state, pending⟩ := releases.keeps.exists_get? record
  refine ⟨thread', found', state, pending, _, { value := 0, purpose := .signal }, rfl, ?_, rfl⟩
  rw [releases.others, ConditionId.joined_semaphores, Arena.get?_push, if_pos rfl]
  intro lock found same
  have issued := tidy.issued l lock found
  rw [same] at issued
  exact Nat.lt_irrefl _ issued

/-- The current thread has queued its wait. -/
theorem moves_of_joined {condition : Condition} {waiters : List Waiter} (steady : Steady d k)
    (waits : d.idleNeverWaits = true ∨ d.idleNeverAwaits = true → k.idle ≠ some k.current)
    (holds : k.holder? l = some k.current) (found : k.conditions.get? c = some condition)
    (joins : waiters = Ranked.join k.worth ⟨k.semaphores.next, k.current⟩ condition.waiters) :
    Moves d [⟨k.current, .enlist c l⟩] ⟨k, none⟩ ⟨c.joined l waiters (k.atLevel .off), none⟩ :=
  .silentHead (.quiet (sameWork_atLevel .off))
    (.single (.enlist steady.masked.runs waits holds found joins))

theorem running_joined {waiters : List Waiter} {level : Level} (runs : k.Runs) :
    (c.joined l waiters (k.atLevel level)).Running := by
  obtain ⟨thread, found, running, _⟩ := runs
  exact ⟨_, Arena.get?_modify_self _ found, running⟩

/-- Who is not switched out by the release begins to wait for the signal, which has not come. -/
structure Undertakes (d : Discipline) (s : SemaphoreId) (l : LockId) (k released left : Kernel) :
    Prop where
  same : released.SameWork left
  undertakes : Move d (some .undertake) ⟨left, none⟩
    ⟨left.mapThread k.current fun old => { old with pending := none }, some (.signal s l)⟩
  runs : (left.mapThread k.current fun old => { old with pending := none }).Runs
  barren : (left.mapThread k.current fun old => { old with pending := none }).Barren (.signal s l)

theorem undertakes_of_releases {released left : Kernel} {waiters : List Waiter} (tidy : k.Tidy)
    (runs : k.Runs) (releases : Releases d l (c.joined l waiters k) released left)
    (stays : left.current = k.current) : Undertakes d k.semaphores.next l k released left := by
  obtain ⟨thread, foundCurrent, running, _⟩ := runs
  obtain ⟨thread', foundReleased, state, pending, barren⟩ :=
    barred_of_releases tidy foundCurrent releases
  have current : released.current = k.current := releases.keeps.current
  obtain ⟨same, _⟩ | ⟨_, leaves⟩ := releases.rest
  · have foundLeft : left.threads.get? left.current = some thread' := by
      rw [same.threads, same.current, foundReleased]
    have undertakes : Move d (some .undertake) ⟨left, none⟩ ⟨left.mapThread left.current fun old =>
        { old with pending := none }, some (.signal k.semaphores.next l)⟩ :=
      .undertake foundLeft (state.trans running) pending
    have undertaken := Arena.get?_modify_self (fun old : Thread => { old with pending := none })
      foundLeft
    rw [stays] at undertakes undertaken
    refine ⟨same, undertakes, ?_, ?_⟩
    · refine ⟨{ thread' with pending := none }, ?_, state.trans running, rfl⟩
      rw [mapThread_current, stays]
      exact undertaken
    · obtain ⟨s, semaphore, targets, foundSemaphore, zero⟩ := barren
      exact ⟨s, semaphore, targets, by rw [mapThread_semaphores, same.semaphores, foundSemaphore],
        zero⟩
  · have barred : released.Barred released.current :=
      ⟨_, (pending?_of_get? foundReleased).trans pending, barren⟩
    exact absurd stays (current ▸ leaves barred)

theorem awaits_of_run_wait (steady : Steady d k)
    (waits : d.idleNeverWaits = true ∨ d.idleNeverAwaits = true → k.idle ≠ some k.current)
    (h : (c.wait l).run k = .ok (result, k')) : result = .suspended ∧ Awaits d c l k k' := by
  obtain ⟨condition, waiters, left, last, holds, found, ranked, leaves, concludes, rfl⟩ :=
    ConditionId.of_run_wait h
  have joins := moves_of_joined steady waits holds found ranked
  obtain ⟨released, releases⟩ := exists_releases (k := c.joined l waiters (k.atLevel .off))
    (steady.regular.moves joins) (running_joined steady.runs) leaves
  have current : released.current = k.current := releases.keeps.current
  have moves := joins.trans releases.moves
  have unmask : Move d none ⟨last, none⟩ ⟨last.atLevel k.processor.level, none⟩ :=
    .quiet (sameWork_atLevel _)
  cases concludes with
  | away switched =>
    obtain ⟨same, _⟩ | ⟨rest, _⟩ := releases.rest
    · exact absurd (same.current.trans current) switched
    · obtain ⟨thread, foundCurrent, _⟩ := steady.runs
      obtain ⟨thread', foundReleased, _, pending, _⟩ :=
        barred_of_releases steady.masked.regular.tidy foundCurrent releases
      refine ⟨rfl, switched, rest.runs, fun orderly => rest.calm orderly trivial, [],
        ⟨released, none⟩, (k.atLevel .off).semaphores.next, .inl rfl, moves, ?_, rest.moves.silent unmask⟩
      rw [Machine.work?_none, ← current, pending?_of_get? foundReleased, pending]
  | retaken stays reacquires =>
    obtain ⟨_, _, runs, barren⟩ :=
      undertakes_of_releases steady.masked.regular.tidy steady.masked.runs releases stays
    obtain ⟨thread, undertaken, _⟩ := runs
    cases (fails_of_run_finish undertaken barren reacquires).fails
  | waits stays reacquires schedules =>
    obtain ⟨same, undertakes, runs, barren⟩ :=
      undertakes_of_releases steady.masked.regular.tidy steady.masked.runs releases stays
    have moves := (moves.silent (.quiet same)).trans (.single undertakes)
    have regular := steady.regular.moves moves
    have tries := tries_of_run_reacquire regular runs reacquires
    obtain ⟨thread, undertaken, _, free⟩ := id runs
    obtain ⟨rest, runs', calm, away⟩ := away_of_tries regular tries schedules
    rw [mapThread_current, stays] at away
    refine ⟨rfl, away, runs', calm, _, _, (k.atLevel .off).semaphores.next, .inr rfl, ?_, ?_,
      rest.silent unmask⟩
    · rw [Machine.deeds, stays] at moves
      exact moves
    · rw [mapThread_current, stays] at undertaken
      rw [Machine.work?, mapThread_current, stays, if_pos rfl, pending?_of_get? undertaken, free]
      rfl

theorem Awaits.steps (awaits : Awaits d c l k k') :
    ∃ deeds, Steps d deeds k.Calm k k' ∧ (Request.wait c l).Accounts k deeds := by
  obtain ⟨deeds, middle, s, tail, before, _, after⟩ := awaits.moves
  have moves := before.trans after
  rw [List.append_nil] at moves
  refine ⟨_, ⟨moves, awaits.runs, fun orderly _ => awaits.calm orderly⟩, ?_⟩
  refine List.forall_mem_cons.mpr ⟨⟨.enlist, .inl rfl⟩,
    List.forall_mem_cons.mpr ⟨⟨.handBack, .inl rfl⟩, ?_⟩⟩
  obtain rfl | rfl := tail
  · exact List.forall_mem_nil _
  · exact List.forall_mem_singleton.mpr ⟨.undertake, .inl rfl⟩

/-- The first waiter is sent a signal, if there is one. -/
theorem steps_of_run_wakeFirst {woke : Bool} (steady : Steady d k)
    (h : c.wakeFirst.run k = .ok (woke, k')) : k'.current = k.current ∧
      (woke = false ∧ Steps d [] k.Calm k k' ∨
        woke = true ∧ Steps d [⟨k.current, .signal c⟩] False k k') := by
  obtain ⟨condition, found, ⟨empty, rfl, rfl⟩ | ⟨waiter, rest, ranked, rfl, wakes⟩⟩ :=
    ConditionId.of_run_wakeFirst h
  · have same : k.mapCondition c (fun old => { old with waiters := [] }) = k := by
      rw [mapCondition, Arena.modify_eq_self found (by rw [← empty])]
    rw [same]
    exact ⟨rfl, .inl ⟨rfl, steady.refl⟩⟩
  · have called : k.KeepsCurrent (c.called waiter.thread rest k) := ⟨rfl, rfl⟩
    have keeps := called.trans (keepsCurrent_of_run_wake (called.running steady.runs.running) wakes)
    exact ⟨keeps.current, .inr ⟨rfl, steady.step (.signal found ranked wakes) keeps⟩⟩

theorem steps_of_run_wakeMany {count : Nat} (steady : Steady d k)
    (h : (c.wakeMany count).run k = .ok (u, k')) : ∃ deeds, Steps d deeds False k k' ∧
      ∀ deed ∈ deeds, deed = ⟨k.current, .signal c⟩ := by
  induction count generalizing k with
  | zero =>
    cases h
    exact ⟨[], steady.refl.weaken nofun, List.forall_mem_nil _⟩
  | succ count ih =>
    obtain ⟨woke, middle, wakes, h⟩ := run_bind_eq_ok_iff.mp h
    obtain ⟨current, first⟩ := steps_of_run_wakeFirst steady wakes
    obtain ⟨deeds, first, all⟩ : ∃ deeds, Steps d deeds False k middle ∧
        ∀ deed ∈ deeds, deed = ⟨k.current, .signal c⟩ := by
      obtain ⟨_, first⟩ | ⟨_, first⟩ := first
      · exact ⟨_, first.weaken nofun, List.forall_mem_nil _⟩
      · exact ⟨_, first, List.forall_mem_singleton.mpr rfl⟩
    obtain ⟨deeds', rest, all'⟩ := ih (first.steady steady) h
    rw [current] at all'
    exact ⟨_, first.append rest, List.forall_mem_append.mpr ⟨all, all'⟩⟩

theorem steps_of_run_signal (steady : Steady d k) (h : (c.signal l).run k = .ok (u, k')) :
    ∃ deeds, Steps d deeds k.Calm k k' ∧ (Request.signal c l).Accounts k deeds := by
  obtain ⟨woke, woken, last, wakes, ran, rfl⟩ := ConditionId.of_run_signal h
  obtain ⟨_, ⟨rfl, first⟩ | ⟨rfl, first⟩⟩ := steps_of_run_wakeFirst steady.masked wakes
  · cases ran
    exact ⟨_, first.unmask _, Request.accounts_nil _ _⟩
  · have rest := (first.steady steady.masked).preempt ran
    refine ⟨_, ((first.settle rest).unmask _).weaken fun _ => trivial, ?_⟩
    exact List.forall_mem_singleton.mpr ⟨.signal, .inl rfl⟩

theorem steps_of_run_broadcast (steady : Steady d k) (h : (c.broadcast l).run k = .ok (u, k')) :
    ∃ deeds, Steps d deeds k.Calm k k' ∧ (Request.broadcast c l).Accounts k deeds := by
  obtain ⟨count, woken, last, wakes, ran, rfl⟩ := ConditionId.of_run_broadcast h
  split at ran
  · obtain ⟨deeds, first, all⟩ := steps_of_run_wakeMany steady.masked wakes
    have rest := (first.steady steady.masked).preempt ran
    refine ⟨_, ((first.settle rest).unmask _).weaken fun _ => trivial, fun deed member => ?_⟩
    rw [List.append_nil] at member
    rw [all deed member]
    exact ⟨.broadcast, .inl rfl⟩
  · next none =>
    -- nobody waits, and nobody is woken
    rw [Nat.eq_zero_of_not_pos none] at wakes
    cases wakes
    cases ran
    exact ⟨[], steady.masked.refl.unmask _, Request.accounts_nil _ _⟩

/-! ## All requests -/

/-- An operation that only looks. -/
structure Looks {α : Type} (operation : KernelM α) : Prop where
  eq_of_run : ∀ {k a k'}, operation.run k = .ok (a, k') → k' = k

section Looks

variable {α β : Type}

theorem looks_pure (a : α) : Looks (pure a : KernelM α) :=
  ⟨fun h => (Prod.mk.inj (run_pure_eq_ok_iff.mp h)).2⟩

theorem looks_lift (x : Except Fault α) : Looks (liftM x : KernelM α) :=
  ⟨fun h => (run_lift_eq_ok_iff.mp h).2⟩

theorem looks_require {p : Prop} [Decidable p] (fault : Fault) : Looks (require p fault) :=
  ⟨fun h => (Prod.mk.inj (run_require_eq_ok_iff.mp h).2).2⟩

theorem looks_get : Looks (get : KernelM Kernel) := ⟨fun h => by cases h; rfl⟩

theorem Looks.bind {first : KernelM α} {rest : α → KernelM β} (looks : Looks first)
    (others : ∀ a, Looks (rest a)) : Looks (first >>= rest) := ⟨fun h => by
  obtain ⟨a, middle, ran, h⟩ := run_bind_eq_ok_iff.mp h
  rw [(others a).eq_of_run h, looks.eq_of_run ran]⟩

theorem Looks.map {first : KernelM α} (looks : Looks first) (f : α → β) :
    Looks (do return f (← first)) :=
  looks.bind fun _ => looks_pure _

theorem looks_findThread (t : ThreadId) : Looks (findThread t) :=
  looks_get.bind fun _ => looks_lift _

theorem looks_findSemaphore (s : SemaphoreId) : Looks (findSemaphore s) :=
  looks_get.bind fun _ => looks_lift _

theorem looks_findLock (l : LockId) : Looks (findLock l) :=
  looks_get.bind fun _ => looks_lift _

theorem looks_findCondition (c : ConditionId) : Looks (findCondition c) :=
  looks_get.bind fun _ => looks_lift _

theorem looks_caller : Looks caller := looks_get.map _

theorem looks_waiters (s : SemaphoreId) : Looks s.waiters := (looks_findSemaphore s).map _

theorem looks_holder (l : LockId) : Looks l.holder := (looks_findLock l).map _

theorem looks_isHeldByCaller (l : LockId) : Looks l.isHeldByCaller :=
  (looks_holder l).bind fun _ => looks_caller.bind fun _ => looks_pure _

theorem looks_summary : Looks summary := by
  have record : Looks currentRecord := looks_caller.bind fun t => (looks_findThread t).bind fun _ =>
    (looks_require _).bind fun _ => looks_pure _
  exact record.bind fun _ => looks_get.bind fun _ => looks_pure _

end Looks

/-- Whether the operation only looks. -/
def Request.looks : Request → Bool
  | .elapsed _ | .semaphoreValue _ | .semaphoreWaiters _ | .lockHolder _ | .lockHeldByCaller _
  | .lockWaiters _ | .conditionWaiters _ | .summary | .profile _ | .setNiceness _ => true
  | _ => false

theorem looks_perform {r : Request} (looks : r.looks = true) : Looks r.perform := by
  cases r with
  | elapsed | profile => exact looks_get.bind fun _ => looks_pure _
  | semaphoreValue s => exact ((looks_findSemaphore s).map _).map _
  | semaphoreWaiters s => exact (looks_waiters s).map _
  | lockHolder l => exact (looks_holder l).map _
  | lockHeldByCaller l => exact (looks_isHeldByCaller l).map _
  | lockWaiters l => exact ((looks_findLock l).bind fun _ => looks_waiters _).map _
  | conditionWaiters c => exact ((looks_findCondition c).map _).map _
  | summary => exact looks_summary.map _
  | setNiceness => exact (looks_pure _).bind fun _ => (looks_pure _).map _
  | _ => cases looks

theorem accounts_of_tick {r : Request} {deeds : List Deed} (does : r.Does .tick)
    (ticks : ∀ deed ∈ deeds, deed.act = .tick) : r.Accounts k deeds := fun deed member => by
  rw [ticks deed member]
  exact ⟨does, .inr rfl⟩

theorem exists_entry_of_pending? {p : Pending} (pending : k.pending? t = some p) :
    ∃ entry ∈ k.threads.entries, entry.2.pending = some p := by
  obtain ⟨thread, found, plans⟩ := Option.bind_eq_some_iff.mp pending
  exact ⟨(t, thread), Arena.mem_entries.mpr found, plans⟩

theorem Request.Obeys.busy {r : Request} (obeys : r.Obeys d k) (may : r.mayWait = true)
    (spares : d.sparesIdle) : k.idle ≠ some k.current := by
  intro idles
  cases (obeys.idles spares.1 may).symm.trans (idles_iff.mpr idles)

theorem Request.Obeys.busy_of_wait (obeys : (Request.wait c l).Obeys d k)
    (never : d.idleNeverWaits = true ∨ d.idleNeverAwaits = true) : k.idle ≠ some k.current := by
  intro idles
  obtain never | never := never
  · cases (obeys.idles never rfl).symm.trans (idles_iff.mpr idles)
  · cases (obeys.awaits never rfl).symm.trans (idles_iff.mpr idles)

theorem Request.Obeys.spares (obeys : (Request.unblock t).Obeys d k) (spares : d.sparesIdle) :
    k.idle ≠ some t := by
  intro idles
  cases (obeys.spared spares.2 t rfl).symm.trans (isIdle_iff.mpr idles)

theorem Request.Obeys.semaphore_unnamed (obeys : (Request.destroySemaphore s).Obeys d k)
    (careful : d.careful = true) (t : ThreadId) : k.pending? t ≠ some (.unit s) := by
  intro pending
  obtain ⟨entry, member, plans⟩ := exists_entry_of_pending? pending
  exact (obeys.careful careful).2.1 s rfl entry member plans

theorem Request.Obeys.lock_unnamed (obeys : (Request.destroyLock l).Obeys d k)
    (careful : d.careful = true) (t : ThreadId) (p : Pending) (pending : k.pending? t = some p) :
    p.lock? ≠ some l := by
  obtain ⟨entry, member, plans⟩ := exists_entry_of_pending? pending
  exact (obeys.careful careful).2.2 l rfl entry member p plans

/-- Whoever is unblocked by name may outrank the caller, but an orderly run unblocks nobody so. -/
theorem steps_of_obeyed_unblock (steady : Steady d k) (obeys : (Request.unblock t).Obeys d k)
    (h : (unblock t).run k = .ok (u, k')) : Steps d [] k.Calm k k' := by
  have steps := steps_of_run_unblock steady obeys.spares h
  exact ⟨steps.moves, steps.runs, fun orderly => nomatch obeys.unblocks orderly.neverUnblocks⟩

/-- A report of the tick accounts is an entry in the journal. -/
theorem of_run_perform_reportUsage {reply : Reply}
    (h : Request.reportUsage.perform.run k = .ok (reply, k')) :
    k' = k.withEvents (.charged k.usage :: k.events) := by
  obtain ⟨_, noted, ran, h⟩ := run_bind_eq_ok_iff.mp h
  cases ran
  exact ((looks_get.bind fun k => looks_lift k.usage.total).map _).eq_of_run h

/-- Whatever is asked of a kernel is done in moves. -/
theorem steps_of_run_perform {r : Request} {reply : Reply} (steady : Steady d k)
    (obeys : r.Obeys d k) (h : r.perform.run k = .ok (reply, k')) :
    ∃ deeds, Steps d deeds k.Calm k k' ∧ r.Accounts k deeds := by
  have kept : Steps d [] k.Calm k k' → ∃ deeds, Steps d deeds k.Calm k k' ∧ r.Accounts k deeds :=
    fun steps => ⟨[], steps, r.accounts_nil k⟩
  have settled : Steps d [] True k k' → ∃ deeds, Steps d deeds k.Calm k k' ∧ r.Accounts k deeds :=
    fun steps => kept (steps.weaken fun _ => trivial)
  by_cases looks : r.looks = true
  · obtain rfl := (looks_perform looks).eq_of_run h
    exact kept steady.refl
  cases r with
  | elapsed | semaphoreValue | semaphoreWaiters | lockHolder | lockHeldByCaller | lockWaiters
  | conditionWaiters | summary | profile | setNiceness => exact absurd rfl looks
  | start =>
    obtain ⟨_, ran, _⟩ := run_map_eq_ok_iff.mp h
    exact kept (steps_of_run_start steady ran)
  | spawn blueprint =>
    obtain ⟨_, ran, _⟩ := run_map_eq_ok_iff.mp h
    exact kept (steps_of_run_spawn steady ran)
  | exit =>
    obtain ⟨_, ran, _⟩ := run_map_eq_ok_iff.mp h
    exact settled (steps_of_run_exit steady (fun careful => (obeys.careful careful).1 rfl) ran)
  | block =>
    obtain ⟨_, ran, _⟩ := run_map_eq_ok_iff.mp h
    exact settled (steps_of_run_block steady ran)
  | yield =>
    obtain ⟨_, ran, _⟩ := run_map_eq_ok_iff.mp h
    exact settled (steps_of_run_yield steady.regular steady.runs.running ran).1
  | preempt =>
    obtain ⟨_, ran, _⟩ := run_map_eq_ok_iff.mp h
    exact settled (steady.preempt ran)
  | unblock t =>
    obtain ⟨_, ran, _⟩ := run_map_eq_ok_iff.mp h
    exact kept (steps_of_obeyed_unblock steady obeys ran)
  | setPriority p =>
    obtain ⟨_, ran, _⟩ := run_map_eq_ok_iff.mp h
    exact settled (steps_of_run_setPriority steady ran)
  | observe observer =>
    cases h
    exact kept (steady.quiet (sameWork_of_remarks (.refl _) (.refl _) (fun _ => rfl) rfl) rfl id)
  | setLevel level =>
    cases h
    exact kept (steady.quiet (sameWork_atLevel level) rfl id)
  | timer count =>
    obtain ⟨_, ran, _⟩ := run_map_eq_ok_iff.mp h
    obtain ⟨deeds, ticks, steps⟩ := steps_of_run_timerInterrupts steady ran
    exact ⟨deeds, steps, accounts_of_tick .tick ticks⟩
  | sleepUntil tick =>
    obtain ⟨_, ran, _⟩ := run_map_eq_ok_iff.mp h
    exact kept (steps_of_run_sleepUntil steady ran)
  | sleep ticks =>
    obtain ⟨_, ran, _⟩ := run_map_eq_ok_iff.mp h
    rw [run_sleep] at ran
    exact kept (steps_of_run_sleepUntil steady ran)
  | sleepFor duration =>
    obtain ⟨_, ran, _⟩ := run_map_eq_ok_iff.mp h
    rw [run_sleepFor] at ran
    exact kept (steps_of_run_sleepUntil steady ran)
  | reportUsage =>
    obtain rfl := of_run_perform_reportUsage h
    exact kept (steady.quiet (sameWork_withEvents (.cons _ _ rfl)) rfl id)
  | createSemaphore value =>
    obtain ⟨_, ran, _⟩ := run_map_eq_ok_iff.mp h
    exact ⟨_, steps_of_run_createSemaphore steady ran, Request.accounts_deeds .create none⟩
  | destroySemaphore s =>
    obtain ⟨_, ran, _⟩ := run_map_eq_ok_iff.mp h
    exact ⟨_, steps_of_run_destroySemaphore steady (fun named => obeys.plain named s rfl)
      obeys.semaphore_unnamed ran, Request.accounts_deeds .destroy none⟩
  | down s =>
    obtain ⟨_, ran, _⟩ := run_map_eq_ok_iff.mp h
    have ends := ends_of_run_down steady (fun named => obeys.plain named s rfl) (obeys.busy rfl) ran
    exact ⟨_, ends.steps, Request.accounts_deeds .down none⟩
  | tryDown s =>
    obtain ⟨success, ran, _⟩ := run_map_eq_ok_iff.mp h
    exact ⟨_, steps_of_run_tryDown steady (fun named => obeys.plain named s rfl) ran,
      Request.accounts_tried .take success⟩
  | up s =>
    obtain ⟨_, ran, _⟩ := run_map_eq_ok_iff.mp h
    exact settled (steps_of_run_up steady (fun named => obeys.plain named s rfl) ran)
  | createLock =>
    obtain ⟨_, ran, _⟩ := run_map_eq_ok_iff.mp h
    exact kept (steps_of_run_createLock steady ran)
  | destroyLock l =>
    obtain ⟨_, ran, _⟩ := run_map_eq_ok_iff.mp h
    exact kept (steps_of_run_destroyLock steady obeys.lock_unnamed ran)
  | acquire l =>
    obtain ⟨_, ran, _⟩ := run_map_eq_ok_iff.mp h
    exact ⟨_, (ends_of_run_acquire steady (obeys.busy rfl) ran).steps, Request.accounts_deeds .acquire none⟩
  | tryAcquire l =>
    obtain ⟨success, ran, _⟩ := run_map_eq_ok_iff.mp h
    exact ⟨_, steps_of_run_tryAcquire steady ran, Request.accounts_tried .seize success⟩
  | release l =>
    obtain ⟨_, ran, _⟩ := run_map_eq_ok_iff.mp h
    exact ⟨_, (steps_of_run_release steady ran).weaken fun _ => trivial,
      Request.accounts_deeds .release none⟩
  | createCondition =>
    obtain ⟨_, ran, _⟩ := run_map_eq_ok_iff.mp h
    exact kept (steps_of_run_createCondition steady ran)
  | destroyCondition c =>
    obtain ⟨_, ran, _⟩ := run_map_eq_ok_iff.mp h
    exact kept (steps_of_run_destroyCondition steady ran)
  | wait c l =>
    obtain ⟨_, ran, _⟩ := run_map_eq_ok_iff.mp h
    exact (awaits_of_run_wait steady obeys.busy_of_wait ran).2.steps
  | signal c l =>
    obtain ⟨_, ran, _⟩ := run_map_eq_ok_iff.mp h
    exact steps_of_run_signal steady ran
  | broadcast c l =>
    obtain ⟨_, ran, _⟩ := run_map_eq_ok_iff.mp h
    exact steps_of_run_broadcast steady ran

end ThreadKernel
