import ThreadKernel.Proofs.Completion
import ThreadKernel.Proofs.Timekeeping

/-!
# Timed sleep

A thread that sleeps until a tick stays blocked on the sleep queue, whatever happens, and is made
ready in the timer interrupt in which the clock reaches that tick.

The timer looks through the sleepers only when the queue's earliest wake tick has come.  That
tick is exact in between operations (`Kernel.Punctual`): nothing but a tick can make a sleeper
due (`Move.punctual`), and the timer's handler wakes everyone whom its tick has made due and
takes the earliest tick anew over the others (`punctual_of_run_timerTick`).
-/

namespace ThreadKernel

open Kernel

variable {d : Discipline} {m m' : Machine} {k k' : Kernel} {t : ThreadId} {thread : Thread}
  {act : Option Act} {deeds : List Deed} {w : Nat} {u : Unit}

/-! ## The earliest wake tick -/

theorem Kernel.wakeTickOf_of_get? (found : k.threads.get? t = some thread) :
    k.wakeTickOf t = thread.wakeTick := by
  rw [wakeTickOf, found, Option.elim_some]

theorem Kernel.wakeTickOf_of_post {x : Post} (found : k.post? t = some x) :
    k.wakeTickOf t = x.wakeTick := by
  rcases Option.map_eq_some_iff.mp found with ⟨thread, foundThread, rfl⟩
  exact wakeTickOf_of_get? foundThread

/-- No sleeper is due, and the sleep queue knows the earliest wake tick. -/
structure Kernel.Punctual (k : Kernel) : Prop where
  ahead : ∀ t ∈ k.sleepers.sleepers, k.clock.ticks < k.wakeTickOf t
  nextWake : k.sleepers.nextWake = SleepQueue.earliest (k.sleepers.sleepers.map k.wakeTickOf)

theorem Kernel.Punctual.of_sleepers (punctual : k.Punctual) (clock : k'.clock = k.clock)
    (kept : ∀ t ∈ k.sleepers.sleepers, k'.wakeTickOf t = k.wakeTickOf t)
    (same : k'.sleepers = k.sleepers) : k'.Punctual where
  ahead t asleep := by
    rw [same] at asleep
    rw [clock, kept t asleep]
    exact punctual.ahead t asleep
  nextWake := by
    rw [same, List.map_congr_left kept]
    exact punctual.nextWake

/-- When nobody is due, looking through the sleepers finds the same earliest tick. -/
theorem Kernel.Punctual.earliestAfter (punctual : k.Punctual) {past : Nat}
    (come : past ≤ k.clock.ticks) :
    k.sleepers.earliestAfter past k.wakeTickOf = k.sleepers.nextWake := by
  have everyone : k.sleepers.sleepers.filter (fun t => past < k.wakeTickOf t) =
      k.sleepers.sleepers := by
    apply List.filter_eq_self.mpr
    intro t asleep
    exact decide_eq_true (Nat.lt_of_le_of_lt come (punctual.ahead t asleep))
  rw [SleepQueue.earliestAfter, everyone, punctual.nextWake]

theorem Kernel.Punctual.rescanned (punctual : k.Punctual) (clock : k'.clock = k.clock)
    (ticks : k'.wakeTickOf = k.wakeTickOf)
    (scan : k.sleepers.Rescanned k.clock.ticks k.wakeTickOf k'.sleepers) : k'.Punctual where
  ahead t asleep := by
    rw [clock, ticks]
    exact punctual.ahead t (scan.perm.mem_iff.mp asleep)
  nextWake := by
    have order := SleepQueue.earliest_perm (scan.perm.map k.wakeTickOf)
    rw [ticks, order, ← punctual.nextWake]
    rcases scan.nextWake with same | ⟨past, come, anew⟩
    · exact same
    · rw [anew, punctual.earliestAfter come]

theorem Kernel.Punctual.pushed (punctual : k.Punctual) (clock : k'.clock = k.clock)
    (kept : ∀ t ∈ k.sleepers.sleepers, k'.wakeTickOf t = k.wakeTickOf t)
    (ahead : k.clock.ticks < k'.wakeTickOf t)
    (push : k'.sleepers = k.sleepers.push t (k'.wakeTickOf t)) : k'.Punctual where
  ahead u asleep := by
    rw [push, SleepQueue.mem_sleepers_push] at asleep
    rw [clock]
    rcases asleep with old | rfl
    · rw [kept u old]
      exact punctual.ahead u old
    · exact ahead
  nextWake := by
    rw [push, SleepQueue.push, List.map_append, List.map_cons, List.map_nil,
      SleepQueue.earliest_append_singleton, List.map_congr_left kept, punctual.nextWake]

/-- Who sleeps has the wake tick that the queue goes by. -/
theorem post?_of_mem_sleepers (placed : k.Placed) (asleep : t ∈ k.sleepers.sleepers) :
    ∃ x, k.post? t = some x ∧ x.place = .sleep := by
  rcases (placed.mem_queueAt (p := .sleep) nofun t).mp asleep with ⟨thread, found, there⟩
  exact ⟨thread.post, post?_of_get? found, there⟩

theorem mem_sleepers_of_post {x : Post} (placed : k.Placed) (found : k.post? t = some x)
    (asleep : x.place = .sleep) : t ∈ k.sleepers.sleepers := by
  rcases Option.map_eq_some_iff.mp found with ⟨thread, foundThread, rfl⟩
  exact (placed.mem_queueAt (p := .sleep) nofun t).mpr ⟨thread, foundThread, asleep⟩

/-- Only a tick can make a sleeper due, so nobody is woken without one. -/
theorem Move.punctual (move : Move d act m m') (sound : Sound d m) (untick : act ≠ some .tick)
    (punctual : m.kernel.Punctual) : m'.kernel.Punctual := by
  have clock := ((move.beat sound).unticked untick).clock
  have kept : ∀ t ∈ m.kernel.sleepers.sleepers,
      m'.kernel.wakeTickOf t = m.kernel.wakeTickOf t := by
    intro t asleep
    rcases post?_of_mem_sleepers sound.placed asleep with ⟨x, found, there⟩
    rcases move.sleeper sound found there with due | stays
    · have ahead := punctual.ahead t asleep
      rw [wakeTickOf_of_post found] at ahead
      exact absurd due (Nat.not_le.mpr ahead)
    · rw [wakeTickOf_of_post stays, wakeTickOf_of_post found]
  cases move.change sound with
  | still same | enroll same | reclaim _ same | pick _ _ _ _ _ _ _ same =>
    exact punctual.of_sleepers clock kept (congrArg (·.1) same)
  | rescan posts sleepers same =>
    refine punctual.rescanned clock (funext fun t => ?_) sleepers
    have views : ∀ k : Kernel, k.wakeTickOf t = (k.post? t).elim 0 (·.wakeTick) := by
      intro k
      rw [wakeTickOf, post?, Option.elim_map]
      rfl
    rw [views, views, posts]
  | doze ahead posts same =>
    have asleep := wakeTickOf_of_post (k := m'.kernel) (t := m.kernel.current)
      (by rw [posts, Function.update_self])
    refine punctual.pushed clock kept ?_ ?_ (t := m.kernel.current)
    · rw [asleep]
      exact ahead
    · rw [asleep]
      exact congrArg (·.1) same
  | rise found asleep due same =>
    have ahead := punctual.ahead _ (mem_sleepers_of_post sound.placed found asleep)
    rw [wakeTickOf_of_post found] at ahead
    exact absurd due (Nat.not_le.mpr ahead)

theorem Moves.punctual (moves : Moves d deeds m m') (sound : Sound d m)
    (untick : ∀ deed ∈ deeds, deed.act ≠ .tick) (punctual : m.kernel.Punctual) :
    m'.kernel.Punctual := by
  induction moves with
  | refl m => exact punctual
  | tail before move ih =>
    rename_i deeds act m m' m''
    refine move.punctual (sound.moves before) ?_
      (ih sound (fun deed among => untick deed (List.mem_append_left _ among)) punctual)
    rintro rfl
    exact untick _ (List.mem_append_right _ (List.mem_singleton.mpr rfl)) rfl

/-! ## A sleeper until its tick comes -/

/-- `t` sleeps until the tick `w`, blocked and on the sleep queue, with nothing to finish when it
wakes. -/
structure Kernel.Sleeps (k : Kernel) (t : ThreadId) (w : Nat) : Prop where
  record : ∃ thread, k.threads.get? t = some thread ∧ thread.state = .blocked ∧
    thread.place = .sleep ∧ thread.wakeTick = w ∧ thread.pending = none
  queued : t ∈ k.sleepers.sleepers

theorem Kernel.Sleeps.post? (sleeps : k.Sleeps t w) : k.post? t = some ⟨.blocked, .sleep, w⟩ := by
  rcases sleeps.record with ⟨thread, found, blocked, there, wakes, _⟩
  rw [post?_of_get? found, Thread.post, blocked, there, wakes]

theorem Kernel.Sleeps.pending? (sleeps : k.Sleeps t w) : k.pending? t = none := by
  rcases sleeps.record with ⟨thread, found, _, _, _, free⟩
  rw [pending?_of_get? found, free]

theorem Kernel.sleeps_of_post (placed : k.Placed)
    (found : k.post? t = some ⟨.blocked, .sleep, w⟩) (free : k.pending? t = none) :
    k.Sleeps t w := by
  have queued := mem_sleepers_of_post placed found rfl
  rcases Option.map_eq_some_iff.mp found with ⟨thread, foundThread, post⟩
  refine ⟨⟨thread, foundThread, congrArg Post.state post, congrArg Post.place post,
    congrArg Post.wakeTick post, ?_⟩, queued⟩
  rwa [pending?_of_get? foundThread] at free

theorem Kernel.Sleeps.ahead (sleeps : k.Sleeps t w) (punctual : k.Punctual) :
    k.clock.ticks < w := by
  have ahead := punctual.ahead t sleeps.queued
  rwa [wakeTickOf_of_post sleeps.post?] at ahead

theorem Kernel.Sleeps.ne_current (sleeps : k.Sleeps t w) (runs : k.Runs) : t ≠ k.current := by
  rintro rfl
  rcases sleeps.record with ⟨thread, found, blocked, _⟩
  rcases runs with ⟨runner, foundRunner, running, _⟩
  cases found.symm.trans foundRunner
  cases blocked.symm.trans running

/-- New work is the current thread's own act. -/
theorem Entry.work_eq_none {a b : Ledger} (entry : Entry d act a b) (free : a.work t = none)
    (undone : t ≠ a.runner ∨ act = none) : b.work t = none := by
  have apart : ∀ {own : List Act} {work : Pending}, a.Starts own work act → t ≠ a.runner := by
    rintro own work starts rfl
    rcases undone with other | none
    · exact other rfl
    · rcases starts with ⟨⟨one, _, is⟩, _⟩ | ⟨_, busy⟩
      · cases none.symm.trans is
      · cases free.symm.trans busy
  cases entry with
  | note | pick | create | destroy | createLock | destroyLock | release | give | signal =>
    exact free
  | take starts | want starts | hold starts | await starts =>
    exact (Function.update_of_ne (apart starts) _ _).trans free
  | enlist =>
    rcases undone with other | none
    · exact (Function.update_of_ne other _ _).trans free
    · cases none
  | receive due =>
    have other : t ≠ a.runner := by
      rintro rfl
      cases free.symm.trans due
    exact (Function.update_of_ne other _ _).trans free

/-- Who sleeps, seen in the middle of an operation. -/
structure Machine.Slumbers (m : Machine) (t : ThreadId) (w : Nat) : Prop where
  post : m.kernel.post? t = some ⟨.blocked, .sleep, w⟩
  work : m.work? t = none

theorem Machine.Slumbers.move (slumbers : m.Slumbers t w) (regular : Regular d m)
    (move : Move d act m m') (undone : t ≠ m.kernel.current ∨ act = none) :
    w ≤ m.kernel.clock.ticks ∨
      m'.Slumbers t w ∧ (t ≠ m.kernel.current → t ≠ m'.kernel.current) := by
  have sound := regular.toSound
  rcases move.sleeper sound slumbers.post rfl with due | post
  · exact .inl due
  · refine .inr ⟨⟨post, (move.entry sound regular.tidy).work_eq_none slumbers.work undone⟩, ?_⟩
    intro other
    cases move.change sound with
    | still same | rescan _ _ same | enroll same | doze _ _ same | rise _ _ _ same
    | reclaim _ same =>
      have current : m'.kernel.current = m.kernel.current := congrArg (·.2.2.2) same
      rwa [current]
    | pick found halted departs swept alive foundNext posts same =>
      rename_i previous thread next dying
      have current : m'.kernel.current = next := congrArg (·.2.2.2) same
      rw [current]
      rintro rfl
      rw [posts, Function.update_self] at post
      cases post

theorem Machine.Slumbers.moves (slumbers : m.Slumbers t w) (regular : Regular d m)
    (moves : Moves d deeds m m') (undone : t ≠ m.kernel.current ∨ deeds = []) :
    w ≤ m'.kernel.clock.ticks ∨
      m'.Slumbers t w ∧ (t ≠ m.kernel.current → t ≠ m'.kernel.current) := by
  induction moves with
  | refl m => exact .inr ⟨slumbers, id⟩
  | tail before move ih =>
    rename_i deeds act m m' m''
    have middle := regular.moves before
    have later := (move.beat middle.toSound).ticks_le
    have early : t ≠ m.kernel.current ∨ deeds = [] :=
      undone.imp_right fun none => (List.append_eq_nil_iff.mp none).1
    rcases ih slumbers regular early with due | ⟨slumbers, stays⟩
    · exact .inl (due.trans later)
    · have late : t ≠ m'.kernel.current ∨ act = none := by
        refine undone.imp stays fun none => ?_
        have silent := (List.append_eq_nil_iff.mp none).2
        exact Option.toList_eq_nil_iff.mp (List.map_eq_nil_iff.mp silent)
      rcases slumbers.move middle move late with due | ⟨slumbers, goes⟩
      · exact .inl (due.trans later)
      · exact .inr ⟨slumbers, fun other => goes (stays other)⟩

theorem Kernel.Sleeps.slumbers (sleeps : k.Sleeps t w) : (⟨k, none⟩ : Machine).Slumbers t w :=
  ⟨sleeps.post?, (Machine.work?_none k t).trans sleeps.pending?⟩

theorem Machine.Slumbers.sleeps (slumbers : (⟨k, none⟩ : Machine).Slumbers t w)
    (placed : k.Placed) : k.Sleeps t w :=
  sleeps_of_post placed slumbers.post ((Machine.work?_none k t).symm.trans slumbers.work)

/-- Whatever the others do, who sleeps sleeps on until the tick comes. -/
theorem Kernel.Sleeps.moves (sleeps : k.Sleeps t w) (steady : Steady d k)
    (moves : Moves d deeds ⟨k, none⟩ ⟨k', none⟩) : w ≤ k'.clock.ticks ∨ k'.Sleeps t w := by
  have other := sleeps.ne_current steady.runs
  rcases sleeps.slumbers.moves steady.regular moves (.inl other) with due | ⟨slumbers, _⟩
  · exact .inl due
  · exact .inr (slumbers.sleeps (steady.regular.moves moves).placed)

/-! ## Going to sleep -/

theorem sleeps_of_run_sleepUntil {result : Wait} (steady : Steady d k) (ahead : k.clock.ticks < w)
    (h : (sleepUntil w).run k = .ok (result, k')) :
    result = .suspended ∧ k'.clock = k.clock ∧ k'.Sleeps k.current w := by
  rcases of_run_sleepUntil steady h with ⟨_, come, _⟩ | ⟨suspended, dozes⟩
  · exact absurd come (Nat.not_le.mpr ahead)
  · have clock := (dozes.steps.moves.unticked steady.regular (List.forall_mem_nil _)).clock
    rcases dozes.asleep with ⟨dozed, thread, into, found, asleep, wakes, free, out⟩
    have middle := steady.regular.moves into
    have blocked := middle.placed.blocked found (by simp [asleep]) (by simp [asleep])
    have sleeps : dozed.Sleeps k.current w := by
      refine ⟨⟨thread, found, blocked, asleep, wakes, free⟩, ?_⟩
      exact mem_sleepers_of_post middle.placed (post?_of_get? found) asleep
    rcases sleeps.slumbers.moves middle out (.inr rfl) with come | ⟨slumbers, _⟩
    · rw [clock] at come
      exact absurd come (Nat.not_le.mpr ahead)
    · exact ⟨suspended, clock, slumbers.sleeps (middle.moves out).placed⟩

/-! ## The tick -/

/-- `t` is ready, with nothing to finish first. -/
def Kernel.Eager (k : Kernel) (t : ThreadId) : Prop :=
  ∃ thread, k.threads.get? t = some thread ∧ thread.state = .ready ∧ thread.pending = none

/-- What waking those who are due at `now` leaves. -/
structure Kernel.Awoken (now : Nat) (due : List ThreadId) (k k' : Kernel) : Prop where
  clock : k'.clock = k.clock
  sleepers : k'.sleepers = k.sleepers
  ticks : ∀ t, k'.wakeTickOf t = k.wakeTickOf t
  spared : ∀ t, t ∉ due → k'.threads.get? t = k.threads.get? t
  woken : ∀ t ∈ due, k.pending? t = none → k'.Eager t

theorem awoken_of_run_forM {now : Nat} {due : List ThreadId}
    (h : (due.forM fun t => do
      note (.awakens t now)
      modifyThread t fun thread => { thread with place := .detached }
      unblock t : KernelM PUnit).run k = .ok (u, k')) : Awoken now due k k' := by
  induction due generalizing k with
  | nil =>
    cases h
    exact ⟨rfl, rfl, fun _ => rfl, fun _ _ => rfl, nofun⟩
  | cons t due ih =>
    rcases run_forM_cons_eq_ok_iff.mp h with ⟨middle, ran, h⟩
    rcases @of_run_rise _ _ _ _ k.sleepers _ ran with ⟨thread, found, _, rfl⟩
    have detached := Arena.get?_modify_self (fun old : Thread => { old with place := .detached })
      found
    have record := Arena.get?_modify_self
      (fun old : Thread => { old with state := .ready, place := .ready }) detached
    have others : ∀ u, u ≠ t →
        (k.risen t now thread.priority).threads.get? u = k.threads.get? u := by
      intro u other
      exact (Arena.get?_modify_of_ne _ (Ne.symm other)).trans
        (Arena.get?_modify_of_ne _ (Ne.symm other))
    have rest := ih h
    refine ⟨rest.clock, rest.sleepers, fun u => ?_, fun u spared => ?_, fun u among free => ?_⟩
    · refine (rest.ticks u).trans ?_
      by_cases here : u = t
      · subst here
        exact (wakeTickOf_of_get? (k := k.risen u now thread.priority) record).trans
          (wakeTickOf_of_get? found).symm
      · exact congrArg (·.elim 0 (·.wakeTick)) (others u here)
    · rcases not_or.mp (fun among => spared (List.mem_cons.mpr among)) with ⟨other, spared⟩
      exact (rest.spared u spared).trans (others u other)
    · by_cases later : u ∈ due
      · refine rest.woken u later ?_
        by_cases here : u = t
        · subst here
          rw [pending?_of_get? found] at free
          exact (pending?_of_get? (k := k.risen u now thread.priority) record).trans free
        · exact (congrArg (·.bind (·.pending)) (others u here)).trans free
      · obtain rfl : u = t := (List.mem_cons.mp among).resolve_right later
        rw [pending?_of_get? found] at free
        exact ⟨_, (rest.spared u later).trans record, rfl, free⟩

theorem of_run_awaken {now : Nat} (h : (awaken now).run k = .ok (u, k')) :
    Awoken now (k.sleepers.wake now k.wakeTickOf).1
      (k.withSleepers (k.sleepers.wake now k.wakeTickOf).2) k' := by
  rw [awaken, run_get_bind] at h
  rcases run_bind_eq_ok_iff.mp h with ⟨_, same, checks, h⟩
  cases run_forM_findThread checks
  rw [run_set_bind] at h
  exact awoken_of_run_forM h

/-- Whom the tick has made due the timer's handler has woken, and nobody else. -/
theorem punctual_of_run_timerTick (steady : Steady d k) (punctual : k.Punctual)
    (h : timerTick.run k = .ok (u, k')) : k'.Punctual := by
  rcases of_run_timerTick h with ⟨_, usage, account, rest⟩
  have ticks : Move d (some .tick) ⟨k, none⟩ ⟨k.ticked usage, none⟩ := .tick account
  rcases rest with ⟨undue, rfl⟩ | ⟨_, woken, wakes, preempts⟩
  · refine ⟨fun t asleep => ?_, punctual.nextWake⟩
    rw [punctual.nextWake] at undue
    have first := (SleepQueue.le_earliest_iff.mp undue).2
    exact first (k.wakeTickOf t) (List.mem_map_of_mem asleep)
  · have steady : Steady d (k.ticked usage) := ⟨steady.regular.move ticks, steady.runs⟩
    have awoken := of_run_awaken wakes
    have steady := (steps_of_run_awaken steady (Nat.le_refl _) wakes).steady steady
    have moves := (steady.preempt preempts).moves
    refine moves.punctual steady.regular.toSound (List.forall_mem_nil _) ⟨fun t asleep => ?_, ?_⟩
    · rw [awoken.sleepers] at asleep
      rw [awoken.clock, awoken.ticks]
      exact (SleepQueue.mem_sleepers_wake.mp asleep).2
    · rw [awoken.sleepers, List.map_congr_left fun t _ => awoken.ticks t]
      rfl

theorem eager_of_run_timerTick (inside : k.inInterrupt = true) (punctual : k.Punctual)
    (sleeps : k.Sleeps t w) (come : k.clock.ticks + 1 = w) (h : timerTick.run k = .ok (u, k')) :
    k'.Eager t := by
  have wakes : k.wakeTickOf t = w := wakeTickOf_of_post sleeps.post?
  rcases of_run_timerTick h with ⟨_, usage, account, ⟨undue, rfl⟩ | ⟨_, woken, rouses, preempts⟩⟩
  · rw [punctual.nextWake] at undue
    have first := (SleepQueue.le_earliest_iff.mp undue).2
    have late := first (k.wakeTickOf t) (List.mem_map_of_mem sleeps.queued)
    omega
  · have among : t ∈ ((k.ticked usage).sleepers.wake (k.clock.ticks + 1)
        (k.ticked usage).wakeTickOf).1 := by
      refine SleepQueue.mem_woken.mpr ⟨sleeps.queued, ?_⟩
      have same : (k.ticked usage).wakeTickOf t = k.wakeTickOf t := rfl
      omega
    have eager : woken.Eager t := (of_run_awaken rouses).woken t among sleeps.pending?
    rw [preempt, run_get_bind, (handler_of_run_awaken rouses).1, ticked_inInterrupt, inside,
      if_pos rfl] at preempts
    split at preempts
    · cases preempts
      exact eager
    · cases preempts
      exact eager

/-! ## The return from the handler -/

theorem Kernel.Eager.of_record (eager : k.Eager t)
    (same : (k'.threads.get? t).map (fun x => (x.position, x.pending)) =
      (k.threads.get? t).map fun x => (x.position, x.pending)) : k'.Eager t := by
  rcases eager with ⟨thread, found, ready, free⟩
  rw [found, Option.map_some, Option.map_eq_some_iff] at same
  rcases same with ⟨thread', found', eq⟩
  rcases Prod.mk.inj eq with ⟨position, pending⟩
  exact ⟨thread', found', (Prod.mk.inj position).1.trans ready, pending.trans free⟩

theorem Kernel.Eager.of_get? (eager : k.Eager t)
    (same : k'.threads.get? t = k.threads.get? t) : k'.Eager t :=
  eager.of_record (congrArg _ same)

theorem Kernel.Eager.ne_current (eager : k.Eager t) (running : k.Running) : t ≠ k.current := by
  rintro rfl
  rcases eager with ⟨thread, found, ready, _⟩
  rcases running with ⟨runner, foundRunner, runs⟩
  cases found.symm.trans foundRunner
  cases ready.symm.trans runs

/-- Who is eager stays so until it is picked, and runs on when it is. -/
theorem Elects.eager (elects : Elects d k k') (eager : k.Eager t) :
    k'.Eager t ∨ k'.current = t := by
  rcases elects.seen t with same | ⟨thread, found, _, goes⟩
  · exact .inl (eager.of_record same)
  · rcases eager with ⟨thread', found', _, free⟩
    cases found.symm.trans found'
    exact .inr (goes free)

theorem eager_of_run_schedule (regular : Regular d ⟨k, none⟩) (eager : k.Eager t)
    (h : schedule.run k = .ok (u, k')) : k'.Eager t ∨ k'.current = t := by
  rcases of_run_schedule regular h with ⟨reclaimed, ran, elects⟩
  apply elects.eager
  rcases of_run_reclaim ran with ⟨threads, events, _, _, gone, rfl⟩
  apply eager.of_get?
  rw [gone, if_neg]
  intro left
  rcases eager with ⟨thread, found, ready, _⟩
  cases ready.symm.trans (regular.placed.dying_of_mem left found)

theorem eager_of_run_yield (regular : Regular d ⟨k, none⟩) (running : k.Running)
    (eager : k.Eager t) (h : yield.run k = .ok (u, k')) : k'.Eager t ∨ k'.current = t := by
  have other := eager.ne_current running
  rcases of_run_yield h with ⟨aside, last, stands, ran, rfl⟩
  have regular := (regular.move (.quiet (sameWork_atLevel .off))).move (stands.move running)
  change last.Eager t ∨ last.current = t
  exact eager_of_run_schedule regular (eager.of_get? (stands.get?_of_ne other)) ran

theorem eager_of_run_leaveInterrupt (steady : Steady d k) (eager : k.Eager t)
    (h : leaveInterrupt.run k = .ok (u, k')) : k'.Eager t ∨ k'.current = t := by
  cases of_run_leaveInterrupt h with
  | resumes => exact .inl (eager.of_get? rfl)
  | yields ran =>
    have given := eager_of_run_yield (d := d) (steady.regular.move (.quiet (sameWork_resumed k)))
      steady.runs.running (eager.of_get? rfl) ran
    exact given.imp_left fun eager => eager.of_get? rfl

/-! ## Timer interrupts -/

/-- `t` is ready, and on the ready queue. -/
def Kernel.Readied (k : Kernel) (t : ThreadId) : Prop :=
  t ∈ k.ready.threads ∧ ∃ thread, k.threads.get? t = some thread ∧ thread.state = .ready

theorem Kernel.Eager.readied (eager : k.Eager t) (placed : k.Placed) : k.Readied t := by
  rcases eager with ⟨thread, found, ready, _⟩
  have there := (placed.ready_iff found).mpr ready
  exact ⟨(placed.mem_queueAt (p := .ready) nofun t).mpr ⟨thread, found, there⟩, thread, found, ready⟩

/-- A timer interrupt whose handler makes `t` ready, and which leaves it ready or running. -/
structure Kernel.Rouses (k : Kernel) (t : ThreadId) (k' : Kernel) : Prop where
  delivered : timerInterrupt.run k = .ok ((), k')
  handled : ∃ entered handled, enterInterrupt.run k = .ok ((), entered) ∧
    timerTick.run entered = .ok ((), handled) ∧ leaveInterrupt.run handled = .ok ((), k') ∧
    handled.Readied t
  left : k'.Readied t ∨ k'.current = t

theorem punctual_of_run_timerInterrupt (steady : Steady d k) (punctual : k.Punctual)
    (h : timerInterrupt.run k = .ok (u, k')) : k'.Punctual := by
  rcases of_run_timerInterrupt h with ⟨entered, handled, enters, ticks, leaves⟩
  have first := steps_of_run_enterInterrupt steady enters
  have inside := first.steady steady
  have entering := first.moves.punctual steady.regular.toSound (List.forall_mem_nil _) punctual
  have ticked := punctual_of_run_timerTick inside entering ticks
  have outside := (steps_of_run_timerTick inside ticks).steady inside
  exact (steps_of_run_leaveInterrupt outside leaves).moves.punctual outside.regular.toSound
    (List.forall_mem_nil _) ticked

/-- A timer interrupt wakes the sleepers whose tick it is, and no other. -/
theorem sleeper_of_run_timerInterrupt (steady : Steady d k) (punctual : k.Punctual)
    (sleeps : k.Sleeps t w) (h : timerInterrupt.run k = .ok (u, k')) :
    (k'.clock.ticks < w → k'.Sleeps t w) ∧ (k'.clock.ticks = w → k.Rouses t k') := by
  constructor
  · intro early
    rcases steps_of_run_timerInterrupt steady h with ⟨_, steps⟩
    exact (sleeps.moves steady steps.moves).resolve_left (Nat.not_le.mpr early)
  · intro come
    rw [(returned_of_run_timerInterrupt steady h).clock] at come
    rcases of_run_timerInterrupt h with ⟨entered, handled, enters, ticks, leaves⟩
    have first := steps_of_run_enterInterrupt steady enters
    have inside := first.steady steady
    have entering := first.moves.punctual steady.regular.toSound (List.forall_mem_nil _) punctual
    have outside := (steps_of_run_timerTick inside ticks).steady inside
    have last := (steps_of_run_leaveInterrupt outside leaves).steady outside
    have asleep : entered.Sleeps t w := by
      have clock : entered.clock = k.clock :=
        (first.moves.unticked steady.regular (List.forall_mem_nil _)).clock
      rcases sleeps.moves steady first.moves with late | asleep
      · rw [clock] at late
        omega
      · exact asleep
    rcases of_run_enterInterrupt enters with ⟨_, rfl⟩
    have eager := eager_of_run_timerTick rfl entering asleep come ticks
    refine ⟨h, ⟨_, handled, enters, ticks, leaves, eager.readied outside.regular.placed⟩, ?_⟩
    exact (eager_of_run_leaveInterrupt outside eager leaves).imp_left fun eager =>
      eager.readied last.regular.placed

theorem punctual_of_run_timerInterrupts {count : Nat} (steady : Steady d k) (punctual : k.Punctual)
    (h : (timerInterrupts count).run k = .ok (u, k')) : k'.Punctual := by
  induction count generalizing k with
  | zero =>
    cases h
    exact punctual
  | succ count ih =>
    rcases run_bind_eq_ok_iff.mp h with ⟨_, middle, first, h⟩
    rcases steps_of_run_timerInterrupt steady first with ⟨_, steps⟩
    exact ih (steps.steady steady) (punctual_of_run_timerInterrupt steady punctual first) h

/-- Of so many timer interrupts from `k` to `k'`, the one that reaches the tick `w` makes `t` ready,
which slept until then. -/
structure Kernel.RousedAmong (k : Kernel) (t : ThreadId) (w count : Nat) (k' : Kernel) : Prop where
  split : ∃ earlier later before after, count = earlier + (later + 1) ∧
    (timerInterrupts earlier).run k = .ok ((), before) ∧ before.Sleeps t w ∧
    before.clock.ticks < w ∧ before.Rouses t after ∧ after.clock.ticks = w ∧
    (timerInterrupts later).run after = .ok ((), k')

theorem roused_among_timerInterrupts {count : Nat} (steady : Steady d k) (punctual : k.Punctual)
    (sleeps : k.Sleeps t w) (h : (timerInterrupts count).run k = .ok (u, k'))
    (come : w ≤ k'.clock.ticks) : k.RousedAmong t w count k' := by
  have ahead := sleeps.ahead punctual
  induction count generalizing k with
  | zero =>
    cases h
    exact absurd ahead (Nat.not_lt.mpr come)
  | succ count ih =>
    rcases run_bind_eq_ok_iff.mp h with ⟨_, middle, first, h⟩
    rcases steps_of_run_timerInterrupt steady first with ⟨_, steps⟩
    have one := (returned_of_run_timerInterrupt steady first).clock
    have wakes := sleeper_of_run_timerInterrupt steady punctual sleeps first
    rcases Nat.lt_or_ge middle.clock.ticks w with early | due
    · have rest := ih (steps.steady steady) (punctual_of_run_timerInterrupt steady punctual first)
        (wakes.1 early) h early
      rcases rest.split with ⟨earlier, later, before, after, counts, leads, rest⟩
      refine ⟨earlier + 1, later, before, after, ?_, run_bind_eq_ok_iff.mpr ⟨(), middle, first, leads⟩,
        rest⟩
      rw [counts]
      omega
    · have now : middle.clock.ticks = w := by omega
      exact ⟨0, count, k, middle, (Nat.zero_add _).symm, rfl, sleeps, ahead, wakes.2 now, now, h⟩

/-! ## In every run -/

theorem punctual_of_occur {o : Occurrence} (steady : Steady d k) (punctual : k.Punctual)
    (h : d.occur k o = some k') : k'.Punctual := by
  rcases timer_or_untick_of_occur steady h with ⟨count, _, ran⟩ | ⟨deeds, moves, untick⟩
  · exact punctual_of_run_timerInterrupts steady punctual ran
  · exact moves.punctual steady.regular.toSound untick punctual

theorem Reachable.punctual (reachable : Reachable d k) : k.Punctual := by
  induction reachable with
  | fresh config rule => exact ⟨List.forall_mem_nil _, rfl⟩
  | step before transit ih =>
    rcases transit.occurs with ⟨o, occurs⟩
    exact punctual_of_occur before.steady ih occurs

/-- The tick that a request sleeps until when it is made from `k`. -/
def Request.wakeTick? (k : Kernel) : Request → Option Nat
  | .sleepUntil tick => some tick
  | .sleep ticks => some (saturate (k.clock.ticks + ticks))
  | .sleepFor duration => some (saturate (k.clock.ticks + duration.ticks k.config.timerHz))
  | _ => none

theorem sleeps_of_run_perform {r : Request} {reply : Reply} (steady : Steady d k)
    (wakes : r.wakeTick? k = some w) (ahead : k.clock.ticks < w)
    (h : r.perform.run k = .ok (reply, k')) :
    reply = .wait .suspended ∧ k'.clock = k.clock ∧ k'.Sleeps k.current w := by
  have sleeps : ∀ {result : Wait}, (sleepUntil w).run k = .ok (result, k') →
      Reply.wait result = .wait .suspended ∧ k'.clock = k.clock ∧ k'.Sleeps k.current w := by
    intro result ran
    rcases sleeps_of_run_sleepUntil steady ahead ran with ⟨rfl, rest⟩
    exact ⟨rfl, rest⟩
  cases r with
  | sleepUntil tick =>
    cases wakes
    rcases run_map_eq_ok_iff.mp h with ⟨_, ran, rfl⟩
    exact sleeps ran
  | sleep ticks =>
    cases wakes
    rcases run_map_eq_ok_iff.mp h with ⟨_, ran, rfl⟩
    rw [run_sleep] at ran
    exact sleeps ran
  | sleepFor duration =>
    cases wakes
    rcases run_map_eq_ok_iff.mp h with ⟨_, ran, rfl⟩
    rw [run_sleepFor] at ran
    exact sleeps ran
  | _ => cases wakes

/-- Who sleeps cannot be unblocked by name. -/
theorem Kernel.Sleeps.run_unblock (sleeps : k.Sleeps t w) :
    (unblock t).run k = .error (.stillQueued t) := by
  rcases sleeps.record with ⟨thread, found, blocked, there, _⟩
  have queued : thread.place ≠ .detached := by simp [there]
  unfold unblock masked
  rw [run_setLevel_bind]
  apply run_bind_of_error
  rw [run_bind_of_ok (run_findThread_eq_ok_iff (k := k.atLevel .off).mpr ⟨found, rfl⟩),
    run_bind_of_ok (run_require_eq_ok_iff.mpr ⟨blocked, rfl⟩)]
  apply run_bind_of_error
  rw [require, if_neg queued]
  rfl

/-- Sleep is exact.  In between operations every sleeper's wake tick is still to come, and the
sleep queue's is the earliest of them, or the largest word.  A thread that goes to sleep until a
later tick is blocked on the sleep queue with that wake tick.  It stays so whatever happens while
the clock is short of the tick, it cannot be unblocked by name, and the very timer interrupt in
which the clock reaches the tick makes it ready. -/
theorem sleep_is_exact (reachable : Reachable d k) :
    ((∀ t ∈ k.sleepers.sleepers,
        k.clock.ticks < k.wakeTickOf t ∧ k.sleepers.nextWake ≤ k.wakeTickOf t) ∧
      (k.sleepers.nextWake = maxWord ∨
        ∃ t ∈ k.sleepers.sleepers, k.wakeTickOf t = k.sleepers.nextWake) ∧
      (k.sleepers.sleepers = [] → k.sleepers.nextWake = maxWord)) ∧
    (∀ (r : Request) w reply k', r.wakeTick? k = some w → k.clock.ticks < w →
      r.perform.run k = .ok (reply, k') →
        reply = .wait .suspended ∧ k'.clock = k.clock ∧ k'.Sleeps k.current w) ∧
    ∀ t w, k.Sleeps t w → (unblock t).run k = .error (.stillQueued t) ∧
      ∀ o k', d.occur k o = some k' →
        (k'.clock.ticks < w → k'.Sleeps t w) ∧
        (w ≤ k'.clock.ticks → ∃ count, o = .request (.timer count) ∧ k.RousedAmong t w count k') := by
  have steady := reachable.steady
  have punctual := reachable.punctual
  refine ⟨⟨fun t asleep => ⟨punctual.ahead t asleep, ?_⟩, ?_, fun none => ?_⟩,
    fun r w reply k' wakes ahead ran => sleeps_of_run_perform steady wakes ahead ran,
    fun t w sleeps => ⟨sleeps.run_unblock, fun o k' occurs => ?_⟩⟩
  · have first := (SleepQueue.le_earliest_iff.mp (Nat.le_of_eq punctual.nextWake)).2
    exact first (k.wakeTickOf t) (List.mem_map_of_mem asleep)
  · rw [punctual.nextWake]
    exact (SleepQueue.earliest_mem _).imp_right List.mem_map.mp
  · rw [punctual.nextWake, none]
    rfl
  · rcases timer_or_untick_of_occur steady occurs with ⟨count, rfl, ran⟩ | ⟨deeds, moves, untick⟩
    · rcases steps_of_run_timerInterrupts steady ran with ⟨_, _, steps⟩
      refine ⟨fun early => ?_, fun come => ⟨count, rfl, ?_⟩⟩
      · exact (sleeps.moves steady steps.moves).resolve_left (Nat.not_le.mpr early)
      · exact roused_among_timerInterrupts steady punctual sleeps ran come
    · have clock := (moves.unticked steady.regular untick).clock
      have ahead := sleeps.ahead punctual
      refine ⟨fun early => ?_, fun come => ?_⟩
      · exact (sleeps.moves steady moves).resolve_left (Nat.not_le.mpr early)
      · rw [clock] at come
        exact absurd come (Nat.not_le.mpr ahead)

/-- The initial thread sleeps until tick 2, which is the earliest wake tick then.  Of three timer
interrupts one makes it ready. -/
theorem sleep_is_exact_of_initial : ∃ k k' k'', Reachable {} k ∧
    (Request.sleepUntil 2).perform.run k = .ok (.wait .suspended, k') ∧
    k'.Sleeps .main 2 ∧ k'.sleepers.nextWake = 2 ∧
    (unblock .main).run k' = .error (.stillQueued .main) ∧
    Discipline.occur {} k' (.request (.timer 3)) = some k'' ∧ k'.RousedAmong .main 2 3 k'' := by
  have ran : ((Discipline.performAll {} [.start] (.fresh {} .stable)).bind fun k =>
      ((sleepUntil 2).run k).toOption.bind fun slept =>
        (Discipline.occur {} slept.2 (.request (.timer 3))).map fun k'' =>
          (decide ((Request.sleepUntil 2).Obeys {} k), slept.1, k.current, k.clock.ticks,
            slept.2.sleepers.nextWake, k''.clock.ticks)) =
      some (true, .suspended, .main, 0, 2, 3) := by
    decide +kernel
  rcases Option.bind_eq_some_iff.mp ran with ⟨k, performed, rest⟩
  rcases Option.bind_eq_some_iff.mp rest with ⟨⟨result, k'⟩, sleeps, rest⟩
  rcases Option.map_eq_some_iff.mp rest with ⟨k'', occurs, told⟩
  simp only [Prod.mk.injEq] at told
  rcases told with ⟨obeys, rfl, here, start, first, last⟩
  have reachable := (Reachable.fresh {} .stable).performAll performed
  have asked : (Request.sleepUntil 2).perform.run k = .ok (.wait .suspended, k') :=
    run_map_eq_ok_iff.mpr ⟨.suspended, ok_of_toOption sleeps, rfl⟩
  have later : Reachable {} k' := reachable.step (.request (of_decide_eq_true obeys) asked)
  have asleep := ((sleep_is_exact reachable).2.1 _ 2 _ k' rfl (by omega) asked).2.2
  rw [here] at asleep
  rcases (sleep_is_exact later).2.2 .main 2 asleep with ⟨unblocked, goes⟩
  rcases (goes _ k'' occurs).2 (by omega) with ⟨count, is, roused⟩
  cases is
  exact ⟨k, k', k'', reachable, asked, asleep, first, unblocked, occurs, roused⟩

end ThreadKernel
