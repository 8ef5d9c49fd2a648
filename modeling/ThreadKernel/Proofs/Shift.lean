import ThreadKernel.Proofs.Ledger

/-!
# What a move comes to for the threads

A thread's `Post` is the state it is in, the list it says it is in and the tick it is to
wake at.  `Move.shift` says what a move comes to for the posts of all threads: as a rule
nothing, and otherwise a `Turn` of one thread.  `Move.beat` says the same of the clock
and the accounts, which only a tick moves, and `Move.change` of the census: who sleeps, who is to be
reclaimed and who is to be created next.
-/

namespace ThreadKernel

/-- Where a thread stands. -/
structure Post where
  state : RunState
  place : Place
  wakeTick : Nat

def Thread.post (thread : Thread) : Post where
  state := thread.state
  place := thread.place
  wakeTick := thread.wakeTick

/-- Where `t` stands, if there is such a thread. -/
def Kernel.post? (k : Kernel) (t : ThreadId) : Option Post := (k.threads.get? t).map Thread.post

open Kernel

/-- How one thread gets from one post to another. -/
inductive Turn (d : Discipline) (m : Machine) (t : ThreadId) (x : Post) : Post → Prop
  | unblock (blocked : x.state = .blocked) (detached : x.place = .detached) :
      Turn d m t x { x with state := .ready, place := .ready }
  | wake {s : SemaphoreId} (waits : x.place = .semaphore s) :
      Turn d m t x { x with state := .ready, place := .ready }
  | rise (asleep : x.place = .sleep) (due : x.wakeTick ≤ m.kernel.clock.ticks) :
      Turn d m t x { x with state := .ready, place := .ready }
  | yield (here : t = m.kernel.current) (running : x.state = .running) :
      Turn d m t x { x with state := .ready, place := .ready }
  | halt {state : RunState} (here : t = m.kernel.current) (running : x.state = .running)
      (whole : m.work? t = none ∨ m.kernel.idle = some t)
      (halts : state = .blocked ∨ state = .dying ∧ m.kernel.idle ≠ some t ∧
        (d.careful = true → ∀ l, m.kernel.holder? l ≠ some t)) :
      Turn d m t x { x with state }
  | doze {tick : Nat} (here : t = m.kernel.current) (running : x.state = .running)
      (free : m.work? t = none) : Turn d m t x ⟨.blocked, .sleep, tick⟩
  | queue {s : SemaphoreId} (here : t = m.kernel.current) (running : x.state = .running) :
      Turn d m t x { x with state := .blocked, place := .semaphore s }
  | pick (awake : x.place = .ready ∨ x.place = .detached) (alive : x.state ≠ .dying) :
      Turn d m t x { x with state := .running, place := .detached }

/-- What a move comes to for the posts of all threads. -/
inductive Shift (d : Discipline) (m m' : Machine) : Prop
  | stay (posts : m'.kernel.post? = m.kernel.post?)
  | turn {t : ThreadId} {x y : Post} (found : m.kernel.post? t = some x) (turn : Turn d m t x y)
      (posts : m'.kernel.post? = Function.update m.kernel.post? t (some y))
  | enroll {t : ThreadId} {tick : Nat} (new : m.kernel.post? t = none)
      (posts : m'.kernel.post? = Function.update m.kernel.post? t (some ⟨.blocked, .detached, tick⟩))
      (next : t = m.kernel.threads.next)
  | reclaim (posts : ∀ t x, m.kernel.post? t = some x →
      m'.kernel.post? t = some x ∨ m'.kernel.post? t = none ∧ x.state = .dying)
      (none_new : ∀ t, m.kernel.post? t = none → m'.kernel.post? t = none)
      (ran : Kernel.reclaim.run m.kernel = .ok ((), m'.kernel))

variable {d : Discipline} {m m' : Machine} {k k' : Kernel} {due : Option Pending} {t : ThreadId}
  {thread : Thread} {s : SemaphoreId} {l : LockId} {act : Option Act}

/-! ## Posts -/

theorem post?_of_get? (found : k.threads.get? t = some thread) : k.post? t = some thread.post := by
  rw [post?, found, Option.map_some]

theorem post?_modify (f : Thread → Thread) (found : k.threads.get? t = some thread)
    (threads : k'.threads = k.threads.modify t f) :
    k'.post? = Function.update k.post? t (some (f thread).post) := by
  have same := view_modify found f Thread.post
  rw [← threads] at same
  exact same

theorem post?_congr (threads : k'.threads = k.threads) : k'.post? = k.post? := by
  funext t
  rw [post?, post?, threads]

theorem post?_of_agree (same : Arena.Agree Thread.post k'.threads k.threads) : k'.post? = k.post? :=
  funext same

theorem Kernel.Retouched.post? (same : k.Retouched k') : k'.post? = k.post? := by
  funext t
  rw [Kernel.post?, Kernel.post?]
  have plans := same.threads t
  have ticks := same.wakeTicks t
  cases found : k.threads.get? t with
  | none =>
    rw [found, Option.map_none, Option.map_eq_none_iff] at plans
    rw [plans]
  | some thread =>
    rw [found, Option.map_some] at plans ticks
    obtain ⟨thread', found', eq⟩ := Option.map_eq_some_iff.mp plans
    rw [found', Option.map_some, Option.some.injEq] at ticks
    obtain ⟨position, _⟩ := Prod.mk.inj eq
    obtain ⟨state, place⟩ := Prod.mk.inj position
    rw [found', Option.map_some, Option.map_some, Thread.post, Thread.post, state, place, ticks]

theorem post?_readied (found : k.threads.get? t = some thread) (p : Priority) :
    (k.readied t p).post? = Function.update k.post? t (some ⟨.ready, .ready, thread.wakeTick⟩) :=
  post?_modify (fun old => { old with state := .ready, place := .ready }) found rfl

/-! ## Every move is a shift -/

/-- A unit is returned: the first waiter becomes ready, if there is one. -/
theorem shift_of_run_wake (placed : k.Placed) (posts : k.post? = m.kernel.post?)
    (h : s.wake.run k = .ok ((), k')) : Shift d m ⟨k', none⟩ := by
  obtain ⟨semaphore, found, ⟨_, rfl⟩ | ⟨t, rest, first, woken⟩⟩ := SemaphoreId.of_run_wake h
  · exact .stay posts
  · obtain ⟨roused, foundRoused, _, _, _, rfl⟩ := of_run_unblock woken
    have listed : t ∈ k.queueAt (.semaphore s) := by
      rw [queueAt_semaphore found]
      exact (Ranked.perm_of_sort_eq_cons first).mem_iff.mpr (.head _)
    obtain ⟨thread, foundWaiter, waits⟩ :=
      (placed.mem_queueAt (p := .semaphore s) nofun t).mp listed
    have record := Arena.get?_modify_self (fun old : Thread => { old with place := .detached })
      foundWaiter
    cases record.symm.trans foundRoused
    have detached : (s.roused t rest k).post? = Function.update k.post? t
        (some ⟨thread.state, .detached, thread.wakeTick⟩) :=
      post?_modify (fun old => { old with place := .detached }) foundWaiter rfl
    refine .turn (x := thread.post) (posts ▸ post?_of_get? foundWaiter) (.wake waits) ?_
    exact (post?_readied foundRoused _).trans (by rw [detached, Function.update_idem, posts]; rfl)

theorem shift_of_run_attempt {work : Pending} {success : Bool} (running : k.Running)
    (posts : k.post? = m.kernel.post?) (current : k.current = m.kernel.current)
    (h : (s.attempt work).run k = .ok (success, k')) :
    success = true ∧ k'.post? = m.kernel.post? ∨ success = false ∧ Shift d m ⟨k', none⟩ := by
  obtain ⟨thread, foundCurrent, runs⟩ := running
  obtain ⟨_, _, ⟨rfl, _, rfl⟩ | ⟨rfl, _, waiters, _, rfl⟩⟩ := SemaphoreId.of_run_attempt h
  · exact .inl ⟨rfl, posts⟩
  · have queued : (s.queued work waiters k).post? = Function.update k.post? k.current
        (some ⟨.blocked, .semaphore s, thread.wakeTick⟩) :=
      post?_modify (fun old => { old with
        state := .blocked, place := .semaphore s, pending := some work }) foundCurrent rfl
    refine .inr ⟨rfl, .turn (x := thread.post) (posts ▸ post?_of_get? foundCurrent)
      (.queue (s := s) current runs) ?_⟩
    exact queued.trans (by rw [posts]; rfl)

theorem shift_of_run_attemptLock {success : Bool} (sound : Sound d ⟨k, due⟩) (runs : k.Runs)
    (h : l.attempt.run k = .ok (success, k')) : Shift d ⟨k, due⟩ ⟨k', none⟩ := by
  obtain ⟨lock, asking, tried, _, asks, tries, ended⟩ := LockId.of_run_attempt h
  have same := asks.retouched
  have running := (same.runs runs).running
  obtain ⟨rfl, posts⟩ | ⟨rfl, shift⟩ :=
    shift_of_run_attempt (m := ⟨k, due⟩) running same.post? same.current tries
  · obtain ⟨_, holds⟩ | ⟨no, _⟩ := ended
    · obtain ⟨_, _, _, rfl⟩ := SemaphoreId.of_run_attempt_true tries
      have held := LockId.retouched_of_run_hold_taken (sound.asks asks).placed running holds
      exact .stay (held.post?.trans posts)
    · cases no
  · obtain ⟨no, _⟩ | ⟨_, rfl⟩ := ended
    · cases no
    · exact shift

theorem shift_enrolled (blocked : thread.state = .blocked) (detached : thread.place = .detached) :
    Shift d ⟨k, none⟩ ⟨{ k with threads := k.threads.push thread }, none⟩ := by
  have new : k.post? k.threads.next = none := by
    rw [post?, Arena.get?_next, Option.map_none]
  have pushed := view_push k.threads thread Thread.post
  rw [Thread.post, blocked, detached] at pushed
  exact .enroll new pushed rfl

theorem shift_halted {state : RunState} (running : k.Running)
    (whole : k.Runs ∨ k.idle = some k.current)
    (halts : state = .blocked ∨ state = .dying ∧ k.idle ≠ some k.current ∧
      (d.careful = true → ∀ l, k.holder? l ≠ some k.current)) :
    Shift d ⟨k, none⟩ ⟨k.mapThread k.current fun old => { old with state }, none⟩ := by
  obtain ⟨thread, found, runs⟩ := running
  have free : (⟨k, none⟩ : Machine).work? k.current = none ∨ k.idle = some k.current :=
    whole.imp_left fun still => still.work? none
  exact .turn (post?_of_get? found) (.halt rfl runs free halts)
    (post?_modify (fun old => { old with state }) found rfl)

theorem post?_dozed {tick : Nat} {events : List Event} (found : k.threads.get? k.current = some thread) :
    (((k.mapThread k.current fun old =>
      { old with wakeTick := tick, place := .sleep, state := .blocked }).withSleepers
        (k.sleepers.push k.current tick)).withEvents events).post? =
      Function.update k.post? k.current (some ⟨.blocked, .sleep, tick⟩) :=
  post?_modify (fun old => { old with wakeTick := tick, place := .sleep, state := .blocked }) found rfl

/-- A thread is taken off the sleep queue, and then made ready. -/
theorem shift_risen {sleepers : SleepQueue} {events : List Event} (placed : k.Placed)
    (found : k.threads.get? t = some thread)
    (perm : k.sleepers.sleepers.Perm (t :: sleepers.sleepers))
    (due : thread.wakeTick ≤ k.clock.ticks) :
    Shift d ⟨k, none⟩ ⟨(((k.mapThread t fun old => { old with place := .detached }).withSleepers
      sleepers).withEvents events).readied t thread.priority, none⟩ := by
  have record := Arena.get?_modify_self (fun old : Thread => { old with place := .detached }) found
  have detached : (((k.mapThread t fun old => { old with place := .detached }).withSleepers
      sleepers).withEvents events).post? = Function.update k.post? t
        (some ⟨thread.state, .detached, thread.wakeTick⟩) :=
    post?_modify (fun old => { old with place := .detached }) found rfl
  refine .turn (x := thread.post) (post?_of_get? found)
    (.rise (placed.asleep_of_perm found perm) due) ?_
  exact (post?_readied record _).trans (by rw [detached, Function.update_idem]; rfl)

theorem post?_reclaimed {threads : ThreadTable} {events : List Event}
    (gone : ∀ t, threads.get? t = if t ∈ k.dying then none else k.threads.get? t) (t : ThreadId) :
    Kernel.post? { k with dying := [], threads, events } t =
      if t ∈ k.dying then none else k.post? t := by
  rw [post?, gone]
  split <;> rfl

theorem shift_of_run_reclaim (placed : k.Placed) (h : reclaim.run k = .ok ((), k')) :
    Shift d ⟨k, none⟩ ⟨k', none⟩ := by
  obtain ⟨threads, events, _, _, gone, rfl⟩ := of_run_reclaim (id h)
  refine .reclaim (fun t x found => ?_) (fun t none => ?_) h
  · rw [post?_reclaimed gone]
    split
    · next left =>
      obtain ⟨thread, found', dying⟩ := placed.exited t left
      cases (post?_of_get? found').symm.trans found
      exact .inr ⟨rfl, dying⟩
    · exact .inl found
  · rw [post?_reclaimed gone, none, ite_self]

theorem post?_dispatched {next : ThreadId} {place : Place} {ready : ReadyQueue}
    {processor : Processor} {dying : List ThreadId} {events : List Event}
    (found : k.threads.get? next = some thread) :
    (k.dispatched next place ready processor dying events).post? =
      Function.update k.post? next (some { thread.post with state := .running, place }) :=
  post?_modify (fun old => { old with state := .running, place, pending := none }) found rfl

theorem Move.shift (move : Move d act m m') (sound : Sound d m) : Shift d m m' := by
  have placed := sound.placed
  cases move with
  | quiet same => exact .stay (post?_congr same.threads)
  | tick | appoint | create | createLock => exact .stay rfl
  | enroll blocked detached _ _ _ _ => exact shift_enrolled blocked detached
  | unblock spared ran =>
    obtain ⟨thread, found, blocked, detached, _, rfl⟩ := of_run_unblock ran
    exact .turn (post?_of_get? found) (.unblock blocked detached) (post?_readied found _)
  | ready found running other =>
    exact .turn (post?_of_get? found) (.yield rfl running) (post?_readied found _)
  | halt running whole halts => exact shift_halted running whole halts
  | doze runs other told ahead =>
    obtain ⟨thread, found, running, _⟩ := id runs
    exact .turn (post?_of_get? found) (.doze rfl running (runs.work? none)) (post?_dozed found)
  | rise sleepers found perm due told => exact shift_risen placed found perm due
  | reclaim ran => exact shift_of_run_reclaim placed ran
  | pick foundPrevious halted found picks fallback departs handed swept =>
    obtain rfl := picks.detached fallback
    exact .turn (post?_of_get? found)
      (.pick (placed.awake_of_picks found picks fallback) (placed.alive_of_picks found picks))
      (post?_dispatched found)
  | destroy plain unnamed ran | destroyLock found unheld unnamed ran =>
    obtain ⟨_, _, _, rfl⟩ := SemaphoreId.of_run_destroy ran
    exact .stay rfl
  | take runs plain ran =>
    obtain ⟨_, _, _, rfl⟩ := SemaphoreId.of_run_take_true ran
    exact .stay rfl
  | attempt runs plain onset ran =>
    exact (shift_of_run_attempt runs.running rfl rfl ran).elim (fun h => .stay h.2) And.right
  | attemptLock runs onset ran => exact shift_of_run_attemptLock sound runs ran
  | seize runs found takes ran =>
    obtain ⟨_, _, _, rfl⟩ := SemaphoreId.of_run_take_true takes
    exact .stay (LockId.retouched_of_run_hold_taken placed runs.running ran).post?
  | release running found holds drops ran =>
    exact shift_of_run_wake (sound.free running drops _).placed
      (LockId.retouched_of_run_dropDonors placed running drops _).post? ran
  | wake plain ran => exact shift_of_run_wake placed rfl ran
  | rebase running ran => exact .stay (retouched_of_run_rebase placed running ran).post?
  | enlist | undertake => exact .stay (post?_of_agree (Arena.agree_modify fun _ => rfl))
  | signal found first ran => exact shift_of_run_wake (sound.callFirst found first _).placed rfl ran
  | signalled runs takes ran =>
    obtain ⟨_, _, _, rfl⟩ := SemaphoreId.of_run_attempt_true takes
    obtain ⟨_, _, _, rfl⟩ := SemaphoreId.of_run_destroy ran
    exact .stay rfl
  | unsignalled runs ran =>
    rename_i k k' s l
    exact (shift_of_run_attempt (m := ⟨k, some (.signal s l)⟩) runs.running rfl rfl ran).elim
      (fun h => .stay h.2) And.right

/-- Who sleeps stays where it is, unless its tick has come. -/
theorem Move.sleeper {x : Post} (move : Move d act m m') (sound : Sound d m)
    (found : m.kernel.post? t = some x) (asleep : x.place = .sleep) :
    x.wakeTick ≤ m.kernel.clock.ticks ∨ m'.kernel.post? t = some x := by
  obtain ⟨thread, foundThread, rfl⟩ := Option.map_eq_some_iff.mp found
  have there : thread.place = .sleep := asleep
  have blocked : thread.state = .blocked :=
    sound.placed.blocked foundThread (by simp [there]) (by simp [there])
  have unrun : thread.post.state ≠ .running := by simp [Thread.post, blocked]
  cases move.shift sound with
  | stay posts => exact .inr (posts ▸ found)
  | enroll new posts _ =>
    rw [posts, Function.update_of_ne]
    · exact .inr found
    · rintro rfl
      cases new.symm.trans found
  | reclaim posts _ _ =>
    obtain kept | ⟨_, dying⟩ := posts t _ found
    · exact .inr kept
    · cases dying.symm.trans blocked
  | turn foundTurn turn posts =>
    rename_i t' x' y
    by_cases here : t = t'
    · subst here
      cases found.symm.trans foundTurn
      cases turn with
      | unblock _ detached => cases asleep.symm.trans detached
      | wake waits => cases asleep.symm.trans waits
      | rise _ due => exact .inl due
      | yield _ running | halt _ running | doze _ running | queue _ running =>
        exact absurd running unrun
      | pick awake => obtain there | there := awake <;> cases asleep.symm.trans there
    · rw [posts, Function.update_of_ne here]
      exact .inr found

/-! ## The clock and the accounts -/

/-- What a move comes to for the clock and the accounts: nothing, unless it is a tick, the
dispatcher makes a thread run, whose slice begins, or the idle thread is appointed. -/
inductive Beat (k k' : Kernel) : Option Act → Prop
  | still {act : Option Act} (same : k'.gauges = k.gauges) : Beat k k' act
  | tick {usage : Usage} (charged : usage = k.usage.chargeIdle ∨ usage = k.usage.chargeUser ∨
      usage = k.usage.chargeKernel) (same : k'.gauges = (k.ticked usage).gauges) :
      Beat k k' (some .tick)
  | begin {act : Option Act} (halted : ¬k.Running) (runs : k'.Running)
      (same : k'.gauges = (k.config, k.clock, k.usage, 0, k.idle)) : Beat k k' act
  | appoint {t : ThreadId} (free : k'.pending? t = none) (other : t ≠ k'.current)
      (same : k'.gauges = (k.config, k.clock, k.usage, k.slice, some t)) : Beat k k' none

theorem gauges_of_run_wake (h : s.wake.run k = .ok ((), k')) : k'.gauges = k.gauges := by
  obtain ⟨_, _, ⟨_, rfl⟩ | ⟨t, rest, _, woken⟩⟩ := SemaphoreId.of_run_wake h
  · rfl
  · obtain ⟨_, _, _, _, _, rfl⟩ := of_run_unblock woken
    rfl

theorem gauges_of_run_attempt {work : Pending} {success : Bool}
    (h : (s.attempt work).run k = .ok (success, k')) : k'.gauges = k.gauges := by
  obtain ⟨_, _, ⟨_, _, rfl⟩ | ⟨_, _, _, _, rfl⟩⟩ := SemaphoreId.of_run_attempt h
  · rfl
  · rfl

theorem Move.beat (move : Move d act m m') (sound : Sound d m) :
    Beat m.kernel m'.kernel act := by
  have placed := sound.placed
  cases move with
  | quiet same =>
    refine .still ?_
    rw [gauges, same.config, same.clock, same.usage, same.slice, same.idle, gauges]
  | tick charged => exact .tick charged rfl
  | pick foundPrevious halted found picks fallback departs handed swept =>
    refine .begin ?_ ⟨_, Arena.get?_modify_self _ found, rfl⟩ rfl
    rintro ⟨current, foundCurrent, running⟩
    cases foundPrevious.symm.trans foundCurrent
    exact halted running
  | appoint found blocked detached pending other =>
    exact .appoint ((pending?_of_get? found).trans pending) other rfl
  | enroll | ready | halt | doze | rise | create | createLock | enlist | undertake =>
    exact .still rfl
  | unblock spared ran =>
    obtain ⟨_, _, _, _, _, rfl⟩ := of_run_unblock ran
    exact .still rfl
  | reclaim ran =>
    obtain ⟨_, _, _, _, _, rfl⟩ := of_run_reclaim ran
    exact .still rfl
  | destroy plain unnamed ran | destroyLock found unheld unnamed ran =>
    obtain ⟨_, _, _, rfl⟩ := SemaphoreId.of_run_destroy ran
    exact .still rfl
  | take runs plain ran =>
    obtain ⟨_, _, _, rfl⟩ := SemaphoreId.of_run_take_true ran
    exact .still rfl
  | attempt runs plain onset ran => exact .still (gauges_of_run_attempt ran)
  | attemptLock runs onset ran =>
    rename_i k k' due l success
    exact .still (sound.attemptLock_induction runs ran (motive := fun last => last.gauges = k.gauges)
      (fun same before => same.gauges.trans before)
      (fun tries before => (gauges_of_run_attempt tries).trans before) rfl)
  | seize runs found takes ran =>
    obtain ⟨_, _, _, rfl⟩ := SemaphoreId.of_run_take_true takes
    exact .still (LockId.retouched_of_run_hold_taken placed runs.running ran).gauges
  | release running found holds drops ran =>
    exact .still ((gauges_of_run_wake ran).trans
      (LockId.retouched_of_run_dropDonors placed running drops _).gauges)
  | wake plain ran => exact .still (gauges_of_run_wake ran)
  | rebase running ran => exact .still (retouched_of_run_rebase placed running ran).gauges
  | signal found first ran =>
    rename_i k k' c condition waiter rest
    exact .still (gauges_of_run_wake (k := c.called waiter.thread rest k) ran)
  | signalled runs takes ran =>
    obtain ⟨_, _, _, rfl⟩ := SemaphoreId.of_run_attempt_true takes
    obtain ⟨_, _, _, rfl⟩ := SemaphoreId.of_run_destroy ran
    exact .still rfl
  | unsignalled runs ran => exact .still (gauges_of_run_attempt ran)

/-! ## The census -/

/-- Who sleeps, who is to be reclaimed, who is to be created next, and who is the current thread. -/
def Kernel.census (k : Kernel) : SleepQueue × List ThreadId × ThreadId × ThreadId :=
  (k.sleepers, k.dying, k.threads.next, k.current)

/-- What a move comes to for the census. -/
inductive Change (k k' : Kernel) : Prop
  | still (same : k'.census = k.census)
  | rescan (posts : k'.post? = k.post?)
      (sleepers : k.sleepers.Rescanned k.clock.ticks k.wakeTickOf k'.sleepers)
      (same : k'.census = (k'.sleepers, k.dying, k.threads.next, k.current))
  | enroll (same : k'.census = (k.sleepers, k.dying, ⟨k.threads.next.index + 1⟩, k.current))
  | doze {tick : Nat} (ahead : k.clock.ticks < tick)
      (posts : k'.post? = Function.update k.post? k.current (some ⟨.blocked, .sleep, tick⟩))
      (same : k'.census = (k.sleepers.push k.current tick, k.dying, k.threads.next, k.current))
  | rise {t : ThreadId} {x : Post} (found : k.post? t = some x) (asleep : x.place = .sleep)
      (due : x.wakeTick ≤ k.clock.ticks)
      (same : k'.census = (k'.sleepers, k.dying, k.threads.next, k.current))
  | reclaim (gone : ∀ t, k'.post? t = if t ∈ k.dying then none else k.post? t)
      (same : k'.census = (k.sleepers, [], k.threads.next, k.current))
  | pick {previous thread : Thread} {next : ThreadId} {dying : List ThreadId}
      (found : k.threads.get? k.current = some previous) (halted : previous.state ≠ .running)
      (departs : Departs k.dying k.current next previous dying) (swept : k.Swept)
      (alive : thread.state ≠ .dying) (foundNext : k.threads.get? next = some thread)
      (posts : k'.post? = Function.update k.post? next
        (some { thread.post with state := .running, place := .detached }))
      (same : k'.census = (k.sleepers, dying, k.threads.next, next))

theorem census_mapThread (k : Kernel) (t : ThreadId) (f : Thread → Thread) :
    (k.mapThread t f).census = k.census := by
  rw [Kernel.census, mapThread_threads, Arena.next_modify]
  rfl

theorem census_of_modify {f : Thread → Thread} (threads : k'.threads = k.threads.modify t f)
    (rest : (k'.sleepers, k'.dying, k'.current) = (k.sleepers, k.dying, k.current)) :
    k'.census = k.census := by
  simp only [Prod.mk.injEq] at rest
  rw [Kernel.census, threads, Arena.next_modify, rest.1, rest.2.1, rest.2.2, Kernel.census]

theorem census_of_run_unblock {u : Unit} (h : (unblock t).run k = .ok (u, k')) :
    k'.census = k.census := by
  obtain ⟨_, _, _, _, _, rfl⟩ := of_run_unblock h
  exact census_of_modify rfl rfl

theorem census_of_run_wake (h : s.wake.run k = .ok ((), k')) : k'.census = k.census := by
  obtain ⟨_, _, ⟨_, rfl⟩ | ⟨t, rest, _, woken⟩⟩ := SemaphoreId.of_run_wake h
  · rfl
  · exact (census_of_run_unblock woken).trans (census_of_modify rfl rfl)

theorem census_of_run_attempt {work : Pending} {success : Bool}
    (h : (s.attempt work).run k = .ok (success, k')) : k'.census = k.census := by
  obtain ⟨_, _, ⟨_, _, rfl⟩ | ⟨_, _, _, _, rfl⟩⟩ := SemaphoreId.of_run_attempt h
  · rfl
  · exact census_of_modify rfl rfl

theorem census_of_asks {lock : Lock} (asks : l.Asks lock k k') : k'.census = k.census := by
  cases asks with
  | free _ => rfl
  | held holds found joins donated =>
    rename_i holder thread donors
    have repriced := repriced_of_donate donated
    have same : k'.census = (l.asked holder donors k).census := by
      rw [Kernel.census, repriced.next, repriced.rest]
      rfl
    rw [same, LockId.asked, census_mapThread, census_mapThread]

theorem census_of_run_hold (placed : k.Placed) (running : k.Running)
    (h : l.hold.run (s.taken k) = .ok ((), k')) : k'.census = k.census := by
  obtain ⟨thread, found, runs⟩ := running
  obtain ⟨_, _, _, _, _, _, _, _, _, rfl⟩ :=
    LockId.of_run_hold (k := s.taken k) found (placed.unqueued_of_running found runs) h
  exact census_of_modify rfl rfl

theorem census_of_run_attemptLock {success : Bool} (sound : Sound d ⟨k, due⟩) (runs : k.Runs)
    (h : l.attempt.run k = .ok (success, k')) : k'.census = k.census := by
  obtain ⟨lock, asking, tried, _, asks, tries, ended⟩ := LockId.of_run_attempt h
  have asked := census_of_asks asks
  obtain ⟨rfl, holds⟩ | ⟨_, rfl⟩ := ended
  · obtain ⟨_, _, _, rfl⟩ := SemaphoreId.of_run_attempt_true tries
    exact (census_of_run_hold (sound.asks asks).placed (asks.retouched.runs runs).running
      holds).trans asked
  · exact (census_of_run_attempt tries).trans asked

theorem census_of_run_dropDonors {dropped : Kernel} (placed : k.Placed) (running : k.Running)
    (drops : l.dropDonors.run k = .ok ((), dropped)) (events : List Event) :
    ((dropped.mapLock l fun old => { old with holder := none }).withEvents events).census =
      k.census := by
  obtain ⟨thread, found, runs⟩ := running
  obtain ⟨_, _, _, _, _, _, rfl⟩ :=
    LockId.of_run_dropDonors found (placed.unqueued_of_running found runs) drops
  exact census_of_modify rfl rfl

theorem census_of_run_rebase {base : Priority} (placed : k.Placed) (running : k.Running)
    (h : (refresh k.current).run (k.mapThread k.current fun old => { old with base }) =
      .ok ((), k')) : k'.census = k.census := by
  obtain ⟨thread, found, runs⟩ := running
  obtain ⟨_, _, _, _, rfl⟩ := of_run_rebase found (placed.unqueued_of_running found runs) h
  exact census_of_modify rfl rfl

theorem Move.change (move : Move d act m m') (sound : Sound d m) : Change m.kernel m'.kernel := by
  have placed := sound.placed
  cases move with
  | quiet same =>
    refine .rescan (post?_congr same.threads) same.sleepers ?_
    rw [Kernel.census, same.dying, same.threads, same.current]
  | tick | appoint | create | createLock => exact .still rfl
  | enroll =>
    refine .enroll ?_
    rw [Kernel.census, Arena.next_push]
  | unblock spared ran => exact .still (census_of_run_unblock ran)
  | ready | halt | enlist | undertake => exact .still (census_of_modify rfl rfl)
  | doze runs other told ahead =>
    obtain ⟨thread, found, _, _⟩ := runs
    refine .doze ahead (post?_dozed found) ?_
    rw [Kernel.census, withEvents_threads, withSleepers_threads, mapThread_threads, Arena.next_modify]
    rfl
  | rise sleepers found perm due told =>
    refine .rise (post?_of_get? found) (placed.asleep_of_perm found perm) due ?_
    rw [Kernel.census, readied_threads, Arena.next_modify, withEvents_threads, withSleepers_threads,
      mapThread_threads, Arena.next_modify]
    rfl
  | reclaim ran =>
    obtain ⟨threads, events, _, next, gone, rfl⟩ := of_run_reclaim ran
    refine .reclaim (post?_reclaimed gone) ?_
    rw [Kernel.census, next]
  | pick found halted foundNext picks fallback departs handed swept =>
    obtain rfl := picks.detached fallback
    refine .pick found halted departs swept (placed.alive_of_picks foundNext picks) foundNext
      (post?_dispatched foundNext) ?_
    rw [Kernel.census, dispatched_threads, Arena.next_modify]
    rfl
  | destroy plain unnamed ran | destroyLock found unheld unnamed ran =>
    obtain ⟨_, _, _, rfl⟩ := SemaphoreId.of_run_destroy ran
    exact .still rfl
  | take runs plain ran =>
    obtain ⟨_, _, _, rfl⟩ := SemaphoreId.of_run_take_true ran
    exact .still rfl
  | attempt runs plain onset ran => exact .still (census_of_run_attempt ran)
  | attemptLock runs onset ran => exact .still (census_of_run_attemptLock sound runs ran)
  | seize runs found takes ran =>
    obtain ⟨_, _, _, rfl⟩ := SemaphoreId.of_run_take_true takes
    exact .still (census_of_run_hold placed runs.running ran)
  | release running found holds drops ran =>
    exact .still ((census_of_run_wake ran).trans (census_of_run_dropDonors placed running drops _))
  | wake plain ran => exact .still (census_of_run_wake ran)
  | rebase running ran => exact .still (census_of_run_rebase placed running ran)
  | signal found first ran =>
    rename_i k k' c condition waiter rest
    exact .still (census_of_run_wake (k := c.called waiter.thread rest k) ran)
  | signalled runs takes ran =>
    obtain ⟨_, _, _, rfl⟩ := SemaphoreId.of_run_attempt_true takes
    obtain ⟨_, _, _, rfl⟩ := SemaphoreId.of_run_destroy ran
    exact .still rfl
  | unsignalled runs ran => exact .still (census_of_run_attempt ran)

end ThreadKernel
