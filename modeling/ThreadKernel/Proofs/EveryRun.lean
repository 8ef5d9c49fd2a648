import Mathlib.Logic.Relation
import ThreadKernel.Proofs.Operations

/-!
# What holds of every run

Every operation is done in moves, so what the moves keep holds in every reachable
kernel: `Reachable.steady`, and `Reachable.calm` in runs where priorities decide
who has the processor.  The rest of the module says what that means to a caller.

* `effective_priority_law`: what a thread's effective priority is.
* `placement`: which list each thread is in.
* `no_lost_wakeup`: units of an awaited semaphore are spoken for.
* `no_ready_thread_outranks`: the thread that runs is one that should.
-/

namespace ThreadKernel

open Kernel

variable {d : Discipline} {k k' : Kernel}

/-! ## The fresh kernel -/

section Fresh

variable (config : Config) (rule : Reposition)

theorem pending?_fresh (t : ThreadId) : (fresh config rule).pending? t = none := by
  cases found : (fresh config rule).threads.get? t with
  | none => rw [pending?, found, Option.bind_none]
  | some thread =>
    obtain ⟨_, rfl⟩ := get?_fresh found
    rw [pending?_of_get? found]

theorem sound_fresh : Sound d ⟨fresh config rule, none⟩ where
  placed := placed_fresh config rule
  attended := by
    constructor <;> intro s semaphore found <;> cases (Arena.get?_empty 0 s).symm.trans found
  plain _ := by
    refine ⟨fun t p left => ?_, nofun, fun c waiter queued => ?_⟩
    · cases (pending?_fresh config rule t).symm.trans left
    · rw [enlisted, fresh, Arena.get?_empty] at queued
      cases queued
  idle _ := nofun

theorem tidy_fresh : (fresh config rule).Tidy := by
  refine ⟨fun l lock found => ?_, fun t thread found dying => ?_⟩
  · cases (Arena.get?_empty 0 l).symm.trans found
  · obtain ⟨_, rfl⟩ := get?_fresh found
    cases dying

theorem waitGraph_fresh : WaitGraph ⟨fresh config rule, none⟩ := by
  have unlocked : ∀ l, (fresh config rule).locks.get? l = none := Arena.get?_empty 0
  have unawaited : ∀ t l, ¬ (fresh config rule).AwaitsLock t l := by
    rintro t l ⟨_, _, _, found, _⟩
    cases (unlocked l).symm.trans found
  constructor
  case unit =>
    intro l lock found
    cases (unlocked l).symm.trans found
  case distinct =>
    intro l _ lock _ found
    cases (unlocked l).symm.trans found
  case issued =>
    intro l h holds
    obtain ⟨lock, found, _⟩ := Option.bind_eq_some_iff.mp holds
    cases (unlocked l).symm.trans found
  case queued => exact fun t l thread awaits => absurd awaits (unawaited t l)
  case waiting =>
    intro t thread l found waits
    obtain ⟨_, rfl⟩ := get?_fresh found
    cases waits
  case donors =>
    intro h thread found d
    obtain ⟨_, rfl⟩ := get?_fresh found
    exact ⟨nofun, fun ⟨l, awaits, _⟩ => absurd awaits (unawaited d l)⟩

theorem fair_fresh : (fresh config rule).Fair := by
  constructor
  case base_le =>
    intro t thread found
    obtain ⟨_, rfl⟩ := get?_fresh found
    exact Nat.le_refl _
  case le_fair =>
    intro t thread found
    obtain ⟨_, rfl⟩ := get?_fresh found
    exact Nat.le_refl _
  case fair_le =>
    intro _ t thread found
    obtain ⟨_, rfl⟩ := get?_fresh found
    exact Nat.le_refl _

theorem steady_fresh : Steady d (fresh config rule) where
  regular := {
    toSound := sound_fresh config rule
    tidy := tidy_fresh config rule
    graph _ := waitGraph_fresh config rule
    fair _ := fair_fresh config rule }
  runs := ⟨{ name := "main", base := Priority.default, state := .running }, rfl, rfl, rfl⟩

theorem calm_fresh : (fresh config rule).Calm := calm_of_not_outranked rfl

end Fresh

/-! ## Every reachable kernel -/

/-- What is done on occasion: nothing of anybody's own accord unless on request. -/
inductive Occurrence.Does : Occurrence → Act → Prop
  | request {r : Request} {act : Act} (does : r.Does act) : Does (.request r) act

/-- The deeds are those that the occasion is for, and the current thread's own. -/
def Occurrence.Accounts (o : Occurrence) (k : Kernel) (deeds : List Deed) : Prop :=
  ∀ deed ∈ deeds, o.Does deed.act ∧ (deed.thread = k.current ∨ deed.act = .tick)

/-- Whatever happens in a run is done in moves. -/
theorem steps_of_occur {o : Occurrence} (steady : Steady d k) (h : d.occur k o = some k') :
    ∃ deeds, Steps d deeds k.Calm k k' ∧ o.Accounts k deeds := by
  cases Discipline.occur_eq_some_iff.mp h with
  | request obeys ran =>
    obtain ⟨deeds, steps, accounts⟩ := steps_of_run_perform steady obeys ran
    exact ⟨deeds, steps, fun deed member => (accounts deed member).imp_left .request⟩
  | enter ran => exact ⟨_, steps_of_run_enterInterrupt steady ran, List.forall_mem_nil _⟩
  | leave _ ran => exact ⟨_, steps_of_run_leaveInterrupt steady ran, List.forall_mem_nil _⟩

theorem Transit.occurs (transit : Transit d k k') : ∃ o, d.occur k o = some k' := by
  cases transit with
  | request obeys ran => exact ⟨_, Discipline.occur_eq_some_iff.mpr (.request obeys ran)⟩
  | enter ran => exact ⟨_, Discipline.occur_eq_some_iff.mpr (.enter ran)⟩
  | leave inside ran => exact ⟨_, Discipline.occur_eq_some_iff.mpr (.leave inside ran)⟩

theorem Transit.steps (transit : Transit d k k') (steady : Steady d k) :
    ∃ deeds, Steps d deeds k.Calm k k' := by
  obtain ⟨o, occurs⟩ := transit.occurs
  obtain ⟨deeds, steps, _⟩ := steps_of_occur steady occurs
  exact ⟨deeds, steps⟩

theorem Reachable.steady (reachable : Reachable d k) : Steady d k := by
  induction reachable with
  | fresh config rule => exact steady_fresh config rule
  | step _ transit ih =>
    obtain ⟨_, steps⟩ := transit.steps ih
    exact steps.steady ih

/-- What holds at first, and what every move keeps, holds in between operations. -/
theorem Reachable.invariant {motive : Machine → Prop} (reachable : Reachable d k)
    (fresh : ∀ config rule, motive ⟨.fresh config rule, none⟩)
    (step : ∀ {act m m'}, Regular d m → Move d act m m' → motive m → motive m') :
    motive ⟨k, none⟩ := by
  induction reachable with
  | fresh config rule => exact fresh config rule
  | step before transit ih =>
    obtain ⟨_, steps⟩ := transit.steps before.steady
    exact before.steady.regular.invariant steps.moves ih step

theorem Reachable.trans (reachable : Reachable d k)
    (later : Relation.ReflTransGen (Transit d) k k') : Reachable d k' := by
  induction later with
  | refl => exact reachable
  | tail _ transit before => exact before.step transit

/-- What happens between two moments of a run is made of moves. -/
theorem Reachable.moves (reachable : Reachable d k)
    (later : Relation.ReflTransGen (Transit d) k k') :
    ∃ deeds, Moves d deeds ⟨k, none⟩ ⟨k', none⟩ := by
  induction later with
  | refl => exact ⟨[], .refl _⟩
  | tail before transit ih =>
    rcases ih with ⟨_, moves⟩
    rcases transit.steps (reachable.trans before).steady with ⟨_, steps⟩
    exact ⟨_, moves.trans steps.moves⟩

theorem Reachable.calm (reachable : Reachable d k) (orderly : d.Orderly) : k.Calm := by
  induction reachable with
  | fresh config rule => exact calm_fresh config rule
  | step before transit ih =>
    obtain ⟨_, steps⟩ := transit.steps before.steady
    exact steps.calm orderly ih

/-! ## Effective priorities -/

/-- A thread's effective priority is at least its base and at most the largest of its base
and its donors' effective priorities.  It is the latter if no donation on the way met more
holders than it may walk through, which is what `Lossless` comes to. -/
theorem effective_priority_law (reachable : Reachable d k) (named : d.plainHandles = true) :
    (∀ t thread, k.threads.get? t = some thread →
      thread.base ≤ thread.priority ∧ thread.priority ≤ k.fairPriority thread) ∧
    (k.Lossless → ∀ t thread, k.threads.get? t = some thread →
      thread.priority = k.fairPriority thread) ∧
    ∀ asking walked, donate.run asking = .ok ((), walked) →
      (walked.Lossless ↔ asking.Lossless ∧
        (chainFrom asking.blockingHolder asking.current).encard ≤ asking.config.donationDepth) := by
  have fair := reachable.steady.regular.fair named
  refine ⟨fun t thread found => ⟨fair.base_le t thread found, fair.le_fair t thread found⟩,
    fun lossless t thread found => ?_, fun asking walked donated => lossless_donate_iff donated⟩
  exact Nat.le_antisymm (fair.le_fair t thread found) (fair.fair_le lossless t thread found)

/-- The initial thread holds a lock that another one of priority 40 comes to wait for. -/
theorem effective_priority_law_of_loan : ∃ k, Reachable { plainHandles := true } k ∧
    k.priorityOf .main = 40 ∧ k.Lossless ∧ ∀ t thread, k.threads.get? t = some thread →
      thread.base ≤ thread.priority ∧ thread.priority = k.fairPriority thread := by
  have ran : (Discipline.performAll { plainHandles := true }
      [.start, .createLock, .acquire ⟨0⟩, .spawn { priority := 40 }, .acquire ⟨0⟩]
      (.fresh {} .stable)).map (fun k => (k.priorityOf .main, decide k.Lossless)) =
        some (40, true) := by decide +kernel
  obtain ⟨k, performed, told⟩ := Option.map_eq_some_iff.mp ran
  obtain ⟨raised, lossless⟩ := Prod.mk.inj told
  have reachable := (Reachable.fresh {} .stable).performAll performed
  obtain ⟨bounds, exact, _⟩ := effective_priority_law reachable rfl
  have lossless := of_decide_eq_true lossless
  exact ⟨k, reachable, raised, lossless, fun t thread found =>
    ⟨(bounds t thread found).1, exact lossless t thread found⟩⟩

/-! ## Where threads are -/

/-- Each thread is in the list that its record says it is in, once, and in no other. -/
structure Kernel.Placement (k : Kernel) : Prop where
  /-- The current thread runs, and nobody else does. -/
  running : ∃ thread, k.threads.get? k.current = some thread ∧ thread.state = .running ∧
    thread.place = .detached
  alone : ∀ t thread, k.threads.get? t = some thread → thread.state = .running → t = k.current
  ready : ∀ t, t ∈ k.queueAt .ready ↔ ∃ thread, k.threads.get? t = some thread ∧
    thread.state = .ready ∧ thread.place = .ready
  /-- A thread that is ready is said to be queued, and one said to be queued is ready. -/
  ready_iff : ∀ t thread, k.threads.get? t = some thread →
    (thread.state = .ready ↔ thread.place = .ready)
  sleep : ∀ t, t ∈ k.queueAt .sleep ↔ ∃ thread, k.threads.get? t = some thread ∧
    thread.state = .blocked ∧ thread.place = .sleep
  semaphore : ∀ s t, t ∈ k.queueAt (.semaphore s) ↔ ∃ thread, k.threads.get? t = some thread ∧
    thread.state = .blocked ∧ thread.place = .semaphore s
  once : ∀ p, (k.queueAt p).Nodup
  priced : ∀ entry ∈ k.ready.entries, entry.2 = k.priorityOf entry.1
  ordered : k.ready.entries.Pairwise fun first second => second.2 ≤ first.2
  /-- The exited and the idle thread are in no list. -/
  unlisted : ∀ t thread, k.threads.get? t = some thread →
    thread.state = .dying ∨ k.idle = some t → ∀ p, t ∉ k.queueAt p

theorem placement (reachable : Reachable d k) (spares : d.sparesIdle) : k.Placement := by
  obtain ⟨regular, runs⟩ := reachable.steady
  have placed : k.Placed := regular.placed
  have blocked : ∀ p t, p ≠ .detached → p ≠ .ready → (t ∈ k.queueAt p ↔
      ∃ thread, k.threads.get? t = some thread ∧ thread.state = .blocked ∧ thread.place = p) := by
    intro p t somewhere waits
    rw [placed.mem_queueAt somewhere]
    constructor
    · rintro ⟨thread, found, there⟩
      exact ⟨thread, found, placed.blocked found (there ▸ somewhere) (there ▸ waits), there⟩
    · exact fun ⟨thread, found, _, there⟩ => ⟨thread, found, there⟩
  constructor
  case running =>
    obtain ⟨thread, found, running, _⟩ := runs
    exact ⟨thread, found, running, placed.detached_of_running found running⟩
  case alone => exact fun t thread found running => placed.running found running
  case ready =>
    intro t
    rw [placed.mem_queueAt (p := .ready) nofun]
    constructor
    · exact fun ⟨thread, found, there⟩ => ⟨thread, found, (placed.ready_iff found).mp there, there⟩
    · exact fun ⟨thread, found, _, there⟩ => ⟨thread, found, there⟩
  case ready_iff => exact fun t thread found => (placed.ready_iff found).symm
  case sleep => exact fun t => blocked .sleep t nofun nofun
  case semaphore => exact fun s t => blocked (.semaphore s) t nofun nofun
  case once => exact placed.nodup
  case priced => exact fun entry queued => (placed.priced entry queued).symm
  case ordered => exact placed.ordered
  case unlisted =>
    rintro t thread found (dying | idles) p
    · exact placed.not_mem_of_detached found
        (placed.detached_of_state found (by rw [dying]; exact nofun) (by rw [dying]; exact nofun)) p
    · obtain ⟨thread', found', detached, _⟩ := regular.idle spares t idles
      exact placed.not_mem_of_detached found' detached p

/-- One thread waits for a unit, the initial one sleeps, and a third one runs. -/
theorem placement_of_waits : ∃ k, Reachable { idleNeverWaits := true, idleSpared := true } k ∧
    (k.queueAt (.semaphore ⟨0⟩), k.queueAt .sleep, k.current) = ([⟨3⟩], [.main], ⟨4⟩) ∧
    k.Placement := by
  have ran : (Discipline.performAll { idleNeverWaits := true, idleSpared := true }
      [.start, .createSemaphore 0, .spawn { priority := 40 }, .down ⟨0⟩, .spawn { priority := 20 },
        .sleepUntil 10] (.fresh {} .stable)).map
      (fun k => (k.queueAt (.semaphore ⟨0⟩), k.queueAt .sleep, k.current)) =
        some ([⟨3⟩], [.main], ⟨4⟩) := by decide +kernel
  obtain ⟨k, performed, lists⟩ := Option.map_eq_some_iff.mp ran
  have reachable := (Reachable.fresh {} .stable).performAll performed
  exact ⟨k, reachable, lists, placement reachable ⟨rfl, rfl⟩⟩

/-! ## No unit is left lying -/

/-- While threads wait for a semaphore, as many ready threads are about to try it as it has
units.  So a lock that nobody holds is about to be taken if somebody waits for it, and
when nothing is ready an awaited semaphore has no unit. -/
theorem no_lost_wakeup (reachable : Reachable d k) :
    (∀ s semaphore, k.semaphores.get? s = some semaphore → semaphore.waiters ≠ [] →
      semaphore.value ≤ k.retrying s) ∧
    (∀ l lock semaphore, k.locks.get? l = some lock →
      k.semaphores.get? lock.semaphore = some semaphore → semaphore.waiters ≠ [] →
      0 < semaphore.value ∨ d.plainHandles = true ∧ lock.holder = none →
      ∃ t ∈ k.ready.threads, k.aim? t = some lock.semaphore) ∧
    (k.ready.threads = [] → ∀ s semaphore, k.semaphores.get? s = some semaphore →
      semaphore.waiters ≠ [] → semaphore.value = 0) := by
  have regular := reachable.steady.regular
  have bounded : ∀ s semaphore, k.semaphores.get? s = some semaphore → semaphore.waiters ≠ [] →
      semaphore.value ≤ k.retrying s := regular.attended.bounded
  refine ⟨bounded, fun l lock semaphore found foundUnit awaited free => ?_,
    fun empty s semaphore found awaited => ?_⟩
  · have positive : 0 < semaphore.value := by
      obtain positive | ⟨named, unheld⟩ := free
      · exact positive
      · obtain ⟨unit, foundUnit', _, value⟩ := (regular.graph named).unit l lock found
        cases foundUnit.symm.trans foundUnit'
        rw [value, unheld]
        exact Nat.one_pos
    have tries := Nat.lt_of_lt_of_le positive (bounded lock.semaphore semaphore foundUnit awaited)
    obtain ⟨t, queued, aims⟩ := List.countP_pos_iff.mp tries
    exact ⟨t, queued, of_decide_eq_true aims⟩
  · have bound := bounded s semaphore found awaited
    rw [retrying, empty, List.countP_nil] at bound
    exact Nat.le_zero.mp bound

/-- Two threads wait for a unit, and one comes back: the thread of priority 25 is about to
take it. -/
theorem no_lost_wakeup_of_return : ∃ k, Reachable {} k ∧
    (k.semaphores.get? ⟨0⟩).map (fun s => (s.value, s.waiters)) = some (1, [⟨4⟩]) ∧
    1 ≤ k.retrying ⟨0⟩ := by
  have ran : (Discipline.performAll {}
      [.start, .createSemaphore 0, .spawn { priority := 25 }, .spawn { priority := 20 },
        .sleepUntil 1, .down ⟨0⟩, .down ⟨0⟩, .timer 1, .up ⟨0⟩] (.fresh {} .stable)).map
      (fun k => (k.semaphores.get? ⟨0⟩).map (fun s => (s.value, s.waiters))) =
        some (some (1, [⟨4⟩])) := by decide +kernel
  obtain ⟨k, performed, told⟩ := Option.map_eq_some_iff.mp ran
  have reachable := (Reachable.fresh {} .stable).performAll performed
  obtain ⟨semaphore, found, same⟩ := Option.map_eq_some_iff.mp told
  obtain ⟨value, waiters⟩ := Prod.mk.inj same
  have bound := (no_lost_wakeup reachable).1 ⟨0⟩ semaphore found (by rw [waiters]; exact nofun)
  exact ⟨k, reachable, told, value ▸ bound⟩

/-! ## Who has the processor -/

/-- In runs where priorities decide, and outside a handler, no ready thread has a higher
effective priority than the current one, and none is ready while the idle thread runs. -/
theorem no_ready_thread_outranks (reachable : Reachable d k) (orderly : d.Orderly)
    (outside : k.inInterrupt = false) :
    (∀ t thread, k.threads.get? t = some thread → thread.state = .ready →
      thread.priority ≤ k.priorityOf k.current) ∧
    (k.idle = some k.current → ∀ t thread, k.threads.get? t = some thread →
      thread.state ≠ .ready) := by
  have placed : k.Placed := reachable.steady.regular.placed
  have unranked : k.outranked = false := by
    rw [Bool.eq_false_iff]
    intro outranked
    cases outside.symm.trans (reachable.calm orderly outranked).1
  refine ⟨fun t thread found ready => ?_, fun idles t thread found ready => ?_⟩
  · obtain ⟨front, first, below⟩ := placed.exists_front found ready
    by_contra above
    exact absurd (outranked_iff.mpr ⟨front, first, .inr (Nat.lt_of_lt_of_le (Nat.lt_of_not_le above)
      below)⟩) (Bool.eq_false_iff.mp unranked)
  · obtain ⟨front, first, _⟩ := placed.exists_front found ready
    exact absurd (outranked_iff.mpr ⟨front, first, .inl (idles_iff.mpr idles)⟩)
      (Bool.eq_false_iff.mp unranked)

/-- A handler returns a unit that a thread of priority 40 waits for.  Once it has returned
that thread runs, and the interrupted one is ready. -/
theorem no_ready_thread_outranks_of_handler : ∃ k,
    Reachable { plainHandles := true, idleNeverWaits := true, idleSpared := true,
                neverUnblocks := true } k ∧
    (k.current, k.ready.threads) = (⟨3⟩, [.main]) ∧
    ∀ t thread, k.threads.get? t = some thread → thread.state = .ready →
      thread.priority ≤ k.priorityOf k.current := by
  have ran : (Discipline.occurAll
      { plainHandles := true, idleNeverWaits := true, idleSpared := true, neverUnblocks := true }
      [.request .start, .request (.createSemaphore 0), .request (.spawn { priority := 40 }),
        .request (.down ⟨0⟩), .enter, .request (.up ⟨0⟩), .leave] (.fresh {} .stable)).map
      (fun k => (k.inInterrupt, k.current, k.ready.threads)) = some (false, ⟨3⟩, [.main]) := by
    decide +kernel
  obtain ⟨k, occurred, told⟩ := Option.map_eq_some_iff.mp ran
  obtain ⟨outside, told⟩ := Prod.mk.inj told
  have reachable := (Reachable.fresh {} .stable).occurAll occurred
  exact ⟨k, reachable, told, (no_ready_thread_outranks reachable ⟨rfl, ⟨rfl, rfl⟩, rfl⟩ outside).1⟩

end ThreadKernel
