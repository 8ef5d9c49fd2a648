import ThreadKernel.Proofs.Completion
import ThreadKernel.Proofs.ConditionWaits

/-!
# A wait on a condition is never over at once

A thread that waits on a condition queues its wait, gives the lock back and is then in want of a
signal that nobody has sent.  So it cannot get the processor before the operation returns, neither
from the check for preemption when the lock is given back nor from the dispatcher later on.

`Ledger.Resigned` is where the ledger stands from the release on: the wait is queued and the lock is
not the thread's.  `wait_suspends` says what a caller sees of it.
-/

namespace ThreadKernel

open Kernel

variable {d d' : Discipline} {m m' : Machine} {k k' : Kernel} {a b : Ledger} {t : ThreadId}
  {s : SemaphoreId} {l : LockId} {c : ConditionId} {w : Waiter} {act : Option Act}
  {deed : Deed} {deeds : List Deed} {result : Wait}

/-! ## Runs and their parts -/

/-- A run that abides by one discipline abides by any that asks for less. -/
theorem Reachable.mono (weaker : ∀ {r : Request} {k}, r.Obeys d k → r.Obeys d' k)
    (reachable : Reachable d k) : Reachable d' k := by
  induction reachable with
  | fresh config rule => exact .fresh config rule
  | step _ transit ih =>
    apply ih.step
    cases transit with
    | request obeys ran => exact .request (weaker obeys) ran
    | enter ran => exact .enter ran
    | leave inside ran => exact .leave inside ran

/-- An idle thread that never waits never waits for a condition. -/
theorem Request.Obeys.awaitless {r : Request} (obeys : r.Obeys d k) (named : d.plainHandles = true)
    (never : d.idleNeverWaits = true ∨ d.idleNeverAwaits = true) :
    r.Obeys { plainHandles := true, idleNeverAwaits := true } k where
  plain _ := obeys.plain named
  idles := nofun
  spared := nofun
  unblocks := nofun
  awaits _ awaits := by
    rcases never with never | never
    · apply obeys.idles never
      cases r with
      | wait c l => rfl
      | _ => cases awaits
    · exact obeys.awaits never awaits
  careful := nofun

/-- Before the first deed there are moves that are none. -/
theorem Moves.uncons (moves : Moves d (deed :: deeds) m m') :
    ∃ first second, Moves d [] m first ∧ first.kernel.current = deed.thread ∧
      Move d (some deed.act) first second ∧ Moves d deeds second m' := by
  generalize all : deed :: deeds = acted at moves
  induction moves generalizing deeds with
  | refl => cases all
  | @tail earlier act start middle last before move ih =>
    cases earlier with
    | nil =>
      cases act with
      | none => cases all
      | some one =>
        cases all
        exact ⟨_, _, before, rfl, move, .refl _⟩
    | cons first rest =>
      rcases List.cons.inj all with ⟨rfl, rfl⟩
      rcases ih rfl with ⟨first, second, earlier, here, deed, later⟩
      exact ⟨first, second, earlier, here, deed, later.tail move⟩

/-! ## Once the wait is queued -/

namespace Ledger

/-- The wait `w` is queued on `c`, with `l` to be taken again. -/
structure Enrolled (a : Ledger) (c : ConditionId) (l : LockId) (w : Waiter) : Prop where
  listed : w ∈ a.enlisted c
  left : a.work w.thread = some (.signal w.semaphore l)

/-- The wait `w` is queued on `c`, and `l` has been given back for it. -/
structure Resigned (a : Ledger) (c : ConditionId) (l : LockId) (w : Waiter) : Prop
    extends a.Enrolled c l w where
  unheld : ∀ lock, a.locks l = some lock → lock.holder ≠ some w.thread

theorem Enrolled.waiting (enrolled : a.Enrolled c l w) (waits : a.Waits)
    (waiting : a.Waiting b act) (unsent : act ≠ some (.signal c)) : b.Enrolled c l w where
  listed := (waiting.leaves enrolled.listed).resolve_right unsent
  left := by
    have left := enrolled.left
    cases waiting with
    | aside aside => exact (aside.work _ _ _).mpr left
    | begins begins =>
      rw [begins.work, Function.update_of_ne, left]
      intro here
      cases (here ▸ left).symm.trans begins.idle
    | sends sends => rw [sends.work, left]
    | receives receives =>
      rw [receives.work, Function.update_of_ne, left]
      intro here
      cases (here ▸ left).symm.trans receives.due
      -- a signal that has been sent is of a wait that is no longer queued
      rcases receives.found with ⟨value, purpose, found⟩
      cases found.symm.trans (waits.empty_of_mem enrolled.listed).1

/-- Whoever is in want of a signal takes no lock. -/
theorem Enrolled.unheld (enrolled : a.Enrolled c l w) (entry : Entry d act a b)
    (unheld : ∀ lock, a.locks l = some lock → lock.holder ≠ some w.thread) :
    ∀ lock, b.locks l = some lock → lock.holder ≠ some w.thread := by
  have updated : ∀ {l' : LockId} {new : Option Lock},
      (∀ lock, new = some lock → lock.holder ≠ some w.thread) →
      ∀ lock, Function.update a.locks l' new l = some lock → lock.holder ≠ some w.thread := by
    intro l' new other lock found
    rw [Function.update_apply] at found
    split at found
    · exact other lock found
    · exact unheld lock found
  cases entry with
  | createLock | destroyLock | release =>
    apply updated
    rintro lock ⟨⟩ ⟨⟩
  | hold starts found =>
    apply updated
    rintro lock ⟨⟩ here
    have left := enrolled.left
    rw [← Option.some.inj here] at left
    rcases starts with ⟨_, idle⟩ | ⟨_, work⟩
    · cases left.symm.trans idle
    · cases left.symm.trans work
  | _ => exact unheld

end Ledger

variable (regular : Regular d m) (named : d.plainHandles = true)

include regular named

/-- A queued wait stays queued while no signal is sent. -/
theorem Ledger.Enrolled.moves (moves : Moves d deeds m m') (tended : m.ledger.Tended)
    (unsent : ∀ deed ∈ deeds, deed.act ≠ .signal c) (enrolled : m.ledger.Enrolled c l w) :
    m'.ledger.Enrolled c l w := by
  have both := moves.ledger (motive := fun a => a.Tended ∧ a.Enrolled c l w) regular named
    ⟨tended, enrolled⟩ fun entry sorted acts ⟨tended, enrolled⟩ =>
      ⟨tended.entry entry sorted named,
        enrolled.waiting tended.toWaits (entry.waiting sorted named) fun is =>
          unsent _ (acts _ is) rfl⟩
  exact both.2

theorem Ledger.Resigned.moves (moves : Moves d deeds m m') (tended : m.ledger.Tended)
    (unsent : ∀ deed ∈ deeds, deed.act ≠ .signal c) (resigned : m.ledger.Resigned c l w) :
    m'.ledger.Resigned c l w := by
  have both := moves.ledger (motive := fun a => a.Tended ∧ a.Resigned c l w) regular named
    ⟨tended, resigned⟩ fun entry sorted acts ⟨tended, resigned⟩ =>
      ⟨tended.entry entry sorted named,
        ⟨resigned.waiting tended.toWaits (entry.waiting sorted named) fun is =>
          unsent _ (acts _ is) rfl, resigned.toEnrolled.unheld entry resigned.unheld⟩⟩
  exact both.2

omit regular named

/-! ## Queueing the wait and giving the lock back -/

theorem Entry.enrolled (entry : Entry d (some (.enlist c l)) a b) :
    b.Enrolled c l ⟨a.next, a.runner⟩ := by
  cases entry with
  | note aside => rcases aside with no | no | no <;> cases no
  | enlist idle holds perm =>
    constructor
    · change _ ∈ Function.update a.enlisted c _ c
      rw [Function.update_self]
      exact perm.mem_iff.mpr (List.mem_cons_self ..)
    · exact Function.update_self ..
  | take starts | want starts | hold starts | await starts => simpa using starts.mem rfl

/-- A lock that was given back is nobody's. -/
theorem Entry.unheld (entry : Entry d (some (.release l)) a b) :
    ∀ lock, b.locks l = some lock → lock.holder = none := by
  cases entry with
  | note aside => rcases aside with no | no | no <;> cases no
  | release =>
    intro lock found
    cases (Function.update_self l _ a.locks).symm.trans found
    rfl
  | take starts | want starts | hold starts | await starts => simpa using starts.mem rfl

/-- The caller of an operation that waits has queued its wait when the operation returns, and
the lock is not its own. -/
theorem Awaits.resigned (awaits : Awaits d c l k k') (regular : Regular d ⟨k, none⟩)
    (named : d.plainHandles = true) (tended : (⟨k, none⟩ : Machine).ledger.Tended) :
    ∃ s, (⟨k', none⟩ : Machine).ledger.Resigned c l ⟨s, k.current⟩ := by
  rcases awaits.moves with ⟨tail, middle, _, shape, before, _, after⟩
  have unsent : ∀ deed ∈ tail, deed.act ≠ .signal c := by
    rcases shape with rfl | rfl
    · exact List.forall_mem_nil _
    · exact List.forall_mem_singleton.mpr nofun
  rcases before.uncons with ⟨asking, queued, toAsking, asks, enlists, before⟩
  rcases before.uncons with ⟨holding, given, toHolding, holds, releases, rest⟩
  have toQueued := toAsking.tail enlists
  have toGiven := toHolding.tail releases
  -- up to the release
  have askingRegular := regular.moves toAsking
  have queuedRegular := askingRegular.move enlists
  have holdingRegular := queuedRegular.moves toHolding
  have queuedTended := toQueued.tended regular named tended
  have enrolled : queued.ledger.Enrolled c l ⟨asking.ledger.next, k.current⟩ := by
    rw [← show asking.ledger.runner = k.current from asks]
    exact (enlists.entry askingRegular.toSound askingRegular.tidy).enrolled
  have stays := enrolled.moves queuedRegular named toHolding queuedTended (List.forall_mem_nil _)
  -- from the release on
  have givenTended := toGiven.tended queuedRegular named queuedTended
  have unheld := (releases.entry holdingRegular.toSound holdingRegular.tidy).unheld
  have stillEnrolled := stays.moves holdingRegular named (.single releases)
    (toHolding.tended queuedRegular named queuedTended) (List.forall_mem_singleton.mpr nofun)
  have resigned : given.ledger.Resigned c l ⟨asking.ledger.next, k.current⟩ :=
    ⟨stillEnrolled, fun lock found held => by cases (unheld lock found).symm.trans held⟩
  refine ⟨_, resigned.moves (holdingRegular.move releases) named (rest.trans after) givenTended ?_⟩
  rw [List.append_nil]
  exact unsent

/-! ## What a caller sees -/

/-- Nobody waits twice for a condition. -/
theorem Ledger.Waits.eq_of_thread {w' : Waiter} (waits : a.Waits)
    (listed : w ∈ a.enlisted c) (listed' : w' ∈ a.enlisted c) (same : w'.thread = w.thread) :
    w' = w := by
  rcases waits.left c w listed with ⟨l, left⟩
  rcases waits.left c w' listed' with ⟨l', left'⟩
  rw [same] at left'
  have signals : w.semaphore = w'.semaphore :=
    (Pending.signal.inj (Option.some.inj (left.symm.trans left'))).1
  exact waits.eq_of_semaphore listed' listed signals.symm

/-- Whose wait is queued on a condition is queued there once. -/
theorem Ledger.Waits.count_enlisted (waits : a.Waits) (listed : w ∈ a.enlisted c) :
    ((a.enlisted c).map Waiter.thread).count w.thread = 1 := by
  have counts : ((a.enlisted c).map Waiter.thread).count w.thread = (a.enlisted c).count w := by
    rw [List.count, List.count, List.countP_map]
    apply List.countP_congr
    intro w' listed'
    simp only [Function.comp, beq_iff_eq]
    exact ⟨waits.eq_of_thread listed listed', congrArg Waiter.thread⟩
  rw [counts]
  exact List.count_eq_one_of_mem (waits.once c) listed

/-- A wait on a condition returns when another thread has the processor, and never with the
wait over: it is queued once, the caller has given the lock back and is to take the signal when
it next runs, and it is blocked on the semaphore that the signal will come to or has not got that
far.  What made the caller lose the processor makes no difference. -/
theorem wait_suspends (reachable : Reachable d k) (named : d.plainHandles = true)
    (never : d.idleNeverWaits = true ∨ d.idleNeverAwaits = true)
    (busy : k.idle ≠ some k.current) (h : (c.wait l).run k = .ok (result, k')) :
    result = .suspended ∧ k'.current ≠ k.current ∧
    ((k'.enlisted c).map Waiter.thread).count k.current = 1 ∧
    k'.holder? l ≠ some k.current ∧
    ∃ thread s semaphore, k'.threads.get? k.current = some thread ∧
      thread.pending = some (.signal s l) ∧ ⟨s, k.current⟩ ∈ k'.enlisted c ∧
      k'.semaphores.get? s = some semaphore ∧ semaphore.purpose = .signal ∧
      semaphore.value = 0 ∧
      (thread.state = .blocked ∧ thread.place = .semaphore s ∨
        thread.state = .ready ∧ thread.place = .ready) := by
  have steady := reachable.steady
  rcases awaits_of_run_wait steady (fun _ => busy) h with ⟨suspended, awaits⟩
  rcases awaits.resigned steady.regular named (reachable.tended named) with ⟨s, resigned⟩
  have obeys : (Request.wait c l).Obeys { plainHandles := true, idleNeverAwaits := true } k :=
    ⟨fun _ => nofun, nofun, nofun, nofun, fun _ _ => Bool.eq_false_iff.mpr (mt idles_iff.mp busy),
      nofun⟩
  have after : Reachable { plainHandles := true, idleNeverAwaits := true } k' :=
    (reachable.mono fun obeys => obeys.awaitless named never).step
      (.request obeys (run_map_eq_ok_iff.mpr ⟨_, h, rfl⟩))
  have listed : ⟨s, k.current⟩ ∈ k'.enlisted c := resigned.listed
  rcases after.queued rfl rfl listed with ⟨⟨semaphore, live, purpose, empty⟩, _, thread, l', found,
    pending, whereabouts⟩
  have left : k'.pending? k.current = some (.signal s l) :=
    (Machine.work?_none k' _).symm.trans resigned.left
  rw [pending?_of_get? found] at left
  refine ⟨suspended, awaits.away, (after.tended rfl).toWaits.count_enlisted listed, ?_, thread, s,
    semaphore, found, left, listed, live, purpose, empty, whereabouts⟩
  intro holds
  rcases Option.bind_eq_some_iff.mp holds with ⟨lock, foundLock, holder⟩
  exact resigned.unheld lock foundLock holder

/-- The initial thread has its priority from a thread that waits for the lock.  It loses the
processor when it gives the lock back, is ready again, and has still to be told. -/
theorem wait_suspends_of_preempted : ∃ k result k',
    Reachable { plainHandles := true, idleNeverWaits := true } k ∧ k.idle ≠ some k.current ∧
    (ConditionId.wait ⟨0⟩ ⟨0⟩).run k = .ok (result, k') ∧ k.current = .main ∧
    .main ∈ k'.queueAt .ready ∧ k'.holder? ⟨0⟩ = some k'.current ∧
    result = .suspended ∧ k'.current ≠ k.current ∧
    ((k'.enlisted ⟨0⟩).map Waiter.thread).count k.current = 1 := by
  have ran : (Discipline.performAll { plainHandles := true, idleNeverWaits := true }
      [.start, .createLock, .createCondition, .acquire ⟨0⟩, .spawn { priority := 40 }, .acquire ⟨0⟩]
      (.fresh {} .stable)).bind (fun k => ((ConditionId.wait ⟨0⟩ ⟨0⟩).run k).toOption.map fun p =>
        (k.current, decide (k.idle = some k.current), decide (ThreadId.main ∈ p.2.queueAt .ready),
          decide (p.2.holder? ⟨0⟩ = some p.2.current))) =
      some (.main, false, true, true) := by decide +kernel
  rcases Option.bind_eq_some_iff.mp ran with ⟨k, performed, rest⟩
  rcases Option.map_eq_some_iff.mp rest with ⟨⟨result, k'⟩, returned, told⟩
  simp only [Prod.mk.injEq, decide_eq_false_iff_not, decide_eq_true_eq] at told
  rcases told with ⟨main, busy, ready, holds⟩
  have reachable := (Reachable.fresh {} .stable).performAll performed
  have waits := ok_of_toOption returned
  rcases wait_suspends reachable rfl (.inl rfl) busy waits with ⟨suspended, away, once, _⟩
  exact ⟨k, result, k', reachable, busy, waits, main, ready, holds, suspended, away, once⟩

end ThreadKernel
