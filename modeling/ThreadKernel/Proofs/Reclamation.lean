import ThreadKernel.Proofs.Dispatching

/-!
# Threads that have exited

A thread that exits leaves a record behind.  The dispatcher lists the thread when it takes the
processor from it, and drops the records of the listed threads when it is called again.  Nobody
else is ever dropped, and the initial thread never is.

`Kernel.Interred` says who is listed, in the middle of an operation too: whoever has exited and is
neither the initial nor the current thread.  There is one such thread at most, for a thread exits on
the processor, and the dispatcher reclaims before it looks for another one to run.  What is dropped
is nowhere named any more (`Kernel.Forgets`), and its identity is not issued again.
-/

namespace ThreadKernel

open Kernel

variable {d : Discipline} {m m' : Machine} {k k' : Kernel} {t : ThreadId} {thread : Thread}
  {act : Option Act} {deeds : List Deed} {u : Unit}

/-- `t` has exited, and its record is still there. -/
def Kernel.Exited (k : Kernel) (t : ThreadId) : Prop :=
  ∃ thread, k.threads.get? t = some thread ∧ thread.state = .dying

theorem exited_iff_post : k.Exited t ↔ ∃ x, k.post? t = some x ∧ x.state = .dying := by
  constructor
  · rintro ⟨thread, found, dying⟩
    exact ⟨thread.post, post?_of_get? found, dying⟩
  · rintro ⟨x, found, dying⟩
    rcases Option.map_eq_some_iff.mp found with ⟨thread, foundThread, rfl⟩
    exact ⟨thread, foundThread, dying⟩

theorem Kernel.Exited.of_post (exited : k.Exited t) (same : k'.post? t = k.post? t) :
    k'.Exited t := by
  rw [exited_iff_post] at exited ⊢
  rwa [same]

theorem not_exited_of_alive (found : k.threads.get? t = some thread) (alive : thread.state ≠ .dying) :
    ¬ k.Exited t := by
  rintro ⟨thread', found', dying⟩
  cases found.symm.trans found'
  exact alive dying

/-! ## Who is to be reclaimed -/

/-- Those that have exited are listed, but for the initial thread and the one that has the processor
still.  There is one of them at most. -/
structure Kernel.Interred (k : Kernel) : Prop where
  listed : ∀ t, k.Exited t → t ≠ .main → t ≠ k.current → t ∈ k.dying
  mortal : .main ∉ k.dying
  left : k.current ∉ k.dying
  single : k.dying = [] ∨ ∃ t, k.dying = [t]

theorem interred_fresh (config : Config) (rule : Reposition) : (fresh config rule).Interred where
  listed t exited other := by
    rcases exited with ⟨thread, found, dying⟩
    exact absurd (get?_fresh found).1 other
  mortal := List.not_mem_nil
  left := List.not_mem_nil
  single := .inl rfl

/-- If one thread's record has been changed, then only that thread can have exited. -/
theorem Kernel.Exited.of_update {u : ThreadId} {x : Post} (exited : k'.Exited t)
    (posts : k'.post? = Function.update k.post? u (some x)) :
    k.Exited t ∨ t = u ∧ x.state = .dying := by
  by_cases here : t = u
  · rcases exited_iff_post.mp exited with ⟨y, found, dying⟩
    rw [posts, here, Function.update_self] at found
    cases found
    exact .inr ⟨here, dying⟩
  · exact .inl (exited.of_post (by rw [posts, Function.update_of_ne here]))

/-- Only the thread that has the processor exits. -/
theorem Move.exited (move : Move d act m m') (sound : Sound d m) (exited : m'.kernel.Exited t) :
    m.kernel.Exited t ∨ t = m.kernel.current := by
  cases move.shift sound with
  | stay posts => exact .inl (exited.of_post (congrFun posts t).symm)
  | turn found turn posts =>
    refine (exited.of_update posts).imp_right fun ⟨here, dying⟩ => ?_
    cases turn with
    | halt current => exact here.trans current
    | unblock | wake | rise | yield | doze | queue | pick => cases dying
  | enroll new posts next =>
    refine (exited.of_update posts).imp_right fun ⟨_, dying⟩ => ?_
    cases dying
  | reclaim posts fresh _ =>
    rcases exited_iff_post.mp exited with ⟨x, foundLater, dying⟩
    cases found : m.kernel.post? t with
    | none => cases (fresh t found).symm.trans foundLater
    | some y =>
      rcases posts t y found with kept | ⟨gone, _⟩
      · refine .inl (exited.of_post ?_)
        rw [kept, found]
      · cases gone.symm.trans foundLater

/-- Nobody new has exited but the thread that has the processor, and that goes on having it. -/
theorem Kernel.Interred.kept (interred : k.Interred)
    (before : ∀ t, k'.Exited t → t ≠ k.current → k.Exited t) (dying : k'.dying = k.dying)
    (current : k'.current = k.current) : k'.Interred := by
  constructor
  · rw [dying, current]
    exact fun t exited other away => interred.listed t (before t exited away) other away
  · rw [dying]
    exact interred.mortal
  · rw [dying, current]
    exact interred.left
  · rw [dying]
    exact interred.single

/-- All that are listed are reclaimed. -/
theorem Kernel.Interred.reclaimed (interred : k.Interred)
    (before : ∀ t, k'.Exited t → t ≠ k.current → k.Exited t)
    (gone : ∀ t, k'.post? t = if t ∈ k.dying then none else k.post? t) (dying : k'.dying = [])
    (current : k'.current = k.current) : k'.Interred := by
  refine ⟨fun t exited other away => ?_, ?_, ?_, .inl dying⟩
  · rw [current] at away
    have listed := interred.listed t (before t exited away) other away
    rcases exited_iff_post.mp exited with ⟨x, found, _⟩
    rw [gone, if_pos listed] at found
    cases found
  · simp [dying]
  · simp [dying]

/-- The thread that has had the processor has exited, or is not to be listed. -/
theorem Kernel.Interred.handed {thread : Thread} {next : ThreadId} {dying : List ThreadId}
    (interred : k.Interred) (before : ∀ t, k'.Exited t → t ≠ k.current → k.Exited t)
    (departs : Departs k.dying k.current next thread dying)
    (swept : thread.state = .dying → k.dying = []) (unlisted : next ∉ k.dying)
    (spared : k'.Exited k.current → k.current ≠ next → thread.state = .dying)
    (dying' : k'.dying = dying) (current : k'.current = next) : k'.Interred := by
  have listed : ∀ t, k'.Exited t → t ≠ .main → t ≠ k.current → t ∈ k.dying :=
    fun t exited other away => interred.listed t (before t exited away) other away
  cases departs with
  | stays mortal =>
    refine ⟨fun t exited other away => ?_, dying' ▸ interred.mortal, ?_, dying' ▸ interred.single⟩
    · rw [dying']
      by_cases here : t = k.current
      · rw [current] at away
        subst here
        exact absurd (mortal (Ne.symm away) (spared exited away)) other
      · exact listed t exited other here
    · rw [dying', current]
      exact unlisted
  | exits other exited mortal =>
    rw [swept exited, List.nil_append] at dying'
    refine ⟨fun t exits initial _ => ?_, ?_, ?_, .inr ⟨_, dying'⟩⟩
    · rw [dying', List.mem_singleton]
      by_contra away
      have left := listed t exits initial away
      rw [swept exited] at left
      cases left
    · simp [dying', Ne.symm mortal]
    · simp [dying', current, other]

theorem Kernel.Interred.move (interred : m.kernel.Interred) (move : Move d act m m')
    (sound : Sound d m) : m'.kernel.Interred := by
  have before : ∀ t, m'.kernel.Exited t → t ≠ m.kernel.current → m.kernel.Exited t :=
    fun t exited other => (move.exited sound exited).resolve_right other
  cases move.change sound with
  | still same | rescan _ _ same | enroll same | doze _ _ same | rise _ _ _ same =>
    exact interred.kept before (congrArg (·.2.1) same) (congrArg (·.2.2.2) same)
  | reclaim gone same =>
    exact interred.reclaimed before gone (congrArg (·.2.1) same) (congrArg (·.2.2.2) same)
  | pick found halted departs swept alive foundNext posts same =>
    refine interred.handed before departs (swept _ found)
      (fun left => alive (sound.placed.dying_of_mem left foundNext)) (fun exited away => ?_)
      (congrArg (·.2.1) same) (congrArg (·.2.2.2) same)
    rcases exited_iff_post.mp exited with ⟨x, foundLater, exits⟩
    rw [posts, Function.update_of_ne away, post?_of_get? found] at foundLater
    cases foundLater
    exact exits

theorem Reachable.interred (reachable : Reachable d k) : k.Interred :=
  reachable.invariant (motive := fun m => m.kernel.Interred) interred_fresh
    fun regular move interred => interred.move move regular.toSound

/-- Exactly those are listed, and there is one of them at most. -/
structure Kernel.Exact (k : Kernel) : Prop where
  mem_dying : ∀ t, t ∈ k.dying ↔ t ≠ .main ∧ t ≠ k.current ∧ k.Exited t
  single : k.dying = [] ∨ ∃ t, k.dying = [t]

theorem Kernel.Interred.exact (interred : k.Interred) (placed : k.Placed) : k.Exact where
  mem_dying t := by
    constructor
    · intro listed
      refine ⟨?_, ?_, placed.exited t listed⟩
      · rintro rfl
        exact interred.mortal listed
      · rintro rfl
        exact interred.left listed
    · rintro ⟨other, away, exited⟩
      exact interred.listed t exited other away
  single := interred.single

/-! ## What is gone is gone for good -/

/-- A thread that was created and whose record is no more. -/
structure Kernel.Removed (k : Kernel) (t : ThreadId) : Prop where
  issued : t.index < k.threads.next.index
  gone : k.threads.get? t = none
  away : t ≠ k.current

theorem Move.next_le (move : Move d act m m') (sound : Sound d m) :
    m.kernel.threads.next.index ≤ m'.kernel.threads.next.index := by
  cases move.change sound with
  | still same | rescan _ _ same | doze _ _ same | rise _ _ _ same | reclaim _ same
  | pick _ _ _ _ _ _ _ same =>
    have next : m'.kernel.threads.next = m.kernel.threads.next := congrArg (·.2.2.1) same
    exact Nat.le_of_eq (congrArg Handle.index next.symm)
  | enroll same =>
    have next : m'.kernel.threads.next = ⟨m.kernel.threads.next.index + 1⟩ :=
      congrArg (·.2.2.1) same
    rw [next]
    exact Nat.le_succ _

/-- Only a thread that is there and has not exited gets the processor. -/
theorem Move.current (move : Move d act m m') (sound : Sound d m) (here : t = m'.kernel.current) :
    t = m.kernel.current ∨ ∃ thread, m.kernel.threads.get? t = some thread ∧
      thread.state ≠ .dying := by
  cases move.change sound with
  | still same | rescan _ _ same | enroll same | doze _ _ same | rise _ _ _ same
  | reclaim _ same =>
    have current : m'.kernel.current = m.kernel.current := congrArg (·.2.2.2) same
    exact .inl (here.trans current)
  | pick found halted departs swept alive foundNext posts same =>
    rename_i previous thread next dying
    have current : m'.kernel.current = next := congrArg (·.2.2.2) same
    rw [here, current]
    exact .inr ⟨thread, foundNext, alive⟩

theorem post?_eq_none_iff : k.post? t = none ↔ k.threads.get? t = none := Option.map_eq_none_iff

theorem Kernel.Removed.move (removed : m.kernel.Removed t) (move : Move d act m m')
    (sound : Sound d m) : m'.kernel.Removed t := by
  have absent := post?_eq_none_iff.mpr removed.gone
  refine ⟨Nat.lt_of_lt_of_le removed.issued (move.next_le sound), ?_, ?_⟩
  · apply post?_eq_none_iff.mp
    cases move.shift sound with
    | stay posts => rw [posts, absent]
    | turn found _ posts =>
      rw [posts, Function.update_of_ne, absent]
      rintro rfl
      cases absent.symm.trans found
    | enroll new posts next =>
      rw [posts, Function.update_of_ne, absent]
      rintro rfl
      rw [next] at removed
      exact Nat.lt_irrefl _ removed.issued
    | reclaim _ fresh _ => exact fresh t absent
  · intro here
    rcases move.current sound here with same | ⟨thread, found, _⟩
    · exact removed.away same
    · cases removed.gone.symm.trans found

/-- Whoever is dropped is dropped by the dispatcher, which has had it on its list. -/
theorem Move.removes (move : Move d act m m') (sound : Sound d m)
    (found : m.kernel.threads.get? t = some thread) (gone : m'.kernel.threads.get? t = none) :
    Kernel.reclaim.run m.kernel = .ok ((), m'.kernel) ∧ t ∈ m.kernel.dying := by
  have before := post?_of_get? found
  have after := post?_eq_none_iff.mpr gone
  cases move.shift sound with
  | stay posts =>
    rw [posts, before] at after
    cases after
  | turn _ _ posts | enroll _ posts _ =>
    rw [posts, Function.update_apply, before] at after
    split at after <;> cases after
  | reclaim _ _ ran =>
    refine ⟨ran, ?_⟩
    rcases of_run_reclaim (id ran) with ⟨threads, events, _, _, kept, same⟩
    rw [same, kept] at gone
    by_contra unlisted
    rw [if_neg unlisted, found] at gone
    cases gone

/-- What becomes of `t` once it has exited: its record stays or is dropped, and the processor does
not come back to it. -/
def Kernel.Stops (k k' : Kernel) (t : ThreadId) : Prop :=
  k'.Exited t ∧ (t = k'.current → t = k.current) ∨ k'.Removed t

theorem Kernel.Exited.move (exited : m.kernel.Exited t) (interred : m.kernel.Interred)
    (move : Move d act m m') (sound : Sound d m) : m.kernel.Stops m'.kernel t := by
  rcases id exited with ⟨thread, found, dying⟩
  have detached := sound.placed.detached_of_state found (by simp [dying]) (by simp [dying])
  have before := post?_of_get? found
  have away : t = m'.kernel.current → t = m.kernel.current := by
    intro here
    rcases move.current sound here with same | ⟨thread', found', alive⟩
    · exact same
    · exact absurd exited (not_exited_of_alive found' alive)
  cases gone : m'.kernel.threads.get? t with
  | none =>
    have listed := (move.removes sound found gone).2
    refine .inr ⟨Nat.lt_of_lt_of_le (Arena.lt_next_of_get? found) (move.next_le sound), gone, ?_⟩
    intro here
    rw [away here] at listed
    exact interred.left listed
  | some thread' =>
    refine .inl ⟨?_, away⟩
    have after := post?_of_get? gone
    cases move.shift sound with
    | stay posts => exact exited.of_post (congrFun posts t)
    | turn foundTurn turn posts =>
      rename_i t' x y
      by_cases here : t = t'
      · subst here
        cases before.symm.trans foundTurn
        cases turn with
        | unblock blocked => cases dying.symm.trans blocked
        | wake waits => cases detached.symm.trans waits
        | rise asleep => cases detached.symm.trans asleep
        | yield _ running | halt _ running | doze _ running | queue _ running =>
          cases dying.symm.trans running
        | pick _ alive => exact absurd dying alive
      · exact exited.of_post (by rw [posts, Function.update_of_ne here])
    | enroll new posts _ =>
      apply exited.of_post
      rw [posts, Function.update_of_ne]
      rintro rfl
      cases new.symm.trans before
    | reclaim posts _ _ =>
      rcases posts t _ before with same | ⟨none, _⟩
      · exact exited.of_post (same.trans before.symm)
      · cases none.symm.trans after

theorem Kernel.Removed.moves (removed : m.kernel.Removed t) (regular : Regular d m)
    (moves : Moves d deeds m m') : m'.kernel.Removed t :=
  regular.invariant (motive := fun m => m.kernel.Removed t) moves removed
    fun regular move removed => removed.move move regular.toSound

theorem Kernel.Interred.moves (interred : m.kernel.Interred) (regular : Regular d m)
    (moves : Moves d deeds m m') : m'.kernel.Interred :=
  regular.invariant (motive := fun m => m.kernel.Interred) moves interred
    fun regular move interred => interred.move move regular.toSound

theorem Kernel.Exited.moves (exited : m.kernel.Exited t) (interred : m.kernel.Interred)
    (regular : Regular d m) (moves : Moves d deeds m m') : m.kernel.Stops m'.kernel t := by
  induction moves with
  | refl m => exact .inl ⟨exited, id⟩
  | tail before move ih =>
    have middle := regular.moves before
    rcases ih exited interred regular with ⟨stays, away⟩ | removed
    · exact (stays.move (interred.moves regular before) move middle.toSound).imp_left
        fun ⟨later, further⟩ => ⟨later, fun here => away (further here)⟩
    · exact .inr (removed.move move middle.toSound)

/-! ## What the dispatcher does first -/

/-- The dispatcher first drops the records of those that are listed. -/
theorem run_schedule (k : Kernel) : ∃ reclaimed, reclaim.run k = .ok ((), reclaimed) ∧
    reclaimed.dying = [] ∧
    (∀ t, reclaimed.threads.get? t = if t ∈ k.dying then none else k.threads.get? t) ∧
    schedule.run k = if k.processor.level = .off then
      (dispatch (reclaimed.ready.size + 1)).run reclaimed
    else .error (.interruptsEnabled .schedule) := by
  rcases succeeds_reclaim k with ⟨⟨_, reclaimed⟩, ran⟩
  rcases of_run_reclaim (id ran) with ⟨threads, events, _, _, gone, same⟩
  refine ⟨reclaimed, ran, by rw [same], fun t => by rw [same, gone], ?_⟩
  rw [schedule, run_get_bind]
  split
  · next masked =>
    rw [run_bind_of_ok (run_require_eq_ok_iff.mpr ⟨masked, rfl⟩), run_bind_of_ok ran, run_get_bind]
  · next unmasked =>
    apply run_bind_of_error
    rw [require, if_neg unmasked]
    rfl

/-- Who exits is still there when its exit returns. -/
theorem exited_of_run_exit (steady : Steady d k) (interred : k.Interred)
    (empty : d.careful = true → k.heldBy k.current = []) (h : exit.run k = .ok (u, k')) :
    k'.Exited k.current := by
  rcases of_run_exit steady empty h with ⟨halted, last, moves, threads, same, ran, rfl⟩
  rcases Prod.mk.inj same with ⟨current, dying⟩
  rcases steady.runs with ⟨thread, found, _⟩
  have record := Arena.get?_modify_self (fun old : Thread => { old with state := .dying }) found
  rw [← threads] at record
  rcases of_run_schedule (steady.regular.moves moves) ran with ⟨reclaimed, reclaims, elects⟩
  have kept : reclaimed.threads.get? k.current = some { thread with state := .dying } := by
    rcases of_run_reclaim (id reclaims) with ⟨table, events, _, _, gone, rfl⟩
    rw [gone, dying, if_neg interred.left, record]
  rcases elects.seen k.current with same | ⟨thread', found', alive, _⟩
  · rw [kept, Option.map_some, Option.map_eq_some_iff] at same
    rcases same with ⟨thread', found', eq⟩
    exact ⟨thread', found', (Prod.mk.inj (Prod.mk.inj eq).1).1⟩
  · cases kept.symm.trans found'
    exact absurd rfl alive

/-! ## Who is gone is nowhere named -/

/-- `t` is in no list, and lends its priority to nobody. -/
structure Kernel.Forgets (k : Kernel) (t : ThreadId) : Prop where
  ready : t ∉ k.ready.threads
  asleep : t ∉ k.sleepers.sleepers
  semaphores : ∀ s semaphore, k.semaphores.get? s = some semaphore → t ∉ semaphore.waiters
  conditions : ∀ c condition, k.conditions.get? c = some condition →
    ∀ waiter ∈ condition.waiters, waiter.thread ≠ t
  donors : ∀ u thread, k.threads.get? u = some thread → t ∉ thread.donors
  dying : t ∉ k.dying

theorem Reachable.forgets (reachable : Reachable d k) (named : d.plainHandles = true)
    (gone : k.threads.get? t = none) : k.Forgets t := by
  have steady := reachable.steady
  have placed : k.Placed := steady.regular.placed
  have grounded : k.Grounded := steady.regular.grounded named steady.runs.present
  have absent : ¬ k.Present t := by
    rintro ⟨thread, found⟩
    cases gone.symm.trans found
  have unqueued : ∀ p, t ∉ k.queueAt p := by
    intro p queued
    rcases placed.exists_of_mem queued with ⟨_, thread, found, _⟩
    exact absent ⟨thread, found⟩
  refine ⟨unqueued .ready, unqueued .sleep, fun s semaphore found waits =>
    absent (grounded.waiters s semaphore found t waits), fun c condition found waiter listed => ?_,
    fun u thread found donor => absent (grounded.donors u thread found t donor), fun left => ?_⟩
  · rintro rfl
    have among : waiter ∈ (⟨k, none⟩ : Machine).ledger.enlisted c := by
      rw [← enlisted_of_get? found] at listed
      exact listed
    rcases (reachable.tended named).left c waiter among with ⟨l, left⟩
    rcases Option.bind_eq_some_iff.mp ((Machine.work?_none k _).symm.trans left) with
      ⟨thread, foundThread, _⟩
    exact absent ⟨thread, foundThread⟩
  · rcases placed.exited t left with ⟨thread, found, _⟩
    exact absent ⟨thread, found⟩

/-! ## Every run -/

/-- Reclamation is exact.

In between operations exactly the threads that have exited are listed for it, but for the initial
one, and there is one of them at most.  A thread that exits is still there, and listed, when its
exit returns.

Look at a run at any point, in the middle of an operation too.  There as well the list is exact.  To
call the dispatcher is to drop the records of those that are listed, and of nobody else, and then to
look for a thread to run.  Nothing else drops a record, so whoever loses it has exited and is not
the initial thread.  From then on an exited thread never has the processor again, nor is it ready or
blocked, and once it is gone its identity is not issued again.

Who is gone is in no list, and nobody's donor. -/
theorem reclamation_is_exact (reachable : Reachable d k) (named : d.plainHandles = true) :
    ((∀ t, t ∈ k.dying ↔ t ≠ .main ∧ k.Exited t) ∧ (k.dying = [] ∨ ∃ t, k.dying = [t])) ∧
    (∀ reply k', Request.exit.Obeys d k → Request.exit.perform.run k = .ok (reply, k') →
      k'.Exited k.current ∧ (k.current ≠ ThreadId.main → k'.dying = [k.current])) ∧
    (∀ k', Relation.ReflTransGen (Transit d) k k' →
      ∃ deeds, Moves d deeds ⟨k, none⟩ ⟨k', none⟩) ∧
    (∀ deeds m, Moves d deeds ⟨k, none⟩ m →
      m.kernel.Exact ∧
      (∃ reclaimed, reclaim.run m.kernel = .ok ((), reclaimed) ∧ reclaimed.dying = [] ∧
        (∀ t, reclaimed.threads.get? t =
          if t ∈ m.kernel.dying then none else m.kernel.threads.get? t) ∧
        schedule.run m.kernel = if m.kernel.processor.level = .off then
          (dispatch (reclaimed.ready.size + 1)).run reclaimed
        else .error (.interruptsEnabled .schedule)) ∧
      (∀ act m' t thread, Move d act m m' → m.kernel.threads.get? t = some thread →
        m'.kernel.threads.get? t = none → thread.state = .dying ∧ t ≠ ThreadId.main ∧
          t ∈ m.kernel.dying ∧ reclaim.run m.kernel = .ok ((), m'.kernel)) ∧
      ∀ deeds m', Moves d deeds m m' → ∀ t,
        (m.kernel.Exited t → m.kernel.Stops m'.kernel t) ∧
        (m.kernel.Removed t → m'.kernel.Removed t)) ∧
    ∀ t, k.threads.get? t = none → k.Forgets t := by
  have steady := reachable.steady
  have exact_of_reachable : ∀ {k}, Reachable d k →
      (∀ t, t ∈ k.dying ↔ t ≠ .main ∧ k.Exited t) ∧ (k.dying = [] ∨ ∃ t, k.dying = [t]) := by
    intro k reachable
    have exact := reachable.interred.exact reachable.steady.regular.placed
    refine ⟨fun t => ?_, exact.single⟩
    rw [exact.mem_dying]
    refine and_congr_right fun _ => and_iff_right_of_imp ?_
    rintro exited rfl
    rcases reachable.steady.runs with ⟨thread, found, running, _⟩
    exact not_exited_of_alive found (by simp [running]) exited
  refine ⟨exact_of_reachable reachable, fun reply k' obeys ran => ?_,
    fun k' later => reachable.moves later, fun deeds m moves => ?_,
    fun t gone => reachable.forgets named gone⟩
  · have after := reachable.step (.request obeys ran)
    rcases run_bind_eq_ok_iff.mp ran with ⟨_, _, exits, done⟩
    cases done
    have exited := exited_of_run_exit steady reachable.interred
      (fun careful => (obeys.careful careful).1 rfl) exits
    refine ⟨exited, fun mortal => ?_⟩
    rcases exact_of_reachable after with ⟨exact, single⟩
    have listed := (exact k.current).mpr ⟨mortal, exited⟩
    rcases single with none | ⟨t, one⟩
    · rw [none] at listed
      cases listed
    · rw [one, List.mem_singleton] at listed
      rw [one, listed]
  · have middle := steady.regular.moves moves
    have interred : m.kernel.Interred := reachable.interred.moves steady.regular moves
    refine ⟨interred.exact middle.placed, run_schedule m.kernel, ?_, ?_⟩
    · intro act m' t thread move found gone
      rcases move.removes middle.toSound found gone with ⟨ran, listed⟩
      refine ⟨middle.placed.dying_of_mem listed found, ?_, listed, ran⟩
      rintro rfl
      exact interred.mortal listed
    · intro deeds m' later t
      exact ⟨fun exited => exited.moves interred middle later,
        fun removed => removed.moves middle later⟩

/-- A thread of priority 40 exits, and is dropped when the initial one yields. -/
theorem reclamation_is_exact_of_exit : ∃ k k' k'', Reachable { plainHandles := true } k ∧
    k.current = ⟨3⟩ ∧ Request.exit.perform.run k = .ok (.done, k') ∧ k'.Exited ⟨3⟩ ∧
    k'.dying = [⟨3⟩] ∧ Request.yield.perform.run k' = .ok (.done, k'') ∧
    k''.threads.get? ⟨3⟩ = none ∧ k''.Forgets ⟨3⟩ := by
  have ran : ((Discipline.performAll { plainHandles := true } [.start, .spawn { priority := 40 }]
      (.fresh {} .stable)).bind fun k => (exit.run k).toOption.bind fun gone =>
        (yield.run gone.2).toOption.map fun given =>
          decide (k.current = ⟨3⟩ ∧ Request.exit.Obeys { plainHandles := true } k ∧
            Request.yield.Obeys { plainHandles := true } gone.2 ∧
            given.2.threads.get? ⟨3⟩ = none)) = some true := by
    decide +kernel
  rcases Option.bind_eq_some_iff.mp ran with ⟨k, performed, rest⟩
  rcases Option.bind_eq_some_iff.mp rest with ⟨⟨_, k'⟩, exits, rest⟩
  rcases Option.map_eq_some_iff.mp rest with ⟨⟨_, k''⟩, yields, told⟩
  rcases of_decide_eq_true told with ⟨current, obeys, obeys', gone⟩
  have reachable := (Reachable.fresh {} .stable).performAll performed
  have exited : Request.exit.perform.run k = .ok (.done, k') :=
    run_bind_eq_ok_iff.mpr ⟨_, k', ok_of_toOption exits, rfl⟩
  have yielded : Request.yield.perform.run k' = .ok (.done, k'') :=
    run_bind_eq_ok_iff.mpr ⟨_, k'', ok_of_toOption yields, rfl⟩
  rcases (reclamation_is_exact reachable rfl).2.1 _ k' obeys exited with ⟨stays, listed⟩
  rw [current] at stays listed
  have later := (reachable.step (.request obeys exited)).step (.request obeys' yielded)
  have forgets := (reclamation_is_exact later rfl).2.2.2.2 ⟨3⟩ gone
  exact ⟨k, k', k'', reachable, current, exited, stays, listed (by decide), yielded, gone, forgets⟩

end ThreadKernel
