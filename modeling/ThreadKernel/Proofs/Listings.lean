import ThreadKernel.Proofs.Donors
import ThreadKernel.Proofs.Handlers
import ThreadKernel.Proofs.Progress
import ThreadKernel.Proofs.WakeOrder

/-!
# What the listings say

The waiters of a semaphore or a lock and the donors of a thread are listed in stored order.  A line
is put in order when somebody joins it or leaves it, but a donation that raises a thread in the line
does not move it there, nor in the donors of the holder it waits for.  So a listing may be out of
date, and says who is woken next only if it is in order of the priorities at that moment.

* `SemaphoreId.Ups`: the wakes of one handler, in which nobody else runs.
* `SemaphoreId.Lists`: what the order of the wakes has to do with the listing.
* `Kernel.Relists`: what one move does to the order of listings.
-/

namespace ThreadKernel

open Kernel

variable {d : Discipline} {k k' : Kernel} {m m' : Machine} {act : Option Act} {deeds : List Deed}
  {s : SemaphoreId} {semaphore : Semaphore} {l : LockId} {lock : Lock} {line : Line}
  {t : ThreadId} {thread : Thread} {woken : List ThreadId} {due : Option Pending}

/-! ## The order of wakes -/

namespace SemaphoreId

/-- Units are returned in a handler, and wake these threads one after the other. -/
inductive Ups (s : SemaphoreId) : Kernel → List ThreadId → Kernel → Prop
  | none (k : Kernel) : Ups s k [] k
  | next {k k' k'' : Kernel} {t : ThreadId} {rest : List ThreadId}
      (ran : s.up.run k = .ok ((), k'))
      (leaves : (k.queueAt (.semaphore s)).Perm (t :: k'.queueAt (.semaphore s)))
      (later : Ups s k' rest k'') : Ups s k (t :: rest) k''

/-- What a wake leaves of the semaphore. -/
theorem get?_of_run_wake (h : s.wake.run k = .ok ((), k')) :
    k'.inInterrupt = k.inInterrupt ∧ ∃ semaphore, k.semaphores.get? s = some semaphore ∧
      k'.semaphores.get? s = some { semaphore with
        value := semaphore.value + 1
        waiters := (Ranked.sort k.priorityOf semaphore.waiters).tail } := by
  rcases of_run_wake h with ⟨semaphore, found, ⟨unawaited, rfl⟩ | ⟨t, rest, first, wakes⟩⟩
  · refine ⟨rfl, semaphore, found, ?_⟩
    rw [unawaited]
    exact Arena.get?_modify_self _ found
  · rcases of_run_unblock wakes with ⟨_, _, _, _, _, rfl⟩
    refine ⟨rfl, semaphore, found, ?_⟩
    rw [first]
    exact Arena.get?_modify_self _ found

/-- What a handler finds that has returned a unit. -/
structure Raised (k k' : Kernel) (s : SemaphoreId) (semaphore : Semaphore) : Prop where
  inside : k'.inInterrupt = true
  worth : k'.priorityOf = k.priorityOf
  raised : k'.semaphores.get? s = some { semaphore with
    value := semaphore.value + 1
    waiters := (Ranked.sort k.priorityOf semaphore.waiters).tail }

theorem raised_of_run_up (inside : k.inInterrupt = true)
    (found : k.semaphores.get? s = some semaphore) (h : s.up.run k = .ok ((), k')) :
    Raised k k' s semaphore := by
  rcases run_masked_eq_ok_iff.mp h with ⟨last, ran, rfl⟩
  rcases run_bind_eq_ok_iff.mp ran with ⟨_, middle, wakes, preempts⟩
  rcases get?_of_run_wake wakes with ⟨same, semaphore', found', raised⟩
  cases found.symm.trans found'
  have inside : middle.inInterrupt = true := same.trans inside
  have worth : middle.priorityOf = k.priorityOf :=
    funext fun t => congrFun (calls_of_run_wake wakes).worth ⟨s, t⟩
  rw [run_preempt_inside inside] at preempts
  cases preempts
  exact ⟨inside, worth, raised⟩

/-- The threads are woken in order of priority. -/
theorem Ups.sort_eq (inside : k.inInterrupt = true) (ups : s.Ups k woken k') :
    Ranked.sort k.priorityOf (k.queueAt (.semaphore s)) =
      woken ++ Ranked.sort k.priorityOf (k'.queueAt (.semaphore s)) := by
  induction ups with
  | none k => rfl
  | @next k k' k'' t rest ran leaves _ ih =>
    cases found : k.semaphores.get? s with
    | none =>
      rw [queueAt, found] at leaves
      exact absurd leaves.length_eq (by simp)
    | some semaphore =>
      have raised := raised_of_run_up inside found ran
      have ih := ih raised.inside
      rw [queueAt_semaphore found, queueAt_semaphore raised.raised] at leaves
      rw [raised.worth, queueAt_semaphore raised.raised] at ih
      rw [queueAt_semaphore found]
      have sorted := Ranked.sort_perm k.priorityOf semaphore.waiters
      have descending := Ranked.descending_sort k.priorityOf semaphore.waiters
      cases order : Ranked.sort k.priorityOf semaphore.waiters with
      | nil =>
        rw [order] at sorted
        exact absurd (sorted.trans leaves) (List.not_perm_nil_cons t _)
      | cons first others =>
        rw [order] at sorted leaves ih descending
        have same : first = t := (Multiset.cons_inj_left (others : Multiset ThreadId)).mp
          (Quot.sound (sorted.trans leaves))
        have tail : Ranked.sort k.priorityOf others = others :=
          Ranked.Descending.sort_eq (List.pairwise_cons.mp descending).2
        rw [same, List.cons_append, ← ih]
        exact congrArg _ tail.symm

/-- Everybody can be woken, as long as there is room for that many units. -/
theorem exists_ups (sound : Sound d ⟨k, none⟩) (inside : k.inInterrupt = true)
    (found : k.semaphores.get? s = some semaphore)
    (room : semaphore.value + semaphore.waiters.length ≤ maxHalfWord) :
    ∃ k', s.Ups k (Ranked.sort k.priorityOf semaphore.waiters) k' := by
  generalize order : Ranked.sort k.priorityOf semaphore.waiters = queue
  induction queue generalizing k semaphore with
  | nil => exact ⟨k, .none k⟩
  | cons t rest ih =>
    have perm := Ranked.perm_of_sort_eq_cons order
    have descending := Ranked.descending_sort k.priorityOf semaphore.waiters
    have length := perm.length_eq
    rw [List.length_cons] at length
    have masked : Sound d ⟨k.atLevel .off, none⟩ := sound.move (.quiet (sameWork_atLevel .off))
    rcases SemaphoreId.succeeds_wake (k := k.atLevel .off) masked.placed found (by omega) with
      ⟨⟨_, middle⟩, wakes⟩
    have middleInside : middle.inInterrupt = true := (get?_of_run_wake wakes).1.trans inside
    have ran : s.up.run k = .ok ((), { middle with
        yieldDue := middle.yieldDue || middle.outranked }.atLevel k.processor.level) :=
      run_masked_eq_ok_iff.mpr ⟨_, run_bind_eq_ok_iff.mpr
        ⟨(), middle, wakes, run_preempt_inside middleInside⟩, rfl⟩
    have raised := raised_of_run_up inside found ran
    have sound' : Sound d ⟨{ middle with
        yieldDue := middle.yieldDue || middle.outranked }.atLevel k.processor.level, none⟩ := by
      refine (masked.wake wakes).move (.quiet ?_)
      exact sameWork_of_remarks (.refl _) (.refl _) (fun _ => rfl) rfl
    have rest_eq : (Ranked.sort k.priorityOf semaphore.waiters).tail = rest := by rw [order]; rfl
    rw [order] at descending
    rcases ih sound' raised.inside raised.raised (by
        rw [rest_eq]
        dsimp only
        omega) (by
          rw [raised.worth, rest_eq]
          exact Ranked.Descending.sort_eq (List.pairwise_cons.mp descending).2) with ⟨k', ups⟩
    refine ⟨k', .next ran ?_ ups⟩
    rw [queueAt_semaphore found, queueAt_semaphore raised.raised, rest_eq]
    exact perm

/-- What the listing of the waiters has to do with the order in which they are woken. -/
structure Lists (k : Kernel) (s : SemaphoreId) (semaphore : Semaphore) : Prop where
  listing : s.waiters.run k = .ok (semaphore.waiters, k)
  order : ∀ woken k', s.Ups k.interrupted woken k' →
    Ranked.sort k.priorityOf semaphore.waiters =
      woken ++ Ranked.sort k.priorityOf (k'.queueAt (.semaphore s))
  every : semaphore.value + semaphore.waiters.length ≤ maxHalfWord →
    ∃ k', s.Ups k.interrupted (Ranked.sort k.priorityOf semaphore.waiters) k'
  current : Ranked.sort k.priorityOf semaphore.waiters = semaphore.waiters ↔
    Ranked.Descending k.priorityOf semaphore.waiters

theorem lists (sound : Sound d ⟨k, none⟩) (found : k.semaphores.get? s = some semaphore) :
    Lists k s semaphore where
  listing := run_findSemaphore_bind_eq_ok_iff.mpr ⟨semaphore, found, rfl⟩
  order woken k' ups := by
    have order := ups.sort_eq rfl
    rwa [queueAt_semaphore (k := k.interrupted) found] at order
  every room := by
    have interrupted : Sound d ⟨k.interrupted, none⟩ :=
      sound.move (.quiet (sameWork_of_remarks (.refl _) (.refl _) (fun _ => rfl) rfl))
    exact exists_ups interrupted rfl found room
  current := by
    refine ⟨fun same => ?_, fun descending => descending.sort_eq⟩
    rw [← same]
    exact Ranked.descending_sort ..

end SemaphoreId

/-! ## Donors -/

namespace Kernel

/-- The donors of `t` in stored order, none if there is no such thread. -/
def donorsOf (k : Kernel) (t : ThreadId) : List ThreadId := (k.threads.get? t).elim [] (·.donors)

theorem donorsOf_of_get? (found : k.threads.get? t = some thread) :
    k.donorsOf t = thread.donors := by
  rw [donorsOf, found, Option.elim_some]

theorem donorsOf_of_agree
    (same : Arena.Agree (fun x : Thread => x.donors) k'.threads k.threads) (t : ThreadId) :
    k'.donorsOf t = k.donorsOf t := by
  have same := same t
  rw [donorsOf, donorsOf]
  cases found : k.threads.get? t <;> cases found' : k'.threads.get? t <;> simp_all

/-- What may happen to the donors of a thread at a time.  They are put in order, or somebody joins
them wherever they stand. -/
inductive Redonated (k k' : Kernel) (t : ThreadId) : Prop
  | kept (same : k'.donorsOf t = k.donorsOf t)
  | joined (donor : ThreadId) (joins : k'.donorsOf t = k.withDonor donor (k.donorsOf t))
  | ordered (descending : Ranked.Descending k.priorityOf (k'.donorsOf t))

theorem Redonated.descending (redonated : k.Redonated k' t)
    (before : Ranked.Descending k.priorityOf (k.donorsOf t))
    (same : ∀ x ∈ k'.donorsOf t, k'.priorityOf x = k.priorityOf x) :
    Ranked.Descending k'.priorityOf (k'.donorsOf t) := by
  suffices descending : Ranked.Descending k.priorityOf (k'.donorsOf t) from descending.congr same
  cases redonated with
  | kept unchanged => exact unchanged ▸ before
  | joined donor joins =>
    rw [joins, withDonor]
    split
    · exact before
    · exact before.insert donor
  | ordered descending => exact descending

/-- The donors of one thread change. -/
theorem redonated_of_modify {f : Thread → Thread} {t' : ThreadId}
    (found : k.threads.get? t = some thread) (threads : k'.threads = k.threads.modify t f)
    (here : (f thread).donors = thread.donors ∨
      Ranked.Descending k.priorityOf (f thread).donors) : k.Redonated k' t' := by
  by_cases same : t = t'
  · subst same
    have after : k'.donorsOf t = (f thread).donors := by
      apply donorsOf_of_get?
      rw [threads]
      exact Arena.get?_modify_self _ found
    rcases here with unchanged | descending
    · exact .kept (by rw [after, unchanged, donorsOf_of_get? found])
    · exact .ordered (after ▸ descending)
  · refine .kept ?_
    rw [donorsOf, donorsOf, threads, Arena.get?_modify_of_ne _ same]

/-- A change of donors seen from a later kernel, in which they are the same. -/
theorem Redonated.of_later {later : Kernel} (redonated : k.Redonated k' t)
    (same : later.donorsOf t = k'.donorsOf t) : k.Redonated later t := by
  cases redonated with
  | kept unchanged => exact .kept (same.trans unchanged)
  | joined donor joins => exact .joined donor (same.trans joins)
  | ordered descending => exact .ordered (same ▸ descending)

/-- A change of donors seen from an earlier kernel, with the same donors and priorities. -/
theorem Redonated.of_earlier {earlier : Kernel} (redonated : k.Redonated k' t)
    (donors : k.donorsOf t = earlier.donorsOf t) (priorities : k.priorityOf = earlier.priorityOf) :
    earlier.Redonated k' t := by
  cases redonated with
  | kept unchanged => exact .kept (unchanged.trans donors)
  | joined donor joins =>
    refine .joined donor (joins.trans ?_)
    rw [withDonor, withDonor, donors, priorities]
  | ordered descending => exact .ordered (priorities ▸ descending)

theorem donorsOf_of_run_attempt {work : Pending} {success : Bool}
    (h : (s.attempt work).run k = .ok (success, k')) (t : ThreadId) :
    k'.donorsOf t = k.donorsOf t := by
  rcases SemaphoreId.of_run_attempt h with ⟨_, _, ⟨_, _, rfl⟩ | ⟨_, _, _, _, rfl⟩⟩
  · rfl
  · exact donorsOf_of_agree (Arena.agree_modify fun _ => by rfl) t

theorem donorsOf_of_run_wake (h : s.wake.run k = .ok ((), k')) (t : ThreadId) :
    k'.donorsOf t = k.donorsOf t := by
  rcases SemaphoreId.of_run_wake h with ⟨_, _, ⟨_, rfl⟩ | ⟨_, _, _, woken⟩⟩
  · rfl
  · rcases of_run_unblock woken with ⟨_, _, _, _, _, rfl⟩
    exact donorsOf_of_agree (Arena.Agree.trans (Arena.agree_modify fun _ => by rfl)
      (Arena.agree_modify fun _ => by rfl)) t

theorem redonated_of_run_hold (placed : k.Placed) (running : k.Running)
    (h : l.hold.run (s.taken k) = .ok ((), k')) (t : ThreadId) : k.Redonated k' t := by
  rcases running with ⟨thread, found, runs⟩
  have unqueued := placed.unqueued_of_running found runs
  rcases LockId.of_run_hold (k := s.taken k) found unqueued h with
    ⟨_, _, donors, priority, _, _, _, _, price, rfl⟩
  refine redonated_of_modify (f := fun old => { old with waitingOn := none, donors, priority })
    found rfl ?_
  rcases price with ⟨_, rfl, _⟩ | ⟨_, _, descending, _⟩
  · exact .inl rfl
  · exact .inr descending

/-- Whoever asks for a held lock joins the donors of the holder. -/
theorem redonated_of_asks {asking : Kernel} (asks : l.Asks lock k asking) (t : ThreadId) :
    k.Redonated asking t := by
  cases asks with
  | free _ => exact .kept rfl
  | @held holder thread donors _ holds found joins donated =>
    have waiting : Arena.Agree (fun x : Thread => x.donors)
        (k.mapThread k.current fun old => { old with waitingOn := some l }).threads k.threads :=
      Arena.agree_modify fun _ => rfl
    have after : asking.donorsOf t = (l.asked holder donors k).donorsOf t :=
      donorsOf_of_agree ((repriced_of_donate donated).view _ fun _ => rfl) t
    by_cases here : holder = t
    · subst here
      refine .joined k.current ?_
      rw [after, ← donorsOf_of_agree waiting, donorsOf_of_get? found, ← joins]
      have asked := Arena.get?_modify_self (fun old : Thread => { old with donors }) found
      exact donorsOf_of_get? (k := l.asked holder donors k) asked
    · refine .kept ?_
      rw [after, ← donorsOf_of_agree waiting, donorsOf, donorsOf, LockId.asked, mapThread_threads,
        Arena.get?_modify_of_ne _ here]

/-- A new thread has no donors. -/
theorem redonated_enrolled (donors : thread.donors = []) (t : ThreadId) :
    k.Redonated { k with threads := k.threads.push thread } t := by
  by_cases new : k.threads.next = t
  · have found : (k.threads.push thread).get? t = some thread := by
      rw [Arena.get?_push, if_pos new.symm]
    refine .ordered ?_
    rw [donorsOf, found, Option.elim_some, donors]
    exact List.Pairwise.nil
  · refine .kept ?_
    rw [donorsOf, donorsOf, Arena.get?_push, if_neg (Ne.symm new)]

theorem redonated_of_run_reclaim (h : reclaim.run k = .ok ((), k')) (t : ThreadId) :
    k.Redonated k' t := by
  rcases of_run_reclaim h with ⟨threads, _, _, _, gone, rfl⟩
  have after := gone t
  split at after
  · refine .ordered ?_
    rw [donorsOf, after]
    exact List.Pairwise.nil
  · refine .kept ?_
    rw [donorsOf, donorsOf, after]

theorem redonated_of_run_attemptLock {success : Bool} (placed : k.Placed)
    (graph : WaitGraph ⟨k, due⟩) (runs : k.Runs) (h : l.attempt.run k = .ok (success, k'))
    (t : ThreadId) : k.Redonated k' t := by
  cases success with
  | true =>
    rcases graph.of_run_attempt h with ⟨lock, _, ⟨_, _, holds⟩ | ⟨_, _, _, _, _, _, no, _⟩⟩
    · exact redonated_of_run_hold placed runs.running holds t
    · cases no
  | false =>
    rcases LockId.of_run_attempt_false h with ⟨lock, asking, _, asks, tries⟩
    exact (redonated_of_asks asks t).of_later (donorsOf_of_run_attempt tries t)

theorem redonated_of_release {dropped : Kernel} (placed : k.Placed) (running : k.Running)
    (drops : l.dropDonors.run k = .ok ((), dropped))
    (h : s.wake.run ((dropped.mapLock l fun old => { old with holder := none }).withEvents
      (.releases k.current l :: dropped.events)) = .ok ((), k')) (t : ThreadId) :
    k.Redonated k' t := by
  rcases running with ⟨thread, foundCurrent, running⟩
  rcases LockId.of_run_dropDonors foundCurrent (placed.unqueued_of_running foundCurrent running)
    drops with ⟨donors, events, _, _, _, descending, rfl⟩
  refine Redonated.of_later ?_ (donorsOf_of_run_wake h t)
  exact redonated_of_modify (f := fun old => { old with donors, priority := _ }) foundCurrent rfl
    (.inr descending)

theorem redonated_of_run_rebase {base : Priority}
    (h : (refresh k.current).run (k.mapThread k.current fun old => { old with base }) =
      .ok ((), k')) (t : ThreadId) : k.Redonated k' t := by
  rcases of_run_refresh h with ⟨thread, donors, _, found, live, _, rfl⟩
  have rebased : Arena.Agree (fun x : Thread => (x.donors, x.priority))
      (k.mapThread k.current fun old => { old with base }).threads k.threads :=
    Arena.agree_modify fun _ => rfl
  have priorities : (k.mapThread k.current fun old => { old with base }).priorityOf =
      k.priorityOf := funext fun u => priorityOf_of_agree (rebased.coarsen Prod.snd) u
  refine Redonated.of_earlier ?_ (donorsOf_of_agree (rebased.coarsen Prod.fst) t) priorities
  refine redonated_of_modify (f := fun old => { old with donors, priority := _ }) found rfl ?_
  rw [live]
  exact .inr (descending_liveDonors fun _ => rfl)

end Kernel

/-! ## Every move -/

/-- A move puts the donors of a thread in order, lets somebody join them, or leaves them alone. -/
theorem Move.redonated (move : Move d act m m') (regular : Regular d m)
    (named : d.plainHandles = true) (t : ThreadId) : m.kernel.Redonated m'.kernel t := by
  have placed := regular.placed
  cases move with
  | quiet same =>
    refine .kept ?_
    rw [donorsOf, donorsOf, same.threads]
  | tick | appoint | create | createLock => exact .kept rfl
  | enroll _ _ _ _ donors _ => exact redonated_enrolled donors t
  | unblock _ ran =>
    rcases of_run_unblock ran with ⟨_, _, _, _, _, rfl⟩
    exact .kept (donorsOf_of_agree (Arena.agree_modify fun _ => by rfl) t)
  | ready | halt | doze | pick | undertake | enlist =>
    exact .kept (donorsOf_of_agree (Arena.agree_modify fun _ => by rfl) t)
  | rise =>
    exact .kept (donorsOf_of_agree (Arena.Agree.trans (Arena.agree_modify fun _ => by rfl)
      (Arena.agree_modify fun _ => by rfl)) t)
  | reclaim ran => exact redonated_of_run_reclaim ran t
  | destroy _ _ ran | destroyLock _ _ _ ran =>
    rcases SemaphoreId.of_run_destroy ran with ⟨_, _, _, rfl⟩
    exact .kept rfl
  | take _ _ ran =>
    rcases SemaphoreId.of_run_take_true ran with ⟨_, _, _, rfl⟩
    exact .kept rfl
  | attempt _ _ _ ran | unsignalled _ ran => exact .kept (donorsOf_of_run_attempt ran t)
  | attemptLock runs _ ran =>
    exact redonated_of_run_attemptLock placed (regular.graph named) runs ran t
  | seize runs found takes ran =>
    rcases SemaphoreId.of_run_take_true takes with ⟨_, _, _, rfl⟩
    exact redonated_of_run_hold placed runs.running ran t
  | release running found holds drops ran => exact redonated_of_release placed running drops ran t
  | wake _ ran => exact .kept (donorsOf_of_run_wake ran t)
  | rebase running ran => exact redonated_of_run_rebase ran t
  | signal found first ran =>
    rename_i k k' c condition waiter rest
    exact .kept (donorsOf_of_run_wake (k := c.called waiter.thread rest k) ran t)
  | signalled runs takes ran =>
    rcases SemaphoreId.of_run_destroy ran with ⟨_, _, _, rfl⟩
    exact .kept (donorsOf_of_run_attempt (k := _) takes t)

/-- What a move does to the order of listings.  Who joins a line or leaves it puts it in order, and
a line or a list of donors that is in order stays so unless the priority of somebody listed
changes. -/
structure Kernel.Relists (k k' : Kernel) : Prop where
  revised : ∀ line, k'.waiting line ≠ k.waiting line →
    Ranked.Descending k'.worth (k'.waiting line)
  line : ∀ line, Ranked.Descending k.worth (k.waiting line) →
    (∀ w ∈ k'.waiting line, k'.worth w = k.worth w) → Ranked.Descending k'.worth (k'.waiting line)
  donors : ∀ t, Ranked.Descending k.priorityOf (k.donorsOf t) →
    (∀ x ∈ k'.donorsOf t, k'.priorityOf x = k.priorityOf x) →
      Ranked.Descending k'.priorityOf (k'.donorsOf t)

theorem Kernel.Revised.descending (revised : k.Revised k' line)
    (changed : k'.waiting line ≠ k.waiting line) :
    Ranked.Descending k'.worth (k'.waiting line) := by
  cases revised with
  | kept same => exact absurd same changed
  | joined w _ joins =>
    rw [joins]
    exact (Ranked.descending_sort ..).insert w
  | @left w worth first =>
    have sorted := Ranked.descending_sort k.worth (k.waiting line)
    rw [first] at sorted
    refine Ranked.Descending.congr (List.pairwise_cons.mp sorted).2 fun v listed => worth v ?_
    rw [(Ranked.perm_of_sort_eq_cons first).mem_iff]
    exact List.mem_cons_of_mem w listed

theorem Move.relists (move : Move d act m m') (lined : m.Lined d) (named : d.plainHandles = true) :
    m.kernel.Relists m'.kernel where
  revised line changed := (lined.revised move line).descending changed
  line line before same := by
    by_cases changed : m'.kernel.waiting line = m.kernel.waiting line
    · rw [changed] at same ⊢
      exact before.congr same
    · exact (lined.revised move line).descending changed
  donors t before same := (move.redonated lined.regular named t).descending before same

/-- The waiters of a semaphore are woken in the order of their priorities at that moment, and equals
in listed order, so that the listing is the order of wakes if it is in order of priority and only
then.  The listing of a lock's waiters is that of its unit.  Every line and every list of donors is
put and kept in order, but for changes of the priorities of those listed. -/
theorem listing_order (reachable : Reachable d k) (named : d.plainHandles = true) :
    (∀ s semaphore, k.semaphores.get? s = some semaphore → SemaphoreId.Lists k s semaphore) ∧
    (∀ l lock, k.locks.get? l = some lock → ∃ unit, k.semaphores.get? lock.semaphore = some unit ∧
      (LockId.waiters l).run k = .ok (unit.waiters, k)) ∧
    ∀ deeds m, Moves d deeds ⟨k, none⟩ m → ∀ act m', Move d act m m' →
      m.kernel.Relists m'.kernel := by
  have regular := reachable.steady.regular
  refine ⟨fun s semaphore found => SemaphoreId.lists regular.toSound found,
    fun l lock found => ?_, fun deeds m moves act m' move => ?_⟩
  · rcases (regular.graph named).unit l lock found with ⟨unit, foundUnit, _⟩
    refine ⟨unit, foundUnit, ?_⟩
    rw [LockId.waiters, run_bind_of_ok (run_findLock_eq_ok_iff.mpr ⟨found, rfl⟩)]
    exact (SemaphoreId.lists regular.toSound foundUnit).listing
  · have lined : m.Lined d := moves.induction reachable.lined fun move lined => lined.move move
    exact move.relists lined named

/-- Two threads wait in order of priority, and are woken as they are listed. -/
theorem listing_order_of_two : ∃ k k', Reachable { plainHandles := true } k ∧
    (SemaphoreId.waiters ⟨0⟩).run k = .ok ([⟨4⟩, ⟨3⟩], k) ∧
    SemaphoreId.Ups ⟨0⟩ k.interrupted [⟨4⟩, ⟨3⟩] k' := by
  have ran : (Discipline.performAll { plainHandles := true }
      [.start, .createSemaphore 0, .spawn { priority := 32 }, .down ⟨0⟩, .spawn { priority := 40 },
        .down ⟨0⟩] (.fresh {} .stable)).bind (fun k =>
          (k.semaphores.get? ⟨0⟩).map fun semaphore =>
            decide (semaphore.waiters = [⟨4⟩, ⟨3⟩] ∧ semaphore.value = 0 ∧
              k.priorityOf ⟨3⟩ ≤ k.priorityOf ⟨4⟩)) = some true := by decide +kernel
  rcases Option.bind_eq_some_iff.mp ran with ⟨k, performed, rest⟩
  rcases Option.map_eq_some_iff.mp rest with ⟨semaphore, found, told⟩
  rcases of_decide_eq_true told with ⟨waiters, value, le⟩
  have reachable := (Reachable.fresh {} .stable).performAll performed
  have lists := (listing_order reachable rfl).1 _ _ found
  have descending : Ranked.Descending k.priorityOf semaphore.waiters := by
    rw [waiters]
    exact List.pairwise_pair.mpr le
  rcases lists.every (by rw [value, waiters]; decide) with ⟨k', ups⟩
  rw [lists.current.mpr descending, waiters] at ups
  exact ⟨k, k', reachable, waiters ▸ lists.listing, ups⟩

/-- Two threads wait for a semaphore and two for a lock.  The lower one of each pair holds another
lock and is raised by whoever asks for that one, and is listed last all the same. -/
theorem listings_out_of_date : ∃ k, Reachable { plainHandles := true } k ∧
    ((SemaphoreId.waiters ⟨0⟩).run k = .ok ([⟨6⟩, ⟨5⟩], k) ∧
      ∃ k', SemaphoreId.Ups ⟨0⟩ k.interrupted [⟨5⟩, ⟨6⟩] k') ∧
    ((LockId.waiters ⟨2⟩).run k = .ok ([⟨4⟩, ⟨3⟩], k) ∧
      ∃ lock k', k.locks.get? ⟨2⟩ = some lock ∧
        lock.semaphore.Ups k.interrupted [⟨3⟩, ⟨4⟩] k') ∧
    k.donorsOf .main = [⟨4⟩, ⟨3⟩] ∧ k.priorityOf ⟨4⟩ < k.priorityOf ⟨3⟩ := by
  have ran : (Discipline.performAll { plainHandles := true }
      [.start, .createSemaphore 0, .createLock, .createLock, .createLock, .acquire ⟨2⟩,
        .spawn { priority := 32 }, .acquire ⟨0⟩, .acquire ⟨2⟩, .spawn { priority := 40 },
        .acquire ⟨2⟩, .spawn { priority := 41 }, .acquire ⟨1⟩, .down ⟨0⟩,
        .spawn { priority := 42 }, .down ⟨0⟩, .spawn { priority := 50 }, .acquire ⟨0⟩,
        .spawn { priority := 51 }, .acquire ⟨1⟩] (.fresh {} .stable)).bind (fun k =>
          (k.semaphores.get? ⟨0⟩).bind fun semaphore => (k.locks.get? ⟨2⟩).bind fun lock =>
            (k.semaphores.get? lock.semaphore).map fun unit =>
              decide (semaphore.waiters = [⟨6⟩, ⟨5⟩] ∧ semaphore.value = 0 ∧
                Ranked.sort k.priorityOf [⟨6⟩, ⟨5⟩] = [⟨5⟩, ⟨6⟩] ∧
                unit.waiters = [⟨4⟩, ⟨3⟩] ∧ unit.value = 0 ∧
                Ranked.sort k.priorityOf [⟨4⟩, ⟨3⟩] = [⟨3⟩, ⟨4⟩] ∧
                k.donorsOf .main = [⟨4⟩, ⟨3⟩] ∧ k.priorityOf ⟨4⟩ < k.priorityOf ⟨3⟩)) =
      some true := by decide +kernel
  rcases Option.bind_eq_some_iff.mp ran with ⟨k, performed, rest⟩
  rcases Option.bind_eq_some_iff.mp rest with ⟨semaphore, found, rest⟩
  rcases Option.bind_eq_some_iff.mp rest with ⟨lock, foundLock, rest⟩
  rcases Option.map_eq_some_iff.mp rest with ⟨unit, foundUnit, told⟩
  rcases of_decide_eq_true told with
    ⟨waiters, value, order, waiters', value', order', donors, lower⟩
  have reachable := (Reachable.fresh {} .stable).performAll performed
  have sound := reachable.steady.regular.toSound
  have lists := SemaphoreId.lists sound found
  have lists' := SemaphoreId.lists sound foundUnit
  rcases lists.every (by rw [value, waiters]; decide) with ⟨k', ups⟩
  rcases lists'.every (by rw [value', waiters']; decide) with ⟨k'', ups'⟩
  rw [waiters, order] at ups
  rw [waiters', order'] at ups'
  refine ⟨k, reachable, ⟨waiters ▸ lists.listing, k', ups⟩,
    ⟨?_, lock, k'', foundLock, ups'⟩, donors, lower⟩
  rw [LockId.waiters, run_bind_of_ok (run_findLock_eq_ok_iff.mpr ⟨foundLock, rfl⟩), ← waiters']
  exact lists'.listing

end ThreadKernel
