import ThreadKernel.Proofs.Conservation

/-!
# The order of wakes

Threads wait in line for a unit of a semaphore or for a signal of a condition, and both kinds of
lines are kept alike.  Priorities change while threads wait, so a line need not be in order.  It is
put in order whenever somebody joins it or is to leave it, and equals keep their order then.

* `Kernel.Revised`: what one move does to a line.  Somebody joins, or the first of the highest
  leaves, or nothing happens.
* `Revised.ordered`: who came first stays in front of whoever does not outrank it.
* `wake_order`: what this comes to in a run.
-/

namespace ThreadKernel

open Kernel

/-- Where threads wait in order of priority: for a unit, or for a signal. -/
inductive Line
  | semaphore (s : SemaphoreId)
  | condition (c : ConditionId)
deriving DecidableEq

variable {d : Discipline} {k k' : Kernel} {m m' m'' : Machine} {act : Option Act}
  {deeds : List Deed} {due : Option Pending} {s : SemaphoreId} {semaphore : Semaphore}
  {c : ConditionId} {l : LockId} {line other : Line} {v w x y : Waiter} {u : Unit}

namespace Kernel

/-- The waits in line, in stored order. -/
def waiting (k : Kernel) : Line → List Waiter
  | .semaphore s => (k.queueAt (.semaphore s)).map (Waiter.mk s)
  | .condition c => k.enlisted c

/-- `w` leaves the line.  Nobody in it has a higher effective priority, and the others stay, each
once. -/
structure Serves (k k' : Kernel) (line : Line) (w : Waiter) : Prop where
  highest : ∀ v ∈ k.waiting line, k.worth v ≤ k.worth w
  others : (k.waiting line).Perm (w :: k'.waiting line)

/-- What may happen to a line at a time.  Whoever joins may have changed priorities before, but
nobody's in the line has changed when one of them leaves. -/
inductive Revised (k k' : Kernel) (line : Line) : Prop
  | kept (same : k'.waiting line = k.waiting line)
  | joined (w : Waiter) (fresh : w ∉ k.waiting line)
      (joins : k'.waiting line = Ranked.join k'.worth w (k.waiting line))
  | left {w : Waiter} (worth : ∀ v ∈ k.waiting line, k'.worth v = k.worth v)
      (first : Ranked.sort k.worth (k.waiting line) = w :: k'.waiting line)

theorem serves_of_first (first : Ranked.sort k.worth (k.waiting line) = w :: k'.waiting line) :
    k.Serves k' line w :=
  ⟨fun _ listed => Ranked.le_of_sort_eq_cons first listed, Ranked.perm_of_sort_eq_cons first⟩

/-! ## What a revision keeps -/

namespace Revised

theorem nodup (revised : k.Revised k' line) (before : (k.waiting line).Nodup) :
    (k'.waiting line).Nodup := by
  cases revised with
  | kept same => exact same ▸ before
  | joined w fresh joins =>
    rw [joins, (Ranked.join_perm _ _ _).nodup_iff]
    exact List.nodup_cons.mpr ⟨fresh, before⟩
  | left _ first =>
    rw [(Ranked.perm_of_sort_eq_cons first).nodup_iff] at before
    exact (List.nodup_cons.mp before).2

theorem serves (revised : k.Revised k' line) (listed : w ∈ k.waiting line)
    (gone : w ∉ k'.waiting line) : k.Serves k' line w := by
  cases revised with
  | kept same => exact absurd (same ▸ listed) gone
  | joined v _ joins =>
    rw [joins, (Ranked.join_perm _ _ _).mem_iff] at gone
    exact absurd (List.mem_cons_of_mem v listed) gone
  | left _ first =>
    rw [(Ranked.perm_of_sort_eq_cons first).mem_iff] at listed
    rcases List.mem_cons.mp listed with rfl | stays
    · exact serves_of_first first
    · exact absurd stays gone

/-- Who joins stands behind all that it does not outrank. -/
theorem behind (revised : k.Revised k' line) (listed : x ∈ k.waiting line)
    (absent : y ∉ k.waiting line) (joins : y ∈ k'.waiting line) (le : k'.worth y ≤ k'.worth x) :
    [x, y].Sublist (k'.waiting line) := by
  cases revised with
  | kept same => exact absurd (same ▸ joins) absent
  | joined w _ becomes =>
    rw [becomes, (Ranked.join_perm _ _ _).mem_iff] at joins
    rcases List.mem_cons.mp joins with rfl | before
    · rw [becomes]
      exact Ranked.pair_sublist_join_self listed le
    · exact absurd before absent
  | left _ first =>
    refine absurd ?_ absent
    rw [(Ranked.perm_of_sort_eq_cons first).mem_iff]
    exact List.mem_cons_of_mem _ joins

/-- Of two that stay in line, the one in front stays in front if the other does not outrank it. -/
theorem ordered (revised : k.Revised k' line) (nodup : (k.waiting line).Nodup)
    (before : [x, y].Sublist (k.waiting line)) (stays : x ∈ k'.waiting line)
    (le : k'.worth y ≤ k'.worth x) : [x, y].Sublist (k'.waiting line) := by
  cases revised with
  | kept same => exact same ▸ before
  | joined w _ joins =>
    rw [joins]
    exact Ranked.pair_sublist_join before le w
  | left worth first =>
    rw [worth y (before.subset (by simp)), worth x (before.subset (by simp))] at le
    have sorted := Ranked.pair_sublist_sort before le
    rw [(Ranked.perm_of_sort_eq_cons first).nodup_iff] at nodup
    rw [first] at sorted
    cases sorted with
    | cons _ rest => exact rest
    | cons_cons _ _ => exact absurd stays (List.nodup_cons.mp nodup).1

/-- As long as the one in front is there, the other does not leave. -/
theorem remains (revised : k.Revised k' line) (before : [x, y].Sublist (k.waiting line))
    (le : k.worth y ≤ k.worth x) : y ∈ k'.waiting line := by
  have listed : y ∈ k.waiting line := before.subset (by simp)
  cases revised with
  | kept same => exact same ▸ listed
  | joined w _ joins =>
    rw [joins, (Ranked.join_perm _ _ _).mem_iff]
    exact List.mem_cons_of_mem w listed
  | left _ first =>
    have sorted := Ranked.pair_sublist_sort before le
    rw [first] at sorted
    cases sorted with
    | cons _ rest => exact rest.subset (by simp)
    | cons_cons _ rest => exact rest.subset (by simp)

end Revised

/-! ## Lines of a changed kernel -/

theorem enlisted_of_eq (conditions : k'.conditions = k.conditions) (c : ConditionId) :
    k'.enlisted c = k.enlisted c := by
  rw [enlisted, conditions, enlisted]

theorem enlisted_of_modify {condition : Condition} {waiters : List Waiter}
    (found : k.conditions.get? c = some condition)
    (conditions : k'.conditions = k.conditions.modify c fun old => { old with waiters })
    (c' : ConditionId) : k'.enlisted c' = if c' = c then waiters else k.enlisted c' := by
  rw [enlisted, conditions]
  split
  · next here => rw [here, Arena.get?_modify_self _ found, Option.elim_some]
  · next apart => rw [Arena.get?_modify_of_ne _ (Ne.symm apart), enlisted]

theorem queueAt_of_modify {f : Semaphore → Semaphore} (found : k.semaphores.get? s = some semaphore)
    (semaphores : k'.semaphores = k.semaphores.modify s f) (s' : SemaphoreId) :
    k'.queueAt (.semaphore s') =
      if s' = s then (f semaphore).waiters else k.queueAt (.semaphore s') := by
  have queue := queueAt_mapSemaphore found f (.semaphore s')
  simp only [Place.semaphore.injEq] at queue
  rw [queueAt, semaphores]
  exact queue

/-- Who waits still does when only units are counted. -/
theorem queueAt_of_modify_value {f : Semaphore → Semaphore}
    (found : k.semaphores.get? s = some semaphore)
    (semaphores : k'.semaphores = k.semaphores.modify s f)
    (waiters : (f semaphore).waiters = semaphore.waiters) (s' : SemaphoreId) :
    k'.queueAt (.semaphore s') = k.queueAt (.semaphore s') := by
  rw [queueAt_of_modify found semaphores]
  split
  · next here => rw [here, waiters, queueAt_semaphore found]
  · rfl

/-- Nobody waits for a new semaphore. -/
theorem queueAt_of_push (semaphores : k'.semaphores = k.semaphores.push semaphore)
    (unawaited : semaphore.waiters = []) (s : SemaphoreId) :
    k'.queueAt (.semaphore s) = k.queueAt (.semaphore s) := by
  rw [queueAt, queueAt, semaphores, Arena.get?_push]
  split
  · next new => rw [new, Arena.get?_next, Option.elim_some, Option.elim_none, unawaited]
  · rfl

/-- Nobody waits for a semaphore that is destroyed. -/
theorem queueAt_of_erase (found : k.semaphores.get? s = some semaphore)
    (unawaited : semaphore.waiters = []) (semaphores : k'.semaphores = k.semaphores.erase s)
    (s' : SemaphoreId) : k'.queueAt (.semaphore s') = k.queueAt (.semaphore s') := by
  rw [queueAt, queueAt, semaphores, Arena.get?_erase]
  split
  · next here => rw [← here, found, Option.elim_none, Option.elim_some, unawaited]
  · rfl

theorem waiting_of_queues (queues : ∀ s, k'.queueAt (.semaphore s) = k.queueAt (.semaphore s))
    (enlisted : ∀ c, k'.enlisted c = k.enlisted c) (line : Line) :
    k'.waiting line = k.waiting line := by
  cases line with
  | semaphore s => rw [waiting, queues, waiting]
  | condition c => exact enlisted c

theorem waiting_of_eq (semaphores : k'.semaphores = k.semaphores)
    (enlisted : ∀ c, k'.enlisted c = k.enlisted c) (line : Line) :
    k'.waiting line = k.waiting line :=
  waiting_of_queues (fun s => by rw [queueAt, semaphores, queueAt]) enlisted line

theorem Retouched.waiting (same : k.Retouched k') (line : Line) :
    k'.waiting line = k.waiting line :=
  waiting_of_eq same.semaphores (enlisted_of_eq same.conditions) line

theorem worth_of_agree (same : Arena.Agree (fun thread => thread.priority) k'.threads k.threads) :
    k'.worth = k.worth :=
  funext fun v => priorityOf_of_agree same v.thread

/-- A revision seen from an earlier kernel, which has the same line. -/
theorem Revised.of_earlier {earlier : Kernel} (revised : k.Revised k' line)
    (same : k.waiting line = earlier.waiting line)
    (worth : ∀ v ∈ earlier.waiting line, k.worth v = earlier.worth v) :
    earlier.Revised k' line := by
  cases revised with
  | kept unchanged => exact .kept (unchanged.trans same)
  | joined w fresh joins => exact .joined w (same ▸ fresh) (same ▸ joins)
  | left unmoved first =>
    rw [same] at unmoved first
    rw [Ranked.sort_congr worth] at first
    exact .left (fun v listed => (unmoved v listed).trans (worth v listed)) first

/-- The first of the highest, if anybody waits for `s`, is taken off, and nothing else happens to
lines and priorities. -/
structure Calls (k k' : Kernel) (s : SemaphoreId) : Prop where
  worth : k'.worth = k.worth
  others : ∀ line ≠ .semaphore s, k'.waiting line = k.waiting line
  first : k.waiting (.semaphore s) = [] ∧ k'.waiting (.semaphore s) = [] ∨
    ∃ w, Ranked.sort k.worth (k.waiting (.semaphore s)) = w :: k'.waiting (.semaphore s)

theorem Calls.revised (calls : k.Calls k' s) (line : Line) : k.Revised k' line := by
  by_cases here : line = .semaphore s
  · subst here
    rcases calls.first with ⟨before, after⟩ | ⟨w, first⟩
    · exact .kept (after.trans before.symm)
    · exact .left (fun v _ => congrFun calls.worth v) first
  · exact .kept (calls.others line here)

end Kernel

/-! ## What the parts of operations do to lines -/

namespace SemaphoreId

theorem waiting_taken (found : k.semaphores.get? s = some semaphore) (line : Line) :
    (s.taken k).waiting line = k.waiting line :=
  waiting_of_queues (queueAt_of_modify_value found (taken_semaphores s k) rfl) (fun _ => rfl) line

/-- Who gets a unit changes no line, and who gets none joins. -/
theorem waiting_of_run_attempt {retry : Pending} {success : Bool}
    (h : (s.attempt retry).run k = .ok (success, k')) (line : Line) :
    k'.waiting line = k.waiting line ∨ line = .semaphore s ∧
      k'.waiting line = Ranked.join k'.worth ⟨s, k.current⟩ (k.waiting line) := by
  rcases of_run_attempt h with ⟨semaphore, found, ⟨_, _, rfl⟩ | ⟨_, _, waiters, joins, rfl⟩⟩
  · exact .inl (waiting_taken found line)
  · have queue := queueAt_of_modify found (queued_semaphores s retry waiters k)
    cases line with
    | condition c => exact .inl rfl
    | semaphore s' =>
      by_cases here : s' = s
      · subst here
        have worth : (s'.queued retry waiters k).worth = k.worth :=
          worth_of_agree (Arena.agree_modify fun _ => by rfl)
        refine .inr ⟨rfl, ?_⟩
        rw [waiting, waiting, queue, if_pos rfl, queueAt_semaphore found, worth, Ranked.join_map]
        exact congrArg (List.map (Waiter.mk s')) joins
      · refine .inl ?_
        rw [waiting, waiting, queue, if_neg here]

/-- Who joins is not in line yet.  Priorities may have changed since the line was `earlier`. -/
theorem revised_of_run_attempt {earlier : Kernel} {retry : Pending} {success : Bool}
    (placed : k.Placed) (running : k.Running) (same : k.waiting line = earlier.waiting line)
    (h : (s.attempt retry).run k = .ok (success, k')) : earlier.Revised k' line := by
  rcases waiting_of_run_attempt h line with unchanged | ⟨rfl, joins⟩
  · exact .kept (unchanged.trans same)
  · rw [same] at joins
    refine .joined _ (fun listed => ?_) joins
    rcases running with ⟨thread, found, runs⟩
    rw [← same] at listed
    rcases List.mem_map.mp listed with ⟨t, queued, this⟩
    cases this
    exact placed.not_mem_of_detached found (placed.detached_of_running found runs) _ queued

theorem waiting_of_run_destroy (h : s.destroy.run k = .ok (u, k')) (line : Line) :
    k'.waiting line = k.waiting line := by
  rcases of_run_destroy h with ⟨semaphore, found, unawaited, rfl⟩
  exact waiting_of_queues (queueAt_of_erase found unawaited (destroyed_semaphores s k))
    (fun _ => rfl) line

theorem calls_of_run_wake (h : s.wake.run k = .ok (u, k')) : k.Calls k' s := by
  rcases of_run_wake h with ⟨semaphore, found, ⟨unawaited, rfl⟩ | ⟨t, rest, first, woken⟩⟩
  · have same := waiting_of_queues
      (queueAt_of_modify_value found (given_semaphores s [] k) unawaited.symm) fun _ => rfl
    have empty : k.waiting (.semaphore s) = [] := by
      rw [waiting, queueAt_semaphore found, unawaited, List.map_nil]
    exact ⟨rfl, fun line _ => same line, .inl ⟨empty, (same _).trans empty⟩⟩
  · rcases of_run_unblock woken with ⟨thread, _, _, _, _, rfl⟩
    have semaphores : ((s.roused t rest k).readied t thread.priority).semaphores =
        k.semaphores.modify s _ := roused_semaphores s t rest k
    have queue := queueAt_of_modify found semaphores
    refine ⟨worth_of_agree (k := k) (Arena.Agree.trans (Arena.agree_modify fun _ => rfl)
      (Arena.agree_modify fun _ => rfl)), fun line apart => ?_, .inr ⟨⟨s, t⟩, ?_⟩⟩
    · cases line with
      | semaphore s' =>
        rw [waiting, waiting, queue, if_neg fun same : s' = s => apart (congrArg _ same)]
      | condition c => rfl
    · rw [waiting, waiting, queue, if_pos rfl, queueAt_semaphore found, Ranked.sort_map]
      exact congrArg (List.map (Waiter.mk s)) first

end SemaphoreId

/-- A wait is queued, with a semaphore of its own. -/
theorem ConditionId.revised_joined {condition : Condition} {waiters : List Waiter}
    (found : k.conditions.get? c = some condition)
    (fresh : ⟨k.semaphores.next, k.current⟩ ∉ k.enlisted c)
    (joins : waiters = Ranked.join k.worth ⟨k.semaphores.next, k.current⟩ condition.waiters)
    (line : Line) : k.Revised (c.joined l waiters k) line := by
  have enlisted := enlisted_of_modify found (joined_conditions c l waiters k)
  have worth : (c.joined l waiters k).worth = k.worth :=
    worth_of_agree (Arena.agree_modify fun _ => by rfl)
  cases line with
  | semaphore s =>
    refine .kept ?_
    rw [waiting, waiting, queueAt_of_push (joined_semaphores c l waiters k) rfl]
  | condition c' =>
    by_cases here : c' = c
    · subst here
      refine .joined _ fresh ?_
      rw [worth, waiting, waiting, enlisted, if_pos rfl, enlisted_of_get? found, joins]
    · refine .kept ?_
      rw [waiting, waiting, enlisted, if_neg here]

/-- A signal takes the first of the highest waits off, and gives its semaphore a unit. -/
theorem ConditionId.revised_called {condition : Condition} {rest : List Waiter}
    (found : k.conditions.get? c = some condition)
    (first : Ranked.sort k.worth condition.waiters = w :: rest)
    (h : w.semaphore.wake.run (c.called w.thread rest k) = .ok (u, k')) (line : Line) :
    k.Revised k' line := by
  have calls := SemaphoreId.calls_of_run_wake h
  have enlisted := enlisted_of_modify found (called_conditions c w.thread rest k)
  cases line with
  | semaphore s => exact (calls.revised _).of_earlier rfl fun _ _ => rfl
  | condition c' =>
    have after : k'.waiting (.condition c') = if c' = c then rest else k.enlisted c' :=
      (calls.others (.condition c') nofun).trans (enlisted c')
    by_cases here : c' = c
    · subst here
      rw [if_pos rfl] at after
      refine .left (w := w) (fun v _ => congrFun calls.worth v) ?_
      rw [after, waiting, enlisted_of_get? found, first]
    · rw [if_neg here] at after
      exact .kept after

/-! ## Every move -/

theorem LockId.revised_of_run_attempt {success : Bool}
    (sound : Sound d ⟨k, due⟩) (runs : k.Runs) (h : l.attempt.run k = .ok (success, k')) :
    k.Revised k' line := by
  rcases LockId.of_run_attempt h with ⟨lock, asking, tried, _, asks, tries, ended⟩
  have same := asks.retouched
  have asked := (sound.asks asks).placed
  have running := (same.runs runs).running
  rcases ended with ⟨rfl, holds⟩ | ⟨_, rfl⟩
  · rcases SemaphoreId.of_run_attempt_true tries with ⟨_, found, _, rfl⟩
    have held := LockId.retouched_of_run_hold_taken asked running holds
    refine .kept ((held.waiting line).trans ?_)
    exact (SemaphoreId.waiting_taken found line).trans (same.waiting line)
  · exact SemaphoreId.revised_of_run_attempt asked running (same.waiting line) tries

/-- When a lock is released the waiters are woken in the order of the priorities that they had
before, for only the holder gives back what it was lent. -/
theorem LockId.revised_of_release {lock : Lock} {dropped : Kernel} (placed : k.Placed)
    (running : k.Running) (drops : l.dropDonors.run k = .ok ((), dropped))
    (h : lock.semaphore.wake.run ((dropped.mapLock l fun old =>
      { old with holder := none }).withEvents (.releases k.current l :: dropped.events)) =
        .ok ((), k')) : k.Revised k' line := by
  have same := LockId.retouched_of_run_dropDonors placed running drops
    (.releases k.current l :: dropped.events)
  have calls := SemaphoreId.calls_of_run_wake h
  by_cases here : line = .semaphore lock.semaphore
  · refine (calls.revised line).of_earlier (same.waiting line) fun v listed => ?_
    rw [here] at listed
    rcases List.mem_map.mp listed with ⟨t, queued, rfl⟩
    rcases running with ⟨thread, foundCurrent, runs⟩
    have other : t ≠ k.current := by
      rintro rfl
      exact placed.not_mem_of_detached foundCurrent
        (placed.detached_of_running foundCurrent runs) _ queued
    rcases LockId.of_run_dropDonors foundCurrent (placed.unqueued_of_running foundCurrent runs)
      drops with ⟨_, _, _, _, _, _, rfl⟩
    rw [worth, worth, priorityOf, priorityOf]
    exact congrArg (Option.elim · _ _) (Arena.get?_modify_of_ne _ (Ne.symm other))
  · exact .kept ((calls.others line here).trans (same.waiting line))

/-- A move lets somebody join a line, takes the first of the highest off, or leaves it alone. -/
theorem Move.revised (move : Move d act m m') (sound : Sound d m)
    (issued : ∀ c, ∀ w ∈ m.kernel.enlisted c, w.semaphore.index < m.kernel.semaphores.next.index)
    (line : Line) : m.kernel.Revised m'.kernel line := by
  have placed := sound.placed
  cases move with
  | quiet same => exact .kept (waiting_of_eq same.semaphores same.enlisted line)
  | tick | enroll | appoint | ready | halt | doze | rise | pick | undertake =>
    exact .kept (waiting_of_eq rfl (fun _ => rfl) line)
  | unblock _ ran =>
    rcases of_run_unblock ran with ⟨_, _, _, _, _, rfl⟩
    exact .kept (waiting_of_eq rfl (fun _ => rfl) line)
  | reclaim ran =>
    rcases of_run_reclaim ran with ⟨_, _, _, _, _, rfl⟩
    exact .kept (waiting_of_eq rfl (fun _ => rfl) line)
  | create | createLock =>
    refine .kept (waiting_of_queues (fun s => ?_) (fun _ => by rfl) line)
    exact queueAt_of_push rfl (by rfl) s
  | destroy _ _ ran => exact .kept (SemaphoreId.waiting_of_run_destroy ran line)
  | destroyLock _ _ _ ran => exact .kept (SemaphoreId.waiting_of_run_destroy ran line)
  | take _ _ ran =>
    rcases SemaphoreId.of_run_take_true ran with ⟨_, found, _, rfl⟩
    exact .kept (SemaphoreId.waiting_taken found line)
  | attempt runs _ _ ran | unsignalled runs ran =>
    exact SemaphoreId.revised_of_run_attempt placed runs.running rfl ran
  | attemptLock runs _ ran => exact LockId.revised_of_run_attempt sound runs ran
  | seize runs _ takes ran =>
    rcases SemaphoreId.of_run_take_true takes with ⟨_, found, _, rfl⟩
    have held := LockId.retouched_of_run_hold_taken placed runs.running ran
    exact .kept ((held.waiting line).trans (SemaphoreId.waiting_taken found line))
  | release running found holds drops ran =>
    exact LockId.revised_of_release placed running drops ran
  | wake _ ran => exact (SemaphoreId.calls_of_run_wake ran).revised line
  | rebase running ran => exact .kept ((retouched_of_run_rebase placed running ran).waiting line)
  | enlist _ _ _ found joins =>
    refine ConditionId.revised_joined found (fun listed => ?_) joins line
    exact Nat.lt_irrefl _ (issued _ _ listed)
  | signal found first ran => exact ConditionId.revised_called found first ran line
  | signalled runs takes ran =>
    rcases SemaphoreId.of_run_attempt_true takes with ⟨_, found, _, rfl⟩
    exact .kept ((SemaphoreId.waiting_of_run_destroy ran line).trans
      (SemaphoreId.waiting_taken found line))

/-! ## Wakes -/

/-- One unit is returned, or one signal sent: whoever is first leaves the line, if anybody does. -/
def Line.Wakes : Line → Kernel → Kernel → Prop
  | .semaphore s, k, k' => s.wake.run k = .ok ((), k')
  | .condition c, k, k' => ∃ woke, c.wakeFirst.run k = .ok (woke, k')

theorem Line.Wakes.first (wakes : line.Wakes k k') : k'.worth = k.worth ∧
    (k.waiting line = [] ∧ k'.waiting line = [] ∨
      ∃ w, Ranked.sort k.worth (k.waiting line) = w :: k'.waiting line) := by
  cases line with
  | semaphore s =>
    have calls := SemaphoreId.calls_of_run_wake wakes
    exact ⟨calls.worth, calls.first⟩
  | condition c =>
    rcases wakes with ⟨woke, ran⟩
    rcases ConditionId.of_run_wakeFirst ran with
      ⟨condition, found, ⟨empty, _, rfl⟩ | ⟨w, rest, first, _, wakes⟩⟩
    · refine ⟨rfl, .inl ⟨(enlisted_of_get? found).trans empty, ?_⟩⟩
      exact enlisted_of_get? (Arena.get?_modify_self _ found)
    · have calls := SemaphoreId.calls_of_run_wake wakes
      have after : k'.waiting (.condition c) = rest :=
        (calls.others (.condition c) nofun).trans
          (enlisted_of_get? (Arena.get?_modify_self _ found))
      refine ⟨calls.worth, .inr ⟨w, ?_⟩⟩
      rw [after, waiting, enlisted_of_get? found, first]

theorem Line.Wakes.revised (wakes : line.Wakes k k') : k.Revised k' line := by
  rcases wakes.first with ⟨worth, ⟨before, after⟩ | ⟨w, first⟩⟩
  · exact .kept (after.trans before.symm)
  · exact .left (fun v _ => congrFun worth v) first

/-- Whoever finds somebody in line takes one off that nobody in line outranks. -/
theorem Line.Wakes.serves (wakes : line.Wakes k k') (awaited : k.waiting line ≠ []) :
    ∃ w, k.Serves k' line w := by
  rcases wakes.first with ⟨_, ⟨empty, _⟩ | ⟨w, first⟩⟩
  · exact absurd empty awaited
  · exact ⟨w, serves_of_first first⟩

theorem SemaphoreId.serves_of_run_up (awaited : k.waiting (.semaphore s) ≠ [])
    (h : s.up.run k = .ok ((), k')) : ∃ w woken last, k.Serves woken (.semaphore s) w ∧
      preempt.run woken = .ok ((), last) ∧ k' = last.atLevel k.processor.level := by
  rcases of_run_up h with ⟨woken, last, wakes, preempts, rfl⟩
  have wakes : (Line.semaphore s).Wakes (k.atLevel .off) woken := wakes
  rcases wakes.serves awaited with ⟨w, serves⟩
  exact ⟨w, woken, last, ⟨serves.highest, serves.others⟩, preempts, rfl⟩

theorem ConditionId.serves_of_run_signal (awaited : k.waiting (.condition c) ≠ [])
    (h : (c.signal l).run k = .ok ((), k')) : ∃ w woken last, k.Serves woken (.condition c) w ∧
      preempt.run woken = .ok ((), last) ∧ k' = last.atLevel k.processor.level := by
  rcases of_run_signal h with ⟨woke, woken, last, wakes, rest, rfl⟩
  have woken' : woke = true := by
    rcases of_run_wakeFirst wakes with ⟨condition, found, ⟨empty, _⟩ | ⟨_, _, _, yes, _⟩⟩
    · exact absurd ((enlisted_of_get? (k := k) found).trans empty) awaited
    · exact yes
  rw [woken', if_pos rfl] at rest
  have wakes : (Line.condition c).Wakes (k.atLevel .off) woken := ⟨woke, wakes⟩
  rcases wakes.serves awaited with ⟨w, serves⟩
  exact ⟨w, woken, last, ⟨serves.highest, serves.others⟩, rest, rfl⟩

/-! ## Every run -/

/-- What is known of a machine when its lines are looked at. -/
structure Machine.Lined (d : Discipline) (m : Machine) : Prop where
  regular : Regular d m
  issued : m.ledger.Issued
  nodup : ∀ line, (m.kernel.waiting line).Nodup

theorem Machine.Lined.revised (lined : m.Lined d) (move : Move d act m m') (line : Line) :
    m.kernel.Revised m'.kernel line :=
  move.revised lined.regular.toSound lined.issued.own.waiter line

theorem Machine.Lined.move (lined : m.Lined d) (move : Move d act m m') : m'.Lined d where
  regular := lined.regular.move move
  issued := lined.issued.entry (move.entry lined.regular.toSound lined.regular.tidy)
  nodup line := (lined.revised move line).nodup (lined.nodup line)

theorem lined_fresh (config : Config) (rule : Reposition) :
    (⟨.fresh config rule, none⟩ : Machine).Lined d where
  regular := (steady_fresh config rule).regular
  issued := issued_fresh config rule
  nodup line := by
    cases line with
    | semaphore s =>
      rw [waiting, queueAt, fresh, Arena.get?_empty]
      exact List.nodup_nil
    | condition c =>
      rw [waiting, enlisted, fresh, Arena.get?_empty]
      exact List.nodup_nil

theorem Reachable.lined (reachable : Reachable d k) : (⟨k, none⟩ : Machine).Lined d :=
  reachable.invariant lined_fresh fun _ move lined => lined.move move

/-- Both are in line, and the second does not outrank the first. -/
structure Kernel.Defers (k : Kernel) (line : Line) (x y : Waiter) : Prop where
  first : x ∈ k.waiting line
  second : y ∈ k.waiting line
  le : k.worth y ≤ k.worth x

/-- Moves during which `x` and `y` stay in line and `y` does not outrank `x`. -/
inductive Deferring (d : Discipline) (line : Line) (x y : Waiter) : Machine → Machine → Prop
  | start {m : Machine} (defers : m.kernel.Defers line x y) : Deferring d line x y m m
  | tail {act : Option Act} {m m' m'' : Machine} (before : Deferring d line x y m m')
      (move : Move d act m' m'') (defers : m''.kernel.Defers line x y) : Deferring d line x y m m''

theorem Deferring.defers (deferring : Deferring d line x y m m') : m'.kernel.Defers line x y := by
  cases deferring with
  | start defers => exact defers
  | tail _ _ defers => exact defers

theorem Deferring.starts (deferring : Deferring d line x y m m') : m.kernel.Defers line x y := by
  induction deferring with
  | start defers => exact defers
  | tail _ _ _ ih => exact ih

theorem Deferring.lined (deferring : Deferring d line x y m m') (lined : m.Lined d) :
    m'.Lined d := by
  induction deferring with
  | start => exact lined
  | tail _ move _ ih => exact (ih lined).move move

/-- Who is in front stays in front. -/
theorem Deferring.ordered (deferring : Deferring d line x y m m') (lined : m.Lined d)
    (before : [x, y].Sublist (m.kernel.waiting line)) :
    [x, y].Sublist (m'.kernel.waiting line) := by
  induction deferring with
  | start => exact before
  | tail deferring move defers ih =>
    have middle := deferring.lined lined
    exact (middle.revised move line).ordered (middle.nodup line) (ih lined before) defers.first
      defers.le

/-- A run from `k` on is made of moves, and `m` is any moment of it.  Whoever is woken has the
highest effective priority of all in line at that moment, and the others stay in line, each once: so
it is for every wake, and nobody leaves a line in any other way.  Of two in line, the one that came
first stays in front, and the other is not woken before it, as long as the other does not outrank
it. -/
theorem wake_order (reachable : Reachable d k) (moves : Moves d deeds ⟨k, none⟩ m) (line : Line) :
    (∀ k', Relation.ReflTransGen (Transit d) k k' →
      ∃ deeds, Moves d deeds ⟨k, none⟩ ⟨k', none⟩) ∧
    (∀ before after, line.Wakes before after → before.waiting line ≠ [] →
      ∃ w, before.Serves after line w) ∧
    (∀ s k', line = .semaphore s → s.up.run k = .ok ((), k') → k.waiting line ≠ [] →
      ∃ w woken last, k.Serves woken line w ∧ preempt.run woken = .ok ((), last) ∧
        k' = last.atLevel k.processor.level) ∧
    (∀ c l k', line = .condition c → (c.signal l).run k = .ok ((), k') → k.waiting line ≠ [] →
      ∃ w woken last, k.Serves woken line w ∧ preempt.run woken = .ok ((), last) ∧
        k' = last.atLevel k.processor.level) ∧
    (m.kernel.waiting line).Nodup ∧
    (∀ act m' w, Move d act m m' → w ∈ m.kernel.waiting line → w ∉ m'.kernel.waiting line →
      m.kernel.Serves m'.kernel line w) ∧
    ∀ act m₁ m₂ x y, x ∈ m.kernel.waiting line → y ∉ m.kernel.waiting line → Move d act m m₁ →
      Deferring d line x y m₁ m₂ →
      [x, y].Sublist (m₂.kernel.waiting line) ∧
      (∀ k', line.Wakes m₂.kernel k' → y ∈ k'.waiting line) ∧
      ∀ act m₃, Move d act m₂ m₃ → y ∈ m₃.kernel.waiting line := by
  have lined : m.Lined d := moves.induction reachable.lined fun move lined => lined.move move
  refine ⟨fun k' later => reachable.moves later,
    fun before after wakes awaited => wakes.serves awaited, ?_, ?_, lined.nodup line,
    fun act m' w move listed gone => (lined.revised move line).serves listed gone, ?_⟩
  · rintro s k' rfl ran awaited
    exact SemaphoreId.serves_of_run_up awaited ran
  · rintro c l k' rfl ran awaited
    exact ConditionId.serves_of_run_signal awaited ran
  · intro act m₁ m₂ x y first second joins deferring
    have begins := deferring.starts
    have behind := (lined.revised joins line).behind first second begins.second begins.le
    have ordered := deferring.ordered (lined.move joins) behind
    have le := deferring.defers.le
    refine ⟨ordered, fun k' wakes => wakes.revised.remains ordered le, fun act m₃ move => ?_⟩
    exact ((deferring.lined (lined.move joins)).revised move line).remains ordered le

/-- A thread of priority 32 waits behind one of priority 40, and is woken first once a third thread
has lent it priority 50.  Of two threads of priority 40, the one that came first is woken first. -/
theorem wake_order_of_loan :
    (∃ k woken, Reachable {} k ∧ (Line.semaphore ⟨0⟩).Wakes k woken ∧
      k.waiting (.semaphore ⟨0⟩) = [⟨⟨0⟩, ⟨4⟩⟩, ⟨⟨0⟩, ⟨3⟩⟩] ∧
      woken.waiting (.semaphore ⟨0⟩) = [⟨⟨0⟩, ⟨4⟩⟩] ∧ ∃ w, k.Serves woken (.semaphore ⟨0⟩) w) ∧
    ∃ k k' woken, Reachable {} k ∧ Move {} (some (.down ⟨0⟩)) ⟨k, none⟩ ⟨k', none⟩ ∧
      k.waiting (.semaphore ⟨0⟩) = [⟨⟨0⟩, ⟨3⟩⟩] ∧ k'.Defers (.semaphore ⟨0⟩) ⟨⟨0⟩, ⟨3⟩⟩ ⟨⟨0⟩, ⟨4⟩⟩ ∧
      (Line.semaphore ⟨0⟩).Wakes k' woken ∧ ⟨⟨0⟩, ⟨4⟩⟩ ∈ woken.waiting (.semaphore ⟨0⟩) := by
  constructor
  · have ran : ((Discipline.performAll {}
        [.start, .createSemaphore 0, .createLock, .spawn { priority := 32 }, .acquire ⟨0⟩,
          .down ⟨0⟩, .spawn { priority := 40 }, .down ⟨0⟩, .spawn { priority := 50 }, .acquire ⟨0⟩]
        (.fresh {} .stable)).bind fun k => ((SemaphoreId.wake ⟨0⟩).run k).toOption.map fun woken =>
          decide (k.waiting (.semaphore ⟨0⟩) = [⟨⟨0⟩, ⟨4⟩⟩, ⟨⟨0⟩, ⟨3⟩⟩] ∧
            woken.2.waiting (.semaphore ⟨0⟩) = [⟨⟨0⟩, ⟨4⟩⟩])) = some true := by decide +kernel
    rcases Option.bind_eq_some_iff.mp ran with ⟨k, performed, rest⟩
    rcases Option.map_eq_some_iff.mp rest with ⟨⟨_, woken⟩, wakes, told⟩
    rcases of_decide_eq_true told with ⟨before, after⟩
    have reachable := (Reachable.fresh {} .stable).performAll performed
    have wakes : (Line.semaphore ⟨0⟩).Wakes k woken := ok_of_toOption wakes
    rcases wake_order reachable (.refl _) (.semaphore ⟨0⟩) with ⟨_, serves, _⟩
    exact ⟨k, woken, reachable, wakes, before, after,
      serves k woken wakes (before ▸ List.cons_ne_nil _ _)⟩
  · have ran : ((Discipline.performAll {}
        [.start, .createSemaphore 0, .spawn { priority := 40 }, .down ⟨0⟩, .spawn { priority := 40 }]
        (.fresh {} .stable)).bind fun k =>
          ((SemaphoreId.attempt ⟨0⟩ (.unit ⟨0⟩)).run k).toOption.bind fun tried =>
            ((SemaphoreId.wake ⟨0⟩).run tried.2).toOption.map fun woken =>
              decide (k.waiting (.semaphore ⟨0⟩) = [⟨⟨0⟩, ⟨3⟩⟩] ∧
                tried.2.waiting (.semaphore ⟨0⟩) = [⟨⟨0⟩, ⟨3⟩⟩, ⟨⟨0⟩, ⟨4⟩⟩] ∧
                tried.2.worth ⟨⟨0⟩, ⟨4⟩⟩ ≤ tried.2.worth ⟨⟨0⟩, ⟨3⟩⟩)) = some true := by
      decide +kernel
    rcases Option.bind_eq_some_iff.mp ran with ⟨k, performed, rest⟩
    rcases Option.bind_eq_some_iff.mp rest with ⟨⟨success, k'⟩, tries, rest⟩
    rcases Option.map_eq_some_iff.mp rest with ⟨⟨_, woken⟩, wakes, told⟩
    rcases of_decide_eq_true told with ⟨before, after, le⟩
    have reachable := (Reachable.fresh {} .stable).performAll performed
    have joins : Move {} (some (.down ⟨0⟩)) ⟨k, none⟩ ⟨k', none⟩ :=
      .attempt reachable.steady.runs nofun (.direct fun spares => nomatch spares.1)
        (ok_of_toOption tries)
    have wakes : (Line.semaphore ⟨0⟩).Wakes k' woken := ok_of_toOption wakes
    have defers : k'.Defers (.semaphore ⟨0⟩) ⟨⟨0⟩, ⟨3⟩⟩ ⟨⟨0⟩, ⟨4⟩⟩ :=
      ⟨after ▸ by decide, after ▸ by decide, le⟩
    rcases wake_order reachable (.refl _) (.semaphore ⟨0⟩) with ⟨_, _, _, _, _, _, stays⟩
    rcases stays _ ⟨k', none⟩ ⟨k', none⟩ ⟨⟨0⟩, ⟨3⟩⟩ ⟨⟨0⟩, ⟨4⟩⟩ (before ▸ by decide)
      (before ▸ by decide) joins (.start defers) with ⟨_, remains, _⟩
    exact ⟨k, k', woken, reachable, joins, before, defers, wakes, remains woken wakes⟩

end ThreadKernel
