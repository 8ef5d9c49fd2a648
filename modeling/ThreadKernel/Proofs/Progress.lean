import ThreadKernel.Proofs.WaitGraph

/-!
# Parts of operations that end well

An operation that is run from a kernel faults or ends well; `Succeeds` says that it does
the latter.  The lemmas go through the parts that operations are made of and say what
each of them needs: that the records it names are there, and that whoever is listed in them is
in the table (`Grounded`).
-/

namespace ThreadKernel

namespace Kernel

variable {α β : Type} {k k' : Kernel} {t u : ThreadId} {thread : Thread}

/-- The operation ends well when it is run from `k`. -/
def Succeeds (x : KernelM α) (k : Kernel) : Prop := ∃ r, x.run k = .ok r

section Sequences

variable {x : KernelM α} {f : α → KernelM β} {a : α}

theorem succeeds_pure (a : α) : Succeeds (pure a) k := ⟨(a, k), rfl⟩

/-- What comes first is known to end in `k'`. -/
theorem Succeeds.after (ran : x.run k = .ok (a, k')) (rest : Succeeds (f a) k') :
    Succeeds (x >>= f) k := by
  rcases rest with ⟨r, ends⟩
  exact ⟨r, run_bind_eq_ok_iff.mpr ⟨a, k', ran, ends⟩⟩

/-- Whatever comes first ends in, the rest goes on from there. -/
theorem Succeeds.bind (first : Succeeds x k)
    (rest : ∀ a k', x.run k = .ok (a, k') → Succeeds (f a) k') : Succeeds (x >>= f) k := by
  rcases first with ⟨⟨a, middle⟩, ran⟩
  exact .after ran (rest a middle ran)

theorem Succeeds.require {p : Prop} [Decidable p] {fault : Fault} {f : PUnit → KernelM β}
    (holds : p) (rest : Succeeds (f ()) k) : Succeeds (Kernel.require p fault >>= f) k :=
  .after (run_require_eq_ok_iff.mpr ⟨holds, rfl⟩) rest

theorem Succeeds.get {f : Kernel → KernelM β} (rest : Succeeds (f k) k) :
    Succeeds (MonadState.get >>= f) k :=
  .after rfl rest

theorem Succeeds.caller {f : ThreadId → KernelM β} (rest : Succeeds (f k.current) k) :
    Succeeds (Kernel.caller >>= f) k :=
  .after rfl rest

theorem Succeeds.ranks {f : (ThreadId → Except Fault Priority) → KernelM β}
    (rest : Succeeds (f k.threads.rank) k) : Succeeds (Kernel.ranks >>= f) k :=
  .after rfl rest

theorem Succeeds.note {event : Event} {f : Unit → KernelM β}
    (rest : Succeeds (f ()) (k.withEvents (event :: k.events))) :
    Succeeds (Kernel.note event >>= f) k :=
  .after rfl rest

theorem Succeeds.lift {x : Except Fault α} (same : x = .ok a) (rest : Succeeds (f a) k) :
    Succeeds (liftM x >>= f) k :=
  .after (run_lift_eq_ok_iff.mpr ⟨same, rfl⟩) rest

theorem Succeeds.masked (body : Succeeds x (k.atLevel .off)) : Succeeds (Kernel.masked x) k := by
  rcases body with ⟨⟨a, last⟩, ran⟩
  exact ⟨_, run_masked_eq_ok_iff.mpr ⟨last, ran, rfl⟩⟩

end Sequences

section Lookups

variable {f : α → KernelM β}

theorem Succeeds.findThread {f : Thread → KernelM β} (found : k.threads.get? t = some thread)
    (rest : Succeeds (f thread) k) : Succeeds (Kernel.findThread t >>= f) k :=
  .after (run_findThread_eq_ok_iff.mpr ⟨found, rfl⟩) rest

theorem Succeeds.findSemaphore {s : SemaphoreId} {semaphore : Semaphore}
    {f : Semaphore → KernelM β} (found : k.semaphores.get? s = some semaphore)
    (rest : Succeeds (f semaphore) k) : Succeeds (Kernel.findSemaphore s >>= f) k :=
  .after (run_findSemaphore_eq_ok_iff.mpr ⟨found, rfl⟩) rest

theorem Succeeds.findLock {l : LockId} {lock : Lock} {f : Lock → KernelM β}
    (found : k.locks.get? l = some lock) (rest : Succeeds (f lock) k) :
    Succeeds (Kernel.findLock l >>= f) k :=
  .after (run_findLock_eq_ok_iff.mpr ⟨found, rfl⟩) rest

theorem Succeeds.findCondition {c : ConditionId} {condition : Condition}
    {f : Condition → KernelM β} (found : k.conditions.get? c = some condition)
    (rest : Succeeds (f condition) k) : Succeeds (Kernel.findCondition c >>= f) k :=
  .after (run_findCondition_eq_ok_iff.mpr ⟨found, rfl⟩) rest

theorem Succeeds.modifySemaphore {s : SemaphoreId} {semaphore : Semaphore}
    {g : Semaphore → Semaphore} {f : Unit → KernelM β}
    (found : k.semaphores.get? s = some semaphore) (rest : Succeeds (f ()) (k.mapSemaphore s g)) :
    Succeeds (Kernel.modifySemaphore s g >>= f) k :=
  .after (run_modifySemaphore_eq_ok_iff.mpr ⟨⟨semaphore, found⟩, rfl⟩) rest

theorem Succeeds.modifyLock {l : LockId} {lock : Lock} {g : Lock → Lock} {f : Unit → KernelM β}
    (found : k.locks.get? l = some lock) (rest : Succeeds (f ()) (k.mapLock l g)) :
    Succeeds (Kernel.modifyLock l g >>= f) k :=
  .after (run_modifyLock_eq_ok_iff.mpr ⟨⟨lock, found⟩, rfl⟩) rest

theorem Succeeds.modifyCondition {c : ConditionId} {condition : Condition}
    {g : Condition → Condition} {f : Unit → KernelM β}
    (found : k.conditions.get? c = some condition) (rest : Succeeds (f ()) (k.mapCondition c g)) :
    Succeeds (Kernel.modifyCondition c g >>= f) k :=
  .after (run_modifyCondition_eq_ok_iff.mpr ⟨⟨condition, found⟩, rfl⟩) rest

end Lookups

/-! ## Who is in the table -/

/-- `t` is in the table. -/
def Present (k : Kernel) (t : ThreadId) : Prop := ∃ thread, k.threads.get? t = some thread

theorem present_iff : k.Present t ↔ k.threads.contains t = true := Arena.contains_iff.symm

theorem present_mapThread {g : Thread → Thread} : (k.mapThread u g).Present t ↔ k.Present t := by
  rw [present_iff, present_iff, mapThread_threads, Arena.contains_modify]

theorem present_of_agree {view : Thread → α} (same : Arena.Agree view k'.threads k.threads)
    (present : k.Present t) : k'.Present t := by
  rcases present with ⟨thread, found⟩
  rcases same.symm.exists_get? found with ⟨thread', found', _⟩
  exact ⟨thread', found'⟩

theorem Succeeds.modifyThread {g : Thread → Thread} {f : Unit → KernelM β} (present : k.Present t)
    (rest : Succeeds (f ()) (k.mapThread t g)) : Succeeds (Kernel.modifyThread t g >>= f) k :=
  .after (run_modifyThread_eq_ok_iff.mpr ⟨present, rfl⟩) rest

/-- Whoever is listed somewhere is in the table, and each lock has its unit. -/
structure Grounded (k : Kernel) : Prop where
  current : k.Present k.current
  donors : ∀ t thread, k.threads.get? t = some thread → ∀ d ∈ thread.donors, k.Present d
  waiters : ∀ s semaphore, k.semaphores.get? s = some semaphore →
    ∀ t ∈ semaphore.waiters, k.Present t
  units : ∀ l lock, k.locks.get? l = some lock →
    ∃ semaphore, k.semaphores.get? lock.semaphore = some semaphore

theorem Grounded.retouched (grounded : k.Grounded) (same : k.Retouched k')
    (donors : ∀ t thread, k'.threads.get? t = some thread → ∀ d ∈ thread.donors, k.Present d) :
    k'.Grounded where
  current := by
    rw [same.current]
    exact present_of_agree same.threads grounded.current
  donors t thread found d donor := present_of_agree same.threads (donors t thread found d donor)
  waiters s semaphore found t waits := by
    rw [same.semaphores] at found
    exact present_of_agree same.threads (grounded.waiters s semaphore found t waits)
  units l lock found := by
    rcases same.locks.exists_get? found with ⟨old, foundOld, unit⟩
    rw [same.semaphores, ← unit]
    exact grounded.units l old foundOld

/-! ## Lists in order -/

theorem rank_of_present (present : k.Present t) :
    k.threads.rank t = .ok (k.priorityOf t) := by
  rcases present with ⟨thread, found⟩
  rw [ThreadTable.rank, Arena.find_eq_ok_iff.mpr found, priorityOf_of_get? found]
  rfl

theorem sortWith_of_present {list : List ThreadId} (present : ∀ t ∈ list, k.Present t) :
    Ranked.sortWith k.threads.rank list = .ok (Ranked.sort k.priorityOf list) :=
  Ranked.sortWith_eq fun t listed => rank_of_present (present t listed)

theorem insertWith_of_present {list : List ThreadId} (here : k.Present t)
    (present : ∀ t ∈ list, k.Present t) :
    Ranked.insertWith k.threads.rank t list = .ok (Ranked.insert k.priorityOf t list) :=
  Ranked.insertWith_eq (rank_of_present here) fun u listed => rank_of_present (present u listed)

/-! ## Priorities and donors -/

theorem succeeds_setEffective (present : k.Present t) (p : Priority) :
    Succeeds (setEffective t p) k := by
  rcases present with ⟨thread, found⟩
  unfold setEffective
  apply Succeeds.findThread found
  apply Succeeds.modifyThread ⟨thread, found⟩
  split
  · exact ⟨_, rfl⟩
  · exact ⟨_, rfl⟩

/-- A donation only ever reaches holders that are in the table. -/
theorem succeeds_donateFrom (start : ThreadId) (depth : Nat) (visited : List ThreadId)
    (donor : ThreadId) (k : Kernel) : Succeeds (donateFrom start depth visited donor) k := by
  induction depth generalizing visited donor k with
  | zero =>
    unfold donateFrom
    apply Succeeds.get
    split
    · exact ⟨_, rfl⟩
    · exact ⟨_, rfl⟩
  | succ depth ih =>
    unfold donateFrom
    apply Succeeds.get
    split
    · next holder blocks =>
      split
      · apply Succeeds.note
        apply Succeeds.bind
        · apply succeeds_setEffective
          rcases blockingHolder_eq_some_iff.mp blocks with ⟨_, _, _, _, _, _, alive⟩
          exact present_iff.mpr alive
        · intro _ k' _
          exact ih _ _ _
      · exact ih _ _ _
    · exact succeeds_pure ()

theorem succeeds_donate (k : Kernel) : Succeeds donate k :=
  .get (succeeds_donateFrom _ _ _ _ k)

theorem succeeds_addDonor {holder donor : ThreadId} (found : k.threads.get? holder = some thread)
    (donors : ∀ d ∈ thread.donors, k.Present d) (present : k.Present donor) :
    Succeeds (addDonor holder donor) k := by
  unfold addDonor
  apply Succeeds.findThread found
  split
  · exact succeeds_pure ()
  · apply Succeeds.ranks
    apply Succeeds.lift (insertWith_of_present present donors)
    exact ⟨_, run_modifyThread_eq_ok_iff.mpr ⟨⟨thread, found⟩, rfl⟩⟩

theorem succeeds_forM_addDonor {holder : ThreadId} {waiters : List ThreadId}
    (found : k.threads.get? holder = some thread) (donors : ∀ d ∈ thread.donors, k.Present d)
    (present : ∀ t ∈ waiters, k.Present t) : Succeeds (waiters.forM (addDonor holder)) k := by
  induction waiters generalizing k thread with
  | nil => exact succeeds_pure ()
  | cons waiter rest ih =>
    rcases List.forall_mem_cons.mp present with ⟨first, others⟩
    unfold List.forM
    apply Succeeds.bind (succeeds_addDonor found donors first)
    intro _ middle ran
    rcases of_run_addDonor ran with ⟨thread', donors', found', joins, rfl⟩
    cases found.symm.trans found'
    apply ih (Arena.get?_modify_self _ found)
    · intro d donor
      apply present_mapThread.mpr
      rw [joins, (k.withDonor_perm _ _).mem_iff] at donor
      split at donor
      · exact donors d donor
      · rcases List.mem_cons.mp donor with rfl | donor
        · exact first
        · exact donors d donor
    · exact fun t listed => present_mapThread.mpr (others t listed)

theorem succeeds_refresh (present : k.Present t) : Succeeds (refresh t) k := by
  rcases present with ⟨thread, found⟩
  unfold refresh
  apply Succeeds.get
  apply Succeeds.findThread found
  apply Succeeds.modifyThread ⟨thread, found⟩
  split
  · apply Succeeds.note
    apply succeeds_setEffective
    exact present_mapThread.mpr ⟨thread, found⟩
  · apply succeeds_setEffective
    exact present_mapThread.mpr ⟨thread, found⟩

/-! ## Becoming ready -/

theorem succeeds_makeReady (present : k.Present t) (absent : t ∉ k.ready.threads) :
    Succeeds (makeReady t) k := by
  unfold makeReady
  apply Succeeds.modifyThread present
  apply Succeeds.get
  have queues : ∀ p, k.ready.enqueue t p = .ok (k.ready.insert t p) := by
    intro p
    rw [ReadyQueue.enqueue, if_neg fun there => absent (ReadyQueue.contains_iff.mp there)]
  apply Succeeds.lift (queues _)
  exact ⟨_, rfl⟩

theorem succeeds_unblock (found : k.threads.get? t = some thread) (blocked : thread.state = .blocked)
    (detached : thread.place = .detached) (absent : t ∉ k.ready.threads) :
    Succeeds (unblock t) k := by
  apply Succeeds.masked
  apply Succeeds.findThread (k := k.atLevel .off) found
  apply Succeeds.require blocked
  apply Succeeds.require detached
  exact succeeds_makeReady (k := k.atLevel .off) ⟨thread, found⟩ absent

end Kernel

/-! ## Semaphores -/

namespace SemaphoreId

open Kernel

variable {k : Kernel} {s : SemaphoreId} {semaphore : Semaphore}

theorem succeeds_take (found : k.semaphores.get? s = some semaphore) : Succeeds s.take k := by
  unfold take
  apply Succeeds.findSemaphore found
  split
  · apply Succeeds.after (run_modifySemaphore_eq_ok_iff.mpr ⟨⟨semaphore, found⟩, rfl⟩)
    exact ⟨_, rfl⟩
  · exact succeeds_pure false

theorem succeeds_attempt (found : k.semaphores.get? s = some semaphore)
    (waiters : ∀ t ∈ semaphore.waiters, k.Present t) (current : k.Present k.current)
    (retry : Pending) : Succeeds (s.attempt retry) k := by
  unfold attempt
  apply Succeeds.bind (succeeds_take found)
  intro success middle took
  rcases of_run_take took with ⟨_, _, ⟨rfl, _⟩ | ⟨rfl, _, rfl⟩⟩
  · exact succeeds_pure true
  · apply Succeeds.caller
    apply Succeeds.ranks
    apply Succeeds.findSemaphore found
    apply Succeeds.lift (sortWith_of_present waiters)
    have sorted : ∀ t ∈ Ranked.sort middle.priorityOf semaphore.waiters, middle.Present t :=
      fun t listed => waiters t (Ranked.mem_sort.mp listed)
    apply Succeeds.lift (insertWith_of_present current sorted)
    apply Succeeds.modifySemaphore found
    apply Succeeds.modifyThread (k := middle.mapSemaphore s _) current
    exact ⟨_, rfl⟩

theorem succeeds_destroy (found : k.semaphores.get? s = some semaphore)
    (unawaited : semaphore.waiters = []) : Succeeds s.destroy k := by
  unfold destroy
  apply Succeeds.findSemaphore found
  apply Succeeds.require unawaited
  exact ⟨_, rfl⟩

/-- The first waiter, if there is one, is blocked and in no other list. -/
theorem succeeds_wake (placed : k.Placed) (found : k.semaphores.get? s = some semaphore)
    (room : semaphore.value < maxHalfWord) : Succeeds s.wake k := by
  have waits : ∀ t ∈ semaphore.waiters, ∃ thread, k.threads.get? t = some thread ∧
      thread.place = .semaphore s := by
    intro t listed
    rw [← queueAt_semaphore found] at listed
    exact (placed.mem_queueAt (p := .semaphore s) nofun t).mp listed
  have present : ∀ t ∈ semaphore.waiters, k.Present t := by
    intro t listed
    rcases waits t listed with ⟨thread, record, _⟩
    exact ⟨thread, record⟩
  unfold wake
  apply Succeeds.findSemaphore found
  apply Succeeds.ranks
  apply Succeeds.lift (sortWith_of_present present)
  apply Succeeds.require room
  apply Succeeds.modifySemaphore found
  apply Succeeds.note
  split
  · exact succeeds_pure ()
  · next t rest queue =>
    have sorted : t ∈ Ranked.sort k.priorityOf semaphore.waiters := by
      rw [queue]
      exact List.mem_cons_self ..
    have listed : t ∈ semaphore.waiters := Ranked.mem_sort.mp sorted
    rcases waits t listed with ⟨thread, record, there⟩
    apply Succeeds.note
    apply Succeeds.modifyThread
    · exact ⟨thread, record⟩
    apply succeeds_unblock (Arena.get?_modify_self _ record)
    · apply placed.blocked record
      · rw [there]; exact nofun
      · rw [there]; exact nofun
    · rfl
    · intro ready
      rcases (placed.mem_queueAt (p := .ready) nofun t).mp ready with ⟨thread', record', ready⟩
      cases record.symm.trans record'
      cases there.symm.trans ready

/-- Units have nothing to do with who is listed. -/
theorem grounded_taken (grounded : k.Grounded) : (s.taken k).Grounded where
  current := grounded.current
  donors := grounded.donors
  waiters s' semaphore' found t waits := by
    rw [taken_semaphores, Arena.get?_modify] at found
    split at found
    · rcases Option.map_eq_some_iff.mp found with ⟨old, foundOld, rfl⟩
      exact grounded.waiters s' old foundOld t waits
    · exact grounded.waiters s' semaphore' found t waits
  units l lock found := by
    rcases grounded.units l lock found with ⟨unit, foundUnit⟩
    rw [taken_semaphores, Arena.get?_modify]
    split
    · exact ⟨_, congrArg _ foundUnit⟩
    · exact ⟨unit, foundUnit⟩

end SemaphoreId

/-! ## Locks -/

namespace LockId

open Kernel

variable {k : Kernel} {l : LockId} {lock : Lock}

theorem succeeds_hold (grounded : k.Grounded) (found : k.locks.get? l = some lock) :
    Succeeds l.hold k := by
  rcases grounded.current with ⟨thread, record⟩
  rcases grounded.units l lock found with ⟨semaphore, foundUnit⟩
  unfold hold
  apply Succeeds.caller
  apply Succeeds.modifyThread grounded.current
  apply Succeeds.modifyLock (k := k.mapThread k.current _) found
  apply Succeeds.note
  apply Succeeds.findLock (Arena.get?_modify_self _ found)
  apply Succeeds.findSemaphore
  · exact foundUnit
  dsimp only
  split
  · exact succeeds_pure ()
  · apply Succeeds.bind
    · apply succeeds_forM_addDonor (Arena.get?_modify_self _ record)
      · exact fun d donor => present_mapThread.mpr (grounded.donors _ thread record d donor)
      · exact fun t waits => present_mapThread.mpr (grounded.waiters _ semaphore foundUnit t waits)
    · intro _ k' ran
      rcases of_run_forM_addDonor (Arena.get?_modify_self _ record) ran with ⟨_, _, _, rfl⟩
      apply succeeds_refresh
      exact present_mapThread.mpr (present_mapThread.mpr grounded.current)

/-- Whoever is asked to wait for a lock becomes a donor that is in the table. -/
theorem Asks.grounded {asking : Kernel} (asks : l.Asks lock k asking) (grounded : k.Grounded) :
    asking.Grounded := by
  apply grounded.retouched asks.retouched
  cases asks with
  | free _ => exact grounded.donors
  | held holds found joins donated =>
    rename_i holder thread donors
    rcases mem_donors_asked found joins with ⟨old, foundOld, members⟩
    intro t thread' found' d donor
    have same := (repriced_of_donate donated).view (fun x : Thread => x.donors) fun _ => rfl
    rcases same.exists_get? found' with ⟨asked, foundAsked, eq⟩
    rw [get?_asked] at foundAsked
    rcases Option.map_eq_some_iff.mp foundAsked with ⟨before, foundBefore, rfl⟩
    rw [← eq] at donor
    dsimp only at donor
    split at donor
    · rcases (members d).mp donor with known | rfl
      · exact grounded.donors holder old foundOld d known
      · exact grounded.current
    · exact grounded.donors t before foundBefore d donor

theorem succeeds_attempt (grounded : k.Grounded) (found : k.locks.get? l = some lock)
    (alive : ∀ h, lock.holder = some h → k.Present h) : Succeeds l.attempt k := by
  have settled : ∀ asking, l.Asks lock k asking → Succeeds (do
      if ← lock.semaphore.attempt (.lock l) then
        l.hold
        pure true
      else
        pure false : KernelM Bool) asking := by
    intro asking asks
    have grounded := asks.grounded grounded
    rcases asks.retouched.locks.symm.exists_get? found with ⟨lock', found', unit⟩
    rcases grounded.units l lock' found' with ⟨semaphore, foundUnit⟩
    rw [unit] at foundUnit
    apply Succeeds.bind
    · exact SemaphoreId.succeeds_attempt foundUnit (grounded.waiters _ semaphore foundUnit)
        grounded.current _
    · intro success tried tries
      rcases SemaphoreId.of_run_attempt tries with ⟨_, _, ⟨rfl, _, rfl⟩ | ⟨rfl, _⟩⟩
      · apply Succeeds.bind
        · exact succeeds_hold (SemaphoreId.grounded_taken grounded) found'
        · exact fun _ last _ => succeeds_pure true
      · exact succeeds_pure false
  unfold attempt
  apply Succeeds.caller
  apply Succeeds.findLock found
  cases holds : lock.holder with
  | none => exact settled k (.free holds)
  | some holder =>
    apply Succeeds.modifyThread grounded.current
    have present := alive holder holds
    rcases present_mapThread.mpr present with ⟨thread, record⟩
    apply Succeeds.bind
    · apply succeeds_addDonor record
      · have same : Arena.Agree (fun x : Thread => x.donors) (k.threads.modify k.current fun old =>
            { old with waitingOn := some l }) k.threads := Arena.agree_modify fun _ => rfl
        rcases same.exists_get? record with ⟨old, foundOld, eq⟩
        rw [← eq]
        exact fun d donor => present_mapThread.mpr (grounded.donors holder old foundOld d donor)
      · exact present_mapThread.mpr grounded.current
    · intro _ joined ran
      rcases of_run_addDonor ran with ⟨thread', donors, record', joins, rfl⟩
      rw [withDonor_mapThread fun _ => by rfl] at joins
      apply Succeeds.bind (succeeds_donate _)
      intro _ asking donated
      exact settled asking (.held holds record' joins donated)

end LockId

end ThreadKernel
