import ThreadKernel.Proofs.Destruction
import ThreadKernel.Proofs.Dispatching

/-!
# Runs in which nothing is taken away that is still needed

Nobody exits with a lock in hand in a careful run, and nothing is destroyed that a suspended
operation still names.  So what threads have left to do names semaphores and locks that are
there (`Ledger.Live`), and whoever holds a lock is alive (`Kernel.HoldersLive`).  With an idle
thread these make a machine `Secure`: every move keeps it so, and whoever gives up the
processor hands it to a thread that can go on.
-/

namespace ThreadKernel

open Kernel

/-- The runs in which nobody pulls the rug from under a suspended operation, and the idle thread
has none. -/
structure Discipline.Strict (d : Discipline) : Prop where
  plainHandles : d.plainHandles = true
  sparesIdle : d.sparesIdle
  careful : d.careful = true

variable {d : Discipline} {m m' : Machine} {k k' : Kernel} {a b : Ledger} {t : ThreadId}
  {s : SemaphoreId} {l : LockId} {act : Option Act} {p : Pending} {x : Post}

/-! ## What suspended operations name -/

namespace Ledger

/-- What a thread has left to do names semaphores and locks that are there. -/
structure Live (a : Ledger) : Prop where
  semaphore : ∀ t p, a.work t = some p → ∀ s, p.semaphore? = some s →
    ∃ stock, a.semaphores s = some stock
  lock : ∀ t p, a.work t = some p → ∀ l, p.lock? = some l → ∃ lock, a.locks l = some lock

theorem exists_update {α β : Type} [DecidableEq α] {f : α → Option β} {i : α}
    (found : ∃ y, f i = some y) (j : α) (z : β) : ∃ y, Function.update f j (some z) i = some y := by
  rw [Function.update_apply]
  split
  · exact ⟨z, rfl⟩
  · exact found

/-- The semaphore that is named by itself is a plain one, or that of a wait. -/
theorem Sorted.purpose_of_names (sorted : a.Sorted) (left : a.work t = some p)
    (names : p.semaphore? = some s) {value : Nat} {purpose : Purpose}
    (found : a.semaphores s = some (value, purpose)) :
    p = .unit s ∧ purpose = .plain ∨ ∃ l, p = .signal s l ∧ purpose = .signal := by
  cases p with
  | unit s' =>
    cases names
    exact .inl ⟨rfl, (sorted.plain t s left).purpose _ found⟩
  | lock l => cases names
  | signal s' l =>
    cases names
    exact .inr ⟨l, rfl, (sorted.signal t s l left).purpose _ found⟩

end Ledger

theorem Entry.keeps_semaphore (entry : Entry d act a b) (strict : d.Strict) (sorted : a.Sorted)
    (waits : a.Waits) (left : b.work t = some p) (names : p.semaphore? = some s)
    (found : ∃ stock, a.semaphores s = some stock) : ∃ stock, b.semaphores s = some stock := by
  cases entry with
  | note | pick | want | await => exact found
  | create | createLock | take | hold | release | give | enlist | signal =>
    exact Ledger.exists_update found _ _
  | destroy gone plain unnamed =>
    rename_i s' value purpose
    rcases eq_or_ne s s' with rfl | other
    · rcases sorted.purpose_of_names left names gone with ⟨rfl, _⟩ | ⟨l, rfl, signal⟩
      · exact absurd left (unnamed strict.careful t)
      · cases (plain strict.plainHandles).symm.trans signal
    · exact found.imp fun stock stays => (Function.update_of_ne other _ _).trans stays
  | destroyLock gone unheld unnamed =>
    rename_i l lock
    rcases eq_or_ne s lock.semaphore with rfl | other
    · rcases sorted.purpose_of_names left names (sorted.unit l lock gone) with
        ⟨_, no⟩ | ⟨_, _, no⟩
      · cases no
      · cases no
    · exact found.imp fun stock stays => (Function.update_of_ne other _ _).trans stays
  | receive due gone =>
    rename_i s' l value purpose
    rcases eq_or_ne s s' with rfl | other
    · -- the signal has been received, so its semaphore is nobody else's concern
      have runner : t = a.runner := by
        rcases Ledger.of_work_engaged left with left | ⟨here, _⟩
        · rcases sorted.purpose_of_names left names gone with ⟨rfl, plain⟩ | ⟨l', rfl, _⟩
          · cases plain.symm.trans ((sorted.signal _ s l due).purpose _ gone)
          · exact waits.sole t a.runner s l' l left due
        · exact here
      subst runner
      cases (Function.update_self a.runner _ a.work).symm.trans left
      cases names
    · exact found.imp fun stock stays => (Function.update_of_ne other _ _).trans stays

theorem Entry.keeps_lock (entry : Entry d act a b) (strict : d.Strict) (left : b.work t = some p)
    (wants : p.lock? = some l) (found : ∃ lock, a.locks l = some lock) :
    ∃ lock, b.locks l = some lock := by
  cases entry with
  | note | pick | create | destroy | take | want | await | give | enlist | signal | receive =>
    exact found
  | createLock | hold | release => exact Ledger.exists_update found _ _
  | destroyLock gone unheld unnamed =>
    rename_i l' lock
    have other : l ≠ l' := by
      rintro rfl
      exact unnamed strict.careful t p left wants
    exact found.imp fun lock stays => (Function.update_of_ne other _ _).trans stays

theorem Ledger.Live.entry (live : a.Live) (entry : Entry d act a b) (strict : d.Strict)
    (sorted : a.Sorted) (waits : a.Waits) : b.Live where
  semaphore t p left s names := by
    rcases entry.engages left with before | engages
    · exact entry.keeps_semaphore strict sorted waits left names (live.semaphore t p before s names)
    · rcases engages.semaphore s names with ⟨_, made⟩ | found
      · exact made
      · exact entry.keeps_semaphore strict sorted waits left names found
  lock t p left l wants := by
    rcases entry.engages left with before | engages
    · exact entry.keeps_lock strict left wants (live.lock t p before l wants)
    · rcases engages.lock l wants with ⟨s, before⟩ | found
      · exact entry.keeps_lock strict left wants (live.lock t _ before l rfl)
      · exact entry.keeps_lock strict left wants found

/-! ## Who holds locks -/

/-- Whoever holds a lock is in the table, and has not exited. -/
def Kernel.HoldersLive (k : Kernel) : Prop :=
  ∀ l t, k.holder? l = some t → ∃ x, k.post? t = some x ∧ x.state ≠ .dying

/-- A thread with a lock in hand does not exit in a careful run. -/
theorem Shift.alive (shift : Shift d m m') (careful : d.careful = true)
    (holds : m.kernel.holder? l = some t) (found : m.kernel.post? t = some x)
    (alive : x.state ≠ .dying) : ∃ y, m'.kernel.post? t = some y ∧ y.state ≠ .dying := by
  cases shift with
  | stay posts => exact ⟨x, by rw [posts, found], alive⟩
  | turn found' turn posts =>
    rename_i t' x' y
    rcases eq_or_ne t t' with rfl | other
    · refine ⟨y, by rw [posts, Function.update_self], ?_⟩
      cases turn with
      | halt here running whole halts =>
        rcases halts with rfl | ⟨rfl, _, empty⟩
        · simp
        · exact absurd holds (empty careful l)
      | unblock | wake | rise | yield | doze | queue | pick => simp
    · exact ⟨x, by rw [posts, Function.update_of_ne other, found], alive⟩
  | enroll new posts next =>
    rename_i t' tick
    have other : t ≠ t' := by
      rintro rfl
      cases new.symm.trans found
    exact ⟨x, by rw [posts, Function.update_of_ne other, found], alive⟩
  | reclaim posts _ _ =>
    rcases posts t x found with kept | ⟨_, dying⟩
    · exact ⟨x, kept, alive⟩
    · exact absurd dying alive

/-- Whoever holds a lock after one has changed hands is its new holder, or was one before. -/
theorem Kernel.holder?_of_modify {l' : LockId} {owner : Option ThreadId}
    (same : k'.locks = k.locks.modify l' fun old => { old with holder := owner })
    (holds : k'.holder? l = some t) : owner = some t ∨ k.holder? l = some t := by
  rw [holder?, same, Arena.get?_modify] at holds
  split at holds
  · rcases Option.bind_eq_some_iff.mp holds with ⟨lock, found, is⟩
    rcases Option.map_eq_some_iff.mp found with ⟨_, _, rfl⟩
    exact .inl is
  · exact .inr holds

theorem Kernel.HoldersLive.move (holders : m.kernel.HoldersLive) (move : Move d act m m')
    (sound : Sound d m) (careful : d.careful = true) : m'.kernel.HoldersLive := by
  have stays : ∀ l t, m.kernel.holder? l = some t →
      ∃ y, m'.kernel.post? t = some y ∧ y.state ≠ .dying := by
    intro l t holds
    rcases holders l t holds with ⟨x, found, alive⟩
    exact (move.shift sound).alive careful holds found alive
  intro l t holds
  cases move.tenure sound with
  | kept same =>
    apply stays l t
    rwa [holder?, ← same]
  | taken running posts same =>
    rcases holder?_of_modify same holds with is | before
    · cases is
      rcases running with ⟨thread, foundCurrent, runs⟩
      refine ⟨thread.post, by rw [posts, post?_of_get? foundCurrent], ?_⟩
      simp [Thread.post, runs]
    · exact stays l t before
  | freed same =>
    rcases holder?_of_modify same holds with none | before
    · cases none
    · exact stays l t before
  | destroyed same =>
    rw [holder?_erase same] at holds
    split at holds
    · cases holds
    · exact stays l t holds
  | made free same =>
    rw [holder?_push free same] at holds
    exact stays l t holds

/-! ## Secure machines -/

/-- A started machine in which nothing that is still needed has been taken away. -/
structure Secure (d : Discipline) (m : Machine) : Prop extends Regular d m where
  tended : m.ledger.Tended
  live : m.ledger.Live
  holders : m.kernel.HoldersLive
  started : ∃ t, m.kernel.idle = some t

theorem Move.started (move : Move d act m m') (sound : Sound d m)
    (started : ∃ t, m.kernel.idle = some t) : ∃ t, m'.kernel.idle = some t := by
  have idle : ∀ {gauges : Config × Clock × Usage × Nat × Option ThreadId},
      m'.kernel.gauges = gauges → m'.kernel.idle = gauges.2.2.2.2 :=
    fun same => congrArg (fun gauges => gauges.2.2.2.2) same
  cases move.beat sound with
  | still same => exact idle same ▸ started
  | tick charged same => exact idle same ▸ started
  | begin _ _ same => exact idle same ▸ started
  | appoint free other same => exact ⟨_, idle same⟩

theorem Secure.move (secure : Secure d m) (strict : d.Strict) (move : Move d act m m') :
    Secure d m' where
  toRegular := secure.toRegular.move move
  tended := (Moves.single move).tended secure.toRegular strict.plainHandles secure.tended
  live := secure.live.entry (move.entry secure.toSound secure.tidy) strict
    (secure.sorted strict.plainHandles) secure.tended.toWaits
  holders := secure.holders.move move secure.toSound strict.careful
  started := move.started secure.toSound secure.started

theorem Secure.moves {deeds : List Deed} (secure : Secure d m) (strict : d.Strict)
    (moves : Moves d deeds m m') : Secure d m' :=
  moves.induction secure fun move secure => secure.move strict move

theorem Reachable.secure (reachable : Reachable d k) (strict : d.Strict)
    (started : ∃ t, k.idle = some t) : Secure d ⟨k, none⟩ := by
  have kept : (⟨k, none⟩ : Machine).ledger.Tended ∧ (⟨k, none⟩ : Machine).ledger.Live ∧
      k.HoldersLive := by
    apply reachable.invariant (motive := fun m =>
      m.ledger.Tended ∧ m.ledger.Live ∧ m.kernel.HoldersLive)
    · intro config rule
      have idle : ∀ t, (⟨.fresh config rule, none⟩ : Machine).work? t = none := fun t =>
        (Machine.work?_none _ t).trans (pending?_fresh config rule t)
      refine ⟨tended_fresh config rule, ⟨fun t p left => ?_, fun t p left => ?_⟩, fun l t holds => ?_⟩
      · cases (idle t).symm.trans left
      · cases (idle t).symm.trans left
      · rw [holder?, Kernel.fresh, Arena.get?_empty] at holds
        cases holds
    · rintro act m m' regular move ⟨tended, live, holders⟩
      have sorted := regular.sorted strict.plainHandles
      exact ⟨(Moves.single move).tended regular strict.plainHandles tended,
        live.entry (move.entry regular.toSound regular.tidy) strict sorted tended.toWaits,
        holders.move move regular.toSound strict.careful⟩
  rcases kept with ⟨tended, live, holders⟩
  exact ⟨reachable.steady.regular, tended, live, holders, started⟩

/-! ## Giving up the processor -/

/-- What is left to be done will still be possible when the exited threads are gone. -/
theorem Secure.outlasts (secure : Secure d m) (left : m.work? t = some p) : m.kernel.Outlasts p := by
  have holder : ∀ l h, m.kernel.holder? l = some h → m.kernel.Present h ∧ h ∉ m.kernel.dying := by
    intro l h holds
    rcases secure.holders l h holds with ⟨x, found, alive⟩
    rcases Option.map_eq_some_iff.mp found with ⟨thread, foundHolder, rfl⟩
    exact ⟨⟨thread, foundHolder⟩, fun gone => alive (secure.placed.dying_of_mem gone foundHolder)⟩
  refine ⟨⟨fun s names => ?_, fun l wants => ?_⟩, fun l _ h holds => (holder l h holds).2⟩
  · rcases secure.live.semaphore t p left s names with ⟨_, stocked⟩
    rcases Option.map_eq_some_iff.mp stocked with ⟨semaphore, found, _⟩
    exact ⟨semaphore, found⟩
  · rcases secure.live.lock t p left l wants with ⟨lock, found⟩
    refine ⟨lock, found, fun h holds => (holder l h ?_).1⟩
    rw [holder?, ← holds]
    exact congrArg (·.bind Lock.holder) found

theorem unleft_of_running (placed : k.Placed) (running : k.Running) : k.current ∉ k.dying := by
  intro left
  rcases running with ⟨thread, found, runs⟩
  cases runs.symm.trans (placed.dying_of_mem left found)

section Processor

variable {due : Option Pending} (secure : Secure d ⟨k, due⟩) (strict : d.Strict)

include secure strict

theorem Secure.succeeds_schedule (undue : due = none) (masked : k.processor.level = .off)
    (halted : ∃ thread, k.threads.get? k.current = some thread ∧ thread.state ≠ .running)
    (unleft : k.current ∉ k.dying) : Succeeds schedule k := by
  subst undue
  apply ThreadKernel.succeeds_schedule secure.toRegular strict.plainHandles strict.sparesIdle
    secure.tended masked halted unleft secure.started
  exact fun t _ p pending => secure.outlasts ((Machine.work?_none k t).trans pending)

/-- What the current thread has begun to finish can be finished. -/
theorem Secure.succeeds_finish (runs : k.Runs) : Succeeds (finish due) k := by
  apply ThreadKernel.succeeds_finish secure.toRegular strict.plainHandles secure.tended.toWaits runs
  intro p begun
  rcases runs with ⟨thread, found, _, free⟩
  have left : (⟨k, due⟩ : Machine).work? k.current = some p := by
    rw [Machine.work?, pending?_of_get? found, free, if_pos rfl, Option.none_or, begun]
  exact (secure.outlasts left).feasible

/-- Whatever is tried, the processor can be given up if that is in vain. -/
theorem Secure.succeeds_schedule_of_tries (runs : k.Runs) (masked : k.processor.level = .off)
    {act : Option Act} (tries : Tries d act due k false k') (vain : k.Vain due k') :
    Succeeds schedule k' := by
  apply ThreadKernel.succeeds_schedule_of_tries secure.toRegular strict.plainHandles
    strict.sparesIdle secure.tended runs masked secure.started _ tries vain
  intro t _ p pending
  apply secure.outlasts
  rw [Machine.work?, pending, Option.some_or]

end Processor

end ThreadKernel
