import ThreadKernel.Proofs.Signals

/-!
# Waiting for a condition

What `ThreadKernel/Proofs/Signals.lean` says of ledgers, said of kernels in between the
operations of a run:

* `Parked`, `Kernel.Queued`: where a thread is that waits for a signal.
* `Kernel.WaitFate`: what has become of a wait that once was queued.
* `Kernel.Stocked`: which semaphores there are, apart from those that callers made
  (`Discipline.Inventory`).
-/

namespace ThreadKernel

open Kernel

variable {d : Discipline} {m m' : Machine} {k k' : Kernel} {t : ThreadId} {x : Post}
  {s : SemaphoreId} {l : LockId} {c : ConditionId} {w : Waiter} {act : Option Act}

/-! ## Where a thread is that waits for a signal -/

/-- Where a thread can be that has begun to wait and has not got its signal. -/
inductive Post.Parks (x : Post) : Prop
  | running (runs : x.state = .running)
  | ready (ready : x.state = .ready) (there : x.place = .ready)
  | blocked {s : SemaphoreId} (blocked : x.state = .blocked) (there : x.place = .semaphore s)

theorem Shift.parks (shift : Shift d m m') (found : m.kernel.post? t = some x) (parks : x.Parks)
    (busy : m.work? t ≠ none) (other : m.kernel.idle ≠ some t) :
    ∃ y, m'.kernel.post? t = some y ∧ y.Parks := by
  cases shift with
  | stay posts => exact ⟨x, posts ▸ found, parks⟩
  | enroll new posts _ =>
    refine ⟨x, ?_, parks⟩
    rw [posts, Function.update_of_ne, found]
    rintro rfl
    cases new.symm.trans found
  | reclaim posts _ _ =>
    obtain kept | ⟨_, dying⟩ := posts t x found
    · exact ⟨x, kept, parks⟩
    · cases parks with
      | running runs => cases dying.symm.trans runs
      | ready ready _ => cases dying.symm.trans ready
      | blocked blocked _ => cases dying.symm.trans blocked
  | turn foundTurn turn posts =>
    rename_i t' x' y
    by_cases here : t = t'
    · subst here
      refine ⟨y, by rw [posts, Function.update_self], ?_⟩
      cases turn with
      | unblock | wake | rise | yield => exact .ready rfl rfl
      | queue => exact .blocked rfl rfl
      | pick => exact .running rfl
      | halt _ _ whole => exact (whole.elim busy other).elim
      | doze _ _ free => exact absurd free busy
    · exact ⟨x, by rw [posts, Function.update_of_ne here, found], parks⟩

/-- Who has begun to wait is not asleep or blocked for another reason, and is not the idle
thread. -/
structure Parked (m : Machine) : Prop where
  parks : ∀ t s l, m.work? t = some (.signal s l) → ∃ x, m.kernel.post? t = some x ∧ x.Parks
  idle : ∀ t, m.kernel.idle = some t → ∀ s l, m.work? t ≠ some (.signal s l)

theorem Move.of_enlist (move : Move d (some (.enlist c l)) m m')
    (never : d.idleNeverAwaits = true) : m.kernel.Running ∧
      m.kernel.idle ≠ some m.kernel.current ∧ m'.kernel.post? = m.kernel.post? ∧
      m'.kernel.idle = m.kernel.idle := by
  cases move with
  | attempt _ _ onset => cases onset
  | attemptLock _ onset => cases onset
  | enlist runs waits holds found joins =>
    exact ⟨runs.running, waits (.inr never), post?_of_agree (Arena.agree_modify fun _ => rfl), rfl⟩

theorem Parked.move (parked : Parked m) (move : Move d act m m') (regular : Regular d m)
    (named : d.plainHandles = true) (never : d.idleNeverAwaits = true) : Parked m' := by
  have sound := regular.toSound
  have waiting := (move.entry sound regular.tidy).waiting (regular.sorted named) named
  have begun : ∀ {t s l}, m'.work? t = some (.signal s l) → m.work? t = some (.signal s l) ∨
      t = m.kernel.current ∧ ∃ c l, act = some (.enlist c l) := waiting.begun
  constructor
  case parks =>
    intro t s l left
    obtain old | ⟨rfl, c, l', rfl⟩ := begun left
    · obtain ⟨x, found, parks⟩ := parked.parks t s l old
      exact (move.shift sound).parks found parks (by rw [old]; exact nofun)
        fun idles => parked.idle t idles s l old
    · obtain ⟨⟨thread, found, running⟩, _, posts, _⟩ := move.of_enlist never
      exact ⟨thread.post, posts ▸ post?_of_get? found, .running running⟩
  case idle =>
    intro t idles s l left
    have same : m'.kernel.idle = m.kernel.idle ∨ m'.work? t = none := by
      cases move.beat sound with
      | still same | tick _ same | begin _ _ same => exact .inl (congrArg (·.2.2.2.2) same)
      | appoint free other same =>
        cases idles.symm.trans (congrArg (·.2.2.2.2) same)
        refine .inr ?_
        rw [Machine.work?, free, if_neg other, Option.or_none]
    obtain same | free := same
    · rw [same] at idles
      obtain old | ⟨rfl, c, l', rfl⟩ := begun left
      · exact parked.idle t idles s l old
      · exact (move.of_enlist never).2.1 idles
    · cases free.symm.trans left

/-! ## Which semaphores there are -/

namespace Ledger

variable {a b : Ledger}

/-- What `s` was made for, if it is there. -/
def purpose? (a : Ledger) (s : SemaphoreId) : Option Purpose := (a.semaphores s).map Prod.snd

/-- The semaphore that holds the unit of `l`. -/
def unit? (a : Ledger) (l : LockId) : Option SemaphoreId := (a.locks l).map (·.semaphore)

/-- What an entry comes to for the semaphores that there are. -/
inductive Roster (a b : Ledger) : Option Act → Prop
  | kept {act : Option Act} (purposes : b.purpose? = a.purpose?) (units : b.unit? = a.unit?) :
      Roster a b act
  | create (purposes : b.purpose? = Function.update a.purpose? a.next (some .plain))
      (units : b.unit? = a.unit?) : Roster a b (some (.create a.next))
  | destroy {s : SemaphoreId} (purposes : b.purpose? = Function.update a.purpose? s none)
      (units : b.unit? = a.unit?) : Roster a b (some (.destroy s))
  | createLock {l : LockId} (new : a.unit? l = none)
      (purposes : b.purpose? = Function.update a.purpose? a.next (some .lock))
      (units : b.unit? = Function.update a.unit? l (some a.next)) : Roster a b none
  | destroyLock {l : LockId} {s : SemaphoreId} (found : a.unit? l = some s)
      (purpose : a.purpose? s = some .lock)
      (purposes : b.purpose? = Function.update a.purpose? s none)
      (units : b.unit? = Function.update a.unit? l none) : Roster a b none
  | enlist {c : ConditionId} {l : LockId}
      (purposes : b.purpose? = Function.update a.purpose? a.next (some .signal))
      (units : b.unit? = a.unit?) : Roster a b (some (.enlist c l))
  | receive {s : SemaphoreId} (purpose : a.purpose? s = some .signal)
      (purposes : b.purpose? = Function.update a.purpose? s none)
      (units : b.unit? = a.unit?) : Roster a b none

theorem purpose?_update {stock : Option (Nat × Purpose)} {purpose : Option Purpose}
    (same : b.semaphores = Function.update a.semaphores s stock)
    (meant : stock.map Prod.snd = purpose) :
    b.purpose? = Function.update a.purpose? s purpose := by
  funext s'
  subst meant
  rw [purpose?, same, Function.update_apply, Function.update_apply]
  split <;> rfl

theorem unit?_update {lock : Option Lock} {unit : Option SemaphoreId}
    (same : b.locks = Function.update a.locks l lock)
    (within : lock.map (fun lock => lock.semaphore) = unit) :
    b.unit? = Function.update a.unit? l unit := by
  funext l'
  subst within
  rw [unit?, same, Function.update_apply, Function.update_apply]
  split <;> rfl

/-- A change in the number of units says nothing of what a semaphore is for. -/
theorem purpose?_stocked {value value' : Nat} {purpose : Purpose}
    (found : a.semaphores s = some (value, purpose))
    (same : b.semaphores = Function.update a.semaphores s (some (value', purpose))) :
    b.purpose? = a.purpose? := by
  rw [purpose?_update same rfl]
  exact Function.update_eq_self_iff.mpr (congrArg (Option.map Prod.snd) found).symm

/-- Who holds a lock has nothing to do with where its unit is. -/
theorem unit?_entitled {lock lock' : Lock} (found : a.locks l = some lock)
    (same : b.locks = Function.update a.locks l (some lock'))
    (unit : lock'.semaphore = lock.semaphore) : b.unit? = a.unit? := by
  rw [unit?_update same rfl]
  refine Function.update_eq_self_iff.mpr (Eq.symm ?_)
  rw [unit?, found]
  exact congrArg some unit.symm

end Ledger

theorem Entry.roster {a b : Ledger} (entry : Entry d act a b) (sorted : a.Sorted) :
    a.Roster b act := by
  cases entry with
  | note | pick | want | await => exact .kept rfl rfl
  | create => exact .create (Ledger.purpose?_update rfl rfl) rfl
  | destroy => exact .destroy (Ledger.purpose?_update rfl rfl) rfl
  | createLock new =>
    exact .createLock (congrArg (Option.map fun lock : Lock => lock.semaphore) new) (Ledger.purpose?_update rfl rfl)
      (Ledger.unit?_update rfl rfl)
  | destroyLock found =>
    exact .destroyLock (congrArg (Option.map fun lock : Lock => lock.semaphore) found)
      (congrArg (Option.map Prod.snd) (sorted.unit _ _ found)) (Ledger.purpose?_update rfl rfl)
      (Ledger.unit?_update rfl rfl)
  | take _ found | give found => exact .kept (Ledger.purpose?_stocked found rfl) rfl
  | hold _ found unit | release found _ unit =>
    exact .kept (Ledger.purpose?_stocked unit rfl) (Ledger.unit?_entitled found rfl rfl)
  | enlist => exact .enlist (Ledger.purpose?_update rfl rfl) rfl
  | signal _ found => exact .kept (Ledger.purpose?_stocked found rfl) rfl
  | receive due found =>
    have made := (sorted.signal _ _ _ due).purpose _ found
    exact .receive ((congrArg (Option.map Prod.snd) found).trans (congrArg some made))
      (Ledger.purpose?_update rfl rfl) rfl

namespace Ledger

variable {a b : Ledger}

theorem Sorted.purpose?_next (sorted : a.Sorted) (purpose : Purpose) :
    a.purpose? a.next ≠ some purpose := by
  intro found
  rcases Option.map_eq_some_iff.mp found with ⟨stock, stocked, _⟩
  exact absurd (sorted.issued _ _ stocked) (Nat.lt_irrefl _)

/-- Every unit of a lock belongs to a lock that is there. -/
theorem Roster.owned (roster : a.Roster b act) (sorted : a.Sorted)
    (owned : ∀ s, a.purpose? s = some .lock → ∃ l, a.unit? l = some s) :
    ∀ s, b.purpose? s = some .lock → ∃ l, b.unit? l = some s := by
  intro s found
  cases roster with
  | kept purposes units => rw [units]; exact owned s (purposes ▸ found)
  | create purposes units | enlist purposes units =>
    rw [purposes] at found
    rw [units]
    exact owned s ((update_eq_iff (sorted.purpose?_next .lock) (by exact nofun)).mp found)
  | destroy purposes units | receive _ purposes units =>
    rw [purposes, Function.update_apply] at found
    split at found
    · cases found
    · rw [units]
      exact owned s found
  | createLock new purposes units =>
    rename_i l
    rw [units]
    rw [purposes, Function.update_apply] at found
    split at found
    · next here => exact ⟨l, by rw [Function.update_self, here]⟩
    · rcases owned s found with ⟨l', unit⟩
      refine ⟨l', ?_⟩
      rw [Function.update_of_ne, unit]
      rintro rfl
      cases new.symm.trans unit
  | destroyLock gone _ purposes units =>
    rw [purposes, Function.update_apply] at found
    split at found
    · cases found
    · next other =>
      rcases owned s found with ⟨l', unit⟩
      refine ⟨l', ?_⟩
      rw [units, Function.update_of_ne, unit]
      rintro rfl
      exact other (Option.some.inj (unit.symm.trans gone))

/-- Only requests for it make or destroy a semaphore that is for a caller's use. -/
theorem Roster.plain (roster : a.Roster b act) (sorted : a.Sorted)
    (creates : ∀ s, act ≠ some (.create s)) (destroys : ∀ s, act ≠ some (.destroy s)) :
    b.purpose? s = some .plain ↔ a.purpose? s = some .plain := by
  cases roster with
  | kept purposes => rw [purposes]
  | create => exact absurd rfl (creates _)
  | destroy => exact absurd rfl (destroys _)
  | createLock _ purposes | enlist purposes =>
    rw [purposes]
    exact update_eq_iff (sorted.purpose?_next _) nofun
  | destroyLock _ purpose purposes | receive purpose purposes =>
    rw [purposes]
    exact update_eq_iff (by rw [purpose]; exact nofun) nofun

end Ledger

namespace Kernel

/-- What `s` was made for, if it is there. -/
def purpose? (k : Kernel) (s : SemaphoreId) : Option Purpose := (k.semaphores.get? s).map (·.purpose)

/-- The semaphore that holds the unit of `l`. -/
def unit? (k : Kernel) (l : LockId) : Option SemaphoreId := (k.locks.get? l).map (·.semaphore)

theorem purpose?_ledger (k : Kernel) : (⟨k, none⟩ : Machine).ledger.purpose? = k.purpose? := by
  funext s
  exact Option.map_map ..

end Kernel

/-! ## Every run -/

/-- What keeps waits in order in the midst of a run. -/
structure Ledger.Tended (a : Ledger) : Prop extends a.Waits where
  belongs : ∀ s, a.purpose? s = some .lock → ∃ l, a.unit? l = some s

theorem Ledger.Tended.entry {a b : Ledger} (tended : a.Tended) (entry : Entry d act a b)
    (sorted : a.Sorted) (named : d.plainHandles = true) : b.Tended where
  toWaits := tended.toWaits.step (entry.waiting sorted named) sorted
  belongs := (entry.roster sorted).owned sorted tended.belongs

theorem Moves.tended {deeds : List Deed} (moves : Moves d deeds m m') (regular : Regular d m)
    (named : d.plainHandles = true) (tended : m.ledger.Tended) : m'.ledger.Tended :=
  moves.ledger regular named tended fun entry sorted _ tended => tended.entry entry sorted named

theorem tended_fresh (config : Config) (rule : Reposition) :
    (⟨.fresh config rule, none⟩ : Machine).ledger.Tended := by
  have free : ∀ t, (⟨.fresh config rule, none⟩ : Machine).ledger.work t = none := fun t =>
    (Machine.work?_none _ t).trans (pending?_fresh config rule t)
  have empty : ∀ s, (⟨.fresh config rule, none⟩ : Machine).ledger.semaphores s = none := fun s =>
    congrArg (Option.map Semaphore.stock) (Arena.get?_empty 0 s)
  have unlisted : ∀ c, (⟨.fresh config rule, none⟩ : Machine).ledger.enlisted c = [] := fun c =>
    congrArg (Option.elim · [] fun condition : Condition => condition.waiters) (Arena.get?_empty 0 c)
  constructor
  case belongs =>
    intro s found
    rw [Ledger.purpose?, empty] at found
    cases found
  case toWaits =>
    constructor
    case left => exact fun c w listed => by cases unlisted c ▸ listed
    case awaits => exact fun t s l left => by cases (free t).symm.trans left
    case sole => exact fun t _ s l _ left => by cases (free t).symm.trans left
    case once => exact fun c => by rw [unlisted]; exact List.nodup_nil
    case apart => exact fun c _ w listed => by cases unlisted c ▸ listed
    case owned => exact fun s value found => by cases (empty s).symm.trans found
    case untold => exact fun _ _ => rfl

/-- Waits are in order in between operations, and so is who waits. -/
theorem Reachable.tended (reachable : Reachable d k) (named : d.plainHandles = true) :
    (⟨k, none⟩ : Machine).ledger.Tended := by
  induction reachable with
  | fresh config rule => exact tended_fresh config rule
  | step before transit ih =>
    rcases transit.steps before.steady with ⟨_, steps⟩
    exact steps.moves.tended before.steady.regular named ih

theorem Reachable.parked (reachable : Reachable d k) (named : d.plainHandles = true)
    (never : d.idleNeverAwaits = true) : Parked ⟨k, none⟩ := by
  apply reachable.invariant (motive := Parked)
  · intro config rule
    have free : ∀ t, (⟨.fresh config rule, none⟩ : Machine).work? t = none := fun t =>
      (Machine.work?_none _ t).trans (pending?_fresh config rule t)
    exact ⟨fun t s l left => by (cases (free t).symm.trans left), nofun⟩
  · exact fun regular move parked => parked.move move regular named never

/-! ## In between operations -/

namespace Kernel

/-- A wait that is queued has a semaphore of its own without a unit, and its thread is blocked
on that, or has lost the processor before it got there. -/
structure Queued (k : Kernel) (w : Waiter) : Prop where
  empty : ∃ semaphore, k.semaphores.get? w.semaphore = some semaphore ∧
    semaphore.purpose = .signal ∧ semaphore.value = 0
  sole : ∀ c, ∀ w' ∈ k.enlisted c, w'.semaphore = w.semaphore → w' = w
  thread : ∃ thread l, k.threads.get? w.thread = some thread ∧
    thread.pending = some (.signal w.semaphore l) ∧
    (thread.state = .blocked ∧ thread.place = .semaphore w.semaphore ∨
      thread.state = .ready ∧ thread.place = .ready)

/-- What has become of the wait `w` for `c` once it has been queued: it still is and has no
unit; or it is not, and one unit was given that it has yet to take; or it has taken that
unit, and its semaphore is gone. -/
inductive WaitFate (k : Kernel) (c : ConditionId) (w : Waiter) : Prop
  | queued (listed : w ∈ k.enlisted c) (untold : account w.semaphore k.events = [])
  | signalled {l : LockId} (unlisted : ∀ c, w ∉ k.enlisted c)
      (left : k.pending? w.thread = some (.signal w.semaphore l))
      (unit : (k.semaphores.get? w.semaphore).map (·.value) = some 1)
      (told : account w.semaphore k.events = [.gives w.semaphore])
  | received (unlisted : ∀ c, w ∉ k.enlisted c)
      (done : ∀ t l, k.pending? t ≠ some (.signal w.semaphore l))
      (gone : k.semaphores.get? w.semaphore = none)
      (told : account w.semaphore k.events =
        [.takes w.thread w.semaphore, .gives w.semaphore])

/-- The semaphores that there are: those in `made`, one for each lock, and one for each wait
that has not got its signal. -/
structure Stocked (k : Kernel) (made : List SemaphoreId) : Prop where
  live : ∀ s, k.semaphores.get? s ≠ none ↔
    s ∈ made ∨ (∃ l, k.unit? l = some s) ∨ ∃ t l, k.pending? t = some (.signal s l)
  plain : ∀ s, s ∈ made ↔ k.purpose? s = some .plain
  unit : ∀ s, (∃ l, k.unit? l = some s) ↔ k.purpose? s = some .lock
  signal : ∀ s, (∃ t l, k.pending? t = some (.signal s l)) ↔ k.purpose? s = some .signal
  distinct : ∀ l l' s, k.unit? l = some s → k.unit? l' = some s → l = l'
  sole : ∀ t t' s l l', k.pending? t = some (.signal s l) → k.pending? t' = some (.signal s l') →
    t = t'

end Kernel

/-- `made` are the semaphores that the requests of a run to `k` have made for the callers' use
and not destroyed. -/
inductive Discipline.Inventory (d : Discipline) : List SemaphoreId → Kernel → Prop
  | fresh (config : Config) (rule : Reposition) : Inventory d [] (.fresh config rule)
  | create {made : List SemaphoreId} {k k' : Kernel} {value index : Nat}
      (before : Inventory d made k) (obeys : (Request.createSemaphore value).Obeys d k)
      (ran : (Request.createSemaphore value).perform.run k = .ok (.number index, k')) :
      Inventory d (⟨index⟩ :: made) k'
  | destroy {made : List SemaphoreId} {k k' : Kernel} {s : SemaphoreId} {reply : Reply}
      (before : Inventory d made k) (obeys : (Request.destroySemaphore s).Obeys d k)
      (ran : (Request.destroySemaphore s).perform.run k = .ok (reply, k')) :
      Inventory d (made.filter fun other => other ≠ s) k'
  | other {made : List SemaphoreId} {k k' : Kernel} {o : Occurrence} (before : Inventory d made k)
      (occurs : d.occur k o = some k') (creates : ∀ value, o ≠ .request (.createSemaphore value))
      (destroys : ∀ s, o ≠ .request (.destroySemaphore s)) : Inventory d made k'

theorem exists_of_mem_queueAt (queued : t ∈ k.queueAt (.semaphore s)) :
    ∃ semaphore, k.semaphores.get? s = some semaphore ∧ t ∈ semaphore.waiters := by
  cases found : k.semaphores.get? s with
  | none =>
    rw [queueAt, found] at queued
    cases queued
  | some semaphore => exact ⟨semaphore, rfl, queueAt_semaphore found ▸ queued⟩

theorem Reachable.queued (reachable : Reachable d k) (named : d.plainHandles = true)
    (never : d.idleNeverAwaits = true) (listed : w ∈ k.enlisted c) : k.Queued w := by
  have steady := reachable.steady
  have placed : k.Placed := steady.regular.placed
  have waits := (reachable.tended named).toWaits
  rcases waits.left c w listed with ⟨l, left⟩
  constructor
  case empty =>
    rcases Option.map_eq_some_iff.mp (waits.empty_of_mem listed).1 with ⟨semaphore, found, stock⟩
    exact ⟨semaphore, found, congrArg Prod.snd stock, congrArg Prod.fst stock⟩
  case sole => exact fun c' w' listed' same => waits.eq_of_semaphore listed' listed same
  case thread =>
    rcases (reachable.parked named never).parks _ _ l left with ⟨post, foundPost, parks⟩
    have pending : k.pending? w.thread = some (.signal w.semaphore l) :=
      (Machine.work?_none k _).symm.trans left
    rcases Option.bind_eq_some_iff.mp pending with ⟨thread, found, plans⟩
    cases (post?_of_get? found).symm.trans foundPost
    refine ⟨thread, l, found, plans, ?_⟩
    cases parks with
    | running running =>
      have here := placed.running found running
      rw [here, steady.runs.pending?] at pending
      cases pending
    | ready ready there => exact .inr ⟨ready, there⟩
    | @blocked s blocked there =>
      -- Whatever list it is in, it is one of those who will try that semaphore.
      have queued := (placed.mem_queueAt (p := .semaphore s) nofun w.thread).mpr
        ⟨thread, found, there⟩
      rcases exists_of_mem_queueAt queued with ⟨semaphore, foundSemaphore, among⟩
      have aims := steady.regular.attended.retries s semaphore foundSemaphore _ among
      rw [aim?, pending] at aims
      cases aims
      exact .inl ⟨blocked, there⟩

/-- A wait that once was queued has its fate at every later moment. -/
theorem Reachable.fate (reachable : Reachable d k) (named : d.plainHandles = true)
    (listed : w ∈ k.enlisted c) (later : Relation.ReflTransGen (Transit d) k k') :
    Reachable d k' ∧ (⟨k', none⟩ : Machine).ledger.Fate c w := by
  rcases reachable.moves later with ⟨_, moves⟩
  have both := moves.ledger (motive := fun a => a.Tended ∧ a.Fate c w)
    reachable.steady.regular named ⟨reachable.tended named, .queued listed⟩
    fun entry sorted _ ⟨tended, fate⟩ => ⟨tended.entry entry sorted named,
      tended.toWaits.fate fate (entry.waiting sorted named) sorted⟩
  exact ⟨reachable.trans later, both.2⟩

/-- What was begun and has not got its signal is queued, or has been sent it. -/
theorem Ledger.Waits.waitFate (waits : (⟨k, none⟩ : Machine).ledger.Waits)
    (left : k.pending? t = some (.signal s l)) : ∃ c, k.WaitFate c ⟨s, t⟩ := by
  cases waits.awaits t s l ((Machine.work?_none k t).trans left) with
  | queued listed empty untold => exact ⟨_, .queued listed untold⟩
  | signalled unlisted unit told =>
    refine ⟨⟨0⟩, .signalled unlisted left ?_ told⟩
    rcases Option.map_eq_some_iff.mp unit with ⟨semaphore, found, stock⟩
    rw [found]
    exact congrArg some (congrArg Prod.fst stock)

theorem Ledger.Fate.waitFate (fate : (⟨k, none⟩ : Machine).ledger.Fate c w)
    (waits : (⟨k, none⟩ : Machine).ledger.Waits) : k.WaitFate c w := by
  cases fate with
  | queued listed => exact .queued listed (waits.empty_of_mem listed).2
  | @signalled l left told =>
    have pending := (Machine.work?_none k _).symm.trans left
    rcases waits.waitFate pending with ⟨_, fate⟩
    cases fate with
    | queued listed untold => cases told.symm.trans untold
    | signalled unlisted _ unit _ => exact .signalled unlisted pending unit told
    | received _ done => exact absurd pending (done _ l)
  | received issued gone told =>
    have done : ∀ t l, (⟨k, none⟩ : Machine).ledger.work t ≠ some (.signal w.semaphore l) := by
      intro t l left
      rcases waits.live left with ⟨_, live⟩
      cases live.symm.trans gone
    refine .received (fun c listed => ?_) (fun t l pending => ?_) (Option.map_eq_none_iff.mp gone)
      told
    · rcases waits.left c w listed with ⟨l, left⟩
      exact done _ l left
    · exact done t l ((Machine.work?_none k t).trans pending)

/-- Queued waits are taken off by the operations that send signals. -/
theorem calls_of_unlisted {o : Occurrence} (steady : Steady d k) (named : d.plainHandles = true)
    (listed : w ∈ k.enlisted c) (occurs : d.occur k o = some k') :
    w ∈ k'.enlisted c ∨ ∃ l, o = .request (.signal c l) ∨ o = .request (.broadcast c l) := by
  rcases steps_of_occur steady occurs with ⟨deeds, steps, accounts⟩
  refine steps.moves.ledger (motive := fun a => w ∈ a.enlisted c ∨
    ∃ l, o = .request (.signal c l) ∨ o = .request (.broadcast c l)) steady.regular named
    (.inl listed) fun entry sorted acts ih => ?_
  rcases ih with listed | calls
  · rcases (entry.waiting sorted named).leaves listed with listed | is
    · exact .inl listed
    · rcases (accounts _ (acts _ is)).1 with ⟨does⟩
      cases does with
      | signal => exact .inr ⟨_, .inl rfl⟩
      | broadcast => exact .inr ⟨_, .inr rfl⟩
  · exact .inr calls

theorem purpose?_of_occur {o : Occurrence} (steady : Steady d k) (named : d.plainHandles = true)
    (occurs : d.occur k o = some k') (creates : ∀ value, o ≠ .request (.createSemaphore value))
    (destroys : ∀ s, o ≠ .request (.destroySemaphore s)) :
    k'.purpose? s = some .plain ↔ k.purpose? s = some .plain := by
  rcases steps_of_occur steady occurs with ⟨deeds, steps, accounts⟩
  have kept := steps.moves.ledger (motive := fun a => a.purpose? s = some .plain ↔
    k.purpose? s = some .plain) steady.regular named (by rw [purpose?_ledger])
    fun entry sorted acts ih => by
      refine Iff.trans ((entry.roster sorted).plain sorted (fun s is => ?_) fun s is => ?_) ih
      · rcases (accounts _ (acts _ is)).1 with ⟨does⟩
        cases does
        exact creates _ rfl
      · rcases (accounts _ (acts _ is)).1 with ⟨does⟩
        cases does
        exact destroys _ rfl
  rwa [purpose?_ledger] at kept

namespace Discipline.Inventory

variable {made : List SemaphoreId}

theorem reachable (inventory : d.Inventory made k) : Reachable d k := by
  induction inventory with
  | fresh config rule => exact .fresh config rule
  | create _ obeys ran ih | destroy _ obeys ran ih => exact ih.step (.request obeys ran)
  | other _ occurs _ _ ih => exact ih.step (transit_of_occur occurs)

/-- The semaphores that are there for the callers' use are those in the inventory. -/
theorem mem_iff (inventory : d.Inventory made k) (named : d.plainHandles = true) (s : SemaphoreId) :
    s ∈ made ↔ k.purpose? s = some .plain := by
  induction inventory with
  | fresh config rule =>
    simp [Kernel.purpose?, Kernel.fresh, Arena.get?_empty]
  | create before obeys ran ih =>
    rename_i k k' value index
    rcases run_bind_eq_ok_iff.mp ran with ⟨h, created, creates, same⟩
    rcases of_run_createSemaphore creates with ⟨rfl, rfl⟩
    cases same
    rw [Kernel.purpose?, Arena.get?_push]
    split
    · next here => exact iff_of_true (here ▸ List.mem_cons_self ..) rfl
    · next other =>
      rw [List.mem_cons, ih, Kernel.purpose?]
      exact or_iff_right other
  | destroy before obeys ran ih =>
    rename_i k k' gone reply
    rcases run_bind_eq_ok_iff.mp ran with ⟨_, _, destroys, same⟩
    cases same
    rcases SemaphoreId.of_run_destroy destroys with ⟨_, _, _, rfl⟩
    rw [Kernel.purpose?, SemaphoreId.destroyed_semaphores, Arena.get?_erase, List.mem_filter, ih,
      decide_eq_true_iff]
    split
    · next here => simp [here]
    · next other => exact and_iff_left (Ne.symm other)
  | other before occurs creates destroys ih =>
    rw [ih, purpose?_of_occur before.reachable.steady named occurs creates destroys]

end Discipline.Inventory

/-- Every run has an inventory. -/
theorem Reachable.inventory (reachable : Reachable d k) : ∃ made, d.Inventory made k := by
  induction reachable with
  | fresh config rule => exact ⟨[], .fresh config rule⟩
  | step _ transit ih =>
    rcases ih with ⟨made, inventory⟩
    cases transit with
    | @request r reply obeys ran =>
      by_cases creates : ∃ value, r = .createSemaphore value
      · rcases creates with ⟨value, rfl⟩
        rcases run_bind_eq_ok_iff.mp (id ran) with ⟨h, _, _, same⟩
        cases same
        exact ⟨_, inventory.create obeys ran⟩
      · by_cases destroys : ∃ s, r = .destroySemaphore s
        · rcases destroys with ⟨s, rfl⟩
          exact ⟨_, inventory.destroy obeys ran⟩
        · refine ⟨made, inventory.other (Discipline.occur_eq_some_iff.mpr (.request obeys ran)) ?_ ?_⟩
          · exact fun value same => creates ⟨value, Occurrence.request.inj same⟩
          · exact fun s same => destroys ⟨s, Occurrence.request.inj same⟩
    | enter ran =>
      exact ⟨made, inventory.other (Discipline.occur_eq_some_iff.mpr (.enter ran)) nofun nofun⟩
    | leave inside ran =>
      exact ⟨made, inventory.other (Discipline.occur_eq_some_iff.mpr (.leave inside ran)) nofun nofun⟩

/-- The semaphores of locks and of waits are those that there are besides. -/
theorem Reachable.stocked {made : List SemaphoreId} (reachable : Reachable d k)
    (named : d.plainHandles = true) (inventory : d.Inventory made k) : k.Stocked made := by
  have sorted := reachable.steady.regular.sorted named
  have tended := reachable.tended named
  rw [Machine.ledger] at sorted tended
  have purpose : ∀ s, k.purpose? s = (⟨k, none⟩ : Machine).ledger.purpose? s := fun s =>
    congrFun (purpose?_ledger k).symm s
  have work : ∀ t, k.pending? t = (⟨k, none⟩ : Machine).ledger.work t := fun t =>
    (Machine.work?_none k t).symm
  have plain := inventory.mem_iff named
  have unit : ∀ s, (∃ l, k.unit? l = some s) ↔ k.purpose? s = some .lock := by
    intro s
    constructor
    · rintro ⟨l, holds⟩
      rcases Option.map_eq_some_iff.mp holds with ⟨lock, found, rfl⟩
      rw [purpose]
      exact congrArg (Option.map Prod.snd) (sorted.unit l lock found)
    · intro meant
      rw [purpose] at meant
      exact tended.belongs s meant
  have signal : ∀ s, (∃ t l, k.pending? t = some (.signal s l)) ↔
      k.purpose? s = some .signal := by
    intro s
    rw [purpose]
    constructor
    · rintro ⟨t, l, left⟩
      rcases tended.toWaits.live ((work t).symm.trans left) with ⟨value, live⟩
      exact congrArg (Option.map Prod.snd) live
    · intro meant
      rcases Option.map_eq_some_iff.mp meant with ⟨⟨value, _⟩, live, rfl⟩
      rcases tended.owned s value live with ⟨t, l, left⟩
      exact ⟨t, l, (work t).trans left⟩
  constructor
  case plain => exact plain
  case unit => exact unit
  case signal => exact signal
  case live =>
    intro s
    rw [plain, unit, signal, Kernel.purpose?]
    cases k.semaphores.get? s with
    | none => simp
    | some semaphore => cases meant : semaphore.purpose <;> simp [meant]
  case distinct =>
    intro l l' s holds holds'
    rcases Option.map_eq_some_iff.mp holds with ⟨lock, found, rfl⟩
    rcases Option.map_eq_some_iff.mp holds' with ⟨lock', found', same⟩
    exact sorted.distinct l l' lock lock' found found' same.symm
  case sole =>
    exact fun t t' s l l' left left' =>
      tended.sole t t' s l l' ((work t).symm.trans left) ((work t').symm.trans left')

/-- Each wait queued on a condition has a semaphore of its own.  It leaves the queue when a
signal is sent, which gives the semaphore one unit whether or not the thread has blocked yet;
the thread goes on when it has taken that unit, and the semaphore is gone then.  So apart from
the semaphores that callers made, there is one for each lock and one for each wait that has not
got its signal. -/
theorem condition_waits (reachable : Reachable d k) (named : d.plainHandles = true)
    (never : d.idleNeverAwaits = true) :
    (∀ c, (k.enlisted c).Nodup ∧ ∀ w ∈ k.enlisted c, k.Queued w ∧
      (∀ c', w ∈ k.enlisted c' → c' = c) ∧
      (∀ k', Relation.ReflTransGen (Transit d) k k' → k'.WaitFate c w) ∧
      ∀ o k', d.occur k o = some k' → w ∈ k'.enlisted c ∨
        ∃ l, o = .request (.signal c l) ∨ o = .request (.broadcast c l)) ∧
    (∀ t s l, k.pending? t = some (.signal s l) → ∃ c, k.WaitFate c ⟨s, t⟩) ∧
    (∃ made, d.Inventory made k) ∧ ∀ made, d.Inventory made k → k.Stocked made := by
  have waits := (reachable.tended named).toWaits
  refine ⟨fun c => ⟨waits.once c, fun w listed => ?_⟩, fun t s l left => waits.waitFate left,
    reachable.inventory, fun made inventory => reachable.stocked named inventory⟩
  refine ⟨reachable.queued named never listed, fun c' listed' => waits.apart c' c w listed' listed,
    fun k' later => ?_, fun o k' occurs => calls_of_unlisted reachable.steady named listed occurs⟩
  rcases reachable.fate named listed later with ⟨reachable', fate⟩
  exact fate.waitFate (reachable'.tended named).toWaits

theorem transits_of_occurAll {occurrences : List Occurrence}
    (occurs : d.occurAll occurrences k = some k') : Relation.ReflTransGen (Transit d) k k' := by
  induction occurrences generalizing k with
  | nil =>
    cases occurs
    exact .refl
  | cons first rest ih =>
    rcases Option.bind_eq_some_iff.mp occurs with ⟨middle, first, rest⟩
    exact (Relation.ReflTransGen.single (transit_of_occur first)).trans (ih rest)

/-- The initial thread loses the processor when it gives the lock back to wait, so the signal
comes before it has blocked.  It receives it as soon as it runs again. -/
theorem condition_waits_of_preempted : ∃ k k',
    Reachable { plainHandles := true, idleNeverAwaits := true } k ∧
    Relation.ReflTransGen (Transit { plainHandles := true, idleNeverAwaits := true }) k k' ∧
    (k.enlisted ⟨0⟩, k.queueAt (.semaphore ⟨1⟩)) = ([⟨⟨1⟩, .main⟩], []) ∧
    (k'.current, (k'.semaphores.get? ⟨1⟩).isSome) = (.main, false) ∧
    k.Queued ⟨⟨1⟩, .main⟩ ∧ k'.WaitFate ⟨0⟩ ⟨⟨1⟩, .main⟩ ∧
    ∃ made, Discipline.Inventory { plainHandles := true, idleNeverAwaits := true } made k' ∧
      k'.Stocked made := by
  have ran : ((Discipline.performAll { plainHandles := true, idleNeverAwaits := true }
      [.start, .createLock, .createCondition, .acquire ⟨0⟩, .spawn { priority := 40 }, .acquire ⟨0⟩,
        .wait ⟨0⟩ ⟨0⟩] (.fresh {} .stable)).bind fun k =>
      (Discipline.performAll { plainHandles := true, idleNeverAwaits := true }
        [.signal ⟨0⟩ ⟨0⟩, .release ⟨0⟩, .exit] k).map fun k' =>
          ((k.enlisted ⟨0⟩, k.queueAt (.semaphore ⟨1⟩)),
            (k'.current, (k'.semaphores.get? ⟨1⟩).isSome))) =
        some (([⟨⟨1⟩, .main⟩], []), (.main, false)) := by decide +kernel
  rcases Option.bind_eq_some_iff.mp ran with ⟨k, performed, rest⟩
  rcases Option.map_eq_some_iff.mp rest with ⟨k', goes, told⟩
  rcases Prod.mk.inj told with ⟨queues, after⟩
  have reachable := (Reachable.fresh {} .stable).performAll performed
  have listed : ⟨⟨1⟩, .main⟩ ∈ k.enlisted ⟨0⟩ := by
    rw [(Prod.mk.inj queues).1]
    exact List.mem_singleton.mpr rfl
  rcases ((condition_waits reachable rfl rfl).1 ⟨0⟩).2 _ listed with ⟨queued, _, fate, _⟩
  have later := transits_of_occurAll goes
  rcases (condition_waits (reachable.performAll goes) rfl rfl).2.2 with ⟨⟨made, inventory⟩, stocked⟩
  exact ⟨k, k', reachable, later, queues, after, queued, fate k' later, made, inventory,
    stocked made inventory⟩

end ThreadKernel
