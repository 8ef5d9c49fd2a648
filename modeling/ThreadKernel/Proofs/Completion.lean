import ThreadKernel.Proofs.EveryRun
import ThreadKernel.Proofs.Shift

/-!
# Suspended operations

An operation that cannot be done at once is finished by the dispatcher, some time in the
middle of an operation of another thread.  Three things are kept from one moment to the
next while a thread has not got to run, and say that it is done when the thread does:

* `Ledger.claims`: the units that were taken for the thread, and the one it still wants.
* `Ledger.Pursues`: the thread is to have the lock in the end, or has it.
* `Kernel.SleepsUntil`: the thread sleeps, or its tick has come.
-/

namespace ThreadKernel

open Kernel

variable {d : Discipline} {m m' : Machine} {k k' k'' : Kernel} {a b : Ledger} {t : ThreadId}
  {s : SemaphoreId} {l : LockId} {act : Option Act} {deeds : List Deed}
  {earlier later : List Event}

/-! ## Sleep -/

/-- `t` sleeps until the tick `w`, or that tick has come. -/
def Kernel.SleepsUntil (k : Kernel) (t : ThreadId) (w : Nat) : Prop :=
  w ≤ k.clock.ticks ∨ ∃ x, k.post? t = some x ∧ x.place = .sleep ∧ x.wakeTick = w

theorem Beat.ticks_le (beat : Beat k k' act) : k.clock.ticks ≤ k'.clock.ticks := by
  cases beat with
  | still same | begin _ _ same | appoint _ _ same => exact Nat.le_of_eq (congrArg (·.2.1.ticks) same).symm
  | tick charged same =>
    have one : k'.clock.ticks = k.clock.ticks + 1 := congrArg (·.2.1.ticks) same
    rw [one]
    exact Nat.le_succ _

/-- Who sleeps sleeps on until the tick has come. -/
theorem Kernel.SleepsUntil.move {w : Nat} (sleeps : m.kernel.SleepsUntil t w)
    (move : Move d act m m') (sound : Sound d m) : m'.kernel.SleepsUntil t w := by
  have later := (move.beat sound).ticks_le
  obtain come | ⟨x, found, asleep, rfl⟩ := sleeps
  · exact .inl (come.trans later)
  · obtain due | stays := move.sleeper sound found asleep
    · exact .inl (due.trans later)
    · exact .inr ⟨x, stays, asleep, rfl⟩

theorem Kernel.SleepsUntil.moves {w : Nat} (sleeps : m.kernel.SleepsUntil t w)
    (moves : Moves d deeds m m') (sound : Sound d m) : m'.kernel.SleepsUntil t w := by
  induction moves with
  | refl m => exact sleeps
  | tail before move ih => exact (ih sleeps sound).move move (sound.moves before)

/-- Who runs does not sleep. -/
theorem Kernel.SleepsUntil.come {w : Nat} (sleeps : k.SleepsUntil k.current w) (placed : k.Placed)
    (runs : k.Runs) : w ≤ k.clock.ticks := by
  obtain come | ⟨x, found, asleep, _⟩ := sleeps
  · exact come
  · obtain ⟨thread, foundThread, running, _⟩ := runs
    cases (post?_of_get? foundThread).symm.trans found
    cases (placed.detached_of_running foundThread running).symm.trans asleep

/-! ## Semaphores of one's own -/

/-- What `p` says it says of every semaphore that a lock or a wait has for its own. -/
structure Ledger.Private (a : Ledger) (p : SemaphoreId → Prop) : Prop where
  lock : ∀ l lock, a.locks l = some lock → p lock.semaphore
  signal : ∀ t s l, a.work t = some (.signal s l) → p s
  waiter : ∀ c, ∀ waiter ∈ a.enlisted c, p waiter.semaphore

theorem Entry.next (entry : Entry d act a b) :
    b.next = a.next ∨ b.next = ⟨a.next.index + 1⟩ := by
  cases entry with
  | create | createLock | enlist => exact .inr rfl
  | _ => exact .inl rfl

theorem Entry.next_le (entry : Entry d act a b) : a.next.index ≤ b.next.index := by
  obtain same | new := entry.next
  · rw [same]
  · rw [new]
    exact Nat.le_succ _

namespace Ledger

section Private

variable {p : SemaphoreId → Prop}

theorem Private.engaged (own : a.Private p) (work : Option Pending)
    (new : ∀ s l, work = some (.signal s l) → p s) : (a.engaged work).Private p where
  lock := own.lock
  signal t s l left := by
    obtain before | ⟨_, is⟩ := of_work_engaged left
    · exact own.signal t s l before
    · exact new s l is
  waiter := own.waiter

theorem Private.entitled (own : a.Private p) (l : LockId) (lock : Option Lock)
    (new : ∀ one, lock = some one → p one.semaphore) : (a.entitled l lock).Private p where
  lock l' one found := by
    rw [entitled_locks, Function.update_apply] at found
    split at found
    · exact new one found
    · exact own.lock l' one found
  signal := own.signal
  waiter := own.waiter

theorem Private.listed (own : a.Private p) (c : ConditionId) (waiters : List Waiter)
    (new : ∀ waiter ∈ waiters, p waiter.semaphore) : (a.listed c waiters).Private p where
  lock := own.lock
  signal := own.signal
  waiter c' waiter queued := by
    rw [listed_enlisted, Function.update_apply] at queued
    split at queued
    · exact new waiter queued
    · exact own.waiter c' waiter queued

theorem Private.congr (own : a.Private p) (locks : b.locks = a.locks) (work : b.work = a.work)
    (enlisted : b.enlisted = a.enlisted) : b.Private p where
  lock := by
    rw [locks]
    exact own.lock
  signal := by
    rw [work]
    exact own.signal
  waiter := by
    rw [enlisted]
    exact own.waiter

/-- Another record for a lock that goes on with its semaphore. -/
theorem Private.kept (own : a.Private p) {l : LockId} {lock : Lock} (holder : Option ThreadId)
    (found : a.locks l = some lock) :
    (a.entitled l (some { lock with holder := holder })).Private p := by
  refine own.entitled l _ fun _ is => ?_
  cases is
  exact own.lock l lock found

theorem Private.enlisted (own : a.Private p) {c : ConditionId} {l : LockId}
    {waiters : List Waiter} (first : p a.next)
    (perm : waiters.Perm (⟨a.next, a.runner⟩ :: a.enlisted c)) :
    ((a.engaged (some (.signal a.next l))).listed c waiters).Private p := by
  refine (own.engaged _ fun _ _ is => ?_).listed c waiters fun waiter queued => ?_
  · cases is
    exact first
  · obtain rfl | old := List.mem_cons.mp (perm.subset queued)
    · exact first
    · exact own.waiter c waiter old

/-- A lock and a wait that begin have the semaphore made next. -/
theorem Private.entry (own : a.Private p) (entry : Entry d act a b)
    (next : b.next = ⟨a.next.index + 1⟩ → p a.next) : b.Private p := by
  cases entry with
  | note | pick | create | destroy | give => exact own.congr rfl rfl rfl
  | take | want | await | receive =>
    refine (own.engaged _ ?_).congr rfl rfl rfl
    exact nofun
  | createLock =>
    refine (own.entitled _ _ fun _ is => ?_).congr rfl rfl rfl
    cases is
    exact next rfl
  | destroyLock => exact (own.entitled _ none nofun).congr rfl rfl rfl
  | hold starts found unit before remarks =>
    exact ((own.engaged none nofun).kept (some a.runner) found).congr rfl rfl rfl
  | release found holds unit before remarks => exact (own.kept none found).congr rfl rfl rfl
  | enlist idle holds perm remarks => exact (own.enlisted (next rfl) perm).congr rfl rfl rfl
  | signal perm found before remarks =>
    refine (own.listed _ _ fun one queued => ?_).congr rfl rfl rfl
    exact own.waiter _ one (perm.symm.subset (List.mem_cons_of_mem _ queued))

end Private

/-- `s` has been made, and no lock or wait has it for its own. -/
structure Unattached (a : Ledger) (s : SemaphoreId) : Prop where
  issued : s.index < a.next.index
  own : a.Private (· ≠ s)

theorem Unattached.entry (unattached : a.Unattached s) (entry : Entry d act a b) :
    b.Unattached s where
  issued := Nat.lt_of_lt_of_le unattached.issued entry.next_le
  own := unattached.own.entry entry fun _ => by
    rintro rfl
    exact Nat.lt_irrefl _ unattached.issued

/-- A semaphore that was made to be named is nobody's own. -/
theorem Sorted.unattached {value : Nat} (sorted : a.Sorted)
    (found : a.semaphores s = some (value, .plain)) : a.Unattached s where
  issued := sorted.issued s _ found
  own := by
    constructor
    · rintro l lock foundLock rfl
      cases sorted.purpose_of_unit foundLock found
    · rintro t _ l left rfl
      cases (sorted.signal t _ l left).purpose _ found
    · rintro c waiter queued rfl
      cases (sorted.enlisted c waiter queued).purpose _ found

end Ledger

/-! ## Units -/

/-- The units of `s` taken for `t` so far, and the one that it still wants. -/
def Ledger.claims (a : Ledger) (t : ThreadId) (s : SemaphoreId) : Nat :=
  a.events.count (.takes t s) + if a.work t = some (.unit s) then 1 else 0

/-- Whether this is done to get a unit of `s`. -/
def Act.isClaim (s : SemaphoreId) : Act → Bool
  | .take s' | .down s' => s' = s
  | _ => false

/-- Whether this is what `t` does to get a unit of `s`. -/
def Deed.isClaim (t : ThreadId) (s : SemaphoreId) (deed : Deed) : Bool :=
  decide (deed.thread = t) && deed.act.isClaim s

theorem count_takes_of_remarks (remarks : Remarks earlier later) :
    later.count (.takes t s) = earlier.count (.takes t s) := by
  obtain ⟨new, rfl, all⟩ := remarks
  rw [List.count_append, List.count_eq_zero_of_not_mem, Nat.zero_add]
  intro member
  cases all _ member

namespace Ledger

/-- What a semaphore was made for it is for. -/
theorem MadeFor.entry {purpose : Purpose} (made : a.MadeFor s purpose) (entry : Entry d act a b) :
    b.MadeFor s purpose := by
  have stocked : ∀ {s' value value' purpose'}, a.semaphores s' = some (value, purpose') →
      ∀ stock, Function.update a.semaphores s' (some (value', purpose')) s = some stock →
        stock.2 = purpose := by
    intro s' value value' purpose' found stock stocked
    rw [Function.update_apply] at stocked
    split at stocked
    · next here =>
      cases stocked
      exact made.purpose (value, purpose') (by rw [here, found])
    · exact made.purpose stock stocked
  have pushed : ∀ (value : Nat) purpose', (a.made value purpose').MadeFor s purpose := by
    refine fun value purpose' => ⟨Nat.lt_succ_of_lt made.issued, fun stock found => ?_⟩
    rw [made_semaphores, Function.update_of_ne] at found
    · exact made.purpose stock found
    · rintro rfl
      exact Nat.lt_irrefl _ made.issued
  have erased : ∀ s', (a.unmade s').MadeFor s purpose := by
    refine fun s' => ⟨made.issued, fun stock found => ?_⟩
    rw [unmade_semaphores, Function.update_apply] at found
    split at found
    · cases found
    · exact made.purpose stock found
  cases entry with
  | note | pick | want | await => exact ⟨made.issued, made.purpose⟩
  | create => exact pushed _ _
  | createLock => exact ⟨(pushed 1 .lock).issued, (pushed 1 .lock).purpose⟩
  | enlist => exact ⟨(pushed 0 .signal).issued, (pushed 0 .signal).purpose⟩
  | destroy | destroyLock | receive => exact ⟨made.issued, (erased _).purpose⟩
  | take _ found | hold _ _ found | release _ _ found | give found | signal _ found =>
    exact ⟨made.issued, stocked found⟩

/-- Who sets out for a unit claims it, unless it has claimed it before. -/
theorem Starts.claims {own : List Act} {s' : SemaphoreId} (starts : a.Starts own (.unit s') act)
    (own : ∀ one ∈ own, one = .take s' ∨ one = .down s') :
    ((if a.work a.runner = some (.unit s) then 1 else 0) +
      if act.any (·.isClaim s) then 1 else 0) = if s' = s then 1 else 0 := by
  obtain ⟨⟨one, among, rfl⟩, free⟩ | ⟨rfl, left⟩ := starts
  · have claims : one.isClaim s = decide (s' = s) := by
      obtain rfl | rfl := own one among <;> rfl
    rw [free, if_neg nofun, Nat.zero_add, Option.any_some, claims]
    simp only [decide_eq_true_eq]
  · rw [left, Option.any_none, if_neg Bool.false_ne_true, Nat.add_zero]
    simp only [Option.some.injEq, Pending.unit.injEq]

theorem Starts.mem {own : List Act} {work : Pending} {one : Act} (starts : a.Starts own work act)
    (is : act = some one) : one ∈ own := by
  obtain ⟨⟨_, among, same⟩, _⟩ | ⟨none, _⟩ := starts
  · cases is.symm.trans same
    exact among
  · cases none.symm.trans is

/-- Neither claims nor units are at stake. -/
theorem claims_eq (count : b.events.count (.takes t s) = a.events.count (.takes t s))
    (work : b.work t = some (.unit s) ↔ a.work t = some (.unit s))
    (unclaimed : act.any (·.isClaim s) = false) :
    b.claims t s = a.claims t s + if a.runner = t ∧ act.any (·.isClaim s) then 1 else 0 := by
  rw [claims, claims, count, unclaimed]
  simp only [work, Bool.false_eq_true, and_false, if_false, Nat.add_zero]

/-- The current thread sets out for, or is done with, something other than a unit. -/
theorem work_engaged_iff {work : Option Pending} (before : a.work a.runner ≠ some (.unit s))
    (after : work ≠ some (.unit s)) :
    (a.engaged work).work t = some (.unit s) ↔ a.work t = some (.unit s) := by
  rw [engaged_work, Function.update_apply]
  split
  · next here =>
    rw [here]
    exact iff_of_false after before
  · exact Iff.rfl

theorem Starts.ne_unit {own : List Act} {work : Pending} (starts : a.Starts own work act)
    (other : work ≠ .unit s) : a.work a.runner ≠ some (.unit s) := by
  obtain ⟨_, free⟩ | ⟨_, left⟩ := starts
  · rw [free]
    exact nofun
  · rw [left]
    exact fun same => other (Option.some.inj same)

theorem Starts.any_isClaim {own : List Act} {work : Pending} (starts : a.Starts own work act)
    (own : ∀ one ∈ own, one.isClaim s = false) : act.any (·.isClaim s) = false := by
  obtain ⟨⟨one, among, rfl⟩, _⟩ | ⟨rfl, _⟩ := starts
  · exact own one among
  · rfl

/-- The current thread has the unit that it claims. -/
theorem Starts.claims_taken {own : List Act} {s' : SemaphoreId} {value : Nat} {purpose : Purpose}
    (starts : a.Starts own (.unit s') act) (own : ∀ one ∈ own, one = .take s' ∨ one = .down s') :
    (((a.stocked s' value purpose).engaged none).told (.takes a.runner s' :: a.events)).claims t s =
      a.claims t s + if a.runner = t ∧ act.any (·.isClaim s) then 1 else 0 := by
  have taken : (Event.takes a.runner s' :: a.events).count (.takes t s) =
      a.events.count (.takes t s) + if a.runner = t ∧ s' = s then 1 else 0 := by
    simp only [List.count_cons, beq_iff_eq, Event.takes.injEq]
  rw [Ledger.claims, Ledger.claims, told_events, taken]
  by_cases here : a.runner = t
  · subst here
    have claims := starts.claims (s := s) own
    have done : (((a.stocked s' value purpose).engaged none).told
        (.takes a.runner s' :: a.events)).work a.runner = none := Function.update_self ..
    simp only [done, true_and, ← claims, reduceCtorEq, if_false, Nat.add_zero, Nat.add_assoc]
  · have same : (((a.stocked s' value purpose).engaged none).told
        (.takes a.runner s' :: a.events)).work t = a.work t :=
      Function.update_of_ne (Ne.symm here) ..
    simp only [same, here, false_and, if_false, Nat.add_zero]

/-- The current thread waits for the unit that it claims. -/
theorem Starts.claims_wanted {own : List Act} {s' : SemaphoreId} {events : List Event}
    (starts : a.Starts own (.unit s') act) (own : ∀ one ∈ own, one = .take s' ∨ one = .down s')
    (remarks : Remarks a.events events) :
    ((a.engaged (some (.unit s'))).told events).claims t s =
      a.claims t s + if a.runner = t ∧ act.any (·.isClaim s) then 1 else 0 := by
  rw [Ledger.claims, Ledger.claims, told_events, count_takes_of_remarks remarks]
  by_cases here : a.runner = t
  · subst here
    have claims := starts.claims (s := s) own
    have wants : ((a.engaged (some (.unit s'))).told events).work a.runner = some (.unit s') :=
      Function.update_self ..
    simp only [wants, true_and, Nat.add_assoc, claims, Option.some.injEq, Pending.unit.injEq]
  · have same : ((a.engaged (some (.unit s'))).told events).work t = a.work t :=
      Function.update_of_ne (Ne.symm here) ..
    simp only [same, here, false_and, if_false, Nat.add_zero]

end Ledger

/-- What is told between remarks is not that `t` takes a unit of `s`. -/
theorem count_takes_of_event {event : Event} {told : List Event} (before : Remarks earlier told)
    (after : Remarks (event :: told) later) (other : event ≠ .takes t s) :
    later.count (.takes t s) = earlier.count (.takes t s) := by
  rw [count_takes_of_remarks after, List.count_cons_of_ne other, count_takes_of_remarks before]

theorem Kernel.HandedOn.count_takes {u next : ThreadId} (handed : HandedOn u next earlier later) :
    later.count (.takes t s) = earlier.count (.takes t s) := by
  cases handed with
  | kept _ remarks => exact count_takes_of_remarks remarks
  | switched remarks => exact count_takes_of_event remarks (.refl _) nofun

/-- Each time a thread asks for a unit it claims one more, and no unit is taken for it that
it does not claim. -/
theorem Entry.claims (entry : Entry d act a b) (unattached : a.Unattached s) :
    b.claims t s =
      a.claims t s + if a.runner = t ∧ act.any (·.isClaim s) then 1 else 0 := by
  cases entry with
  | note aside remarks =>
    refine Ledger.claims_eq (count_takes_of_remarks remarks) Iff.rfl ?_
    obtain rfl | rfl | rfl := aside <;> rfl
  | pick handed => exact Ledger.claims_eq handed.count_takes Iff.rfl rfl
  | create | destroy | createLock | destroyLock => exact Ledger.claims_eq rfl Iff.rfl rfl
  | take starts found named => exact starts.claims_taken (by simp)
  | want starts remarks live => exact starts.claims_wanted (by simp) remarks
  | hold starts found unit before after =>
    rename_i l lock value purpose asked events
    have other : Event.takes a.runner lock.semaphore ≠ .takes t s := by
      intro same
      cases same
      exact unattached.own.lock l lock found rfl
    refine Ledger.claims_eq ((count_takes_of_event (.refl _) after nofun).trans ?_)
      (Ledger.work_engaged_iff (starts.ne_unit nofun) nofun)
      (starts.any_isClaim (by simp [Act.isClaim]))
    exact count_takes_of_event before (.refl _) other
  | await starts remarks live =>
    exact Ledger.claims_eq (count_takes_of_remarks remarks)
      (Ledger.work_engaged_iff (starts.ne_unit nofun) nofun)
      (starts.any_isClaim (by simp [Act.isClaim]))
  | release found holds unit before after =>
    refine Ledger.claims_eq ((count_takes_of_event (.refl _) after nofun).trans ?_) Iff.rfl rfl
    exact count_takes_of_event before (.refl _) nofun
  | give found named after =>
    exact Ledger.claims_eq (count_takes_of_event (.refl _) after nofun) Iff.rfl rfl
  | enlist idle holds perm remarks =>
    exact Ledger.claims_eq (count_takes_of_remarks remarks)
      (Ledger.work_engaged_iff (idle ▸ nofun) nofun) rfl
  | signal perm found before after =>
    exact Ledger.claims_eq (count_takes_of_event before after nofun) Iff.rfl rfl
  | receive due found =>
    rename_i s' l value purpose
    have other : Event.takes a.runner s' ≠ .takes t s := by
      intro same
      cases same
      exact unattached.own.signal _ _ l due rfl
    have busy : (a.unmade s').work (a.unmade s').runner ≠ some (.unit s) := by
      rw [Ledger.unmade_work, Ledger.unmade_runner, due]
      exact nofun
    exact Ledger.claims_eq (List.count_cons_of_ne other) (Ledger.work_engaged_iff busy nofun) rfl

theorem Machine.countP_deeds (m : Machine) (act : Option Act) (t : ThreadId) (s : SemaphoreId) :
    (m.deeds act).countP (·.isClaim t s) =
      if m.kernel.current = t ∧ act.any (·.isClaim s) then 1 else 0 := by
  cases act with
  | none => simp [deeds]
  | some one => simp [deeds, Deed.isClaim, List.countP_cons]

theorem Moves.claims (moves : Moves d deeds m m') (regular : Regular d m)
    (unattached : m.ledger.Unattached s) :
    m'.ledger.Unattached s ∧
      m'.ledger.claims t s = m.ledger.claims t s + deeds.countP (·.isClaim t s) := by
  induction moves with
  | refl m => exact ⟨unattached, rfl⟩
  | @tail deeds act m middle m' before move ih =>
    obtain ⟨unattached, claims⟩ := ih regular unattached
    have regular := regular.moves before
    have entry := move.entry regular.toSound regular.tidy
    refine ⟨unattached.entry entry, ?_⟩
    rw [entry.claims unattached, claims, List.countP_append, middle.countP_deeds, Nat.add_assoc]
    rfl

/-! ## Locks -/

/-- `t` is to have `l` in the end, or has it. -/
def Ledger.Pursues (a : Ledger) (t : ThreadId) (l : LockId) : Prop :=
  (∃ p, a.work t = some p ∧ p.lock? = some l) ∨ a.holder? l = some t

namespace Ledger.Pursues

/-- The current thread is done with one thing and may have to do another. -/
theorem engaged {work : Option Pending} (pursues : a.Pursues t l)
    (kept : ∀ p, a.runner = t → a.work t = some p → p.lock? = some l →
      ∃ p', work = some p' ∧ p'.lock? = some l) : (a.engaged work).Pursues t l := by
  obtain ⟨p, left, wants⟩ | holds := pursues
  · by_cases here : t = a.runner
    · obtain ⟨p', same, wants'⟩ := kept p here.symm left wants
      refine .inl ⟨p', ?_, wants'⟩
      rw [engaged_work, here, Function.update_self, same]
    · refine .inl ⟨p, ?_, wants⟩
      rw [engaged_work, Function.update_of_ne here, left]
  · exact .inr holds

/-- Another thread loses a lock or gets one that nobody held. -/
theorem entitled {l' : LockId} {lock : Option Lock} (pursues : a.Pursues t l)
    (other : a.holder? l' ≠ some t) : (a.entitled l' lock).Pursues t l := by
  refine pursues.imp_right fun holds => ?_
  rw [holder?_entitled, if_neg, holds]
  rintro rfl
  exact other holds

/-- The record of a lock is put in or taken out, or says of another thread that it has the
lock, while nobody holds it. -/
theorem entitled_of_free {l' : LockId} {lock : Option Lock} (pursues : a.Pursues t l)
    (free : a.holder? l' = none) : (a.entitled l' lock).Pursues t l := by
  refine pursues.entitled ?_
  rw [free]
  exact nofun

end Ledger.Pursues

/-- Whoever asks for another lock than `l'`, or is not the current thread, was after its lock
before. -/
theorem Ledger.Starts.pursues {own : List Act} {l' : LockId}
    (starts : a.Starts own (.lock l') act) (own : ∀ one ∈ own, one = .acquire l' ∨ one = .seize l')
    (start : a.Pursues t l ∨ a.runner = t ∧ act = some (.acquire l))
    (other : ¬(a.runner = t ∧ l' = l)) : a.Pursues t l := by
  refine start.resolve_right fun ⟨here, is⟩ => other ⟨here, ?_⟩
  obtain same | no := own _ (starts.mem is)
  · cases same
    rfl
  · cases no

/-- The current thread has the lock that it set out for. -/
theorem Ledger.Starts.pursues_held {own : List Act} {l' : LockId} {lock : Lock}
    (starts : a.Starts own (.lock l') act) (own : ∀ one ∈ own, one = .acquire l' ∨ one = .seize l')
    (start : a.Pursues t l ∨ a.runner = t ∧ act = some (.acquire l))
    (free : a.holder? l' = none) :
    ((a.engaged none).entitled l' (some { lock with holder := some a.runner })).Pursues t l := by
  by_cases won : a.runner = t ∧ l' = l
  · obtain ⟨rfl, rfl⟩ := won
    refine .inr ((holder?_entitled _ l' l' _).trans ?_)
    rw [if_pos rfl, Option.bind_some]
  · refine ((starts.pursues own start won).engaged fun p here left wants => ?_).entitled_of_free free
    subst here
    cases starts.eq_of_work left
    exact absurd ⟨rfl, Option.some.inj wants⟩ won

/-- The current thread waits for the lock that it set out for. -/
theorem Ledger.Starts.pursues_awaited {own : List Act} {l' : LockId}
    (starts : a.Starts own (.lock l') act) (own : ∀ one ∈ own, one = .acquire l' ∨ one = .seize l')
    (start : a.Pursues t l ∨ a.runner = t ∧ act = some (.acquire l)) :
    (a.engaged (some (.lock l'))).Pursues t l := by
  by_cases won : a.runner = t ∧ l' = l
  · obtain ⟨rfl, rfl⟩ := won
    exact .inl ⟨.lock l', Function.update_self .., rfl⟩
  · refine (starts.pursues own start won).engaged fun p here left wants => ?_
    subst here
    cases starts.eq_of_work left
    exact ⟨_, rfl, wants⟩

/-- Who is to have a lock and does nothing of its own accord is to have it still, or has it. -/
theorem Entry.pursues (entry : Entry d act a b) (sorted : a.Sorted)
    (start : a.Pursues t l ∨ a.runner = t ∧ act = some (.acquire l))
    (own : a.runner = t → ∀ one, act = some one → one = .tick ∨ one = .acquire l) :
    b.Pursues t l := by
  have before : act ≠ some (.acquire l) → a.Pursues t l :=
    fun other => start.resolve_right fun ⟨_, same⟩ => other same
  cases entry with
  | note aside remarks =>
    refine before ?_
    obtain rfl | rfl | rfl := aside <;> exact nofun
  | pick | create | destroy | give | signal => exact before nofun
  | createLock new =>
    exact Ledger.Pursues.entitled_of_free (before nofun) (Ledger.holder?_eq_none new)
  | destroyLock found unheld unnamed =>
    exact Ledger.Pursues.entitled_of_free (a := a) (before nofun)
      ((Ledger.holder?_of_locks found).trans unheld)
  | take starts | want starts =>
    have pursues := before fun is => by simpa using starts.mem is
    refine Ledger.Pursues.engaged (a := a) pursues fun p here left wants => ?_
    subst here
    cases starts.eq_of_work left
    cases wants
  | hold starts found unit before' after =>
    have free := (Ledger.holder?_of_locks found).trans (sorted.unheld found unit)
    exact starts.pursues_held (fun _ => List.mem_pair.mp) start free
  | await starts remarks live =>
    exact starts.pursues_awaited (fun _ among => .inl (List.mem_singleton.mp among)) start
  | release found holds unit before' after =>
    rename_i l' lock value purpose dropped events
    have other : a.holder? l' ≠ some t := by
      rw [Ledger.holder?_of_locks found, holds]
      intro same
      obtain no | no := own (Option.some.inj same) _ rfl <;> cases no
    exact Ledger.Pursues.entitled (a := a) (before nofun) other
  | enlist idle holds perm remarks =>
    refine Ledger.Pursues.engaged (a := a) (before nofun) fun p here => ?_
    obtain no | no := own here _ rfl <;> cases no
  | receive due found =>
    refine Ledger.Pursues.engaged (a := a) (before nofun) fun p here left wants => ?_
    subst here
    cases due.symm.trans left
    exact ⟨_, rfl, wants⟩

theorem Moves.pursues (moves : Moves d deeds m m') (regular : Regular d m)
    (named : d.plainHandles = true) (start : m.ledger.Pursues t l ∨ ⟨t, .acquire l⟩ ∈ deeds)
    (own : ∀ deed ∈ deeds, deed.thread = t → deed.act = .tick ∨ deed.act = .acquire l) :
    m'.ledger.Pursues t l := by
  induction moves with
  | refl m => exact start.resolve_right List.not_mem_nil
  | @tail deeds act m middle m' before move ih =>
    have regular' := regular.moves before
    obtain ⟨own, last⟩ := List.forall_mem_append.mp own
    refine (move.entry regular'.toSound regular'.tidy).pursues (regular'.sorted named) ?_
      fun here one is => ?_
    · obtain pursues | asks := start
      · exact .inl (ih regular (.inl pursues) own)
      · obtain old | new := List.mem_append.mp asks
        · exact .inl (ih regular (.inr old) own)
        · obtain ⟨one, is, same⟩ := List.mem_map.mp new
          cases same
          exact .inr ⟨rfl, Option.mem_toList.mp is⟩
    · subst is
      exact last ⟨middle.kernel.current, one⟩ (List.mem_singleton.mpr rfl) here

/-! ## Until the thread runs again -/

/-- A run goes on from `k`, and `t` is not the current thread at any moment in between
operations before the last. -/
inductive Meanwhile (d : Discipline) (t : ThreadId) (k : Kernel) : Kernel → Prop
  | refl : Meanwhile d t k k
  | step {k' k'' : Kernel} (before : Meanwhile d t k k') (other : k'.current ≠ t)
      (transit : Transit d k' k'') : Meanwhile d t k k''

/-- What moves keep holds on, as long as they are not of the thread's own accord. -/
theorem Meanwhile.induction {motive : Kernel → Prop} (meanwhile : Meanwhile d t k k')
    (steady : Steady d k) (start : motive k)
    (step : ∀ {deeds k' k''}, Steady d k' → Moves d deeds ⟨k', none⟩ ⟨k'', none⟩ →
      (∀ deed ∈ deeds, deed.thread = t → deed.act = .tick) → motive k' → motive k'') :
    Steady d k' ∧ motive k' := by
  induction meanwhile with
  | refl => exact ⟨steady, start⟩
  | step before other transit ih =>
    obtain ⟨steady, holds⟩ := ih
    obtain ⟨o, occurs⟩ := transit.occurs
    obtain ⟨deeds, steps, accounts⟩ := steps_of_occur steady occurs
    refine ⟨steps.steady steady, step steady steps.moves (fun deed member his => ?_) holds⟩
    exact (accounts deed member).2.resolve_left fun here => other (here.symm.trans his)

theorem Meanwhile.pursues (meanwhile : Meanwhile d t k k') (steady : Steady d k)
    (named : d.plainHandles = true) (pursues : (⟨k, none⟩ : Machine).ledger.Pursues t l)
    (back : k'.current = t) : k'.holder? l = some t := by
  obtain ⟨⟨_, runs⟩, pursues⟩ := meanwhile.induction
    (motive := fun k => (⟨k, none⟩ : Machine).ledger.Pursues t l) steady pursues
    fun steady moves own pursues => moves.pursues steady.regular named (.inl pursues)
      fun deed member his => .inl (own deed member his)
  obtain ⟨p, left, _⟩ | holds := pursues
  · subst back
    cases (runs.work? none).symm.trans left
  · exact holds

theorem Meanwhile.sleeps {w : Nat} (meanwhile : Meanwhile d t k k') (steady : Steady d k)
    (sleeps : k.SleepsUntil t w) (back : k'.current = t) : w ≤ k'.clock.ticks := by
  obtain ⟨⟨regular, runs⟩, sleeps⟩ := meanwhile.induction (motive := (·.SleepsUntil t w)) steady
    sleeps fun steady moves _ sleeps => Kernel.SleepsUntil.moves (m := ⟨_, none⟩) sleeps moves
      steady.regular.toSound
  subst back
  exact sleeps.come regular.placed runs

/-- Who runs wants no unit. -/
theorem Kernel.Runs.claims (runs : k.Runs) (s : SemaphoreId) :
    (⟨k, none⟩ : Machine).ledger.claims k.current s = k.events.count (.takes k.current s) := by
  have free : (⟨k, none⟩ : Machine).ledger.work k.current = none := runs.work? none
  rw [Ledger.claims, free]
  rfl

theorem Meanwhile.claims (meanwhile : Meanwhile d t k k') (steady : Steady d k)
    (unattached : (⟨k, none⟩ : Machine).ledger.Unattached s) (back : k'.current = t) :
    k'.events.count (.takes t s) = (⟨k, none⟩ : Machine).ledger.claims t s := by
  obtain ⟨⟨_, runs⟩, _, same⟩ := meanwhile.induction
    (motive := fun k' => (⟨k', none⟩ : Machine).ledger.Unattached s ∧
      (⟨k', none⟩ : Machine).ledger.claims t s = (⟨k, none⟩ : Machine).ledger.claims t s)
    steady ⟨unattached, rfl⟩ fun {deeds _ _} steady moves own ⟨unattached, same⟩ => by
      obtain ⟨unattached', claims⟩ := moves.claims (t := t) steady.regular unattached
      have unclaimed : deeds.countP (·.isClaim t s) = 0 := by
        refine List.countP_eq_zero.mpr fun deed member claim => ?_
        rw [Deed.isClaim, Bool.and_eq_true, decide_eq_true_iff] at claim
        rw [own deed member claim.1] at claim
        cases claim.2
      rw [unclaimed] at claims
      exact ⟨unattached', claims.trans same⟩
  subst back
  rw [← runs.claims, same]

/-! ## What becomes of an operation that blocks -/

/-- What it means that an operation begun in `k` is finished in `k'`. -/
def Request.Finished (r : Request) (k k' : Kernel) : Prop :=
  match r with
  | .down s => k'.events.count (.takes k.current s) = k.events.count (.takes k.current s) + 1
  | .acquire l | .wait _ l => k'.holder? l = some k.current
  | .sleepUntil tick => tick ≤ k'.clock.ticks
  | .sleep ticks => saturate (k.clock.ticks + ticks) ≤ k'.clock.ticks
  | .sleepFor duration =>
    saturate (k.clock.ticks + duration.ticks k.config.timerHz) ≤ k'.clock.ticks
  | _ => False

/-- How an operation ends that may block: at once, and its caller goes on, or later. -/
inductive Closes (d : Discipline) (r : Request) (k k' : Kernel) : Wait → Prop
  | completed (stays : k'.current = k.current) : Closes d r k k' .completed
  | suspended (away : k'.current ≠ k.current)
      (finished : ∀ k'', Meanwhile d k.current k' k'' → k''.current = k.current →
        r.Finished k k'') : Closes d r k k' .suspended

variable {r : Request} {result : Wait}

theorem exists_of_run_down (h : s.down.run k = .ok (result, k')) :
    ∃ semaphore, k.semaphores.get? s = some semaphore := by
  rw [SemaphoreId.down, run_requireThreadContext_bind_eq_ok_iff] at h
  obtain ⟨_, ran, _⟩ := run_masked_eq_ok_iff.mp h.2
  obtain ⟨_, _, attempts, _⟩ := run_bind_eq_ok_iff.mp ran
  obtain ⟨semaphore, found, _⟩ := SemaphoreId.of_run_attempt attempts
  exact ⟨semaphore, found⟩

theorem closes_of_run_down (steady : Steady d k) (named : d.plainHandles = true)
    (plain : ∀ semaphore ∈ k.semaphores.get? s, semaphore.purpose = .plain)
    (waits : d.sparesIdle → k.idle ≠ some k.current) (h : s.down.run k = .ok (result, k')) :
    Closes d (.down s) k k' result := by
  cases ends_of_run_down steady (fun _ => plain) waits h with
  | completed steps stays => exact .completed stays
  | suspended steps away =>
    refine .suspended away fun k'' meanwhile back => ?_
    obtain ⟨semaphore, found⟩ := exists_of_run_down h
    have unattached := (steady.regular.sorted named).unattached
      ((ledger_semaphores none found).trans (by rw [plain semaphore found]))
    obtain ⟨unattached', claims⟩ := steps.moves.claims (t := k.current) steady.regular unattached
    rw [Request.Finished, meanwhile.claims (steps.steady steady) unattached' back, claims,
      steady.runs.claims]
    simp [Deed.isClaim, Act.isClaim]

theorem closes_of_run_acquire (steady : Steady d k) (named : d.plainHandles = true)
    (waits : d.sparesIdle → k.idle ≠ some k.current) (h : l.acquire.run k = .ok (result, k')) :
    Closes d (.acquire l) k k' result := by
  cases ends_of_run_acquire steady waits h with
  | completed steps stays => exact .completed stays
  | suspended steps away =>
    refine .suspended away fun k'' meanwhile back => ?_
    refine meanwhile.pursues (steps.steady steady) named ?_ back
    refine steps.moves.pursues steady.regular named (.inr (List.mem_singleton.mpr rfl)) ?_
    exact List.forall_mem_singleton.mpr fun _ => .inr rfl

theorem closes_of_run_wait {c : ConditionId} (steady : Steady d k) (named : d.plainHandles = true)
    (waits : d.idleNeverWaits = true ∨ d.idleNeverAwaits = true → k.idle ≠ some k.current)
    (h : (c.wait l).run k = .ok (result, k')) : Closes d (.wait c l) k k' result := by
  obtain ⟨rfl, awaits⟩ := awaits_of_run_wait steady waits h
  refine .suspended awaits.away fun k'' meanwhile back => ?_
  obtain ⟨tail, middle, s, _, before, left, after⟩ := awaits.moves
  have regular := steady.regular.moves before
  have steady' : Steady d k' := ⟨regular.moves after, awaits.runs⟩
  refine meanwhile.pursues steady' named ?_ back
  exact after.pursues regular named (.inl (.inl ⟨_, left, rfl⟩)) (List.forall_mem_nil _)

theorem closes_of_run_sleepUntil {tick : Nat} (steady : Steady d k)
    (finished : ∀ k'', tick ≤ k''.clock.ticks → r.Finished k k'')
    (h : (sleepUntil tick).run k = .ok (result, k')) : Closes d r k k' result := by
  obtain ⟨rfl, _, rfl⟩ | ⟨rfl, dozes⟩ := of_run_sleepUntil steady h
  · exact .completed rfl
  · refine .suspended dozes.away fun k'' meanwhile back => finished k'' ?_
    obtain ⟨dozed, thread, into, found, asleep, wakes, _, out⟩ := dozes.asleep
    have sound := steady.regular.toSound.moves into
    have sleeps : dozed.SleepsUntil k.current tick :=
      .inr ⟨thread.post, post?_of_get? found, asleep, wakes⟩
    exact meanwhile.sleeps (dozes.steps.steady steady)
      (Kernel.SleepsUntil.moves (m := ⟨dozed, none⟩) sleeps out sound) back

theorem closes_of_run_perform (steady : Steady d k) (named : d.plainHandles = true)
    (obeys : r.Obeys d k) (h : r.perform.run k = .ok (.wait result, k')) :
    Closes d r k k' result := by
  cases r with
  | down s =>
    obtain ⟨_, ran, same⟩ := run_map_eq_ok_iff.mp h
    cases same
    exact closes_of_run_down steady named (obeys.plain named s rfl) (obeys.busy rfl) ran
  | acquire l =>
    obtain ⟨_, ran, same⟩ := run_map_eq_ok_iff.mp h
    cases same
    exact closes_of_run_acquire steady named (obeys.busy rfl) ran
  | wait c l =>
    obtain ⟨_, ran, same⟩ := run_map_eq_ok_iff.mp h
    cases same
    exact closes_of_run_wait steady named obeys.busy_of_wait ran
  | sleepUntil tick =>
    obtain ⟨_, ran, same⟩ := run_map_eq_ok_iff.mp h
    cases same
    exact closes_of_run_sleepUntil steady (fun _ => id) ran
  | sleep ticks =>
    obtain ⟨_, ran, same⟩ := run_map_eq_ok_iff.mp h
    cases same
    rw [run_sleep] at ran
    exact closes_of_run_sleepUntil steady (fun _ => id) ran
  | sleepFor duration =>
    obtain ⟨_, ran, same⟩ := run_map_eq_ok_iff.mp h
    cases same
    rw [run_sleepFor] at ran
    exact closes_of_run_sleepUntil steady (fun _ => id) ran
  | reportUsage =>
    obtain ⟨_, _, _, h⟩ := run_bind_eq_ok_iff.mp h
    obtain ⟨_, _, same⟩ := run_map_eq_ok_iff.mp h
    cases same
  | _ =>
    obtain ⟨_, _, same⟩ := run_map_eq_ok_iff.mp h
    cases same

/-- In between operations the current thread has nothing to finish and waits for no lock.  An
operation that may block is completed just when its caller goes on.  If it is suspended it
is finished when its caller runs again, whatever others have done in the meantime. -/
theorem suspended_operations_finish (reachable : Reachable d k) (named : d.plainHandles = true) :
    (∃ thread, k.threads.get? k.current = some thread ∧ thread.pending = none ∧
      thread.waitingOn = none) ∧
    ∀ (r : Request) result k', r.Obeys d k → r.perform.run k = .ok (.wait result, k') →
      (result = .completed ↔ k'.current = k.current) ∧
      (result = .suspended → ∀ k'', Meanwhile d k.current k' k'' → k''.current = k.current →
        r.Finished k k'') := by
  have steady := reachable.steady
  refine ⟨?_, fun r result k' obeys ran => ?_⟩
  · obtain ⟨thread, found, running, free⟩ := steady.runs
    have graph := steady.regular.graph named
    exact ⟨thread, found, free, graph.unwaiting steady.regular.placed found running⟩
  · cases closes_of_run_perform steady named obeys ran with
    | completed stays => exact ⟨⟨fun _ => stays, fun _ => rfl⟩, nofun⟩
    | suspended away finished => exact ⟨⟨nofun, fun stays => absurd stays away⟩, fun _ => finished⟩

/-- A thread of priority 40 waits for a unit, which the initial thread returns: it has got
that one unit when it runs again. -/
theorem suspended_operations_finish_of_return : ∃ k k' k'', Reachable { plainHandles := true } k ∧
    (Request.down ⟨0⟩).perform.run k = .ok (.wait .suspended, k') ∧
    Discipline.occur { plainHandles := true } k' (.request (.up ⟨0⟩)) = some k'' ∧
    (k.current, k'.current, k''.current) = (⟨3⟩, .main, ⟨3⟩) ∧
    k''.events.count (.takes ⟨3⟩ ⟨0⟩) = k.events.count (.takes ⟨3⟩ ⟨0⟩) + 1 := by
  have ran : ((Discipline.performAll { plainHandles := true }
      [.start, .createSemaphore 0, .spawn { priority := 40 }] (.fresh {} .stable)).bind fun k =>
        ((SemaphoreId.down ⟨0⟩).run k).toOption.bind fun waited =>
          (Discipline.occur { plainHandles := true } waited.2 (.request (.up ⟨0⟩))).map fun k'' =>
            (decide ((Request.down ⟨0⟩).Obeys { plainHandles := true } k), waited.1, k.current,
              waited.2.current, k''.current)) =
        some (true, .suspended, ⟨3⟩, .main, ⟨3⟩) := by
    decide +kernel
  obtain ⟨k, performed, rest⟩ := Option.bind_eq_some_iff.mp ran
  obtain ⟨⟨result, k'⟩, downs, rest⟩ := Option.bind_eq_some_iff.mp rest
  obtain ⟨k'', occurs, told⟩ := Option.map_eq_some_iff.mp rest
  obtain ⟨obeys, told⟩ := Prod.mk.inj told
  obtain ⟨rfl, told⟩ := Prod.mk.inj told
  obtain ⟨here, away, back⟩ := Prod.mk.inj told |>.imp_right Prod.mk.inj
  have waits : (Request.down ⟨0⟩).perform.run k = .ok (.wait .suspended, k') :=
    run_map_eq_ok_iff.mpr ⟨.suspended, ok_of_toOption downs, rfl⟩
  have reachable := (Reachable.fresh {} .stable).performAll performed
  have meanwhile : Meanwhile { plainHandles := true } k.current k' k'' :=
    Meanwhile.refl.step (by rw [away, here]; decide) (transit_of_occur occurs)
  have finished := ((suspended_operations_finish reachable rfl).2 _ _ k' (of_decide_eq_true obeys)
    waits).2 rfl k'' meanwhile (back.trans here.symm)
  rw [Request.Finished, here] at finished
  exact ⟨k, k', k'', reachable, waits, occurs, by rw [here, away, back], finished⟩

end ThreadKernel
