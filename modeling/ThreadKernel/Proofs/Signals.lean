import ThreadKernel.Proofs.EveryRun
import ThreadKernel.Proofs.Shift

/-!
# Signals to waiting threads

Who waits for a condition waits on a semaphore made for this one wait.  It may lose the
processor in between giving the lock back and blocking, so a signal may come to a semaphore
that nobody is queued on; the unit then lies there until the wait takes it.

What was told of the units of a semaphore is its account.  The account of a wait's own
semaphore is empty while the wait is queued, has one unit given once the wait has been taken
off the queue, and that unit taken when the wait is over.
-/

namespace ThreadKernel

open Kernel

variable {d : Discipline} {m m' : Machine} {k k' : Kernel} {a b : Ledger} {t : ThreadId}
  {s : SemaphoreId} {l : LockId} {c : ConditionId} {w : Waiter} {act : Option Act}
  {earlier later : List Event}

/-! ## Accounts of units -/

/-- The semaphore that an event takes a unit from or returns one to. -/
def Event.unit? : Event → Option SemaphoreId
  | .takes _ s | .gives s => some s
  | _ => none

/-- What these events tell of the units of `s`. -/
def account (s : SemaphoreId) (events : List Event) : List Event :=
  events.filter fun event => event.unit? = some s

theorem account_cons_of_eq {event : Event} (about : event.unit? = some s) :
    account s (event :: earlier) = event :: account s earlier :=
  List.filter_cons_of_pos (decide_eq_true about)

theorem account_cons_of_ne {event : Event} (other : event.unit? ≠ some s) :
    account s (event :: earlier) = account s earlier :=
  List.filter_cons_of_neg (by rwa [decide_eq_true_iff])

theorem ne_of_unit?_eq_none {event : Event} (nothing : event.unit? = none) :
    event.unit? ≠ some s := by
  rw [nothing]
  exact nofun

theorem account_cons_of_none {event : Event} (nothing : event.unit? = none) :
    account s (event :: earlier) = account s earlier :=
  account_cons_of_ne (ne_of_unit?_eq_none nothing)

theorem account_of_remarks (remarks : Remarks earlier later) :
    account s later = account s earlier := by
  refine remarks.induction (motive := fun events => account s events = account s earlier) rfl ?_
  intro event events remark ih
  rw [← ih, account_cons_of_none]
  cases event <;> first | rfl | cases remark

/-- What is told between remarks is not about the units of `s`. -/
theorem account_of_event {event : Event} {told : List Event} (before : Remarks earlier told)
    (after : Remarks (event :: told) later) (other : event.unit? ≠ some s) :
    account s later = account s earlier := by
  rw [account_of_remarks after, account_cons_of_ne other, account_of_remarks before]

/-- What was told of one semaphore says nothing of another. -/
theorem ne_of_unit? {s' : SemaphoreId} {event : Event} (about : event.unit? = some s')
    (other : s ≠ s') : event.unit? ≠ some s :=
  fun same => other (Option.some.inj (same.symm.trans about))

/-! ## What an entry comes to for waits -/

namespace Ledger

/-- Neither waits nor their semaphores are touched. -/
structure Aside (a b : Ledger) : Prop where
  work : ∀ t s l, b.work t = some (.signal s l) ↔ a.work t = some (.signal s l)
  semaphores : ∀ s value,
    b.semaphores s = some (value, .signal) ↔ a.semaphores s = some (value, .signal)
  gone : ∀ s, s.index < a.next.index → a.semaphores s = none → b.semaphores s = none
  later : a.next.index ≤ b.next.index
  enlisted : b.enlisted = a.enlisted
  account : ∀ s, (∀ stock, a.semaphores s = some stock → stock.2 = .signal) →
    account s b.events = account s a.events

/-- The current thread begins to wait for `c`, with the lock `l` to be taken again. -/
structure Begins (a b : Ledger) (c : ConditionId) (l : LockId) : Prop where
  idle : a.work a.runner = none
  work : b.work = Function.update a.work a.runner (some (.signal a.next l))
  semaphores : b.semaphores = Function.update a.semaphores a.next (some (0, .signal))
  next : b.next = ⟨a.next.index + 1⟩
  queued : (b.enlisted c).Perm (⟨a.next, a.runner⟩ :: a.enlisted c)
  others : ∀ c', c' ≠ c → b.enlisted c' = a.enlisted c'
  account : ∀ s, account s b.events = account s a.events

/-- The wait `w` for `c` is taken off the queue and sent its signal. -/
structure Sends (a b : Ledger) (c : ConditionId) (w : Waiter) : Prop where
  queued : (a.enlisted c).Perm (w :: b.enlisted c)
  others : ∀ c', c' ≠ c → b.enlisted c' = a.enlisted c'
  work : b.work = a.work
  semaphores : ∃ value purpose, a.semaphores w.semaphore = some (value, purpose) ∧
    b.semaphores = Function.update a.semaphores w.semaphore (some (value + 1, purpose))
  next : b.next = a.next
  told : account w.semaphore b.events = .gives w.semaphore :: account w.semaphore a.events
  account : ∀ s, s ≠ w.semaphore → account s b.events = account s a.events

/-- The current thread receives the signal that it waits for, and destroys its semaphore. -/
structure Receives (a b : Ledger) (s : SemaphoreId) (l : LockId) : Prop where
  due : a.work a.runner = some (.signal s l)
  found : ∃ value purpose, a.semaphores s = some (value + 1, purpose)
  work : b.work = Function.update a.work a.runner (some (.lock l))
  semaphores : b.semaphores = Function.update a.semaphores s none
  next : b.next = a.next
  enlisted : b.enlisted = a.enlisted
  told : account s b.events = .takes a.runner s :: account s a.events
  account : ∀ s', s' ≠ s → account s' b.events = account s' a.events

/-- What an entry comes to for waits. -/
inductive Waiting (a b : Ledger) : Option Act → Prop
  | aside {act : Option Act} (aside : a.Aside b) : Waiting a b act
  | begins {c : ConditionId} {l : LockId} (begins : a.Begins b c l) :
      Waiting a b (some (.enlist c l))
  | sends {c : ConditionId} {w : Waiter} (sends : a.Sends b c w) : Waiting a b (some (.signal c))
  | receives {s : SemaphoreId} {l : LockId} (receives : a.Receives b s l) : Waiting a b none

theorem update_eq_iff {α β : Type} [DecidableEq α] {f : α → β} {x x' : α} {y z : β}
    (old : f x ≠ z) (new : y ≠ z) : Function.update f x y x' = z ↔ f x' = z := by
  rw [Function.update_apply]
  split
  · next here =>
    rw [here]
    exact iff_of_false new old
  · exact Iff.rfl

theorem work_engaged_signal_iff {work : Option Pending} {s : SemaphoreId} {l : LockId}
    (before : a.work a.runner ≠ some (.signal s l)) (after : work ≠ some (.signal s l)) :
    (a.engaged work).work t = some (.signal s l) ↔ a.work t = some (.signal s l) :=
  update_eq_iff before after

theorem Starts.ne_signal {own : List Act} {work : Pending} (starts : a.Starts own work act)
    (other : ∀ s l, work ≠ .signal s l) (s : SemaphoreId) (l : LockId) :
    a.work a.runner ≠ some (.signal s l) :=
  fun left => other s l (starts.eq_of_work left).symm

/-- Nothing is told but remarks, and no semaphore is touched. -/
theorem aside_of_remarks (remarks : Remarks a.events b.events)
    (work : ∀ t s l, b.work t = some (.signal s l) ↔ a.work t = some (.signal s l))
    (semaphores : b.semaphores = a.semaphores) (next : b.next = a.next)
    (enlisted : b.enlisted = a.enlisted) : a.Aside b where
  work := work
  semaphores s value := by rw [semaphores]
  gone s _ gone := by rw [semaphores, gone]
  later := by rw [next]
  enlisted := enlisted
  account _ _ := account_of_remarks remarks

/-- A semaphore is made that is not for a wait. -/
theorem aside_of_made (value : Nat) (purpose : Purpose) (sorted : a.Sorted)
    (other : purpose ≠ .signal) (events : b.events = a.events) (work : b.work = a.work)
    (semaphores : b.semaphores = (a.made value purpose).semaphores)
    (next : b.next = (a.made value purpose).next)
    (enlisted : b.enlisted = a.enlisted) : a.Aside b where
  work t s l := by rw [work]
  semaphores s value := by
    rw [semaphores, made_semaphores]
    refine update_eq_iff (fun found => ?_) fun same => other (by cases same; rfl)
    exact absurd (sorted.issued _ _ found) (Nat.lt_irrefl _)
  gone s issued gone := by
    rw [semaphores, made_semaphores, Function.update_of_ne, gone]
    rintro rfl
    exact Nat.lt_irrefl _ issued
  later := by
    rw [next]
    exact Nat.le_succ _
  enlisted := enlisted
  account s _ := by rw [events]

/-- Only a semaphore that is not for a wait is touched, and only of it anything is told. -/
theorem aside_of_found {value : Nat} {purpose : Purpose} {stock : Option (Nat × Purpose)}
    (found : a.semaphores s = some (value, purpose)) (other : purpose ≠ .signal)
    (semaphores : b.semaphores = Function.update a.semaphores s stock)
    (kept : ∀ now, stock = some now → now.2 = purpose)
    (work : ∀ t s l, b.work t = some (.signal s l) ↔ a.work t = some (.signal s l))
    (next : b.next = a.next) (enlisted : b.enlisted = a.enlisted)
    (account : ∀ s', s' ≠ s → account s' b.events = account s' a.events) : a.Aside b where
  work := work
  semaphores s' value' := by
    rw [semaphores]
    refine update_eq_iff (fun same => other ?_) fun same => other (kept _ same).symm
    rw [found] at same
    cases same
    rfl
  gone s' _ gone := by
    rw [semaphores, Function.update_of_ne, gone]
    rintro rfl
    cases found.symm.trans gone
  later := by rw [next]
  enlisted := enlisted
  account s' secret := by
    refine account s' fun same => other ?_
    subst same
    exact secret _ found

theorem aside_of_handed {next : ThreadId} {events : List Event}
    (handed : HandedOn a.runner next a.events events) :
    a.Aside { a.told events with runner := next } := by
  cases handed with
  | kept _ remarks => exact aside_of_remarks remarks (fun _ _ _ => .rfl) rfl rfl rfl
  | @switched told remarks =>
    have aside := aside_of_remarks (b := { a.told told with runner := next }) remarks
      (fun _ _ _ => .rfl) rfl rfl rfl
    exact ⟨aside.work, aside.semaphores, aside.gone, aside.later, aside.enlisted,
      fun s secret => (account_cons_of_none rfl).trans (aside.account s secret)⟩

/-- A semaphore that is not for a wait has another number of units. -/
theorem aside_of_stocked {value value' : Nat} {purpose : Purpose}
    (found : a.semaphores s = some (value, purpose)) (other : purpose ≠ .signal)
    (semaphores : b.semaphores = (a.stocked s value' purpose).semaphores)
    (work : ∀ t s l, b.work t = some (.signal s l) ↔ a.work t = some (.signal s l))
    (next : b.next = a.next) (enlisted : b.enlisted = a.enlisted)
    (account : ∀ s', s' ≠ s → account s' b.events = account s' a.events) : a.Aside b := by
  refine aside_of_found found other semaphores (fun _ now => ?_) work next enlisted account
  cases now
  rfl

/-- The current thread sets out for a unit or a lock and not to wait for a signal. -/
theorem Starts.work_signal_iff {own : List Act} {work : Pending} {due : Option Pending}
    (starts : a.Starts own work act) (other : ∀ s l, work ≠ .signal s l)
    (after : ∀ s l, due ≠ some (.signal s l)) (t : ThreadId) (s : SemaphoreId) (l : LockId) :
    (a.engaged due).work t = some (.signal s l) ↔ a.work t = some (.signal s l) :=
  work_engaged_signal_iff (starts.ne_signal other s l) (after s l)

theorem begins_of_enlisted {waiters : List Waiter} {events : List Event}
    (idle : a.work a.runner = none) (perm : waiters.Perm (⟨a.next, a.runner⟩ :: a.enlisted c))
    (remarks : Remarks a.events events) :
    a.Begins ((((a.made 0 .signal).engaged (some (.signal a.next l))).listed c waiters).told events)
      c l := by
  have queued : Function.update a.enlisted c waiters c = waiters := Function.update_self ..
  exact ⟨idle, rfl, rfl, rfl, (List.Perm.of_eq queued).trans perm,
    fun _ other => Function.update_of_ne other .., fun _ => account_of_remarks remarks⟩

theorem sends_of_signalled {rest : List Waiter} {value : Nat} {purpose : Purpose}
    {called events : List Event} (perm : (a.enlisted c).Perm (w :: rest))
    (found : a.semaphores w.semaphore = some (value, purpose)) (before : Remarks a.events called)
    (after : Remarks (.gives w.semaphore :: called) events) :
    a.Sends (((a.stocked w.semaphore (value + 1) purpose).listed c rest).told events) c w := by
  have left : Function.update a.enlisted c rest c = rest := Function.update_self ..
  refine ⟨perm.trans (.of_eq (congrArg (w :: ·) left.symm)),
    fun _ other => Function.update_of_ne other .., rfl, ⟨value, purpose, found, rfl⟩, rfl, ?_,
    fun _ other => account_of_event before after (ne_of_unit? rfl other)⟩
  exact (account_of_remarks after).trans
    ((account_cons_of_eq rfl).trans (congrArg _ (account_of_remarks before)))

end Ledger

theorem Entry.waiting (entry : Entry d act a b) (sorted : a.Sorted)
    (named : d.plainHandles = true) : a.Waiting b act := by
  cases entry with
  | note _ remarks => exact .aside (Ledger.aside_of_remarks remarks (fun _ _ _ => .rfl) rfl rfl rfl)
  | pick handed => exact .aside (Ledger.aside_of_handed handed)
  | create =>
    exact .aside (Ledger.aside_of_made _ .plain sorted nofun rfl rfl rfl rfl rfl)
  | createLock =>
    exact .aside (Ledger.aside_of_made 1 .lock sorted nofun rfl rfl rfl rfl rfl)
  | destroy found plain =>
    have other := plain named
    subst other
    exact .aside (Ledger.aside_of_found found nofun rfl nofun (fun _ _ _ => .rfl) rfl rfl
      fun _ _ => rfl)
  | destroyLock found unheld unnamed =>
    exact .aside (Ledger.aside_of_found (sorted.unit _ _ found) nofun rfl nofun
      (fun _ _ _ => .rfl) rfl rfl fun _ _ => rfl)
  | take starts found plain =>
    have other := plain named
    subst other
    refine .aside (Ledger.aside_of_stocked found nofun rfl (starts.work_signal_iff nofun ?_) rfl rfl
      fun _ other => account_cons_of_ne (ne_of_unit? rfl other))
    exact nofun
  | want starts remarks live | await starts remarks live =>
    refine .aside (Ledger.aside_of_remarks remarks (starts.work_signal_iff nofun ?_) rfl rfl rfl)
    exact nofun
  | hold starts found unit before after =>
    have purpose := sorted.purpose_of_unit found unit
    subst purpose
    refine .aside (Ledger.aside_of_stocked unit nofun rfl (starts.work_signal_iff nofun ?_) rfl rfl
      fun _ other => (account_of_event (.refl _) after (ne_of_unit?_eq_none rfl)).trans ?_)
    · exact nofun
    · exact account_of_event before (.refl _) (ne_of_unit? rfl other)
  | release found holds unit before after =>
    have purpose := sorted.purpose_of_unit found unit
    subst purpose
    refine .aside (Ledger.aside_of_stocked unit nofun rfl (fun _ _ _ => .rfl) rfl rfl
      fun _ other => (account_of_event (.refl _) after (ne_of_unit? rfl other)).trans ?_)
    exact account_of_event before (.refl _) (ne_of_unit?_eq_none rfl)
  | give found plain after =>
    have other := plain named
    subst other
    exact .aside (Ledger.aside_of_stocked found nofun rfl (fun _ _ _ => .rfl) rfl rfl
      fun _ other => account_of_event (.refl _) after (ne_of_unit? rfl other))
  | enlist idle holds perm remarks => exact .begins (Ledger.begins_of_enlisted idle perm remarks)
  | signal perm found before after =>
    exact .sends (Ledger.sends_of_signalled perm found before after)
  | receive due found =>
    exact .receives ⟨due, ⟨_, _, found⟩, rfl, rfl, rfl, rfl, account_cons_of_eq rfl,
      fun _ other => account_cons_of_ne (ne_of_unit? rfl other)⟩

/-! ## What every entry keeps -/

namespace Ledger

/-- Where the wait `w` is while its thread has not got its signal. -/
inductive Awaits (a : Ledger) (w : Waiter) : Prop
  | queued {c : ConditionId} (listed : w ∈ a.enlisted c)
      (empty : a.semaphores w.semaphore = some (0, .signal))
      (untold : account w.semaphore a.events = []) : Awaits a w
  | signalled (unlisted : ∀ c, w ∉ a.enlisted c)
      (unit : a.semaphores w.semaphore = some (1, .signal))
      (told : account w.semaphore a.events = [.gives w.semaphore]) : Awaits a w

/-- Every wait that is queued or under way has a semaphore to itself, and semaphores made
for waits are there for one that is under way. -/
structure Waits (a : Ledger) : Prop where
  left : ∀ c, ∀ w ∈ a.enlisted c, ∃ l, a.work w.thread = some (.signal w.semaphore l)
  awaits : ∀ t s l, a.work t = some (.signal s l) → a.Awaits ⟨s, t⟩
  sole : ∀ t t' s l l', a.work t = some (.signal s l) → a.work t' = some (.signal s l') → t = t'
  once : ∀ c, (a.enlisted c).Nodup
  apart : ∀ c c' w, w ∈ a.enlisted c → w ∈ a.enlisted c' → c = c'
  owned : ∀ s value, a.semaphores s = some (value, .signal) → ∃ t l, a.work t = some (.signal s l)
  untold : ∀ s, a.next.index ≤ s.index → account s a.events = []

/-- What has become of the wait `w` for `c` that once was queued. -/
inductive Fate (a : Ledger) (c : ConditionId) (w : Waiter) : Prop
  | queued (listed : w ∈ a.enlisted c)
  | signalled {l : LockId} (left : a.work w.thread = some (.signal w.semaphore l))
      (told : account w.semaphore a.events = [.gives w.semaphore])
  | received (issued : w.semaphore.index < a.next.index) (gone : a.semaphores w.semaphore = none)
      (told : account w.semaphore a.events =
        [.takes w.thread w.semaphore, .gives w.semaphore])

namespace Begins

variable {c' : ConditionId} {l' : LockId} (begins : a.Begins b c l)

include begins

theorem kept (left : a.work t = some (.signal s l')) : b.work t = some (.signal s l') := by
  rw [begins.work, Function.update_of_ne, left]
  rintro rfl
  cases begins.idle.symm.trans left

theorem new : b.work a.runner = some (.signal a.next l) := by
  rw [begins.work, Function.update_self]

theorem old (left : b.work t = some (.signal s l')) :
    a.work t = some (.signal s l') ∨ t = a.runner ∧ s = a.next := by
  rw [begins.work, Function.update_apply] at left
  split at left
  · next here =>
    cases left
    exact .inr ⟨here, rfl⟩
  · exact .inl left

theorem mem (listed : w ∈ b.enlisted c') :
    w ∈ a.enlisted c' ∨ c' = c ∧ w = ⟨a.next, a.runner⟩ := by
  by_cases here : c' = c
  · subst here
    obtain new | old := List.mem_cons.mp (begins.queued.mem_iff.mp listed)
    · exact .inr ⟨rfl, new⟩
    · exact .inl old
  · exact .inl (begins.others c' here ▸ listed)

theorem mem_of_mem (listed : w ∈ a.enlisted c') : w ∈ b.enlisted c' := by
  by_cases here : c' = c
  · subst here
    exact begins.queued.mem_iff.mpr (List.mem_cons_of_mem _ listed)
  · rwa [begins.others c' here]

/-- Other waits do not notice that one begins. -/
theorem awaits (awaits : a.Awaits w) (other : w.semaphore ≠ a.next) : b.Awaits w := by
  have same : b.semaphores w.semaphore = a.semaphores w.semaphore := by
    rw [begins.semaphores, Function.update_of_ne other]
  cases awaits with
  | queued listed empty untold =>
    exact .queued (begins.mem_of_mem listed) (same.trans empty) ((begins.account _).trans untold)
  | signalled away unit told =>
    refine .signalled (fun c' listed => ?_) (same.trans unit) ((begins.account _).trans told)
    obtain listed | ⟨_, no⟩ := begins.mem listed
    · exact away c' listed
    · exact other (congrArg Waiter.semaphore no)

end Begins

namespace Sends

variable {c' : ConditionId} {w' : Waiter} (sends : a.Sends b c w)

include sends

theorem listed : w ∈ a.enlisted c := sends.queued.mem_iff.mpr (List.mem_cons_self ..)

theorem mem_of_mem (listed : w' ∈ b.enlisted c') : w' ∈ a.enlisted c' := by
  by_cases here : c' = c
  · subst here
    exact sends.queued.mem_iff.mpr (List.mem_cons_of_mem _ listed)
  · rwa [← sends.others c' here]

theorem mem (listed : w' ∈ a.enlisted c') : w' ∈ b.enlisted c' ∨ c' = c ∧ w' = w := by
  by_cases here : c' = c
  · subst here
    exact (List.mem_cons.mp (sends.queued.mem_iff.mp listed)).symm.imp_right fun same => ⟨rfl, same⟩
  · rw [sends.others c' here]
    exact .inl listed

theorem semaphores_of_ne (other : s ≠ w.semaphore) : b.semaphores s = a.semaphores s := by
  obtain ⟨value, purpose, _, same⟩ := sends.semaphores
  rw [same, Function.update_of_ne other]

/-- Other waits do not notice that one is sent its signal. -/
theorem awaits (awaits : a.Awaits w') (other : w'.semaphore ≠ w.semaphore) : b.Awaits w' := by
  have same := sends.semaphores_of_ne other
  have told := sends.account _ other
  cases awaits with
  | queued listed empty untold =>
    obtain listed | ⟨_, no⟩ := sends.mem listed
    · exact .queued listed (same.trans empty) (told.trans untold)
    · exact absurd (congrArg Waiter.semaphore no) other
  | signalled away unit given =>
    exact .signalled (fun c' listed => away c' (sends.mem_of_mem listed)) (same.trans unit)
      (told.trans given)

end Sends

namespace Receives

variable {s' : SemaphoreId} {l' : LockId} (receives : a.Receives b s l)

include receives

theorem kept (left : a.work t = some (.signal s' l')) (away : t ≠ a.runner) :
    b.work t = some (.signal s' l') := by
  rw [receives.work, Function.update_of_ne away, left]

theorem old (left : b.work t = some (.signal s' l')) :
    t ≠ a.runner ∧ a.work t = some (.signal s' l') := by
  rw [receives.work, Function.update_apply] at left
  split at left
  · cases left
  · next away => exact ⟨away, left⟩

/-- Other waits do not notice that one receives its signal. -/
theorem awaits (awaits : a.Awaits w) (other : w.semaphore ≠ s) : b.Awaits w := by
  have same : b.semaphores w.semaphore = a.semaphores w.semaphore := by
    rw [receives.semaphores, Function.update_of_ne other]
  have told := receives.account _ other
  cases awaits with
  | queued listed empty untold =>
    exact .queued (receives.enlisted ▸ listed) (same.trans empty) (told.trans untold)
  | signalled gone unit given =>
    exact .signalled (receives.enlisted ▸ gone) (same.trans unit) (told.trans given)

end Receives

namespace Waits

variable (waits : a.Waits)

include waits

theorem live (left : a.work t = some (.signal s l)) :
    ∃ value, a.semaphores s = some (value, .signal) := by
  cases waits.awaits t s l left with
  | queued _ empty => exact ⟨0, empty⟩
  | signalled _ unit => exact ⟨1, unit⟩

/-- No two waits in the queues have the same semaphore. -/
theorem eq_of_semaphore {c' : ConditionId} {w' : Waiter} (listed : w ∈ a.enlisted c)
    (listed' : w' ∈ a.enlisted c') (same : w.semaphore = w'.semaphore) : w = w' := by
  obtain ⟨l, left⟩ := waits.left c w listed
  obtain ⟨l', left'⟩ := waits.left c' w' listed'
  rw [same] at left
  have threads := waits.sole _ _ _ _ _ left left'
  cases w
  cases w'
  cases same
  cases threads
  rfl

theorem empty_of_mem (listed : w ∈ a.enlisted c) :
    a.semaphores w.semaphore = some (0, .signal) ∧ account w.semaphore a.events = [] := by
  obtain ⟨l, left⟩ := waits.left c w listed
  cases waits.awaits _ _ l left with
  | queued _ empty untold => exact ⟨empty, untold⟩
  | signalled unlisted => exact absurd listed (unlisted c)

theorem aside (aside : a.Aside b) (sorted : a.Sorted) : b.Waits where
  left c w listed := by
    rw [aside.enlisted] at listed
    obtain ⟨l, left⟩ := waits.left c w listed
    exact ⟨l, (aside.work _ _ _).mpr left⟩
  awaits t s l left := by
    have left := (aside.work _ _ _).mp left
    have same := aside.account s (sorted.signal t s l left).purpose
    cases waits.awaits t s l left with
    | queued listed empty untold =>
      exact .queued (aside.enlisted ▸ listed) ((aside.semaphores _ _).mpr empty)
        (same.trans untold)
    | signalled unlisted unit told =>
      exact .signalled (aside.enlisted ▸ unlisted) ((aside.semaphores _ _).mpr unit)
        (same.trans told)
  sole t t' s l l' left left' :=
    waits.sole t t' s l l' ((aside.work _ _ _).mp left) ((aside.work _ _ _).mp left')
  once := by
    rw [aside.enlisted]
    exact waits.once
  apart := by
    rw [aside.enlisted]
    exact waits.apart
  owned s value live := by
    obtain ⟨t, l, left⟩ := waits.owned s value ((aside.semaphores _ _).mp live)
    exact ⟨t, l, (aside.work _ _ _).mpr left⟩
  untold s new := by
    have old := aside.later.trans new
    rw [aside.account s, waits.untold s old]
    intro stock found
    exact absurd (sorted.issued s stock found) (Nat.not_lt_of_le old)

/-- A wait that begins is the only one on its new semaphore. -/
theorem begins (begins : a.Begins b c l) (sorted : a.Sorted) : b.Waits := by
  have ne_next : ∀ {s}, s.index < a.next.index → s ≠ a.next := by
    rintro s issued rfl
    exact Nat.lt_irrefl _ issued
  have unlisted : ∀ c', ⟨a.next, a.runner⟩ ∉ a.enlisted c' := fun c' listed =>
    ne_next (sorted.enlisted c' _ listed).issued rfl
  constructor
  case left =>
    intro c' w queued
    obtain queued | ⟨_, rfl⟩ := begins.mem queued
    · obtain ⟨l', left⟩ := waits.left c' w queued
      exact ⟨l', begins.kept left⟩
    · exact ⟨l, begins.new⟩
  case awaits =>
    intro t s l' left
    obtain left | ⟨rfl, rfl⟩ := begins.old left
    · exact begins.awaits (waits.awaits t s l' left) (ne_next (sorted.signal t s l' left).issued)
    · refine .queued (begins.queued.mem_iff.mpr (List.mem_cons_self ..)) ?_ ?_
      · rw [begins.semaphores, Function.update_self]
      · exact (begins.account _).trans (waits.untold _ (Nat.le_refl _))
  case sole =>
    intro t t' s l₁ l₂ left left'
    obtain left | ⟨rfl, rfl⟩ := begins.old left
    · obtain left' | ⟨_, rfl⟩ := begins.old left'
      · exact waits.sole t t' s l₁ l₂ left left'
      · exact absurd rfl (ne_next (sorted.signal t _ l₁ left).issued)
    · obtain left' | ⟨rfl, _⟩ := begins.old left'
      · exact absurd rfl (ne_next (sorted.signal t' _ l₂ left').issued)
      · rfl
  case once =>
    intro c'
    by_cases here : c' = c
    · subst here
      exact begins.queued.nodup_iff.mpr (List.nodup_cons.mpr ⟨unlisted c', waits.once c'⟩)
    · rw [begins.others c' here]
      exact waits.once c'
  case apart =>
    intro c₁ c₂ w queued queued'
    obtain queued | ⟨rfl, rfl⟩ := begins.mem queued
    · obtain queued' | ⟨_, rfl⟩ := begins.mem queued'
      · exact waits.apart c₁ c₂ w queued queued'
      · exact absurd queued (unlisted c₁)
    · obtain queued' | ⟨rfl, _⟩ := begins.mem queued'
      · exact absurd queued' (unlisted c₂)
      · rfl
  case owned =>
    intro s value live
    rw [begins.semaphores, Function.update_apply] at live
    split at live
    · next here =>
      subst here
      exact ⟨_, l, begins.new⟩
    · obtain ⟨t, l', left⟩ := waits.owned s value live
      exact ⟨t, l', begins.kept left⟩
  case untold =>
    intro s unissued
    rw [begins.next] at unissued
    exact (begins.account s).trans (waits.untold s (Nat.le_of_succ_le unissued))

/-- A wait that is sent its signal has one unit, which nobody else is after. -/
theorem sends (sends : a.Sends b c w) (sorted : a.Sorted) : b.Waits := by
  obtain ⟨l, left⟩ := waits.left c w sends.listed
  obtain ⟨empty, untold⟩ := waits.empty_of_mem sends.listed
  obtain ⟨fresh, once⟩ := List.nodup_cons.mp (sends.queued.nodup_iff.mp (waits.once c))
  have unlisted : ∀ c', w ∉ b.enlisted c' := by
    intro c' listed
    have same := waits.apart c' c w (sends.mem_of_mem listed) sends.listed
    subst same
    exact fresh listed
  have unit : b.semaphores w.semaphore = some (1, .signal) := by
    obtain ⟨value, purpose, found, same⟩ := sends.semaphores
    cases found.symm.trans empty
    rw [same, Function.update_self]
  constructor
  case left =>
    intro c' w' listed
    rw [sends.work]
    exact waits.left c' w' (sends.mem_of_mem listed)
  case awaits =>
    intro t s l' left'
    rw [sends.work] at left'
    by_cases here : s = w.semaphore
    · subst here
      obtain rfl := waits.sole _ _ _ _ _ left left'
      exact .signalled unlisted unit (by rw [sends.told, untold])
    · exact sends.awaits (waits.awaits t s l' left') here
  case sole =>
    rw [sends.work]
    exact waits.sole
  case once =>
    intro c'
    by_cases here : c' = c
    · rw [here]
      exact once
    · rw [sends.others c' here]
      exact waits.once c'
  case apart =>
    exact fun c₁ c₂ w' listed listed' =>
      waits.apart c₁ c₂ w' (sends.mem_of_mem listed) (sends.mem_of_mem listed')
  case owned =>
    intro s value live
    rw [sends.work]
    by_cases here : s = w.semaphore
    · exact ⟨w.thread, l, here ▸ left⟩
    · exact waits.owned s value ((sends.semaphores_of_ne here).symm.trans live)
  case untold =>
    intro s unissued
    rw [sends.next] at unissued
    rw [sends.account s, waits.untold s unissued]
    rintro rfl
    exact Nat.not_lt_of_le unissued (sorted.enlisted c w sends.listed).issued

/-- A wait receives its signal only after it has been sent one. -/
theorem signalled_of_receives (receives : a.Receives b s l) :
    (∀ c, ⟨s, a.runner⟩ ∉ a.enlisted c) ∧ account s a.events = [.gives s] := by
  obtain ⟨value, purpose, found⟩ := receives.found
  cases waits.awaits _ _ _ receives.due with
  | queued _ empty => cases found.symm.trans empty
  | signalled unlisted _ told => exact ⟨unlisted, told⟩

/-- Others do not notice that a wait is over. -/
theorem receives (receives : a.Receives b s l) (sorted : a.Sorted) : b.Waits := by
  have issued := (sorted.signal _ _ _ receives.due).issued
  obtain ⟨unlisted, _⟩ := waits.signalled_of_receives receives
  have other : ∀ {t s' l'}, a.work t = some (.signal s' l') → t ≠ a.runner → s' ≠ s := by
    rintro t s' l' left away rfl
    exact away (waits.sole _ _ _ _ _ left receives.due)
  constructor
  case left =>
    intro c w listed
    rw [receives.enlisted] at listed
    obtain ⟨l', left⟩ := waits.left c w listed
    refine ⟨l', receives.kept left fun here => unlisted c ?_⟩
    rw [here] at left
    cases receives.due.symm.trans left
    rwa [← here]
  case awaits =>
    intro t s' l' left
    obtain ⟨away, left⟩ := receives.old left
    exact receives.awaits (waits.awaits t s' l' left) (other left away)
  case sole =>
    intro t t' s' l₁ l₂ left left'
    exact waits.sole t t' s' l₁ l₂ (receives.old left).2 (receives.old left').2
  case once =>
    rw [receives.enlisted]
    exact waits.once
  case apart =>
    rw [receives.enlisted]
    exact waits.apart
  case owned =>
    intro s' value live
    have apart : s' ≠ s := by
      rintro rfl
      rw [receives.semaphores, Function.update_self] at live
      cases live
    rw [receives.semaphores, Function.update_of_ne apart] at live
    obtain ⟨t, l', left⟩ := waits.owned s' value live
    refine ⟨t, l', receives.kept left fun here => apart ?_⟩
    rw [here] at left
    cases receives.due.symm.trans left
    rfl
  case untold =>
    intro s' unissued
    rw [receives.next] at unissued
    rw [receives.account s', waits.untold s' unissued]
    rintro rfl
    exact Nat.not_lt_of_le unissued issued

theorem step (waiting : a.Waiting b act) (sorted : a.Sorted) : b.Waits := by
  cases waiting with
  | aside aside => exact waits.aside aside sorted
  | begins begins => exact waits.begins begins sorted
  | sends sends => exact waits.sends sends sorted
  | receives receives => exact waits.receives receives sorted

/-- Who is queued stays so until it is sent its signal. -/
theorem fate_of_queued (listed : w ∈ a.enlisted c) (waiting : a.Waiting b act) : b.Fate c w := by
  cases waiting with
  | aside aside => exact .queued (aside.enlisted ▸ listed)
  | begins begins => exact .queued (begins.mem_of_mem listed)
  | receives receives => exact .queued (receives.enlisted ▸ listed)
  | sends sends =>
    obtain stays | ⟨rfl, rfl⟩ := sends.mem listed
    · exact .queued stays
    · obtain ⟨l, left⟩ := waits.left c w listed
      refine .signalled (sends.work ▸ left) ?_
      rw [sends.told, (waits.empty_of_mem listed).2]

/-- Who has been sent its signal has one until it receives it. -/
theorem fate_of_signalled (left : a.work w.thread = some (.signal w.semaphore l))
    (told : account w.semaphore a.events = [.gives w.semaphore]) (waiting : a.Waiting b act)
    (sorted : a.Sorted) : b.Fate c w := by
  cases waiting with
  | aside aside =>
    refine .signalled ((aside.work _ _ _).mpr left) ?_
    rw [aside.account _ (sorted.signal _ _ _ left).purpose, told]
  | begins begins => exact .signalled (begins.kept left) ((begins.account _).trans told)
  | sends sends =>
    refine .signalled (sends.work ▸ left) ?_
    rw [sends.account, told]
    intro same
    rw [same] at told
    cases told.symm.trans (waits.empty_of_mem sends.listed).2
  | receives receives =>
    by_cases here : w.thread = a.runner
    · have due := receives.due
      rw [← here, left] at due
      cases due
      refine .received ?_ ?_ ?_
      · rw [receives.next]
        exact (sorted.signal _ _ _ left).issued
      · rw [receives.semaphores, Function.update_self]
      · rw [receives.told, told, here]
    · refine .signalled (receives.kept left here) ?_
      rw [receives.account, told]
      rintro rfl
      exact here (waits.sole _ _ _ _ _ left receives.due)

/-- Nothing more is told of a semaphore whose wait is over. -/
theorem fate_of_received (issued : w.semaphore.index < a.next.index)
    (gone : a.semaphores w.semaphore = none)
    (told : account w.semaphore a.events = [.takes w.thread w.semaphore, .gives w.semaphore])
    (waiting : a.Waiting b act) : b.Fate c w := by
  have away : ∀ {s value purpose}, a.semaphores s = some (value, purpose) → w.semaphore ≠ s := by
    rintro s value purpose found rfl
    cases found.symm.trans gone
  cases waiting with
  | aside aside =>
    refine .received (Nat.lt_of_lt_of_le issued aside.later) (aside.gone _ issued gone) ?_
    rw [aside.account, told]
    intro stock found
    cases found.symm.trans gone
  | begins begins =>
    refine .received ?_ ?_ ((begins.account _).trans told)
    · rw [begins.next]
      exact Nat.lt_succ_of_lt issued
    · rw [begins.semaphores, Function.update_of_ne, gone]
      rintro same
      rw [same] at issued
      exact Nat.lt_irrefl _ issued
  | sends sends =>
    have other := away (waits.empty_of_mem sends.listed).1
    refine .received (sends.next ▸ issued) ((sends.semaphores_of_ne other).trans gone) ?_
    rw [sends.account _ other, told]
  | receives receives =>
    obtain ⟨value, purpose, found⟩ := receives.found
    have other := away found
    refine .received (receives.next ▸ issued) ?_ ((receives.account _ other).trans told)
    rw [receives.semaphores, Function.update_of_ne other, gone]

/-- A wait that has been queued is sent its signal, and then receives it. -/
theorem fate (fate : a.Fate c w) (waiting : a.Waiting b act) (sorted : a.Sorted) : b.Fate c w := by
  cases fate with
  | queued listed => exact waits.fate_of_queued listed waiting
  | signalled left told => exact waits.fate_of_signalled left told waiting sorted
  | received issued gone told => exact waits.fate_of_received issued gone told waiting

end Waits

/-- Waits leave the queue of a condition only when a signal is sent. -/
theorem Waiting.leaves (waiting : a.Waiting b act) (listed : w ∈ a.enlisted c) :
    w ∈ b.enlisted c ∨ act = some (.signal c) := by
  cases waiting with
  | aside aside => exact .inl (aside.enlisted ▸ listed)
  | begins begins => exact .inl (begins.mem_of_mem listed)
  | sends sends => exact (sends.mem listed).imp_right fun same => by rw [same.1]
  | receives receives => exact .inl (receives.enlisted ▸ listed)

theorem Waiting.begun (waiting : a.Waiting b act) (left : b.work t = some (.signal s l)) :
    a.work t = some (.signal s l) ∨ t = a.runner ∧ ∃ c l, act = some (.enlist c l) := by
  cases waiting with
  | aside aside => exact .inl ((aside.work _ _ _).mp left)
  | begins begins =>
    exact (begins.old left).imp_right fun here => ⟨here.1, _, _, rfl⟩
  | sends sends => exact .inl (sends.work ▸ left)
  | receives receives => exact .inl (receives.old left).2

end Ledger

end ThreadKernel
