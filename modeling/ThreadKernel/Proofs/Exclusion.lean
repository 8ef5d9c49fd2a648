import ThreadKernel.Proofs.EveryRun
import ThreadKernel.Proofs.Ledger

/-!
# Mutual exclusion

That a lock is held is recorded twice: its record names the holder, and its unit is
gone.  Whoever takes the unit is written down as the holder without a look at who was
there before, so exclusion rests on the agreement of the two records.

The journal tells every change of holder.  `heldIn` and `runnerIn` read off it who
holds a lock and who has the processor at any moment, those in the middle of an
operation included, and `mutual_exclusion` says what each change is like.
-/

namespace ThreadKernel

open Kernel

/-! ## Reading the journal -/

/-- Who holds `l` after these events, latest first. -/
def heldIn (l : LockId) : List Event → Option ThreadId
  | .holds t l' :: earlier => if l' = l then some t else heldIn l earlier
  | .releases _ l' :: earlier => if l' = l then none else heldIn l earlier
  | _ :: earlier => heldIn l earlier
  | [] => none

/-- Who has the processor after these events, latest first. -/
def runnerIn : List Event → ThreadId
  | .switched _ next :: _ => next
  | _ :: earlier => runnerIn earlier
  | [] => .main

variable {d : Discipline} {k k' : Kernel} {a b : Ledger} {o : Occurrence} {t : ThreadId}
  {l : LockId} {s : SemaphoreId} {act : Option Act} {earlier later : List Event}

theorem heldIn_takes : heldIn l (.takes t s :: earlier) = heldIn l earlier := rfl

theorem heldIn_gives : heldIn l (.gives s :: earlier) = heldIn l earlier := rfl

theorem heldIn_of_remarks (remarks : Remarks earlier later) :
    heldIn l later = heldIn l earlier := by
  refine remarks.induction (motive := fun events => heldIn l events = heldIn l earlier) rfl ?_
  intro event events remark ih
  rw [← ih]
  cases event <;> first | rfl | cases remark

theorem runnerIn_of_remarks (remarks : Remarks earlier later) :
    runnerIn later = runnerIn earlier := by
  refine remarks.induction (motive := fun events => runnerIn events = runnerIn earlier) rfl ?_
  intro event events remark ih
  rw [← ih]
  cases event <;> first | rfl | cases remark

/-! ## Who may do what to a lock -/

namespace Occurrence

/-- The operation is to get `l` for its caller, at once or in the end. -/
def AsksFor (o : Occurrence) (l : LockId) : Prop :=
  o = .request (.acquire l) ∨ o = .request (.tryAcquire l) ∨ ∃ c, o = .request (.wait c l)

/-- The operation is to make its caller give `l` back. -/
def GivesBack (o : Occurrence) (l : LockId) : Prop :=
  o = .request (.release l) ∨ ∃ c, o = .request (.wait c l)

theorem Does.asksFor_of_acquire (does : o.Does (.acquire l)) : o.AsksFor l := by
  obtain ⟨does⟩ := does
  cases does
  exact .inl rfl

theorem Does.asksFor_of_seize (does : o.Does (.seize l)) : o.AsksFor l := by
  obtain ⟨does⟩ := does
  cases does
  exact .inr (.inl rfl)

theorem Does.asksFor_of_enlist {c : ConditionId} (does : o.Does (.enlist c l)) : o.AsksFor l := by
  obtain ⟨does⟩ := does
  cases does
  exact .inr (.inr ⟨c, rfl⟩)

theorem Does.givesBack (does : o.Does (.release l)) : o.GivesBack l := by
  obtain ⟨does⟩ := does
  cases does with
  | release => exact .inl rfl
  | handBack => exact .inr ⟨_, rfl⟩

/-- `t` is after `l`: it asks for it by this very operation, or has done so earlier and
not been done with it when the operation began in `k`. -/
def Seeks (o : Occurrence) (k : Kernel) (t : ThreadId) (l : LockId) : Prop :=
  t = k.current ∧ o.AsksFor l ∨ ∃ p, k.pending? t = some p ∧ p.lock? = some l

/-- The change of holder that an event tells is as it should be, in the operation that began
in `k` and after the events `earlier`. -/
def Allows (o : Occurrence) (k : Kernel) (earlier : List Event) : Event → Prop
  | .holds t l => heldIn l earlier = none ∧ t = runnerIn earlier ∧ o.Seeks k t l
  | .releases t l =>
    heldIn l earlier = some t ∧ t = runnerIn earlier ∧ t = k.current ∧ o.GivesBack l
  | _ => True

/-- All that was told after `earlier` is as it should be. -/
inductive Tells (o : Occurrence) (k : Kernel) (earlier : List Event) : List Event → Prop
  | refl : Tells o k earlier earlier
  | cons {events : List Event} {event : Event} (before : Tells o k earlier events)
      (allowed : o.Allows k events event) : Tells o k earlier (event :: events)

theorem Tells.trans {middle : List Event} (first : o.Tells k earlier middle)
    (second : o.Tells k middle later) : o.Tells k earlier later := by
  induction second with
  | refl => exact first
  | cons _ allowed ih => exact .cons ih allowed

theorem Tells.suffix (tells : o.Tells k earlier later) : earlier <:+ later := by
  induction tells with
  | refl => exact List.suffix_refl _
  | cons _ _ ih => exact ih.trans (List.suffix_cons _ _)

theorem Tells.allows {event : Event} {middle : List Event} (tells : o.Tells k earlier later)
    (told : event :: middle <:+ later) (since : earlier <:+ middle) :
    o.Allows k middle event := by
  induction tells with
  | refl =>
    have longer := told.length_le
    have shorter := since.length_le
    rw [List.length_cons] at longer
    exact absurd shorter (Nat.not_le_of_lt longer)
  | cons _ allowed ih =>
    obtain same | told := List.suffix_cons_iff.mp told
    · cases same
      exact allowed
    · exact ih told

theorem tells_of_remarks (remarks : Remarks earlier later) : o.Tells k earlier later := by
  refine remarks.induction (motive := o.Tells k earlier) .refl ?_
  intro event events remark tells
  refine .cons tells ?_
  cases event <;> first | exact trivial | cases remark

theorem tells_gives {middle : List Event} (before : Remarks earlier middle)
    (after : Remarks (.gives s :: middle) later) : o.Tells k earlier later := by
  have gives : o.Allows k middle (.gives s) := trivial
  exact ((o.tells_of_remarks before).cons gives).trans (o.tells_of_remarks after)

end Occurrence

/-! ## What every entry keeps -/

/-- In the middle of an operation from `k`: the journal says who holds what and who has the
processor, everybody who is to have a lock in the end seeks it, and all that was told is as
it should be. -/
structure Custody (o : Occurrence) (k : Kernel) (a : Ledger) : Prop where
  holders : ∀ l, a.holder? l = heldIn l a.events
  runner : a.runner = runnerIn a.events
  seekers : ∀ t p l, a.work t = some p → p.lock? = some l → o.Seeks k t l
  tells : o.Tells k k.events a.events

namespace Custody

theorem step (custody : Custody o k a)
    (holders : ∀ l, b.holder? l = heldIn l b.events)
    (runner : b.runner = runnerIn b.events)
    (seekers : ∀ t p l, b.work t = some p → p.lock? = some l →
      a.work t = some p ∨ o.Seeks k t l)
    (tells : o.Tells k a.events b.events) : Custody o k b := by
  refine ⟨holders, runner, fun t p l left wants => ?_, custody.tells.trans tells⟩
  obtain old | seeks := seekers t p l left wants
  · exact custody.seekers t p l old wants
  · exact seeks

/-- Nothing is told but remarks, and no lock changes hands. -/
theorem still (custody : Custody o k a) (remarks : Remarks a.events b.events)
    (holders : ∀ l, b.holder? l = a.holder? l)
    (runner : b.runner = a.runner)
    (seekers : ∀ t p l, b.work t = some p → p.lock? = some l →
      a.work t = some p ∨ o.Seeks k t l) : Custody o k b := by
  refine custody.step (fun l => ?_) ?_ seekers (o.tells_of_remarks remarks)
  · rw [holders, custody.holders, heldIn_of_remarks remarks]
  · rw [runner, custody.runner, runnerIn_of_remarks remarks]

/-- A lock has changed hands as the journal says. -/
theorem holders_entitled (custody : Custody o k a) {lock : Option Lock} (same : b.locks = a.locks)
    (tells : ∀ l', heldIn l' later = if l = l' then lock.bind Lock.holder else heldIn l' a.events) :
    ∀ l', ((b.entitled l lock).told later).holder? l' = heldIn l' later := by
  intro l'
  have before : b.holder? l' = heldIn l' a.events := by
    rw [← custody.holders, Ledger.holder?, same, Ledger.holder?]
  refine (Ledger.holder?_entitled b l l' lock).trans ?_
  rw [tells, before]
  by_cases here : l' = l
  · rw [if_pos here, if_pos here.symm]
  · rw [if_neg here, if_neg (Ne.symm here)]

/-- Who is after a lock once the current thread has `due` to finish. -/
theorem seekers_engaged {due : Option Pending} {p : Pending}
    (seeks : ∀ p ∈ due, p.lock? = some l → o.Seeks k a.runner l)
    (left : (a.engaged due).work t = some p) (wants : p.lock? = some l) :
    a.work t = some p ∨ o.Seeks k t l := by
  obtain old | ⟨rfl, same⟩ := Ledger.of_work_engaged left
  · exact .inl old
  · exact .inr (seeks p same wants)

/-- Who sets out for a lock asks for it with this operation, or has asked for it before. -/
theorem seeks_of_starts (custody : Custody o k a) {own : List Act}
    (starts : a.Starts own (.lock l) act) (own : ∀ one ∈ own, one = .acquire l ∨ one = .seize l)
    (acts : ∀ one, act = some one → o.Does one ∧ (a.runner = k.current ∨ one = .tick)) :
    o.Seeks k a.runner l := by
  obtain ⟨⟨one, among, is⟩, _⟩ | ⟨_, left⟩ := starts
  · obtain ⟨does, his⟩ := acts one is
    obtain rfl | rfl := own one among
    · exact .inl ⟨his.resolve_right nofun, does.asksFor_of_acquire⟩
    · exact .inl ⟨his.resolve_right nofun, does.asksFor_of_seize⟩
  · exact custody.seekers a.runner _ l left rfl

/-- The record of a lock is put in or taken out while nobody holds the lock. -/
theorem unheld (custody : Custody o k a) {lock : Option Lock} (was : a.holder? l = none)
    (is : lock.bind Lock.holder = none) (locks : b.locks = (a.entitled l lock).locks)
    (events : b.events = a.events) (runner : b.runner = a.runner) (work : b.work = a.work) :
    Custody o k b := by
  refine custody.still (by rw [events]; exact .refl _) (fun l' => ?_) runner fun t p l' left _ => ?_
  · rw [Ledger.holder?, locks, ← Ledger.holder?, Ledger.holder?_entitled, is]
    split
    · next here => rw [here, was]
    · rfl
  · exact .inl (by rwa [work] at left)

theorem handed (custody : Custody o k a) {next : ThreadId} {events : List Event}
    (handed : HandedOn a.runner next a.events events) :
    Custody o k { a.told events with runner := next } := by
  cases handed with
  | kept same remarks =>
    exact custody.still remarks (fun _ => rfl) same fun _ _ _ left _ => .inl left
  | switched remarks =>
    refine custody.step (fun l => ?_) rfl (fun _ _ _ left _ => .inl left)
      (.cons (o.tells_of_remarks remarks) trivial)
    exact (custody.holders l).trans (heldIn_of_remarks remarks).symm

/-- A unit is given back in between remarks. -/
theorem given (custody : Custody o k a) {called events : List Event}
    (before : Remarks a.events called) (after : Remarks (.gives s :: called) events)
    (told : b.events = events) (locks : b.locks = a.locks) (runner : b.runner = a.runner)
    (work : b.work = a.work) : Custody o k b := by
  subst told
  refine custody.step (fun l => ?_) ?_ (fun _ _ _ left _ => .inl (by rwa [work] at left))
    (o.tells_gives before after)
  · rw [Ledger.holder?, locks, ← Ledger.holder?, custody.holders, heldIn_of_remarks after,
      heldIn_gives, heldIn_of_remarks before]
  · rw [runner, custody.runner, runnerIn_of_remarks after]
    exact (runnerIn_of_remarks before).symm

theorem hold (custody : Custody o k a) (sorted : a.Sorted) {lock : Lock} {value : Nat}
    {purpose : Purpose} {asked events : List Event} (seeks : o.Seeks k a.runner l)
    (found : a.locks l = some lock)
    (unit : a.semaphores lock.semaphore = some (value + 1, purpose))
    (before : Remarks a.events asked)
    (after : Remarks (.holds a.runner l :: .takes a.runner lock.semaphore :: asked) events) :
    Custody o k ((((a.stocked lock.semaphore value purpose).engaged none).entitled l
      (some { lock with holder := some a.runner })).told events) := by
  have unheld := sorted.unheld found unit
  have free : heldIn l (.takes a.runner lock.semaphore :: asked) = none := by
    rw [heldIn_takes, heldIn_of_remarks before, ← custody.holders, Ledger.holder?_of_locks found,
      unheld]
  have runner : a.runner = runnerIn asked :=
    custody.runner.trans (runnerIn_of_remarks before).symm
  refine custody.step (custody.holders_entitled rfl fun l' => ?_) ?_
    (fun _ _ _ left => seekers_engaged ?_ left) ?_
  · rw [heldIn_of_remarks after, heldIn, heldIn_takes, heldIn_of_remarks before]
    rfl
  · rw [Ledger.told_events, runnerIn_of_remarks after]
    exact runner
  · exact nofun
  · have takes : o.Allows k asked (.takes a.runner lock.semaphore) := trivial
    have holds : o.Allows k (.takes a.runner lock.semaphore :: asked) (.holds a.runner l) :=
      ⟨free, runner, seeks⟩
    exact (((o.tells_of_remarks before).cons takes).cons holds).trans (o.tells_of_remarks after)

theorem release (custody : Custody o k a) {lock : Lock} {value : Nat} {purpose : Purpose}
    {dropped events : List Event} (his : a.runner = k.current) (gives : o.GivesBack l)
    (found : a.locks l = some lock) (holds : lock.holder = some a.runner)
    (before : Remarks a.events dropped)
    (after : Remarks (.gives lock.semaphore :: .releases a.runner l :: dropped) events) :
    Custody o k (((a.stocked lock.semaphore (value + 1) purpose).entitled l
      (some { lock with holder := none })).told events) := by
  have held : heldIn l dropped = some a.runner := by
    rw [heldIn_of_remarks before, ← custody.holders, Ledger.holder?_of_locks found, holds]
  have runner : a.runner = runnerIn dropped :=
    custody.runner.trans (runnerIn_of_remarks before).symm
  refine custody.step (custody.holders_entitled rfl fun l' => ?_) ?_
    (fun t p l' left _ => .inl left) ?_
  · rw [heldIn_of_remarks after, heldIn_gives, heldIn, heldIn_of_remarks before]
    rfl
  · rw [Ledger.told_events, runnerIn_of_remarks after]
    exact runner
  · have releases : o.Allows k dropped (.releases a.runner l) :=
      ⟨held, runner, his, gives⟩
    exact ((o.tells_of_remarks before).cons releases).trans (o.tells_gives (.refl _) after)

theorem entry (custody : Custody o k a) (sorted : a.Sorted) (entry : Entry d act a b)
    (acts : ∀ one, act = some one → o.Does one ∧ (a.runner = k.current ∨ one = .tick)) :
    Custody o k b := by
  cases entry with
  | note _ remarks => exact custody.still remarks (fun _ => rfl) rfl fun _ _ _ left _ => .inl left
  | pick handed => exact custody.handed handed
  | create | destroy =>
    exact custody.still (.refl _) (fun _ => rfl) rfl fun _ _ _ left _ => .inl left
  | createLock new => exact custody.unheld (Ledger.holder?_eq_none new) rfl rfl rfl rfl rfl
  | destroyLock found free unnamed =>
    exact custody.unheld ((Ledger.holder?_of_locks found).trans free) rfl rfl rfl rfl rfl
  | take starts found plain =>
    refine custody.step custody.holders custody.runner
      (fun _ _ _ left => seekers_engaged ?_ left) (.cons .refl trivial)
    exact nofun
  | want starts remarks live =>
    refine custody.still remarks (fun _ => rfl) rfl fun _ _ _ left => seekers_engaged ?_ left
    rintro _ ⟨⟩ wants
    cases wants
  | hold starts found unit before after =>
    have seeks := custody.seeks_of_starts starts (fun _ => List.mem_pair.mp) acts
    exact custody.hold sorted seeks found unit before after
  | await starts remarks live =>
    have seeks := custody.seeks_of_starts starts
      (fun _ among => .inl (List.mem_singleton.mp among)) acts
    refine custody.still remarks (fun _ => rfl) rfl fun _ _ _ left => seekers_engaged ?_ left
    rintro _ ⟨⟩ ⟨⟩
    exact seeks
  | release found holds unit before after =>
    obtain ⟨does, his⟩ := acts _ rfl
    exact custody.release (his.resolve_right nofun) does.givesBack found holds before after
  | give found plain after => exact custody.given (.refl _) after rfl rfl rfl rfl
  | enlist idle holds perm remarks =>
    obtain ⟨does, his⟩ := acts _ rfl
    refine custody.still remarks (fun _ => rfl) rfl fun _ _ _ left => seekers_engaged ?_ left
    rintro _ ⟨⟩ ⟨⟩
    exact .inl ⟨his.resolve_right nofun, does.asksFor_of_enlist⟩
  | signal perm found before after => exact custody.given before after rfl rfl rfl rfl
  | receive due found =>
    refine custody.step custody.holders custody.runner
      (fun _ _ _ left => seekers_engaged ?_ left) (.cons .refl trivial)
    rintro _ ⟨⟩ wants
    exact custody.seekers _ _ _ due wants

end Custody

/-! ## Every operation of a run -/

/-- In between operations the journal says who holds what and who has the processor. -/
structure Kernel.Recorded (k : Kernel) : Prop where
  holders : ∀ l, k.holder? l = heldIn l k.events
  runner : k.current = runnerIn k.events

theorem Kernel.Recorded.custody (recorded : k.Recorded) (o : Occurrence) :
    Custody o k (⟨k, none⟩ : Machine).ledger := by
  refine ⟨recorded.holders, recorded.runner, fun t p l left wants => .inr ⟨p, ?_, wants⟩, .refl⟩
  exact (Machine.work?_none k t).symm.trans left

theorem custody_of_occur (steady : Steady d k) (named : d.plainHandles = true)
    (recorded : k.Recorded) (h : d.occur k o = some k') :
    Custody o k (⟨k', none⟩ : Machine).ledger := by
  obtain ⟨deeds, steps, accounts⟩ := steps_of_occur steady h
  exact steps.moves.ledger steady.regular named (recorded.custody o)
    fun entry sorted acts custody => custody.entry sorted entry fun one is =>
      accounts _ (acts one is)

theorem Reachable.recorded (reachable : Reachable d k) (named : d.plainHandles = true) :
    k.Recorded := by
  induction reachable with
  | fresh config rule =>
    refine ⟨fun l => ?_, rfl⟩
    rw [holder?, Kernel.fresh, Arena.get?_empty]
    rfl
  | step before transit ih =>
    obtain ⟨o, occurs⟩ := transit.occurs
    have custody := custody_of_occur before.steady named ih occurs
    exact ⟨custody.holders, custody.runner⟩

/-- The unit of a lock is gone while the lock is held and there while it is not, and the
journal tells who holds it.  In the course of an operation a lock is only ever freed by
its holder, who is the caller and asks for it, and only ever taken when nobody holds it, by
the thread that has the processor at that moment and seeks the lock. -/
theorem mutual_exclusion (reachable : Reachable d k) (named : d.plainHandles = true) :
    (∀ l lock, k.locks.get? l = some lock → ∃ semaphore,
      k.semaphores.get? lock.semaphore = some semaphore ∧
        semaphore.value = if lock.holder.isSome then 0 else 1) ∧
    k.Recorded ∧
    ∀ o k', d.occur k o = some k' → k.events <:+ k'.events ∧
      ∀ event earlier, event :: earlier <:+ k'.events → k.events <:+ earlier →
        o.Allows k earlier event := by
  have steady := reachable.steady
  have recorded := reachable.recorded named
  refine ⟨fun l lock found => ?_, recorded, fun o k' occurs => ?_⟩
  · obtain ⟨semaphore, foundUnit, _, value⟩ := (steady.regular.graph named).unit l lock found
    exact ⟨semaphore, foundUnit, value⟩
  · have custody := custody_of_occur steady named recorded occurs
    exact ⟨custody.tells.suffix, fun event earlier told since => custody.tells.allows told since⟩

/-- The initial thread gives back a lock that another one of priority 40 waits for, which has
the lock when the operation is over. -/
theorem mutual_exclusion_of_handover : ∃ k k', Reachable { plainHandles := true } k ∧
    Discipline.occur { plainHandles := true } k (.request (.release ⟨0⟩)) = some k' ∧
    (k.current, k.holder? ⟨0⟩, k'.holder? ⟨0⟩) = (.main, some .main, some ⟨3⟩) ∧
    ∀ event earlier, event :: earlier <:+ k'.events → k.events <:+ earlier →
      (Occurrence.request (.release ⟨0⟩)).Allows k earlier event := by
  have ran : ((Discipline.performAll { plainHandles := true }
      [.start, .createLock, .acquire ⟨0⟩, .spawn { priority := 40 }, .acquire ⟨0⟩]
      (.fresh {} .stable)).bind fun k => (Discipline.occur { plainHandles := true } k
        (.request (.release ⟨0⟩))).map fun k' =>
          (k.current, k.holder? ⟨0⟩, k'.holder? ⟨0⟩)) = some (.main, some .main, some ⟨3⟩) := by
    decide +kernel
  obtain ⟨k, performed, rest⟩ := Option.bind_eq_some_iff.mp ran
  obtain ⟨k', occurs, told⟩ := Option.map_eq_some_iff.mp rest
  have reachable := (Reachable.fresh {} .stable).performAll performed
  exact ⟨k, k', reachable, occurs, told, ((mutual_exclusion reachable rfl).2.2 _ k' occurs).2⟩

end ThreadKernel
