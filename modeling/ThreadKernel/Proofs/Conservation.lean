import ThreadKernel.Proofs.Destruction
import ThreadKernel.Proofs.Frame

/-!
# Conservation of units

A unit that is given to a semaphore stays there until it is taken, so what a semaphore was made
with and what it has been given is what it has and what has been taken from it (`Ledger.Balanced`).
The units that were taken are the ones that threads have asked for, but for the one that a thread
may still wait for (`Ledger.claims`).  Over a run that means: each call for a unit takes one unit,
at once, or later if it is suspended, and none before (`units_conserved`).
-/

namespace ThreadKernel

open Kernel

variable {d : Discipline} {m m' : Machine} {k k' : Kernel} {a b : Ledger} {t : ThreadId}
  {s s' : SemaphoreId} {act : Option Act} {earlier later : List Event} {value : Nat}
  {purpose : Purpose}

/-! ## What an entry comes to for one semaphore -/

namespace Ledger

/-- What has become of the units of `s`. -/
inductive Trade (a b : Ledger) (s : SemaphoreId) : Prop
  | kept (stock : b.semaphores s = a.semaphores s)
      (told : account s b.events = account s a.events)
  | made (new : s = a.next) (next : b.next = ⟨a.next.index + 1⟩)
  | gone {stock : Nat × Purpose} (found : a.semaphores s = some stock)
      (stock : b.semaphores s = none)
  | taken {value : Nat} {purpose : Purpose} (found : a.semaphores s = some (value + 1, purpose))
      (stock : b.semaphores s = some (value, purpose))
      (told : account s b.events = .takes a.runner s :: account s a.events)
  | given {value : Nat} {purpose : Purpose} (found : a.semaphores s = some (value, purpose))
      (stock : b.semaphores s = some (value + 1, purpose))
      (told : account s b.events = .gives s :: account s a.events)

theorem account_cons_congr (event : Event) (same : account s later = account s earlier) :
    account s (event :: later) = account s (event :: earlier) := by
  by_cases about : event.unit? = some s
  · rw [account_cons_of_eq about, account_cons_of_eq about, same]
  · rw [account_cons_of_ne about, account_cons_of_ne about, same]

theorem trade_of_made (semaphores : b.semaphores = (a.made value purpose).semaphores)
    (next : b.next = (a.made value purpose).next)
    (told : account s b.events = account s a.events) : a.Trade b s := by
  by_cases here : s = a.next
  · exact .made here next
  · exact .kept ((congrFun semaphores s).trans (Function.update_of_ne here ..)) told

theorem trade_of_unmade (semaphores : b.semaphores = (a.unmade s').semaphores)
    (live : ∃ stock, a.semaphores s' = some stock)
    (told : s ≠ s' → account s b.events = account s a.events) : a.Trade b s := by
  obtain ⟨stock, found⟩ := live
  by_cases here : s = s'
  · subst here
    exact .gone found ((congrFun semaphores s).trans (Function.update_self ..))
  · exact .kept ((congrFun semaphores s).trans (Function.update_of_ne here ..)) (told here)

theorem trade_of_taken (found : a.semaphores s' = some (value + 1, purpose))
    (semaphores : b.semaphores = (a.stocked s' value purpose).semaphores)
    (told : account s b.events = account s (.takes a.runner s' :: a.events)) : a.Trade b s := by
  by_cases here : s = s'
  · subst here
    exact .taken found ((congrFun semaphores s).trans (Function.update_self ..))
      (told.trans (account_cons_of_eq rfl))
  · exact .kept ((congrFun semaphores s).trans (Function.update_of_ne here ..))
      (told.trans (account_cons_of_ne (ne_of_unit? rfl here)))

theorem trade_of_given (found : a.semaphores s' = some (value, purpose))
    (semaphores : b.semaphores = (a.stocked s' (value + 1) purpose).semaphores)
    (told : account s b.events = account s (.gives s' :: a.events)) : a.Trade b s := by
  by_cases here : s = s'
  · subst here
    exact .given found ((congrFun semaphores s).trans (Function.update_self ..))
      (told.trans (account_cons_of_eq rfl))
  · exact .kept ((congrFun semaphores s).trans (Function.update_of_ne here ..))
      (told.trans (account_cons_of_ne (ne_of_unit? rfl here)))

end Ledger

open Ledger in
theorem Entry.trade (entry : Entry d act a b) (s : SemaphoreId) : a.Trade b s := by
  cases entry with
  | note _ remarks | want _ remarks | await _ remarks => exact .kept rfl (account_of_remarks remarks)
  | pick handed =>
    refine .kept rfl ?_
    cases handed with
    | kept _ remarks => exact account_of_remarks remarks
    | switched remarks => exact (account_cons_of_none rfl).trans (account_of_remarks remarks)
  | create | createLock => exact trade_of_made rfl rfl rfl
  | enlist idle holds perm remarks => exact trade_of_made rfl rfl (account_of_remarks remarks)
  | destroy found => exact trade_of_unmade rfl ⟨_, found⟩ fun _ => rfl
  | destroyLock found =>
    rename_i l lock unheld unnamed
    cases gone : a.semaphores lock.semaphore with
    | none => exact .kept (congrFun (Function.update_eq_self_iff.mpr gone.symm) s) rfl
    | some stock => exact trade_of_unmade rfl ⟨stock, gone⟩ fun _ => rfl
  | receive due found =>
    exact trade_of_unmade rfl ⟨_, found⟩ fun other => account_cons_of_ne (ne_of_unit? rfl other)
  | take starts found => exact trade_of_taken found rfl rfl
  | hold starts found unit before after =>
    refine trade_of_taken unit rfl ((account_of_remarks after).trans ?_)
    exact (account_cons_of_none rfl).trans (account_cons_congr _ (account_of_remarks before))
  | give found named after => exact trade_of_given found rfl (account_of_remarks after)
  | release found holds unit before after =>
    refine trade_of_given unit rfl ((account_of_remarks after).trans (account_cons_congr _ ?_))
    exact (account_cons_of_none rfl).trans (account_of_remarks before)
  | signal perm found before after =>
    refine trade_of_given found rfl ((account_of_remarks after).trans ?_)
    exact account_cons_congr _ (account_of_remarks before)

/-! ## Semaphores that have not been made -/

namespace Ledger

/-- Every semaphore that anything names has been made. -/
structure Issued (a : Ledger) : Prop where
  live : ∀ s stock, a.semaphores s = some stock → s.index < a.next.index
  own : a.Private (·.index < a.next.index)
  unit : ∀ t s, a.work t = some (.unit s) → s.index < a.next.index
  told : ∀ s, a.next.index ≤ s.index → account s a.events = []

theorem Private.mono {p q : SemaphoreId → Prop} (own : a.Private p) (imp : ∀ s, p s → q s) :
    a.Private q where
  lock l lock found := imp _ (own.lock l lock found)
  signal t s l left := imp _ (own.signal t s l left)
  waiter c waiter queued := imp _ (own.waiter c waiter queued)

theorem Issued.entry (issued : a.Issued) (entry : Entry d act a b) : b.Issued := by
  have mono : ∀ s : SemaphoreId, s.index < a.next.index → s.index < b.next.index :=
    fun s less => Nat.lt_of_lt_of_le less entry.next_le
  have live : ∀ s stock, b.semaphores s = some stock → s.index < b.next.index := by
    intro s stock found
    cases entry.trade s with
    | kept same => exact mono s (issued.live s stock (same.symm.trans found))
    | made new next =>
      rw [next, new]
      exact Nat.lt_succ_self _
    | gone _ gone => cases gone.symm.trans found
    | taken before | given before => exact mono s (issued.live s _ before)
  refine ⟨live, (issued.own.mono mono).entry entry fun new => ?_, fun t s left => ?_,
    fun s unmade => ?_⟩
  · rw [new]
    exact Nat.lt_succ_self _
  · obtain before | engages := entry.engages left
    · exact mono s (issued.unit t s before)
    · obtain ⟨_, stock, found⟩ | ⟨stock, found⟩ := engages.semaphore s rfl
      · exact live s stock found
      · exact mono s (issued.live s stock found)
  · have before := issued.told s (Nat.le_trans entry.next_le unmade)
    have absent : ∀ stock, a.semaphores s ≠ some stock := fun stock found =>
      Nat.not_le_of_lt (mono s (issued.live s stock found)) unmade
    cases entry.trade s with
    | kept _ told => rw [told, before]
    | made new next =>
      rw [next, new] at unmade
      exact absurd unmade (Nat.not_succ_le_self _)
    | gone found | taken found | given found => exact absurd found (absent _)

end Ledger

theorem issued_fresh (config : Config) (rule : Reposition) :
    (⟨.fresh config rule, none⟩ : Machine).ledger.Issued := by
  have free : ∀ t, (⟨.fresh config rule, none⟩ : Machine).work? t = none := fun t =>
    (Machine.work?_none _ t).trans (pending?_fresh config rule t)
  refine ⟨nofun, ⟨nofun, fun t s l left => ?_, nofun⟩, fun t s left => ?_, fun _ _ => rfl⟩
  · cases (free t).symm.trans left
  · cases (free t).symm.trans left

theorem Reachable.issued (reachable : Reachable d k) : (⟨k, none⟩ : Machine).ledger.Issued :=
  reachable.invariant (motive := fun m => m.ledger.Issued) issued_fresh
    fun regular move issued => issued.entry (move.entry regular.toSound regular.tidy)

/-! ## Units given and units taken -/

/-- The thread that a unit was taken for, if that is what happened. -/
def Event.taker? : Event → Option ThreadId
  | .takes t _ => some t
  | _ => none

/-- The threads that units of `s` were taken for, latest first. -/
def takers (s : SemaphoreId) (events : List Event) : List ThreadId :=
  (account s events).filterMap Event.taker?

theorem count_takers (events : List Event) :
    (takers s events).count t = events.count (.takes t s) := by
  rw [takers, account, List.count_filterMap, List.countP_filter]
  refine List.countP_congr fun event _ => ?_
  cases event with
  | takes t' s' => simp [Event.taker?, Event.unit?]
  | _ => simp [Event.taker?]

theorem count_gifts (events : List Event) :
    (events.filterMap Event.gift?).count s = (account s events).count (.gives s) := by
  have kept : (account s events).count (.gives s) = events.count (.gives s) :=
    List.count_filter (decide_eq_true rfl)
  rw [kept, List.count_filterMap]
  refine List.countP_congr fun event _ => ?_
  cases event with
  | gives s' => simp [Event.gift?]
  | _ => simp [Event.gift?]

/-- What `s` was made with and what it has been given is what it has and what has been taken. -/
def Ledger.Balanced (a : Ledger) (s : SemaphoreId) (value : Nat) : Prop :=
  ∀ stock, a.semaphores s = some stock →
    value + (account s a.events).count (.gives s) = stock.1 + (takers s a.events).length

theorem Ledger.Balanced.entry (balanced : a.Balanced s value) (issued : s.index < a.next.index)
    (entry : Entry d act a b) : b.Balanced s value := by
  intro stock found
  cases entry.trade s with
  | kept same told =>
    rw [takers, told]
    exact balanced stock (same.symm.trans found)
  | made new =>
    rw [new] at issued
    exact absurd issued (Nat.lt_irrefl _)
  | gone _ gone => cases gone.symm.trans found
  | taken before after told =>
    cases after.symm.trans found
    have same := balanced _ before
    have other : Event.takes a.runner s ≠ .gives s := nofun
    rw [takers, told, List.count_cons_of_ne other, same,
      List.filterMap_cons_some (f := Event.taker?) rfl, List.length_cons, takers]
    omega
  | given before after told =>
    cases after.symm.trans found
    have same := balanced _ before
    rw [takers, told, List.count_cons_self, List.filterMap_cons_none rfl, ← takers]
    omega

/-- Who has a unit of `s` to get has asked for it. -/
theorem Entry.asks (entry : Entry d act a b) (left : b.work t = some (.unit s)) :
    a.work t = some (.unit s) ∨ a.runner = t ∧ act.any (·.isClaim s) = true := by
  cases entry with
  | note | pick | create | destroy | createLock | destroyLock | release | give | signal =>
    exact .inl left
  | take | hold | await | enlist | receive =>
    obtain before | ⟨_, no⟩ := Ledger.of_work_engaged left
    · exact .inl before
    · cases no
  | want starts =>
    obtain before | ⟨here, is⟩ := Ledger.of_work_engaged left
    · exact .inl before
    · cases is
      obtain ⟨⟨one, among, rfl⟩, _⟩ | ⟨_, same⟩ := starts
      · cases List.mem_singleton.mp among
        exact .inr ⟨here.symm, decide_eq_true rfl⟩
      · exact .inl (here ▸ same)

theorem Moves.asks {deeds : List Deed} (moves : Moves d deeds m m') (regular : Regular d m)
    (left : m'.ledger.work t = some (.unit s)) :
    m.ledger.work t = some (.unit s) ∨ 0 < deeds.countP (·.isClaim t s) := by
  induction moves with
  | refl m => exact .inl left
  | @tail deeds act m middle m' before move ih =>
    have regular' := regular.moves before
    rw [List.countP_append, middle.countP_deeds]
    obtain old | asks := (move.entry regular'.toSound regular'.tidy).asks left
    · exact (ih regular old).imp_right fun before => Nat.add_pos_left before _
    · have now : middle.kernel.current = t ∧ act.any (·.isClaim s) = true := asks
      rw [if_pos now]
      exact .inr (Nat.succ_pos _)

/-! ## Calls for units -/

/-- An operation that a thread has asked for, and what it was answered. -/
structure Dealing where
  caller : ThreadId
  request : Request
  reply : Reply

/-- The operation that is asked for in `k`, if one is and it ends well. -/
def Kernel.dealing? (k : Kernel) : Occurrence → Option Dealing
  | .request r => (r.perform.run k).toOption.map fun step => ⟨k.current, r, step.1⟩
  | _ => none

/-- The operations that are asked for in a run from `k`, the first one first. -/
def Discipline.dealings (d : Discipline) : List Occurrence → Kernel → List Dealing
  | [], _ => []
  | first :: rest, k =>
    (k.dealing? first).toList ++ (d.occur k first).elim [] (d.dealings rest)

namespace Dealing

/-- Whether it gives `s` a unit. -/
def gives (s : SemaphoreId) (dealing : Dealing) : Bool := decide (dealing.request = .up s)

/-- Whether it has got its caller a unit of `s` at once. -/
def gets (s : SemaphoreId) : Dealing → Bool
  | ⟨_, .down s', .wait .completed⟩ => decide (s' = s)
  | ⟨_, .tryDown s', .flag true⟩ => decide (s' = s)
  | _ => false

/-- Whether it has been suspended for want of a unit of `s`. -/
def suspends (s : SemaphoreId) : Dealing → Bool
  | ⟨_, .down s', .wait .suspended⟩ => decide (s' = s)
  | _ => false

/-- Whether `t` is to have a unit of `s` by it, at once or in the end. -/
def claims (t : ThreadId) (s : SemaphoreId) (dealing : Dealing) : Bool :=
  decide (dealing.caller = t) && (dealing.gets s || dealing.suspends s)

/-- Whether a call that was suspended for want of a unit of `s` is over in `k`, if `later` have
been asked for after it: its caller has called again, or has no unit of `s` to get any more. -/
def isOver (k : Kernel) (s : SemaphoreId) (later : List Dealing) (dealing : Dealing) : Bool :=
  later.any (fun other => decide (other.caller = dealing.caller)) ||
    decide (k.pending? dealing.caller ≠ some (.unit s))

theorem claims_down {t' : ThreadId} {result : Wait} :
    claims t s ⟨t', .down s', .wait result⟩ = (decide (t' = t) && decide (s' = s)) := by
  cases result with
  | completed => exact congrArg _ (Bool.or_false _)
  | suspended => rfl

theorem claims_tryDown {t' : ThreadId} {success : Bool} :
    claims t s ⟨t', .tryDown s', .flag success⟩ =
      (decide (t' = t) && (success && decide (s' = s))) := by
  cases success with
  | true => exact congrArg _ (Bool.or_false _)
  | false => rfl

/-- No other operation calls for a unit. -/
theorem calls_of_gets_or_suspends {dealing : Dealing}
    (calls : (dealing.gets s || dealing.suspends s) = true) :
    (∃ s', dealing.request = .down s') ∨ ∃ s', dealing.request = .tryDown s' := by
  unfold gets suspends at calls
  split at calls
  · exact .inl ⟨_, rfl⟩
  · exact .inr ⟨_, rfl⟩
  · split at calls
    · exact .inl ⟨_, rfl⟩
    · cases calls

end Dealing

/-- The threads that these calls have got units of `s` by the time of `k`, one for each unit. -/
def served (k : Kernel) (s : SemaphoreId) : List Dealing → List ThreadId
  | [] => []
  | dealing :: later =>
    if dealing.gets s || dealing.suspends s && dealing.isOver k s later then
      dealing.caller :: served k s later
    else
      served k s later

section Served

variable {log : List Dealing} {dealing : Dealing}

theorem gets_of_suspends (suspends : dealing.suspends s = true) : dealing.gets s = false := by
  unfold Dealing.suspends at suspends
  split at suspends
  · rfl
  · cases suspends

theorem not_mem_served (never : ∀ dealing ∈ log, dealing.caller ≠ t) : t ∉ served k s log := by
  induction log with
  | nil => exact List.not_mem_nil
  | cons dealing later ih =>
    obtain ⟨other, never⟩ := List.forall_mem_cons.mp never
    rw [served]
    split
    · exact List.not_mem_cons_of_ne_of_not_mem (Ne.symm other) (ih never)
    · exact ih never

/-- What a call adds to the units that a thread has got. -/
theorem count_served_cons (later : List Dealing) (ended : dealing.caller = t →
    dealing.suspends s = true → dealing.isOver k s later = true) :
    (served k s (dealing :: later)).count t =
      (served k s later).count t + if dealing.claims t s then 1 else 0 := by
  by_cases here : dealing.caller = t
  · have got : (dealing.gets s || dealing.suspends s && dealing.isOver k s later) =
        dealing.claims t s := by
      rw [Dealing.claims, decide_eq_true here, Bool.true_and]
      cases suspends : dealing.suspends s with
      | false => rw [Bool.false_and]
      | true => rw [ended here suspends, Bool.true_and]
    rw [served, got]
    split
    · rw [here, List.count_cons_self]
    · rfl
  · have other : dealing.claims t s = false := by
      rw [Dealing.claims, decide_eq_false here, Bool.false_and]
    rw [served, other, if_neg Bool.false_ne_true, Nat.add_zero]
    split
    · rw [List.count_cons_of_ne here]
    · rfl

/-- A thread that has no unit to get has got all those that it has called for. -/
theorem count_served (free : k.pending? t ≠ some (.unit s)) :
    (served k s log).count t = log.countP (·.claims t s) := by
  induction log with
  | nil => rfl
  | cons dealing later ih =>
    rw [count_served_cons, ih, List.countP_cons]
    rintro rfl _
    rw [Dealing.isOver, decide_eq_true free, Bool.or_true]

/-- A thread that has a unit to get has got all those that it has called for before. -/
theorem count_served_of_waits (earlier : List Dealing) {later : List Dealing}
    (left : k.pending? t = some (.unit s)) (his : dealing.caller = t) (suspends : dealing.suspends s = true)
    (never : ∀ other ∈ later, other.caller ≠ t) :
    (served k s (earlier ++ dealing :: later)).count t + 1 =
      (earlier ++ dealing :: later).countP (·.claims t s) := by
  induction earlier with
  | nil =>
    have waits : dealing.isOver k s later = false := by
      rw [Dealing.isOver, his, left, List.any_eq_false.mpr fun other among => by
        simpa using never other among]
      simp
    have claims : dealing.claims t s = true := by
      rw [Dealing.claims, decide_eq_true his, suspends, Bool.or_true]
      rfl
    have others : later.countP (·.claims t s) = 0 := List.countP_eq_zero.mpr fun other among => by
      rw [Dealing.claims, decide_eq_false (never other among), Bool.false_and]
      exact Bool.false_ne_true
    rw [List.nil_append, served, gets_of_suspends suspends, waits, Bool.and_false, Bool.or_false,
      if_neg Bool.false_ne_true, List.count_eq_zero.mpr (not_mem_served never),
      List.countP_cons_of_pos claims, others]
  | cons first earlier ih =>
    rw [List.cons_append, count_served_cons, List.countP_cons, ← ih, Nat.add_right_comm]
    rintro here _
    rw [Dealing.isOver, Bool.or_eq_true]
    refine .inl (List.any_eq_true.mpr ⟨dealing, List.mem_append_right _ (.head _), ?_⟩)
    rw [his, here, decide_eq_true rfl]

end Served

/-! ## What a request does -/

/-- Only who names `s` gives it a unit. -/
theorem gifts_of_run_perform {r : Request} {reply : Reply} (settled : k.frame.overdue = false)
    (unattached : (⟨k, none⟩ : Machine).ledger.Unattached s)
    (h : r.perform.run k = .ok (reply, k')) :
    k'.gifts.count s =
      k.gifts.count s + if Dealing.gives s ⟨k.current, r, reply⟩ then 1 else 0 := by
  by_cases ups : ∃ s', r = .up s'
  · obtain ⟨s', rfl⟩ := ups
    obtain ⟨_, ran, _⟩ := run_map_eq_ok_iff.mp h
    have gifts : k'.gifts = s' :: k.gifts := congrArg Frame.gifts (frame_of_run_up ran)
    rw [gifts, List.count_cons, Dealing.gives]
    simp
  · have never : Dealing.gives s ⟨k.current, r, reply⟩ = false :=
      decide_eq_false fun same => ups ⟨s, same⟩
    rw [never, if_neg Bool.false_ne_true, Nat.add_zero]
    have own := unattached.own
    have alters := alters_of_run_perform settled h
    have gifts : k'.gifts = k'.frame.gifts := rfl
    rw [gifts]
    generalize k'.frame = frame at alters
    cases alters with
    | up => exact absurd ⟨_, rfl⟩ ups
    | start | spawn | setLevel | other => rfl
    | release found | wait found => exact List.count_cons_of_ne (own.lock _ _ found)
    | signal sent | broadcast sent =>
      rename_i c l signals
      have unsent : s ∉ signals := fun among => by
        obtain ⟨waiter, queued, same⟩ := sent s among
        exact own.waiter c waiter queued same
      refine (List.count_append ..).trans ?_
      rw [List.count_eq_zero.mpr unsent, Nat.zero_add]
      rfl

/-- The deeds of a request are claims if it calls for a unit, and it leaves its caller running if
that has got the unit. -/
theorem claims_of_run_perform {r : Request} {reply : Reply} (steady : Steady d k)
    (obeys : r.Obeys d k) (h : r.perform.run k = .ok (reply, k')) :
    ∃ deeds, Moves d deeds ⟨k, none⟩ ⟨k', none⟩ ∧
      (∀ t, deeds.countP (·.isClaim t s) =
        if Dealing.claims t s ⟨k.current, r, reply⟩ then 1 else 0) ∧
      (Dealing.gets s ⟨k.current, r, reply⟩ = true → k'.current = k.current) := by
  have single : ∀ (t : ThreadId) (act : Act), [(⟨k.current, act⟩ : Deed)].countP (·.isClaim t s) =
      if decide (k.current = t) && act.isClaim s then 1 else 0 := fun t act => by
    rw [List.countP_singleton]
    rfl
  by_cases downs : ∃ s', r = .down s'
  · obtain ⟨s', rfl⟩ := downs
    obtain ⟨result, ran, rfl⟩ := run_map_eq_ok_iff.mp h
    have ends := ends_of_run_down steady (fun named => obeys.plain named s' rfl) (obeys.busy rfl) ran
    refine ⟨_, ends.steps.moves, fun t => (single t _).trans ?_, fun gets => ?_⟩
    · rw [Dealing.claims_down]
      rfl
    · cases ends with
      | completed _ stays => exact stays
      | suspended => cases gets
  by_cases tries : ∃ s', r = .tryDown s'
  · obtain ⟨s', rfl⟩ := tries
    obtain ⟨success, ran, rfl⟩ := run_map_eq_ok_iff.mp h
    have steps := steps_of_run_tryDown steady (fun named => obeys.plain named s' rfl) ran
    refine ⟨_, steps.moves, fun t => ?_, fun _ => ?_⟩
    · rw [Dealing.claims_tryDown]
      cases success with
      | true => exact single t _
      | false => rw [Bool.false_and, Bool.and_false]; rfl
    · exact congrArg Seat.current ((Still.masked s'.still_take k).seat _ _ ran)
  · have never : (Dealing.gets s ⟨k.current, r, reply⟩ ||
        Dealing.suspends s ⟨k.current, r, reply⟩) = false :=
      Bool.eq_false_iff.mpr fun calls => (Dealing.calls_of_gets_or_suspends calls).elim downs tries
    obtain ⟨deeds, steps, accounts⟩ := steps_of_run_perform steady obeys h
    refine ⟨deeds, steps.moves, fun t => ?_, fun gets => ?_⟩
    · rw [Dealing.claims, never, Bool.and_false, if_neg Bool.false_ne_true]
      refine List.countP_eq_zero.mpr fun deed member claim => ?_
      obtain ⟨thread, act⟩ := deed
      have does := (accounts _ member).1
      have claim := (Bool.and_eq_true_iff.mp claim).2
      cases does with
      | down => exact downs ⟨_, rfl⟩
      | take => exact tries ⟨_, rfl⟩
      | _ => cases claim
    · rw [gets, Bool.true_or] at never
      cases never

/-! ## Books of a run -/

/-- The books of a semaphore that was made with `value` units, after the operations of `log`. -/
structure Books (d : Discipline) (s : SemaphoreId) (value : Nat) (log : List Dealing)
    (k : Kernel) : Prop where
  reachable : Reachable d k
  unattached : (⟨k, none⟩ : Machine).ledger.Unattached s
  balanced : (⟨k, none⟩ : Machine).ledger.Balanced s value
  gifts : k.gifts.count s = log.countP (·.gives s)
  claims : ∀ t, (⟨k, none⟩ : Machine).ledger.claims t s = log.countP (·.claims t s)
  waits : ∀ t, k.pending? t = some (.unit s) → ∃ earlier dealing later,
    log = earlier ++ dealing :: later ∧ dealing.caller = t ∧ dealing.suspends s = true ∧
      ∀ other ∈ later, other.caller ≠ t

/-- The books are kept from one moment in between operations to the next, with at most one operation
in the meantime. -/
theorem Books.step {log : List Dealing} {deeds : List Deed} (books : Books d s value log k)
    (reachable : Reachable d k') (moves : Moves d deeds ⟨k, none⟩ ⟨k', none⟩)
    (new : Option Dealing) (caller : ∀ dealing, new = some dealing → dealing.caller = k.current)
    (gifts : k'.gifts.count s = k.gifts.count s + new.toList.countP (·.gives s))
    (claims : ∀ t, deeds.countP (·.isClaim t s) = new.toList.countP (·.claims t s))
    (stays : ∀ dealing, new = some dealing → dealing.gets s = true → k'.current = k.current) :
    Books d s value (log ++ new.toList) k' := by
  have regular := books.reachable.steady.regular
  have kept := regular.invariant (motive := fun m => m.ledger.Unattached s ∧
      m.ledger.Balanced s value) moves ⟨books.unattached, books.balanced⟩
    fun regular move ⟨unattached, balanced⟩ =>
      have entry := move.entry regular.toSound regular.tidy
      ⟨unattached.entry entry, balanced.entry unattached.issued entry⟩
  refine ⟨reachable, kept.1, kept.2, ?_, fun t => ?_, fun t left => ?_⟩
  · rw [gifts, books.gifts, List.countP_append]
  · rw [(moves.claims regular books.unattached).2, books.claims, claims, List.countP_append]
  · obtain old | asks := moves.asks regular ((Machine.work?_none k' t).trans left)
    · have waited : k.pending? t = some (.unit s) := (Machine.work?_none k t).symm.trans old
      have away : k.current ≠ t := by
        rintro rfl
        cases books.reachable.steady.runs.pending?.symm.trans waited
      obtain ⟨earlier, dealing, later, rfl, his, suspends, never⟩ := books.waits t waited
      refine ⟨earlier, dealing, later ++ new.toList, by simp, his, suspends,
        List.forall_mem_append.mpr ⟨never, fun other among => ?_⟩⟩
      rw [caller other (Option.mem_toList.mp among)]
      exact away
    · rw [claims, List.countP_pos_iff] at asks
      obtain ⟨dealing, among, claim⟩ := asks
      obtain rfl : new = some dealing := Option.mem_toList.mp among
      obtain ⟨his, got⟩ := Bool.and_eq_true_iff.mp claim
      have his := of_decide_eq_true his
      refine ⟨log, dealing, [], rfl, his, ?_, List.forall_mem_nil _⟩
      refine (Bool.or_eq_true_iff.mp got).resolve_left fun gets => ?_
      -- who has got its unit at once runs on, and has nothing left to do
      have here : k'.current = t := (stays dealing rfl gets).trans ((caller dealing rfl).symm.trans his)
      subst here
      cases reachable.steady.runs.pending?.symm.trans left

/-- An interrupt is delivered, or its handler returns. -/
theorem Books.pass {log : List Dealing} (books : Books d s value log k)
    (reachable : Reachable d k') (moves : Moves d [] ⟨k, none⟩ ⟨k', none⟩)
    (gifts : k'.gifts = k.gifts) : Books d s value (log ++ []) k' :=
  books.step reachable moves none (fun _ is => by cases is) (by rw [gifts]; rfl) (fun _ => rfl)
    fun _ is => by cases is

theorem Books.occur {log : List Dealing} {o : Occurrence} (books : Books d s value log k)
    (h : d.occur k o = some k') : Books d s value (log ++ (k.dealing? o).toList) k' := by
  have reachable := books.reachable
  have after := reachable.step (transit_of_occur h)
  cases Discipline.occur_eq_some_iff.mp h with
  | request obeys ran =>
    rename_i r reply
    obtain ⟨deeds, moves, claims, stays⟩ :=
      claims_of_run_perform (s := s) reachable.steady obeys ran
    have asked : k.dealing? (.request r) = some ⟨k.current, r, reply⟩ := by
      rw [Kernel.dealing?, ran]
      rfl
    rw [asked]
    refine books.step after moves _ (fun _ is => ?_) ?_ (fun t => ?_) fun _ is => ?_
    · cases is
      rfl
    · rw [gifts_of_run_perform reachable.settled books.unattached ran]
      exact congrArg _ (List.countP_singleton ..).symm
    · rw [claims t]
      exact (List.countP_singleton ..).symm
    · cases is
      exact stays
  | enter ran =>
    have steps := steps_of_run_enterInterrupt reachable.steady ran
    obtain ⟨_, rfl⟩ := of_run_enterInterrupt ran
    exact books.pass after steps.moves rfl
  | leave _ ran =>
    have steps := steps_of_run_leaveInterrupt reachable.steady ran
    exact books.pass after steps.moves (congrArg Frame.gifts (frame_of_run_leaveInterrupt ran))

theorem Books.occurAll {log : List Dealing} {occurrences : List Occurrence}
    (books : Books d s value log k) (h : d.occurAll occurrences k = some k') :
    Books d s value (log ++ d.dealings occurrences k) k' := by
  induction occurrences generalizing k log with
  | nil =>
    cases h
    rwa [Discipline.dealings, List.append_nil]
  | cons first rest ih =>
    obtain ⟨middle, occurs, h⟩ := Option.bind_eq_some_iff.mp h
    rw [Discipline.dealings, occurs, Option.elim_some, ← List.append_assoc]
    exact ih (books.occur occurs) h

/-- Who makes a semaphore asks for nothing that a run might abide by not to ask for. -/
theorem obeys_createSemaphore (d : Discipline) (k : Kernel) (value : Nat) :
    (Request.createSemaphore value).Obeys d k where
  plain := nofun
  idles := nofun
  spared := nofun
  unblocks _ := rfl
  awaits := nofun
  careful _ := ⟨nofun, nofun, nofun⟩

theorem books_of_create {n : Nat} (reachable : Reachable d k)
    (h : (Request.createSemaphore value).perform.run k = .ok (.number n, k')) :
    Books d ⟨n⟩ value [] k' := by
  have after := reachable.step (.request (obeys_createSemaphore d k value) h)
  obtain ⟨s, ran, same⟩ := run_map_eq_ok_iff.mp h
  obtain ⟨rfl, rfl⟩ := of_run_createSemaphore ran
  cases same
  have issued := reachable.issued
  have untold : account k.semaphores.next k.events = [] := issued.told _ (Nat.le_refl _)
  have own := issued.own.mono (q := (· ≠ k.semaphores.next)) fun s less same => by
    rw [same] at less
    exact Nat.lt_irrefl _ less
  have unasked : ∀ t, k.pending? t ≠ some (.unit k.semaphores.next) := fun t left =>
    Nat.lt_irrefl _ (issued.unit t _ ((Machine.work?_none k t).trans left))
  have ledger : (⟨{ k with semaphores := k.semaphores.push { value, purpose := .plain } }, none⟩ :
      Machine).ledger = (⟨k, none⟩ : Machine).ledger.made value .plain := ledger_created k value .plain
  refine ⟨after, ?_, ?_, ?_, fun t => ?_, fun t left => absurd left (unasked t)⟩
  · rw [ledger]
    exact ⟨Nat.lt_succ_self _, own.lock, own.signal, own.waiter⟩
  · rw [ledger]
    intro stock found
    have stocked : ((⟨k, none⟩ : Machine).ledger.made value .plain).semaphores k.semaphores.next =
        some (value, .plain) := Function.update_self ..
    cases stocked.symm.trans found
    have told : account k.semaphores.next ((⟨k, none⟩ : Machine).ledger.made value .plain).events =
      [] := untold
    rw [takers, told]
    rfl
  · exact (count_gifts k.events).trans (by rw [untold]; rfl)
  · rw [ledger, Ledger.claims, if_neg]
    · rw [← count_takers, takers]
      exact congrArg (fun events => (events.filterMap Event.taker?).count t) untold
    · exact fun left => unasked t ((Machine.work?_none k t).symm.trans left)

/-- Units of a semaphore are conserved.  What it was made with and what it has been given is what it
has and what the calls for a unit have got, the suspended ones that are over among them.  Those are
the units that were taken: each call has taken one for its caller, and one only. -/
theorem units_conserved (reachable : Reachable d k) {value n : Nat} {made : Kernel}
    (h : (Request.createSemaphore value).perform.run k = .ok (.number n, made))
    {occurrences : List Occurrence} {last : Kernel} (ran : d.occurAll occurrences made = some last)
    {semaphore : Semaphore} (live : last.semaphores.get? ⟨n⟩ = some semaphore) :
    let log := d.dealings occurrences made
    value + log.countP (·.gives ⟨n⟩) = semaphore.value + (served last ⟨n⟩ log).length ∧
    (served last ⟨n⟩ log).Perm (takers ⟨n⟩ last.events) := by
  intro log
  have books : Books d ⟨n⟩ value log last := (books_of_create reachable h).occurAll ran
  have taken : (served last ⟨n⟩ log).Perm (takers ⟨n⟩ last.events) := by
    refine List.perm_iff_count.mpr fun t => ?_
    rw [count_takers]
    have claims := books.claims t
    rw [Ledger.claims] at claims
    have work : (⟨last, none⟩ : Machine).ledger.work t = last.pending? t := Machine.work?_none last t
    rw [work] at claims
    by_cases left : last.pending? t = some (.unit ⟨n⟩)
    · obtain ⟨earlier, dealing, later, split, his, suspends, never⟩ := books.waits t left
      rw [split] at claims ⊢
      have count := count_served_of_waits earlier left his suspends never
      rw [if_pos left, ← count] at claims
      exact (Nat.add_right_cancel claims).symm
    · rw [count_served left, ← claims, if_neg left, Nat.add_zero]
      rfl
  refine ⟨?_, taken⟩
  have balanced := books.balanced _ (ledger_semaphores none live)
  rw [taken.length_eq, ← books.gifts, Kernel.gifts, count_gifts]
  exact balanced

/-- A thread waits for a unit, and the initial thread takes the first one that it gives before the
other one has got to run.  That one tries in vain, waits again and takes the second one. -/
theorem units_conserved_of_retry :
    let requests : List Request :=
      [.spawn {}, .yield, .down ⟨0⟩, .up ⟨0⟩, .tryDown ⟨0⟩, .yield, .up ⟨0⟩, .yield]
    ∃ k made last semaphore, Reachable {} k ∧
      (Request.createSemaphore 0).perform.run k = .ok (.number 0, made) ∧
      ({} : Discipline).performAll requests made = some last ∧
      last.semaphores.get? ⟨0⟩ = some semaphore ∧ semaphore.value = 0 ∧
      (({} : Discipline).dealings (requests.map .request) made).countP (·.gives ⟨0⟩) = 2 ∧
      List.Perm [⟨3⟩, .main] (takers ⟨0⟩ last.events) := by
  intro requests
  have ran : (({} : Discipline).performAll [.start] (.fresh {} .stable)).bind (fun k =>
      ((Semaphore.create 0 .plain).run k).toOption.bind fun created =>
        (({} : Discipline).performAll requests created.2).bind fun last =>
          (last.semaphores.get? ⟨0⟩).map fun semaphore => (created.1, semaphore.value,
            served last ⟨0⟩ (({} : Discipline).dealings (requests.map .request) created.2))) =
      some (⟨0⟩, 0, [⟨3⟩, .main]) := by decide +kernel
  obtain ⟨k, performed, rest⟩ := Option.bind_eq_some_iff.mp ran
  obtain ⟨⟨s, made⟩, creates, rest⟩ := Option.bind_eq_some_iff.mp rest
  obtain ⟨last, requested, rest⟩ := Option.bind_eq_some_iff.mp rest
  obtain ⟨semaphore, live, told⟩ := Option.map_eq_some_iff.mp rest
  obtain ⟨rfl, told⟩ := Prod.mk.inj told
  obtain ⟨value, both⟩ := Prod.mk.inj told
  have reachable := (Reachable.fresh {} .stable).performAll performed
  have creates : (Request.createSemaphore 0).perform.run k = .ok (.number 0, made) :=
    run_map_eq_ok_iff.mpr ⟨⟨0⟩, ok_of_toOption creates, rfl⟩
  obtain ⟨sum, taken⟩ := units_conserved reachable creates requested live
  rw [both] at sum taken
  rw [value, Nat.zero_add] at sum
  exact ⟨k, made, last, semaphore, reachable, creates, requested, live, value, sum, taken⟩

end ThreadKernel
