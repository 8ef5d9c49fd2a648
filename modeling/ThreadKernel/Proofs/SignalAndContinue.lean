import Mathlib.Data.Set.Finite.Lemmas
import ThreadKernel.Proofs.Availability
import ThreadKernel.Proofs.Rejoining
import ThreadKernel.Proofs.SuspendedWaits
import ThreadKernel.Proofs.WakeOrder

/-!
# Whoever sends a signal goes on

A signal makes a waiting thread ready, and then the sender, which holds the lock, looks for
preemption.  If it is outranked it does give up the processor.  But those that outrank it are the
threads that it has just sent signals to, and all that these can do is to come to wait for the lock.

* `Kernel.Told` is what sending signals changes, and `Kernel.Signalling` what it needs.
* `Kernel.Told.exists_preempt` follows the processor from there back to the sender.
* `signal_and_continue` puts the two together, for one signal and for as many as there are waits.
-/

namespace ThreadKernel

open Kernel

variable {d : Discipline} {k k' k'' : Kernel} {c : ConditionId} {condition : Condition}
  {w : Waiter} {called called' rest : List Waiter} {l : LockId} {lock : Lock} {t : ThreadId}
  {thread : Thread} {semaphore : Semaphore} {p : Priority}

/-! ## Sending signals -/

namespace Kernel

/-- The waits `called` for `c` were sent their signals: their threads are ready, with one unit each
to take, and nobody else has changed. -/
structure Told (k : Kernel) (c : ConditionId) (called : List Waiter) (k' : Kernel) : Prop where
  queue : (k.enlisted c).Perm (called ++ k'.enlisted c)
  woken : ∀ w ∈ called, ∃ thread, k.threads.get? w.thread = some thread ∧
    k'.threads.get? w.thread = some { thread with state := .ready, place := .ready }
  others : ∀ t, (∀ w ∈ called, w.thread ≠ t) → k'.threads.get? t = k.threads.get? t
  units : ∀ w ∈ called, ∃ semaphore, k'.semaphores.get? w.semaphore = some semaphore ∧
    semaphore.value = 1 ∧ semaphore.waiters = []
  semaphores : ∀ s, (∀ w ∈ called, w.semaphore ≠ s) → k'.semaphores.get? s = k.semaphores.get? s
  rest : k' = { k with
    threads := k'.threads, ready := k'.ready, semaphores := k'.semaphores,
    conditions := k'.conditions, events := k'.events }

theorem Told.refl (k : Kernel) (c : ConditionId) : k.Told c [] k where
  queue := .refl _
  woken := List.forall_mem_nil _
  others _ _ := rfl
  units := List.forall_mem_nil _
  semaphores _ _ := rfl
  rest := rfl

theorem Told.trans (first : k.Told c called k') (second : k'.Told c called' k'') :
    k.Told c (called ++ called') k'' where
  queue := by
    rw [List.append_assoc]
    exact first.queue.trans (second.queue.append_left called)
  woken w listed := by
    by_cases later : ∃ w' ∈ called', w'.thread = w.thread
    · rcases later with ⟨w', listed', same⟩
      rcases second.woken w' listed' with ⟨middle, found', found''⟩
      rw [same] at found' found''
      by_cases earlier : ∃ v ∈ called, v.thread = w.thread
      · rcases earlier with ⟨v, member, here⟩
        rcases first.woken v member with ⟨thread, found, middle⟩
        rw [here] at found middle
        cases found'.symm.trans middle
        exact ⟨thread, found, found''⟩
      · have kept := first.others w.thread fun v member here => earlier ⟨v, member, here⟩
        exact ⟨middle, kept.symm.trans found', found''⟩
    · have kept := second.others w.thread fun w' member here => later ⟨w', member, here⟩
      have here := (List.mem_append.mp listed).resolve_right fun listed' =>
        later ⟨w, listed', rfl⟩
      rcases first.woken w here with ⟨thread, found, found'⟩
      exact ⟨thread, found, kept.trans found'⟩
  others t apart := by
    rw [second.others t fun w listed => apart w (List.mem_append_right _ listed),
      first.others t fun w listed => apart w (List.mem_append_left _ listed)]
  units w listed := by
    by_cases later : ∃ w' ∈ called', w'.semaphore = w.semaphore
    · rcases later with ⟨w', listed', same⟩
      exact same ▸ second.units w' listed'
    · have here := (List.mem_append.mp listed).resolve_right fun listed' =>
        later ⟨w, listed', rfl⟩
      rw [second.semaphores _ fun w' member here => later ⟨w', member, here⟩]
      exact first.units w here
  semaphores s apart := by
    rw [second.semaphores s fun w listed => apart w (List.mem_append_right _ listed),
      first.semaphores s fun w listed => apart w (List.mem_append_left _ listed)]
  rest := by
    rw [second.rest, first.rest]

/-- The thread of `w` is blocked until its signal comes, or was switched out before it got there. -/
def Posted (k : Kernel) (w : Waiter) : Prop :=
  ∃ thread, k.threads.get? w.thread = some thread ∧
    (thread.state = .blocked ∧ thread.place = .semaphore w.semaphore ∨
      thread.state = .ready ∧ thread.place = .ready)

/-- Signals can be sent to those who wait for `c`. -/
structure Signalling (d : Discipline) (c : ConditionId) (k : Kernel) : Prop where
  regular : Regular d ⟨k, none⟩
  tended : (⟨k, none⟩ : Machine).ledger.Tended
  found : ∃ condition, k.conditions.get? c = some condition
  posted : ∀ w ∈ k.enlisted c, k.Posted w

end Kernel

theorem ConditionId.run_wakeFirst_of_nil (found : k.conditions.get? c = some condition)
    (none : condition.waiters = []) : c.wakeFirst.run k = .ok (false, k) := by
  have ranks : c.ranked.run k = .ok ([], k) := by
    have ranks := run_ranked found (by simp [none])
    rwa [none] at ranks
  rw [wakeFirst, run_bind_of_ok ranks,
    run_bind_of_ok (run_modifyCondition_eq_ok_iff.mpr ⟨⟨condition, found⟩, rfl⟩), mapCondition,
    Arena.modify_eq_self found (by rw [List.tail_nil, ← none])]
  rfl

theorem ConditionId.run_wakeFirst (found : k.conditions.get? c = some condition)
    (present : ∀ w ∈ condition.waiters, k.Present w.thread)
    (first : Ranked.sort k.worth condition.waiters = w :: rest)
    (wakes : w.semaphore.wake.run (c.called w.thread rest k) = .ok ((), k')) :
    c.wakeFirst.run k = .ok (true, k') := by
  have ranks : c.ranked.run k = .ok (w :: rest, k) := by
    rw [← first]
    exact run_ranked found present
  rw [wakeFirst, run_bind_of_ok ranks,
    run_bind_of_ok (run_modifyCondition_eq_ok_iff.mpr ⟨⟨condition, found⟩, rfl⟩)]
  dsimp only
  rw [run_note_bind]
  exact run_bind_of_ok wakes

namespace Kernel

section Told

variable (found : k.conditions.get? c = some condition) (perm : condition.waiters.Perm (w :: rest))
  (foundThread : k.threads.get? w.thread = some thread)
  (foundSemaphore : k.semaphores.get? w.semaphore = some semaphore) (empty : semaphore.value = 0)

include found perm foundThread foundSemaphore empty

/-- A thread that is blocked until its signal comes is made ready. -/
theorem told_of_blocked (p : Priority) : k.Told c [w]
    ((w.semaphore.roused w.thread [] (c.called w.thread rest k)).readied w.thread p) where
  queue := by
    rw [enlisted_of_get? found, enlisted_of_get? (Arena.get?_modify_self _ found)]
    exact perm
  woken := by
    refine List.forall_mem_singleton.mpr ⟨thread, foundThread, ?_⟩
    rw [readied_threads, SemaphoreId.roused_threads, ConditionId.called_threads,
      Arena.modify_modify, Arena.get?_modify_self _ foundThread]
  others t apart := by
    have other := apart w (List.mem_singleton_self w)
    exact (Arena.get?_modify_of_ne _ other).trans (Arena.get?_modify_of_ne _ other)
  units := List.forall_mem_singleton.mpr
    ⟨_, Arena.get?_modify_self _ foundSemaphore, by rw [empty], rfl⟩
  semaphores s apart := Arena.get?_modify_of_ne _ (apart w (List.mem_singleton_self w))
  rest := rfl

/-- A thread that was switched out on its way only gets its unit. -/
theorem told_of_ready (ready : thread.state = .ready) (there : thread.place = .ready) :
    k.Told c [w] (w.semaphore.given [] (c.called w.thread rest k)) where
  queue := by
    rw [enlisted_of_get? found, enlisted_of_get? (Arena.get?_modify_self _ found)]
    exact perm
  woken := List.forall_mem_singleton.mpr
    ⟨thread, foundThread, by rw [← ready, ← there]; exact foundThread⟩
  others _ _ := rfl
  units := List.forall_mem_singleton.mpr
    ⟨_, Arena.get?_modify_self _ foundSemaphore, by rw [empty], rfl⟩
  semaphores s apart := Arena.get?_modify_of_ne _ (apart w (List.mem_singleton_self w))
  rest := rfl

end Told

namespace Signalling

variable (signalling : Signalling d c k)

include signalling

/-- Only the thread of a wait can be queued on the wait's semaphore, which has no unit yet. -/
theorem exists_semaphore (named : d.plainHandles = true) (listed : w ∈ k.enlisted c) :
    ∃ semaphore, k.semaphores.get? w.semaphore = some semaphore ∧ semaphore.value = 0 ∧
      ∀ t ∈ semaphore.waiters, t = w.thread := by
  have waits := signalling.tended.toWaits
  rcases Option.map_eq_some_iff.mp (waits.empty_of_mem listed).1 with ⟨semaphore, found, stock⟩
  refine ⟨semaphore, found, congrArg Prod.fst stock, fun t queued => ?_⟩
  rcases signal_of_mem_waiters signalling.regular named found (congrArg Prod.snd stock) queued with
    ⟨l, pending⟩
  rcases waits.left c w listed with ⟨l', left⟩
  exact waits.sole t w.thread w.semaphore l l' ((Machine.work?_none k t).trans pending) left

/-- The first of the highest waits is sent its signal. -/
theorem exists_wake (named : d.plainHandles = true)
    (found : k.conditions.get? c = some condition)
    (first : Ranked.sort k.worth condition.waiters = w :: rest) :
    ∃ k', w.semaphore.wake.run (c.called w.thread rest k) = .ok ((), k') ∧ k.Told c [w] k' := by
  have placed : (c.called w.thread rest k).Placed :=
    signalling.regular.placed.of_same_queues rfl rfl (fun p => by cases p <;> rfl) rfl rfl rfl
  have perm := Ranked.perm_of_sort_eq_cons first
  have listed : w ∈ k.enlisted c := by
    rw [enlisted_of_get? found, perm.mem_iff]
    exact List.mem_cons_self ..
  rcases signalling.exists_semaphore named listed with ⟨semaphore, foundSemaphore, empty, only⟩
  have queue := queueAt_semaphore foundSemaphore
  have room : semaphore.value < maxHalfWord := by
    rw [empty]
    decide
  rcases signalling.posted w listed with ⟨thread, foundThread, ⟨_, there⟩ | ⟨ready, there⟩⟩
  · have alone : semaphore.waiters = [w.thread] := by
      have queued : w.thread ∈ semaphore.waiters := queue ▸
        (signalling.regular.placed.mem_queueAt (p := .semaphore _) nofun _).mpr
          ⟨thread, foundThread, there⟩
      have nodup : semaphore.waiters.Nodup := queue ▸ signalling.regular.placed.nodup _
      apply List.perm_singleton.mp
      apply (List.perm_ext_iff_of_nodup nodup (List.nodup_singleton _)).mpr
      exact fun t => ⟨fun member => List.mem_singleton.mpr (only t member),
        fun here => List.mem_singleton.mp here ▸ queued⟩
    exact ⟨_, SemaphoreId.run_wake (k := c.called w.thread rest k) placed foundSemaphore room
        (by rw [alone]; rfl) foundThread,
      told_of_blocked found perm foundThread foundSemaphore empty _⟩
  · have unawaited : semaphore.waiters = [] := by
      rw [List.eq_nil_iff_forall_not_mem]
      intro t member
      rcases signalling.regular.placed.exists_of_mem (queue ▸ member) with
        ⟨_, thread', found', elsewhere⟩
      rw [only t member] at found'
      cases foundThread.symm.trans found'
      cases there.symm.trans elsewhere
    rcases SemaphoreId.succeeds_wake (k := c.called w.thread rest k) placed foundSemaphore room with
      ⟨⟨_, k'⟩, ran⟩
    rcases SemaphoreId.of_run_wake (id ran) with ⟨semaphore', found', ⟨_, rfl⟩ | ⟨_, _, sorts, _⟩⟩
    · exact ⟨_, ran, told_of_ready found perm foundThread foundSemaphore empty ready there⟩
    · cases foundSemaphore.symm.trans found'
      rw [unawaited] at sorts
      cases sorts

/-- The next signal is sent, and after that there may be others. -/
theorem exists_wakeFirst (named : d.plainHandles = true) (awaited : k.enlisted c ≠ []) :
    ∃ w k', c.wakeFirst.run k = .ok (true, k') ∧ k.Serves k' (.condition c) w ∧
      k.Told c [w] k' ∧ Signalling d c k' := by
  rcases signalling.found with ⟨condition, found⟩
  have waits := signalling.tended.toWaits
  rw [enlisted_of_get? found] at awaited
  cases first : Ranked.sort k.worth condition.waiters with
  | nil =>
    have perm := Ranked.sort_perm k.worth condition.waiters
    exact absurd (List.nil_perm.mp (first ▸ perm)) awaited
  | cons w rest =>
    rcases signalling.exists_wake named found first with ⟨k', wakes, told⟩
    have present : ∀ w ∈ condition.waiters, k.Present w.thread := by
      intro w member
      rcases signalling.posted w (enlisted_of_get? found ▸ member) with ⟨thread, found, _⟩
      exact ⟨thread, found⟩
    have ran := ConditionId.run_wakeFirst found present first wakes
    have move : Move d _ ⟨k, none⟩ ⟨k', none⟩ := .signal found first wakes
    have line : (Line.condition c).Wakes k k' := ⟨true, ran⟩
    refine ⟨w, k', ran, ?_, told, signalling.regular.move move,
      (Moves.single move).tended signalling.regular named signalling.tended,
      ConditionId.live_of_run_wakeFirst ran, fun w' listed => ?_⟩
    · rcases line.first with ⟨_, ⟨empty, _⟩ | ⟨w', first'⟩⟩
      · exact absurd ((enlisted_of_get? found).symm.trans empty) awaited
      · have same : k.waiting (.condition c) = condition.waiters := enlisted_of_get? found
        have here : w' = w := (List.cons.inj ((same ▸ first').symm.trans first)).1
        exact serves_of_first (here ▸ first')
    · have nodup := told.queue.nodup_iff.mp (waits.once c)
      have before := told.queue.mem_iff.mpr (List.mem_cons_of_mem _ listed)
      have apart : w.thread ≠ w'.thread := by
        intro same
        have listed' := told.queue.mem_iff.mpr (List.mem_cons_self ..)
        rw [waits.eq_of_thread before listed' same] at nodup
        exact (List.nodup_cons.mp nodup).1 listed
      rcases signalling.posted w' before with ⟨thread, found, post⟩
      have same := told.others w'.thread (List.forall_mem_singleton.mpr apart)
      exact ⟨thread, same.trans found, post⟩

/-- One signal is sent for each wait. -/
theorem exists_wakeMany (named : d.plainHandles = true) {count : Nat}
    (all : (k.enlisted c).length = count) :
    ∃ called k', (c.wakeMany count).run k = .ok ((), k') ∧ k.Told c called k' ∧
      k'.enlisted c = [] ∧ Signalling d c k' := by
  induction count generalizing k with
  | zero => exact ⟨[], k, rfl, .refl k c, List.length_eq_zero_iff.mp all, signalling⟩
  | succ count ih =>
    have awaited : k.enlisted c ≠ [] := List.ne_nil_of_length_eq_add_one all
    rcases signalling.exists_wakeFirst named awaited with ⟨w, middle, wakes, _, first, after⟩
    have fewer : (middle.enlisted c).length = count := by
      have lengths := first.queue.length_eq
      rw [all, List.singleton_append, List.length_cons] at lengths
      omega
    rcases ih after fewer with ⟨called, last, rest, others, none, ended⟩
    exact ⟨w :: called, last, (run_bind_of_ok wakes).trans rest, first.trans others, none, ended⟩

end Signalling

/-! ## Looking for preemption -/

/-- The thread of `w` has taken its signal and is blocked on `l`, as a donor of `t`. -/
structure Contends (k : Kernel) (l : LockId) (t : ThreadId) (w : Waiter) : Prop where
  blocked : ∃ thread, k.threads.get? w.thread = some thread ∧ thread.state = .blocked
  awaits : k.AwaitsLock w.thread l
  donor : ∃ holder, k.threads.get? t = some holder ∧ w.thread ∈ holder.donors

/-- The thread of `w` is ready, and has yet to take its signal and then `l`. -/
def Hears (k : Kernel) (l : LockId) (w : Waiter) : Prop :=
  ∃ thread, k.threads.get? w.thread = some thread ∧ thread.state = .ready ∧
    thread.pending = some (.signal w.semaphore l)

/-- The current thread sent signals to `called` and goes on.  If some of their threads outrank it,
the highest of them come to wait for `l` and lend it their priority, and otherwise it keeps the
processor. -/
structure Continues (k : Kernel) (l : LockId) (called : List Waiter) (k' : Kernel) : Prop where
  current : k'.current = k.current
  holds : k'.holder? l = some k.current
  raised : ∀ p, IsGreatest (k.worth '' {w | w ∈ called}) p → k.priorityOf k.current < p →
    k'.priorityOf k.current = p ∧
    (∀ w ∈ called, k.worth w = p → k'.Contends l k.current w) ∧
    ∀ w ∈ called, k.worth w < p → k'.Hears l w
  still : (∀ w ∈ called, k.worth w ≤ k.priorityOf k.current) →
    k'.processor = k.processor ∧ ∀ w ∈ called, k'.Hears l w

namespace Told

variable (told : k.Told c called k')

include told

theorem agree {α : Type} (view : Thread → α)
    (blind : ∀ x, view { x with state := .ready, place := .ready } = view x) :
    Arena.Agree view k'.threads k.threads := by
  intro t
  by_cases listed : ∃ w ∈ called, w.thread = t
  · rcases listed with ⟨w, listed, rfl⟩
    rcases told.woken w listed with ⟨thread, found, found'⟩
    rw [found, found', Option.map_some, Option.map_some, blind]
  · rw [told.others t fun w member here => listed ⟨w, member, here⟩]

theorem priorityOf (t : ThreadId) : k'.priorityOf t = k.priorityOf t :=
  priorityOf_of_agree (told.agree Thread.priority fun _ => rfl) t

/-- Who is ready after the signals was sent one, or was ready before. -/
theorem called_or_ready (found : k'.threads.get? t = some thread) :
    (∃ w ∈ called, w.thread = t) ∨ k.threads.get? t = some thread := by
  by_cases listed : ∃ w ∈ called, w.thread = t
  · exact .inl listed
  · exact .inr ((told.others t fun w member here => listed ⟨w, member, here⟩).symm.trans found)

theorem hears (pending : ∀ w ∈ called, k.pending? w.thread = some (.signal w.semaphore l))
    (listed : w ∈ called) : k'.Hears l w := by
  rcases told.woken w listed with ⟨thread, found, found'⟩
  exact ⟨_, found', rfl, (pending?_of_get? found).symm.trans (pending w listed)⟩

section Preempt

variable (signalling : Signalling d c k') (unranked : ∀ t thread, k.threads.get? t = some thread →
  thread.state = .ready → thread.priority ≤ k.priorityOf k.current)

include signalling unranked

/-- If no thread that was sent a signal outranks the current one, then nobody does. -/
theorem not_outranked (busy : k.idle ≠ some k.current)
    (le : ∀ w ∈ called, k.worth w ≤ k.priorityOf k.current) : k'.outranked = false := by
  have current : k'.current = k.current := by rw [told.rest]
  have idle : k'.idle = k.idle := by rw [told.rest]
  have below := signalling.regular.placed.forall_entries (P := (· ≤ k.priorityOf k.current))
    fun t thread found ready => by
      rcases told.called_or_ready found with ⟨w, listed, rfl⟩ | before
      · rw [← priorityOf_of_get? found, told.priorityOf]
        exact le w listed
      · exact unranked t thread before ready
  rw [Bool.eq_false_iff, ne_eq, outranked_iff, idles_iff, idle, current, told.priorityOf]
  rintro ⟨entry, front, idles | ahead⟩
  · exact busy idles
  · exact Nat.not_lt_of_le (below entry (List.mem_of_mem_head? front)) ahead

/-- The threads of highest priority that were sent a signal are the first to run. -/
theorem exists_front (greatest : IsGreatest (k.worth '' {w | w ∈ called}) p)
    (above : k.priorityOf k.current < p) :
    ∃ (queue : List ThreadId) (rest : List (ThreadId × Priority)),
      k'.ready.entries = queue.map (·, p) ++ rest ∧ (∀ entry ∈ rest, entry.2 < p) ∧
      ∀ t, t ∈ queue ↔ ∃ w ∈ called, w.thread = t ∧ k.worth w = p := by
  have placed := signalling.regular.placed
  have owed : ∀ entry ∈ k'.ready.entries, p ≤ entry.2 → ∃ w ∈ called, w.thread = entry.1 := by
    intro entry member le
    rcases placed.exists_of_mem (p := .ready) (ReadyQueue.mem_threads_of_mem_entries member) with
      ⟨_, thread, found, there⟩
    refine (told.called_or_ready found).resolve_right fun before => ?_
    have price := placed.priced entry member
    rw [priorityOf_of_get? found] at price
    have low := unranked entry.1 thread before ((placed.ready_iff found).mp there)
    exact Nat.not_lt_of_le (price ▸ le) (Nat.lt_of_le_of_lt low above)
  rcases Ranked.insert_eq_append (k.current, p) placed.ordered with
    ⟨front, rest, entries, _, ahead, behind⟩
  have worth : ∀ entry ∈ front, entry.2 = p := by
    intro entry member
    have queued : entry ∈ k'.ready.entries := entries ▸ List.mem_append_left _ member
    rcases owed entry queued (ahead entry member) with ⟨w, listed, here⟩
    have price := placed.priced entry queued
    rw [told.priorityOf, ← here] at price
    exact Nat.le_antisymm (price ▸ greatest.2 ⟨w, listed, rfl⟩) (ahead entry member)
  refine ⟨front.map Prod.fst, rest, ?_, behind, fun t => ?_⟩
  · rw [entries, List.map_map]
    congr 1
    exact (List.map_id'' (fun _ => rfl) front).symm.trans
      (List.map_congr_left fun entry member => Prod.ext rfl (worth entry member))
  · constructor
    · intro listed
      rcases List.mem_map.mp listed with ⟨entry, member, rfl⟩
      have queued : entry ∈ k'.ready.entries := entries ▸ List.mem_append_left _ member
      rcases owed entry queued (ahead entry member) with ⟨w, listed, here⟩
      refine ⟨w, listed, here, ?_⟩
      rw [Kernel.worth, here, ← told.priorityOf, placed.priced entry queued, worth entry member]
    · rintro ⟨w, listed, rfl, high⟩
      rcases told.woken w listed with ⟨thread, _, found⟩
      have queued : w.thread ∈ k'.ready.threads :=
        (placed.mem_queueAt (p := .ready) (by decide) _).mpr ⟨_, found, rfl⟩
      rcases List.mem_map.mp queued with ⟨entry, member, here⟩
      have price := placed.priced entry member
      rw [told.priorityOf, here] at price
      rw [entries] at member
      rcases List.mem_append.mp member with first | last
      · exact List.mem_map.mpr ⟨entry, first, here⟩
      · exact absurd (price.symm.trans high) (Nat.ne_of_lt (behind entry last))

variable (named : d.plainHandles = true) (runs : k.Runs) (outside : k.inInterrupt = false)
  (busy : k.idle ≠ some k.current) (deep : 0 < k.config.donationDepth)
  (found : k.locks.get? l = some lock) (holds : lock.holder = some k.current)
  (pending : ∀ w ∈ called, k.pending? w.thread = some (.signal w.semaphore l))

include named runs outside busy deep found holds pending

/-- The current thread yields to the highest of those that were sent a signal, and gets the
processor back from them. -/
theorem exists_preempt_of_lt (greatest : IsGreatest (k.worth '' {w | w ∈ called}) p)
    (above : k.priorityOf k.current < p) :
    ∃ last, preempt.run k' = .ok ((), last) ∧ last.conditions = k'.conditions ∧
      k.Continues l called last := by
  have current : k'.current = k.current := by rw [told.rest]
  have elsewhere : ∀ w ∈ called, w.thread ≠ k.current := by
    intro w listed here
    cases (here ▸ pending w listed).symm.trans runs.pending?
  have runs' : k'.Runs := by
    rcases runs with ⟨thread, found, runs⟩
    exact ⟨thread, current ▸ (told.others _ elsewhere).trans found, runs⟩
  have locks : k'.locks = k.locks := by rw [told.rest]
  rcases told.exists_front signalling unranked greatest above with ⟨queue, rest, order, below, mem⟩
  have awaited : queue ≠ [] := by
    rcases greatest.1 with ⟨w, listed, high⟩
    exact List.ne_nil_of_mem ((mem w.thread).mpr ⟨w, listed, rfl, high⟩)
  have sent : ∀ t ∈ queue, k'.Sent t l := by
    intro t queued
    rcases (mem t).mp queued with ⟨w, listed, rfl, _⟩
    rcases told.hears pending listed with ⟨thread, found, _, left⟩
    rcases told.units w listed with ⟨semaphore, foundSemaphore, one, unawaited⟩
    exact ⟨thread, w.semaphore, semaphore, found, left, foundSemaphore, by rw [one]; decide,
      unawaited⟩
  have sole : ∀ t ∈ queue, ∀ t' ∈ queue, ∀ s, k'.pending? t = some (.signal s l) →
      k'.pending? t' = some (.signal s l) → t = t' := fun t _ t' _ s left left' =>
    signalling.tended.sole t t' s l l ((Machine.work?_none k' t).trans left)
      ((Machine.work?_none k' t').trans left')
  rcases exists_preempt signalling.regular named runs' (by rw [told.rest]; exact outside)
      (by rw [told.rest]; exact busy) (by rw [told.rest]; exact deep) (locks ▸ found)
      (current ▸ holds) (by rw [current, told.priorityOf]; exact above) awaited order below sent
      sole with ⟨last, ran, regular, rejoined, back, runs'', price⟩
  have keeps : last.holder? l = some k.current :=
    (holder?_of_get? (rejoined.locks.trans locks ▸ found)).trans holds
  rw [current] at rejoined back price
  refine ⟨last, ran, rejoined.conditions, back, keeps, ?_, fun le => ?_⟩
  · intro p' greatest' _
    cases greatest.unique greatest'
    refine ⟨price, fun w listed high => ?_, fun w listed low => ?_⟩
    · have awaits := rejoined.waits w.thread ((mem w.thread).mpr ⟨w, listed, rfl, high⟩)
      rcases id awaits with ⟨waiting, _, foundWaiting, _, there⟩
      rcases runs'' with ⟨holder, foundHolder, _⟩
      rw [back] at foundHolder
      refine ⟨⟨waiting, foundWaiting, ?_⟩, awaits, holder, foundHolder, ?_⟩
      · exact regular.placed.blocked foundWaiting (by simp [there]) (by simp [there])
      · exact ((regular.graph named).donors _ holder foundHolder _).mpr ⟨l, awaits, keeps⟩
    · rcases told.hears pending listed with ⟨thread, found, ready, left⟩
      have behind : w.thread ∉ queue := by
        intro queued
        rcases (mem w.thread).mp queued with ⟨w', _, same, high⟩
        rw [Kernel.worth, same] at high
        exact Nat.ne_of_lt low high
      exact ⟨thread, rejoined.others w.thread thread behind (elsewhere w listed) found
        (by simp [ready]), ready, left⟩
  · rcases greatest.1 with ⟨w, listed, high⟩
    exact absurd (le w listed) (Nat.not_le_of_lt (high ▸ above))

/-- The current thread goes on once it has looked for preemption. -/
theorem exists_preempt : ∃ last, preempt.run k' = .ok ((), last) ∧
    last.conditions = k'.conditions ∧ k.Continues l called last := by
  by_cases le : ∀ w ∈ called, k.worth w ≤ k.priorityOf k.current
  · refine ⟨k', run_preempt_of_not_outranked (told.not_outranked signalling unranked busy le), rfl,
      by rw [told.rest], ?_, ?_, fun _ => ⟨by rw [told.rest], fun w => told.hears pending⟩⟩
    · rw [holder?, told.rest]
      exact (holder?_of_get? found).trans holds
    · rintro p greatest above
      rcases greatest.1 with ⟨w, listed, rfl⟩
      exact absurd (le w listed) (Nat.not_le_of_lt above)
  · simp only [not_forall, Nat.not_le] at le
    rcases le with ⟨w, listed, above⟩
    rcases Set.exists_max_image {w | w ∈ called} k.worth (List.finite_toSet called) ⟨w, listed⟩ with
      ⟨top, member, high⟩
    apply told.exists_preempt_of_lt signalling unranked named runs outside busy deep found holds
      pending ⟨⟨top, member, rfl⟩, ?_⟩ (Nat.lt_of_lt_of_le above (high w listed))
    rintro _ ⟨w, listed, rfl⟩
    exact high w listed

end Preempt

end Told

/-! ## Signals and broadcasts -/

theorem Continues.unmask {last : Kernel} (continues : (k.atLevel .off).Continues l called last) :
    k.Continues l called (last.atLevel k.processor.level) where
  current := continues.current
  holds := continues.holds
  raised p greatest above := by
    rcases continues.raised p greatest above with ⟨price, high, low⟩
    refine ⟨price, fun w listed worth => ?_, low⟩
    rcases high w listed worth with ⟨blocked, awaits, donor⟩
    exact ⟨blocked, awaits, donor⟩
  still le := by
    rcases continues.still le with ⟨processor, hears⟩
    refine ⟨?_, hears⟩
    rw [atLevel_processor, processor]
    rfl

/-- Nobody was there to be sent a signal. -/
theorem continues_nil (holds : k.holder? l = some k.current) : k.Continues l [] k where
  current := rfl
  holds := holds
  raised _ greatest := absurd greatest.1 (by rintro ⟨_, ⟨⟩, _⟩)
  still _ := ⟨rfl, List.forall_mem_nil _⟩

/-- It makes no difference in which order the signals are sent. -/
theorem Continues.of_perm (continues : k.Continues l called k') (perm : called.Perm called') :
    k.Continues l called' k' where
  current := continues.current
  holds := continues.holds
  raised p greatest above := by
    have same : {w | w ∈ called'} = {w | w ∈ called} := Set.ext fun _ => perm.symm.mem_iff
    rw [same] at greatest
    rcases continues.raised p greatest above with ⟨price, high, low⟩
    exact ⟨price, fun w listed => high w (perm.mem_iff.mpr listed),
      fun w listed => low w (perm.mem_iff.mpr listed)⟩
  still le := by
    rcases continues.still fun w listed => le w (perm.mem_iff.mp listed) with ⟨processor, hears⟩
    exact ⟨processor, fun w listed => hears w (perm.mem_iff.mpr listed)⟩

end Kernel

section Sender

variable (reachable : Reachable d k) (named : d.plainHandles = true)
  (never : d.idleNeverWaits = true ∨ d.idleNeverAwaits = true)
  (busy : k.idle ≠ some k.current) (outside : k.inInterrupt = false)
  (deep : 0 < k.config.donationDepth) (holds : k.holder? l = some k.current)
  (unranked : ∀ t thread, k.threads.get? t = some thread → thread.state = .ready →
    thread.priority ≤ k.priorityOf k.current)
  (found : k.conditions.get? c = some condition)
  (pending : ∀ w ∈ k.enlisted c, k.pending? w.thread = some (.signal w.semaphore l))

include reachable named never found in
theorem signalling_masked : Signalling d c (k.atLevel .off) := by
  have regular := reachable.steady.regular
  have move : Move d none ⟨k, none⟩ ⟨k.atLevel .off, none⟩ := .quiet (sameWork_atLevel .off)
  refine ⟨regular.move move, (Moves.single move).tended regular named (reachable.tended named),
    ⟨condition, found⟩, fun w listed => ?_⟩
  have awaitless := reachable.mono fun obeys => obeys.awaitless named never
  rcases (awaitless.queued rfl rfl (c := c) (w := w) listed).thread with ⟨thread, _, found, _, post⟩
  exact ⟨thread, found, post⟩

include reachable named busy outside deep holds unranked pending in
/-- The caller goes on after any number of signals. -/
theorem exists_preempt_of_told (told : (k.atLevel .off).Told c called k')
    (signalling : Signalling d c k') :
    ∃ last, preempt.run k' = .ok ((), last) ∧ last.conditions = k'.conditions ∧
      k.Continues l called (last.atLevel k.processor.level) := by
  rcases Option.bind_eq_some_iff.mp holds with ⟨lock, foundLock, holder⟩
  have listed : ∀ w ∈ called, w ∈ k.enlisted c := fun w member =>
    told.queue.mem_iff.mpr (List.mem_append_left _ member)
  rcases told.exists_preempt signalling unranked named reachable.steady.runs outside
      busy deep foundLock holder (fun w member => pending w (listed w member)) with
    ⟨last, ran, conditions, continues⟩
  exact ⟨last, ran, conditions, continues.unmask⟩

include reachable named never busy outside deep holds unranked found pending

/-- A signal goes to the first of the highest waits, and its sender goes on. -/
theorem exists_signal : ∃ called k', (c.signal l).run k = .ok ((), k') ∧
    (k.enlisted c = [] ∧ called = [] ∧ k'.enlisted c = [] ∨
      ∃ w, called = [w] ∧ k.Serves k' (.condition c) w) ∧ k.Continues l called k' := by
  have signalling := signalling_masked reachable named never found
  rcases Option.bind_eq_some_iff.mp holds with ⟨lock, foundLock, holder⟩
  have run : (c.signal l).run k = ((do if ← c.wakeFirst then preempt : KernelM Unit).run
      (k.atLevel .off)).map fun r => (r.1, r.2.atLevel k.processor.level) := by
    rw [ConditionId.signal, run_bind_of_ok (run_requireThreadContext .signal outside),
      run_bind_of_ok (LockId.run_requireHeld .signal foundLock holder), run_masked]
  by_cases none : k.enlisted c = []
  · have wakes : c.wakeFirst.run (k.atLevel .off) = .ok (false, k.atLevel .off) :=
      ConditionId.run_wakeFirst_of_nil found ((enlisted_of_get? found).symm.trans none)
    refine ⟨[], k, ?_, .inl ⟨none, rfl, none⟩, continues_nil holds⟩
    rw [run, run_bind_of_ok wakes]
    rfl
  · rcases signalling.exists_wakeFirst named none with ⟨w, woken, wakes, serves, told, after⟩
    rcases exists_preempt_of_told reachable named busy outside deep holds unranked pending told
      after with ⟨last, ran, conditions, continues⟩
    refine ⟨[w], _, ?_, .inr ⟨w, rfl, serves.highest, ?_⟩, continues⟩
    · rw [run, run_bind_of_ok wakes, if_pos rfl, ran]
      rfl
    · have same : (last.atLevel k.processor.level).waiting (.condition c) =
          woken.waiting (.condition c) := enlisted_of_eq conditions c
      rw [same]
      exact serves.others

/-- A broadcast is a signal for each wait, and its sender goes on. -/
theorem exists_broadcast : ∃ k', (c.broadcast l).run k = .ok ((), k') ∧ k'.enlisted c = [] ∧
    k.Continues l (k.enlisted c) k' := by
  have signalling := signalling_masked reachable named never found
  rcases Option.bind_eq_some_iff.mp holds with ⟨lock, foundLock, holder⟩
  have run : (c.broadcast l).run k = ((do
      c.wakeMany condition.waiters.length
      if 0 < condition.waiters.length then preempt : KernelM Unit).run
        (k.atLevel .off)).map fun r => (r.1, r.2.atLevel k.processor.level) := by
    rw [ConditionId.broadcast, run_bind_of_ok (run_requireThreadContext .broadcast outside),
      run_bind_of_ok (LockId.run_requireHeld .broadcast foundLock holder), run_masked]
    exact congrArg _ (run_bind_of_ok
      ((run_findCondition_eq_ok_iff (k := k.atLevel .off)).mpr ⟨found, rfl⟩))
  have all : ((k.atLevel .off).enlisted c).length = condition.waiters.length :=
    congrArg List.length (enlisted_of_get? found)
  rcases signalling.exists_wakeMany named all with ⟨called, woken, wakes, told, none, after⟩
  have perm : called.Perm (k.enlisted c) := by
    have queue := told.queue
    rw [none, List.append_nil] at queue
    exact queue.symm
  by_cases some : 0 < condition.waiters.length
  · rcases exists_preempt_of_told reachable named busy outside deep holds unranked pending told
      after with ⟨last, ran, conditions, continues⟩
    refine ⟨last.atLevel k.processor.level, ?_, (enlisted_of_eq conditions c).trans none,
      continues.of_perm perm⟩
    rw [run, run_bind_of_ok wakes, if_pos some, ran]
    rfl
  · have empty := List.length_eq_zero_iff.mp (Nat.eq_zero_of_not_pos some)
    rw [enlisted_of_get? found, empty]
    refine ⟨k, ?_, (enlisted_of_get? found).trans empty, continues_nil holds⟩
    rw [run, empty]
    rfl

end Sender

/-- Whoever sends signals with the lock in hand, and is not outranked, is the current thread again
when the operation returns, and has the lock.  A signal takes one wait off, the first of the
highest, and a broadcast all of them.  If a thread that was sent a signal outranks the sender, the
highest of these come to wait for the lock, and the sender goes on at their priority; the others are
ready and have yet to take their signals.  If none does, the sender keeps the processor. -/
theorem signal_and_continue (reachable : Reachable d k) (named : d.plainHandles = true)
    (never : d.idleNeverWaits = true ∨ d.idleNeverAwaits = true)
    (busy : k.idle ≠ some k.current) (outside : k.inInterrupt = false)
    (deep : 0 < k.config.donationDepth) (holds : k.holder? l = some k.current)
    (unranked : ∀ t thread, k.threads.get? t = some thread → thread.state = .ready →
      thread.priority ≤ k.priorityOf k.current)
    (found : k.conditions.get? c = some condition)
    (pending : ∀ w ∈ k.enlisted c, k.pending? w.thread = some (.signal w.semaphore l)) :
    (∃ called k', (c.signal l).run k = .ok ((), k') ∧
      (k.enlisted c = [] ∧ called = [] ∧ k'.enlisted c = [] ∨
        ∃ w, called = [w] ∧ k.Serves k' (.condition c) w) ∧ k.Continues l called k') ∧
    ∃ k', (c.broadcast l).run k = .ok ((), k') ∧ k'.enlisted c = [] ∧
      k.Continues l (k.enlisted c) k' :=
  ⟨exists_signal reachable named never busy outside deep holds unranked found pending,
    exists_broadcast reachable named never busy outside deep holds unranked found pending⟩

/-- The initial thread holds the lock that three threads want back, two of priority 40 and one of
45.  A signal gives it the priority of the last, and a broadcast leaves the other two ready. -/
theorem signal_and_continue_of_waiters : ∃ k signalled told,
    Reachable { plainHandles := true, idleNeverWaits := true } k ∧
    (k.current, k.priorityOf k.current, k.holder? ⟨0⟩) = (.main, 31, some .main) ∧
    (k.enlisted ⟨0⟩).map (fun w => (w.thread, k.worth w)) =
      [(⟨4⟩, 45), (⟨3⟩, 40), (⟨5⟩, 40)] ∧
    (ConditionId.signal ⟨0⟩ ⟨0⟩).run k = .ok ((), signalled) ∧
    (signalled.current, signalled.priorityOf .main) = (.main, 45) ∧
    (∃ w, k.Serves signalled (.condition ⟨0⟩) w ∧ signalled.Contends ⟨0⟩ .main w) ∧
    (ConditionId.broadcast ⟨0⟩ ⟨0⟩).run k = .ok ((), told) ∧
    (told.current, told.priorityOf .main, told.enlisted ⟨0⟩) = (.main, 45, []) ∧
    (∀ w ∈ k.enlisted ⟨0⟩, k.worth w = 45 → told.Contends ⟨0⟩ .main w) ∧
    ∀ w ∈ k.enlisted ⟨0⟩, k.worth w < 45 → told.Hears ⟨0⟩ w := by
  have ran : (Discipline.performAll { plainHandles := true, idleNeverWaits := true }
      [.start, .createLock, .createCondition,
        .spawn { priority := 40 }, .acquire ⟨0⟩, .wait ⟨0⟩ ⟨0⟩,
        .spawn { priority := 45 }, .acquire ⟨0⟩, .wait ⟨0⟩ ⟨0⟩,
        .spawn { priority := 40 }, .acquire ⟨0⟩, .wait ⟨0⟩ ⟨0⟩, .acquire ⟨0⟩]
      (.fresh {} .stable)).bind (fun k => (k.conditions.get? ⟨0⟩).map fun condition =>
        decide ((k.current, k.priorityOf k.current, k.holder? ⟨0⟩) = (.main, 31, some .main) ∧
          (k.enlisted ⟨0⟩).map (fun w => (w.thread, k.worth w)) =
            [(⟨4⟩, 45), (⟨3⟩, 40), (⟨5⟩, 40)] ∧
          k.idle ≠ some k.current ∧ k.inInterrupt = false ∧ 0 < k.config.donationDepth ∧
          k.holder? ⟨0⟩ = some k.current ∧
          (∀ entry ∈ k.threads.entries, entry.2.state = .ready →
            entry.2.priority ≤ k.priorityOf k.current) ∧
          (∀ w ∈ k.enlisted ⟨0⟩, k.pending? w.thread = some (.signal w.semaphore ⟨0⟩)) ∧
          k.priorityOf k.current < 45 ∧ (∃ w ∈ k.enlisted ⟨0⟩, k.worth w = 45) ∧
          ∀ w ∈ k.enlisted ⟨0⟩, k.worth w ≤ 45)) = some true := by decide +kernel
  rcases Option.bind_eq_some_iff.mp ran with ⟨k, performed, rest⟩
  rcases Option.map_eq_some_iff.mp rest with ⟨condition, found, told⟩
  rcases of_decide_eq_true told with ⟨seat, queue, busy, outside, deep, holds, unranked, pending,
    above, ⟨top, listed, high⟩, le⟩
  have reachable := (Reachable.fresh {} .stable).performAll performed
  have current : k.current = .main := (Prod.mk.inj seat).1
  rcases signal_and_continue reachable rfl (.inl rfl) busy outside deep holds
      (fun t thread found => unranked (t, thread) (Arena.mem_entries.mpr found)) found pending with
    ⟨⟨called, signalled, signals, ⟨none, _⟩ | ⟨w, rfl, serves⟩, one⟩, told, tells, empty, all⟩
  · exact absurd listed (none ▸ List.not_mem_nil)
  · have among : w ∈ k.enlisted ⟨0⟩ := serves.others.mem_iff.mpr (List.mem_cons_self ..)
    have worth : k.worth w = 45 := Nat.le_antisymm (le w among) (high ▸ serves.highest top listed)
    have greatest : IsGreatest (k.worth '' {v | v ∈ [w]}) 45 := by
      refine ⟨⟨w, List.mem_singleton_self w, worth⟩, ?_⟩
      rintro _ ⟨v, here, rfl⟩
      exact List.mem_singleton.mp here ▸ Nat.le_of_eq worth
    have greatest' : IsGreatest (k.worth '' {v | v ∈ k.enlisted ⟨0⟩}) 45 := by
      refine ⟨⟨top, listed, high⟩, ?_⟩
      rintro _ ⟨v, member, rfl⟩
      exact le v member
    rcases one.raised 45 greatest above with ⟨price, contends, _⟩
    rcases all.raised 45 greatest' above with ⟨price', contends', hears⟩
    rw [current] at price price' contends contends'
    refine ⟨k, signalled, told, reachable, seat, queue, signals, ?_,
      ⟨w, serves, contends w (List.mem_singleton_self w) worth⟩, tells, ?_, contends', hears⟩
    · rw [one.current, current, price]
    · rw [all.current, current, price', empty]

end ThreadKernel
