import ThreadKernel.ReadyQueue

/-!
# What a ready queue holds, read off its history

The threads that are queued, their priorities and the order among equals all follow from what was
done to the queue.  `standing` is the priority that a thread was last given, if it is still to be
queued, and `arrival` tells how early it was queued, if it has kept that priority ever since.

* `Follows` says that a queue agrees with a list of changes; every call keeps it so
  (`Follows.serve`), and hence every run does.
* `ready_queue_follows_history` adds what is picked from such a queue, and where a thread goes whose
  priority is changed.
-/

namespace ThreadKernel.ReadyQueue

/-- What can be asked of a ready queue. -/
inductive Call
  | enqueue (t : ThreadId) (p : Priority)
  | pick
  | peek
  | remove (t : ThreadId)
  | reprioritize (t : ThreadId) (p : Priority)

/-- What a call has done. -/
inductive Change
  | enqueued (t : ThreadId) (p : Priority)
  | picked (t : ThreadId)
  | removed (t : ThreadId)
  | repriced (t : ThreadId) (p : Priority)

/-- A queue and what was done to it, latest first. -/
structure Logged where
  queue : ReadyQueue := {}
  changes : List Change := []

/-- Answer a call.  Only to queue a thread again fails. -/
def Logged.serve (s : Logged) : Call → Except Fault Logged
  | .enqueue t p => do
    let queue ← s.queue.enqueue t p
    pure ⟨queue, .enqueued t p :: s.changes⟩
  | .pick =>
    match s.queue.pop? with
    | none => pure s
    | some (t, queue) => pure ⟨queue, .picked t :: s.changes⟩
  | .peek => pure s
  | .remove t => pure ⟨s.queue.erase t, .removed t :: s.changes⟩
  | .reprioritize t p => pure ⟨s.queue.reprioritize t p, .repriced t p :: s.changes⟩

/-- The priority that `t` was last given, unless it was never queued or has left since. -/
def standing (t : ThreadId) : List Change → Option Priority
  | [] => none
  | .enqueued u p :: earlier => if u = t then some p else standing t earlier
  | .picked u :: earlier | .removed u :: earlier => if u = t then none else standing t earlier
  | .repriced u p :: earlier =>
    if u = t then (standing t earlier).map fun _ => p else standing t earlier

/-- How much had been done when `t` was queued, unless it was repriced or has left since. -/
def arrival (t : ThreadId) : List Change → Option Nat
  | [] => none
  | .enqueued u _ :: earlier => if u = t then some earlier.length else arrival t earlier
  | .picked u :: earlier | .removed u :: earlier | .repriced u _ :: earlier =>
    if u = t then none else arrival t earlier

/-- The queue holds what it is to hold after `changes`, in order of priority and of arrival. -/
structure Follows (q : ReadyQueue) (changes : List Change) : Prop where
  rule : q.rule = .stable
  ordered : q.Ordered
  nodup : q.threads.Nodup
  mem_iff : ∀ t p, (t, p) ∈ q.entries ↔ standing t changes = some p
  first_come : ∀ t u i j, arrival t changes = some i → arrival u changes = some j → i < j →
    standing t changes = standing u changes → [t, u].Sublist q.threads

variable {q q' : ReadyQueue} {changes : List Change} {t u : ThreadId} {p old : Priority} {i j : Nat}

theorem arrival_lt (arrived : arrival t changes = some i) : i < changes.length := by
  induction changes with
  | nil => cases arrived
  | cons change earlier ih =>
    have later : arrival t earlier = some i → i < (change :: earlier).length := fun arrived =>
      Nat.lt_succ_of_lt (ih arrived)
    cases change with
    | enqueued =>
      rw [arrival] at arrived
      split at arrived
      · cases arrived
        exact Nat.lt_succ_self _
      · exact later arrived
    | picked | removed | repriced =>
      rw [arrival] at arrived
      split at arrived
      · cases arrived
      · exact later arrived

/-- Who has been repriced counts as arrived no more. -/
theorem of_arrival_repriced (arrived : arrival u (.repriced t p :: changes) = some i) :
    t ≠ u ∧ arrival u changes = some i ∧
      standing u (.repriced t p :: changes) = standing u changes := by
  rw [arrival] at arrived
  split at arrived
  · cases arrived
  · next other => exact ⟨other, arrived, if_neg other⟩

theorem pair_sublist_erase {v : ThreadId} (ordered : [u, v].Sublist q.threads) (other : t ≠ u)
    (apart : t ≠ v) : [u, v].Sublist (q.erase t).threads := by
  have left := ordered.erase t
  rwa [List.erase_of_not_mem (by simp [other, apart]), ← threads_erase] at left

namespace Follows

theorem mem_threads_iff (follows : q.Follows changes) :
    t ∈ q.threads ↔ ∃ p, standing t changes = some p := by
  rw [threads, List.mem_map]
  constructor
  · rintro ⟨⟨_, p⟩, member, rfl⟩
    exact ⟨p, (follows.mem_iff _ p).mp member⟩
  · rintro ⟨p, stands⟩
    exact ⟨(t, p), (follows.mem_iff t p).mpr stands, rfl⟩

theorem fresh : ({} : ReadyQueue).Follows [] where
  rule := rfl
  ordered := List.Pairwise.nil
  nodup := List.Pairwise.nil
  mem_iff _ _ := ⟨nofun, nofun⟩
  first_come _ _ _ _ arrived := nomatch arrived

theorem enqueued (follows : q.Follows changes) (absent : t ∉ q.threads) :
    (q.insert t p).Follows (.enqueued t p :: changes) where
  rule := follows.rule
  ordered := follows.ordered.insert t p
  nodup := (threads_insert_perm q t p).nodup_iff.mpr (List.nodup_cons.mpr ⟨absent, follows.nodup⟩)
  mem_iff u r := by
    rw [mem_entries_insert, follows.mem_iff, standing, Prod.mk.injEq]
    split
    · next same =>
      subst same
      have none : standing t changes ≠ some r := fun stands =>
        absent (follows.mem_threads_iff.mpr ⟨r, stands⟩)
      rw [Option.some.injEq]
      exact ⟨fun member => (member.resolve_right none).2.symm, fun same => .inl ⟨rfl, same.symm⟩⟩
    · next other => exact ⟨fun member => member.resolve_left fun same => other same.1.symm, .inr⟩
  first_come u v i j early late before same := by
    have fits : q.threads.Sublist (q.insert t p).threads :=
      (Ranked.sublist_insert Prod.snd (t, p) q.entries).map Prod.fst
    rw [arrival] at early late
    rw [standing, standing] at same
    split at early
    · -- nothing has been done after this
      split at late
      · cases early
        cases late
        exact absurd before (Nat.lt_irrefl _)
      · cases early
        exact absurd before (Nat.not_lt_of_lt (arrival_lt late))
    · next other =>
      rw [if_neg other] at same
      split at late
      · next here =>
        subst here
        rw [if_pos rfl] at same
        rcases Ranked.insert_eq_append (t, p) follows.ordered with
          ⟨front, back, entries, inserted, _, behind⟩
        have member : (u, p) ∈ front ++ back := entries ▸ (follows.mem_iff u p).mpr same
        have ahead : (u, p) ∈ front := by
          refine (List.mem_append.mp member).resolve_right fun lower => ?_
          exact Nat.lt_irrefl p (behind _ lower)
        have pair : [(u, p), (t, p)].Sublist (front ++ (t, p) :: back) :=
          (List.singleton_sublist.mpr ahead).append ((List.nil_sublist back).cons_cons (t, p))
        rw [threads, insert, inserted]
        exact pair.map Prod.fst
      · next apart =>
        rw [if_neg apart] at same
        exact (follows.first_come u v i j early late before same).trans fits

/-- What has become of a queue that `t` has left, whatever made it leave. -/
theorem left {change : Change} (follows : q.Follows changes)
    (stands : ∀ u, standing u (change :: changes) = if t = u then none else standing u changes)
    (arrives : ∀ u, arrival u (change :: changes) = if t = u then none else arrival u changes) :
    (q.erase t).Follows (change :: changes) where
  rule := follows.rule
  ordered := follows.ordered.erase t
  nodup := by
    rw [threads_erase]
    exact follows.nodup.erase t
  mem_iff u r := by
    rw [stands]
    split
    · next same =>
      subst same
      refine ⟨fun member => ?_, nofun⟩
      have listed := mem_threads_of_mem_entries member
      rw [threads_erase] at listed
      exact absurd listed follows.nodup.not_mem_erase
    · next other =>
      rw [← follows.mem_iff]
      exact List.mem_eraseP_of_neg (by simpa using Ne.symm other)
  first_come u v i j early late before same := by
    rw [arrives] at early late
    rw [stands, stands] at same
    split at early
    · cases early
    · next other =>
      split at late
      · cases late
      · next apart =>
        rw [if_neg other, if_neg apart] at same
        exact pair_sublist_erase (follows.first_come u v i j early late before same) other apart

theorem removed (follows : q.Follows changes) (t : ThreadId) :
    (q.erase t).Follows (.removed t :: changes) :=
  follows.left (fun _ => rfl) fun _ => rfl

/-- To pick a thread is to take out the first one. -/
theorem picked (follows : q.Follows changes) (pop : q.pop? = some (t, q')) :
    q'.Follows (.picked t :: changes) := by
  rcases pop?_eq_some_iff.mp pop with ⟨p, entries, rule⟩
  have out : q.erase t = q' := by
    refine eq_of_entries ((rule_erase q t).trans rule.symm) ?_
    rw [erase, entries, List.eraseP_cons_of_pos (by simp)]
  rw [← out]
  exact follows.left (fun _ => rfl) fun _ => rfl

theorem repriced (follows : q.Follows changes) (t : ThreadId) (p : Priority) :
    (q.reprioritize t p).Follows (.repriced t p :: changes) := by
  have unmoved : ∀ u v i j, arrival u (.repriced t p :: changes) = some i →
      arrival v (.repriced t p :: changes) = some j → i < j →
      standing u (.repriced t p :: changes) = standing v (.repriced t p :: changes) →
      t ≠ u ∧ t ≠ v ∧ [u, v].Sublist q.threads := by
    intro u v i j early late before same
    rcases of_arrival_repriced early with ⟨other, early, keeps⟩
    rcases of_arrival_repriced late with ⟨apart, late, keeps'⟩
    rw [keeps, keeps'] at same
    exact ⟨other, apart, follows.first_come u v i j early late before same⟩
  by_cases queued : t ∈ q.threads
  · rcases follows.mem_threads_iff.mp queued with ⟨old, stands⟩
    rcases exists_entries_reprioritize follows.ordered follows.nodup
      ((follows.mem_iff t old).mpr stands) follows.rule (p := p) with ⟨front, back, left, entries⟩
    refine ⟨(rule_reprioritize q t p).trans follows.rule, follows.ordered.reprioritize t p,
      (threads_reprioritize_perm q t p).nodup_iff.mpr follows.nodup, fun u r => ?_,
      fun u v i j early late before same => ?_⟩
    · rw [entries, List.perm_middle.mem_iff, List.mem_cons, ← left, (follows.removed t).mem_iff,
        standing, standing, Prod.mk.injEq]
      split
      · next here =>
        subst here
        rw [stands]
        simp [eq_comm]
      · next other => simp [Ne.symm other]
    · rcases unmoved u v i j early late before same with ⟨other, apart, ordered⟩
      have kept := pair_sublist_erase ordered other apart
      rw [threads, left] at kept
      rw [threads, entries]
      exact kept.trans (((List.sublist_cons_self _ back).append_left front).map Prod.fst)
  · have none : standing t changes = none :=
      Option.eq_none_iff_forall_ne_some.mpr fun r stands =>
        queued (follows.mem_threads_iff.mpr ⟨r, stands⟩)
    rw [reprioritize_of_not_mem queued]
    refine ⟨follows.rule, follows.ordered, follows.nodup, fun u r => ?_,
      fun u v i j early late before same => (unmoved u v i j early late before same).2.2⟩
    rw [follows.mem_iff, standing]
    split
    · next here => rw [← here, none, Option.map_none]
    · exact .rfl

theorem serve {s s' : Logged} {call : Call} (follows : s.queue.Follows s.changes)
    (served : s.serve call = .ok s') : s'.queue.Follows s'.changes := by
  cases call with
  | enqueue t p =>
    rw [Logged.serve, ReadyQueue.enqueue] at served
    split at served
    · cases served
    · next absent =>
      cases served
      exact follows.enqueued fun queued => absent (contains_iff.mpr queued)
  | pick =>
    rw [Logged.serve] at served
    split at served
    · cases served
      exact follows
    · next pop =>
      cases served
      exact follows.picked pop
  | peek =>
    cases served
    exact follows
  | remove t =>
    cases served
    exact follows.removed t
  | reprioritize t p =>
    cases served
    exact follows.repriced t p

theorem serveAll {calls : List Call} {s s' : Logged} (follows : s.queue.Follows s.changes)
    (served : calls.foldlM Logged.serve s = .ok s') : s'.queue.Follows s'.changes := by
  induction calls generalizing s with
  | nil =>
    cases served
    exact follows
  | cons call calls ih =>
    rw [List.foldlM_cons] at served
    cases first : s.serve call with
    | error fault =>
      rw [first] at served
      cases served
    | ok middle =>
      rw [first] at served
      exact ih (follows.serve first) served

end Follows

/-! ## Picks and moves -/

/-- `t` is picked from `q`, which `changes` led to, and `rest` is left. -/
structure Picks (q : ReadyQueue) (changes : List Change) (t : ThreadId) (rest : ReadyQueue) :
    Prop where
  shown : ∃ p, q.front? = some (t, p) ∧ ∀ entry ∈ q.entries, entry.2 ≤ p
  listed : q.threads = t :: rest.threads
  /-- Nobody of the same priority arrived earlier. -/
  first : ∀ u i j, arrival t changes = some i → arrival u changes = some j →
    standing u changes = standing t changes → i ≤ j

/-- `q'` is `q` with `t` moved from priority `old` to priority `p`. -/
structure Moves (q : ReadyQueue) (t : ThreadId) (old p : Priority) (q' : ReadyQueue) : Prop where
  others : q'.erase t = q.erase t
  raised : old < p → (q.erase t).enqueue t p = .ok q'
  kept : p = old → q' = q
  lowered : p < old → ∃ front back, (q.erase t).entries = front ++ back ∧
    q'.entries = front ++ (t, p) :: back ∧
    (∀ entry ∈ front, p < entry.2) ∧ ∀ entry ∈ back, entry.2 ≤ p

theorem Follows.picks (follows : q.Follows changes) (pop : q.pop? = some (t, q')) :
    q.Picks changes t q' := by
  rcases pop?_eq_some_iff.mp pop with ⟨p, entries, _⟩
  have listed := threads_of_pop? pop
  refine ⟨⟨p, ?_, ?_⟩, listed, fun u i j early late same => ?_⟩
  · rw [front?, entries, List.head?_cons]
  · have ordered := follows.ordered
    rw [Ordered, entries] at ordered
    rw [entries]
    exact List.forall_mem_cons.mpr ⟨Nat.le_refl p, (List.pairwise_cons.mp ordered).1⟩
  · refine Nat.le_of_not_lt fun before => ?_
    have ordered := follows.first_come u t j i late early before same
    have nodup := follows.nodup
    rw [listed] at ordered nodup
    apply (List.nodup_cons.mp nodup).1
    cases ordered with
    | cons _ later => exact later.subset (by simp)
    | cons_cons _ later => exact later.subset List.mem_cons_self

theorem Follows.moves (follows : q.Follows changes) (queued : (t, old) ∈ q.entries)
    (p : Priority) : q.Moves t old p (q.reprioritize t p) where
  others := erase_reprioritize follows.ordered follows.nodup queued follows.rule
  raised := enqueue_erase_of_lt follows.ordered follows.nodup queued
  kept := by
    rintro rfl
    exact reprioritize_self follows.ordered follows.nodup queued follows.rule
  lowered := entries_reprioritize_of_lt follows.ordered follows.nodup queued follows.rule

theorem Logged.exists_serve {s : Logged} {call : Call}
    (fresh : ∀ t p, call = .enqueue t p → t ∉ s.queue.threads) : ∃ s', s.serve call = .ok s' := by
  cases call with
  | enqueue t p =>
    have absent : ¬ s.queue.contains t = true := fun queued =>
      fresh t p rfl (contains_iff.mp queued)
    rw [serve, ReadyQueue.enqueue, if_neg absent]
    exact ⟨_, rfl⟩
  | pick =>
    rw [serve]
    split <;> exact ⟨_, rfl⟩
  | peek | remove | reprioritize => exact ⟨_, rfl⟩

/-- Whatever is asked of a new queue, it holds what it is to hold, in order.  It answers every call
that does not queue a thread again, picks what it shows first, and moves a thread as the change of
its priority demands. -/
theorem ready_queue_follows_history {calls : List Call} {s : Logged}
    (served : calls.foldlM Logged.serve {} = .ok s) :
    s.queue.Follows s.changes ∧
    (∀ call, (∀ t p, call = .enqueue t p → t ∉ s.queue.threads) → ∃ s', s.serve call = .ok s') ∧
    (s.queue.pop? = none → s.queue.threads = []) ∧
    (∀ t rest, s.queue.pop? = some (t, rest) → s.queue.Picks s.changes t rest) ∧
    (∀ t p, t ∉ s.queue.threads → s.queue.reprioritize t p = s.queue) ∧
    ∀ t old p, (t, old) ∈ s.queue.entries →
      s.queue.Moves t old p (s.queue.reprioritize t p) := by
  have follows : s.queue.Follows s.changes := Follows.serveAll Follows.fresh served
  exact ⟨follows, fun _ => Logged.exists_serve, threads_of_pop?_eq_none,
    fun _ _ => follows.picks, fun _ _ => reprioritize_of_not_mem,
    fun _ _ p queued => follows.moves queued p⟩

/-- Threads 2 and 3 are queued at priority 31, and 4, first below and then above them, is lowered
to 31: it gets ahead of the two, which leave in the order in which they came. -/
theorem ready_queue_follows_history_of_lowered : ∃ s, List.foldlM Logged.serve {}
      [.enqueue ⟨2⟩ 31, .enqueue ⟨3⟩ 31, .enqueue ⟨4⟩ 20, .reprioritize ⟨4⟩ 50] = .ok s ∧
    s.queue.entries = [(⟨4⟩, 50), (⟨2⟩, 31), (⟨3⟩, 31)] ∧
    s.queue.Follows s.changes ∧
    s.queue.Moves ⟨4⟩ 50 31 (s.queue.reprioritize ⟨4⟩ 31) ∧
    (s.queue.reprioritize ⟨4⟩ 31).threads = [⟨4⟩, ⟨2⟩, ⟨3⟩] ∧
    ∃ s', s.serve .pick = .ok s' ∧ ∃ rest, s'.queue.pop? = some (⟨2⟩, rest) ∧
      s'.queue.Picks s'.changes ⟨2⟩ rest := by
  refine ⟨_, rfl, rfl, ?_⟩
  have served : List.foldlM Logged.serve {}
    [.enqueue ⟨2⟩ 31, .enqueue ⟨3⟩ 31, .enqueue ⟨4⟩ 20, .reprioritize ⟨4⟩ 50] = .ok _ := rfl
  rcases ready_queue_follows_history served with ⟨follows, _, _, _, _, moves⟩
  refine ⟨follows, moves ⟨4⟩ 50 31 ?_, rfl, _, rfl, _, rfl, ?_⟩
  · decide
  · have served' : List.foldlM Logged.serve {} [.enqueue ⟨2⟩ 31, .enqueue ⟨3⟩ 31,
      .enqueue ⟨4⟩ 20, .reprioritize ⟨4⟩ 50, .pick] = .ok _ := rfl
    rcases ready_queue_follows_history served' with ⟨_, _, _, picks, _⟩
    exact picks ⟨2⟩ _ rfl

end ThreadKernel.ReadyQueue
