import ThreadKernel.Fault
import ThreadKernel.RankedList

/-!
# The ready queue

Threads that wait for the processor, highest priority first and in order of
arrival within a priority.  Each entry carries the priority its thread had when
it was queued or last moved, so the order never needs the thread table.

The two `Reposition` rules differ only in where a moved thread stands among its
new equals.
-/

namespace ThreadKernel

/-- Where a queued thread goes when its priority changes. -/
inductive Reposition
  /-- Sort again, keeping the old order among equals. -/
  | stable
  /-- Take it out and queue it anew, behind its new equals. -/
  | requeue
deriving DecidableEq

structure ReadyQueue where
  rule : Reposition := .stable
  /-- Threads with their queued priorities, in dispatch order. -/
  entries : List (ThreadId × Priority) := []
deriving DecidableEq

namespace ReadyQueue

def size (q : ReadyQueue) : Nat := q.entries.length

def isEmpty (q : ReadyQueue) : Bool := q.entries.isEmpty

/-- Queued threads in dispatch order. -/
def threads (q : ReadyQueue) : List ThreadId := q.entries.map Prod.fst

/-- The thread picked next, with its queued priority. -/
def front? (q : ReadyQueue) : Option (ThreadId × Priority) := q.entries.head?

def priority? (q : ReadyQueue) (t : ThreadId) : Option Priority :=
  (q.entries.find? fun entry => entry.1 = t).map Prod.snd

def contains (q : ReadyQueue) (t : ThreadId) : Bool := (q.priority? t).isSome

/-- Put `t` behind every thread of at least priority `p`. -/
def insert (q : ReadyQueue) (t : ThreadId) (p : Priority) : ReadyQueue :=
  { q with entries := Ranked.insert Prod.snd (t, p) q.entries }

/-- Queue a thread that is not queued yet. -/
def enqueue (q : ReadyQueue) (t : ThreadId) (p : Priority) : Except Fault ReadyQueue :=
  if q.contains t then .error (.queuedTwice t) else .ok (q.insert t p)

/-- Take the front thread out. -/
def pop? (q : ReadyQueue) : Option (ThreadId × ReadyQueue) :=
  match q.entries with
  | [] => none
  | entry :: rest => some (entry.1, { q with entries := rest })

/-- Take `t` out, if it is queued. -/
def erase (q : ReadyQueue) (t : ThreadId) : ReadyQueue :=
  { q with entries := q.entries.eraseP fun entry => entry.1 = t }

/-- Change the queued priority of `t` without moving it. -/
def relabel (t : ThreadId) (p : Priority) : List (ThreadId × Priority) → List (ThreadId × Priority)
  | [] => []
  | entry :: rest => if entry.1 = t then (t, p) :: rest else entry :: relabel t p rest

/-- Move `t`, if it is queued, to where priority `p` belongs. -/
def reprioritize (q : ReadyQueue) (t : ThreadId) (p : Priority) : ReadyQueue :=
  if q.contains t then
    match q.rule with
    | .stable => { q with entries := Ranked.sort Prod.snd (relabel t p q.entries) }
    | .requeue => (q.erase t).insert t p
  else q

/-! ## Which threads are queued -/

theorem contains_iff {q : ReadyQueue} {t : ThreadId} : q.contains t = true ↔ t ∈ q.threads := by
  simp [contains, priority?, threads]

theorem pop?_eq_some_iff {q rest : ReadyQueue} {t : ThreadId} :
    q.pop? = some (t, rest) ↔
      ∃ p, q.entries = (t, p) :: rest.entries ∧ rest.rule = q.rule := by
  rcases q with ⟨rule, _ | ⟨⟨u, p⟩, tail⟩⟩
  · simp [pop?]
  · rcases rest with ⟨rule', entries⟩
    simp only [pop?, Option.some.injEq, Prod.mk.injEq, ReadyQueue.mk.injEq, List.cons.injEq]
    constructor
    · rintro ⟨rfl, rfl, rfl⟩; exact ⟨p, ⟨⟨rfl, rfl⟩, rfl⟩, rfl⟩
    · rintro ⟨_, ⟨⟨rfl, rfl⟩, rfl⟩, rfl⟩; exact ⟨rfl, rfl, rfl⟩

theorem exists_pop?_of_front? {q : ReadyQueue} {entry : ThreadId × Priority}
    (front : q.front? = some entry) : ∃ rest, q.pop? = some (entry.1, rest) := by
  obtain ⟨rest, entries⟩ := List.head?_eq_some_iff.mp front
  exact ⟨⟨q.rule, rest⟩, pop?_eq_some_iff.mpr ⟨entry.2, entries, rfl⟩⟩

theorem threads_of_pop? {q rest : ReadyQueue} {t : ThreadId} (pop : q.pop? = some (t, rest)) :
    q.threads = t :: rest.threads := by
  obtain ⟨_, entries, _⟩ := pop?_eq_some_iff.mp pop
  rw [threads, entries, List.map_cons, threads]

theorem threads_of_pop?_eq_none {q : ReadyQueue} (empty : q.pop? = none) : q.threads = [] := by
  unfold pop? at empty
  split at empty
  · next none => rw [threads, none, List.map_nil]
  · cases empty

/-- The front stays in front of those that do not outrank it. -/
theorem pop?_insert_of_le {q rest : ReadyQueue} {t u : ThreadId} {p r : Priority}
    (entries : q.entries = (u, r) :: rest.entries) (rule : rest.rule = q.rule) (le : p ≤ r) :
    (q.insert t p).pop? = some (u, rest.insert t p) := by
  rw [insert, entries, Ranked.insert, if_neg (Nat.not_lt_of_le le), insert, rule]
  rfl

theorem threads_insert_perm (q : ReadyQueue) (t : ThreadId) (p : Priority) :
    (q.insert t p).threads.Perm (t :: q.threads) :=
  (Ranked.insert_perm Prod.snd (t, p) q.entries).map Prod.fst

theorem threads_erase (q : ReadyQueue) (t : ThreadId) :
    (q.erase t).threads = q.threads.erase t := by
  simp only [erase, threads, List.erase_eq_eraseP, List.eraseP_map]
  congr 2
  funext entry
  simp only [Function.comp, eq_comm]
  rfl

/-- Relabelling moves nobody. -/
theorem map_fst_relabel (t : ThreadId) (p : Priority) (entries : List (ThreadId × Priority)) :
    (relabel t p entries).map Prod.fst = entries.map Prod.fst := by
  induction entries with
  | nil => rfl
  | cons entry rest ih =>
    simp only [relabel]
    split
    · next eq => simp [eq]
    · simp [ih]

/-- Whichever rule is in force, a move neither loses nor adds a thread. -/
theorem threads_reprioritize_perm (q : ReadyQueue) (t : ThreadId) (p : Priority) :
    (q.reprioritize t p).threads.Perm q.threads := by
  unfold reprioritize
  split
  · next queued =>
    split
    · have moved := (Ranked.sort_perm Prod.snd (relabel t p q.entries)).map Prod.fst
      rwa [map_fst_relabel] at moved
    · refine (threads_insert_perm _ t p).trans ?_
      rw [threads_erase]
      exact (List.perm_cons_erase (contains_iff.mp queued)).symm
  · exact .refl _

/-! ## Dispatch order and queued priorities -/

/-- Dispatch order: nobody stands behind a thread of lower queued priority. -/
def Ordered (q : ReadyQueue) : Prop := Ranked.Descending Prod.snd q.entries

/-- The front of a queue with anybody in it has the highest priority. -/
theorem Ordered.exists_front {q : ReadyQueue} (ordered : q.Ordered) {entry : ThreadId × Priority}
    (queued : entry ∈ q.entries) : ∃ front, q.front? = some front ∧ entry.2 ≤ front.2 := by
  rw [Ordered] at ordered
  cases entries : q.entries with
  | nil =>
    rw [entries] at queued
    cases queued
  | cons front rest =>
    rw [entries] at queued ordered
    refine ⟨front, by rw [front?, entries, List.head?_cons], ?_⟩
    obtain rfl | later := List.mem_cons.mp queued
    · exact Nat.le_refl _
    · exact (List.pairwise_cons.mp ordered).1 entry later

theorem Ordered.insert {q : ReadyQueue} (h : q.Ordered) (t : ThreadId) (p : Priority) :
    (q.insert t p).Ordered :=
  Ranked.Descending.insert h (t, p)

theorem Ordered.erase {q : ReadyQueue} (h : q.Ordered) (t : ThreadId) : (q.erase t).Ordered :=
  List.Pairwise.sublist List.eraseP_sublist h

theorem Ordered.reprioritize {q : ReadyQueue} (h : q.Ordered) (t : ThreadId) (p : Priority) :
    (q.reprioritize t p).Ordered := by
  unfold ReadyQueue.reprioritize
  split
  · split
    · exact Ranked.descending_sort _ _
    · exact (h.erase t).insert t p
  · exact h

theorem mem_entries_insert {q : ReadyQueue} {t : ThreadId} {p : Priority}
    {entry : ThreadId × Priority} :
    entry ∈ (q.insert t p).entries ↔ entry = (t, p) ∨ entry ∈ q.entries :=
  Ranked.mem_insert

theorem mem_threads_of_mem_entries {q : ReadyQueue} {entry : ThreadId × Priority}
    (h : entry ∈ q.entries) : entry.1 ∈ q.threads :=
  List.mem_map.mpr ⟨entry, h, rfl⟩

/-- In a list without repetition, what is relabelled is the only entry of its thread. -/
theorem mem_relabel {t : ThreadId} {p : Priority} {entries : List (ThreadId × Priority)}
    {entry : ThreadId × Priority} (nodup : (entries.map Prod.fst).Nodup)
    (h : entry ∈ relabel t p entries) : entry = (t, p) ∨ entry ∈ entries ∧ entry.1 ≠ t := by
  induction entries with
  | nil => exact absurd h List.not_mem_nil
  | cons first rest ih =>
    obtain ⟨fresh, nodup⟩ := List.nodup_cons.mp nodup
    simp only [relabel] at h
    split at h
    · next same =>
      rcases List.mem_cons.mp h with rfl | h
      · exact .inl rfl
      · refine .inr ⟨List.mem_cons_of_mem _ h, fun again => fresh ?_⟩
        rw [same, ← again]
        exact List.mem_map_of_mem h
    · next other =>
      rcases List.mem_cons.mp h with rfl | h
      · exact .inr ⟨List.mem_cons_self, other⟩
      · rcases ih nodup h with eq | ⟨old, ne⟩
        · exact .inl eq
        · exact .inr ⟨List.mem_cons_of_mem _ old, ne⟩

/-- A move changes the queued priority of its thread and of no other. -/
theorem mem_entries_reprioritize {q : ReadyQueue} {t : ThreadId} {p : Priority}
    {entry : ThreadId × Priority} (nodup : q.threads.Nodup)
    (h : entry ∈ (q.reprioritize t p).entries) :
    entry = (t, p) ∨ entry ∈ q.entries ∧ entry.1 ≠ t := by
  unfold reprioritize at h
  split at h
  · split at h
    · exact mem_relabel nodup (Ranked.mem_sort.mp h)
    · rcases mem_entries_insert.mp h with eq | old
      · exact .inl eq
      · refine .inr ⟨List.mem_of_mem_eraseP old, fun same => ?_⟩
        have left := mem_threads_of_mem_entries old
        rw [same, threads_erase] at left
        exact nodup.not_mem_erase left
  · next absent =>
    refine .inr ⟨h, fun same => absent (contains_iff.mpr ?_)⟩
    rw [← same]
    exact mem_threads_of_mem_entries h

/-! ## The two rules -/

/-- Relabelling changes the first entry of its thread where it stands. -/
theorem relabel_append_cons {t : ThreadId} {p old : Priority}
    {front back : List (ThreadId × Priority)} (ahead : ∀ entry ∈ front, entry.1 ≠ t) :
    relabel t p (front ++ (t, old) :: back) = front ++ (t, p) :: back := by
  induction front with
  | nil => rw [List.nil_append, relabel, if_pos rfl, List.nil_append]
  | cons first front ih =>
    rcases List.forall_mem_cons.mp ahead with ⟨other, ahead⟩
    rw [List.cons_append, relabel, if_neg other, ih ahead, List.cons_append]

/-- The two rules move a thread to the same place unless one of its new equals is behind it. -/
theorem sort_relabel_eq_insert_iff {t : ThreadId} {p old : Priority}
    {front back : List (ThreadId × Priority)}
    (ordered : Ranked.Descending Prod.snd (front ++ (t, old) :: back))
    (ahead : ∀ entry ∈ front, entry.1 ≠ t) (fresh : (t, p) ∉ back) :
    Ranked.sort Prod.snd (relabel t p (front ++ (t, old) :: back)) =
        Ranked.insert Prod.snd (t, p)
          ((front ++ (t, old) :: back).eraseP fun entry => entry.1 = t) ↔
      ∀ entry ∈ back, entry.2 ≠ p := by
  have left : Ranked.Descending Prod.snd (front ++ back) :=
    ordered.sublist ((List.sublist_cons_self _ _).append_left front)
  rw [relabel_append_cons ahead, List.eraseP_append_right _ (by simpa using ahead),
    List.eraseP_cons_of_pos (by simp)]
  exact Ranked.sort_append_cons_eq_insert_iff left fresh

/-- A queued thread has a first entry. -/
theorem exists_entries_eq {q : ReadyQueue} {t : ThreadId} (queued : t ∈ q.threads) :
    ∃ front old back, q.entries = front ++ (t, old) :: back ∧ ∀ entry ∈ front, entry.1 ≠ t := by
  rcases List.mem_map.mp queued with ⟨entry, member, rfl⟩
  rcases List.exists_of_eraseP (p := fun other => decide (other.1 = entry.1)) member (by simp) with
    ⟨⟨u, old⟩, front, back, ahead, here, entries, _⟩
  have here : u = entry.1 := of_decide_eq_true here
  subst here
  exact ⟨front, old, back, entries, by simpa using ahead⟩

/-- Where a thread is raised, either rule takes it out and queues it anew. -/
theorem reprioritize_of_raises {q : ReadyQueue} {t : ThreadId} {p : Priority}
    (ordered : q.Ordered) (raises : ∀ entry ∈ q.entries, entry.1 = t → entry.2 < p) :
    q.reprioritize t p = if q.contains t then (q.erase t).insert t p else q := by
  unfold reprioritize
  split
  · next queued =>
    split
    · rcases exists_entries_eq (contains_iff.mp queued) with ⟨front, old, back, entries, ahead⟩
      have lower : old < p := raises (t, old) (by simp [entries]) rfl
      rw [Ordered, entries] at ordered
      have sorted := List.pairwise_cons.mp (List.pairwise_append.mp ordered).2.1
      have below : ∀ entry ∈ back, entry.2 < p := fun entry behind =>
        Nat.lt_of_le_of_lt (sorted.1 entry behind) lower
      have moved := (sort_relabel_eq_insert_iff ordered ahead fun again =>
        Nat.lt_irrefl p (below _ again)).mpr fun entry behind => Nat.ne_of_lt (below entry behind)
      rw [erase, insert, entries, moved]
    · rfl
  · rfl

/-- A thread that is raised gets behind all that are not lower, and ahead of all that are. -/
theorem entries_reprioritize {q : ReadyQueue} {t : ThreadId} {p : Priority} (ordered : q.Ordered)
    (queued : t ∈ q.threads) (raises : ∀ entry ∈ q.entries, entry.1 = t → entry.2 < p) :
    ∃ front back, (q.erase t).entries = front ++ back ∧
      (q.reprioritize t p).entries = front ++ (t, p) :: back ∧
      (∀ entry ∈ front, p ≤ entry.2) ∧ ∀ entry ∈ back, entry.2 < p := by
  rw [reprioritize_of_raises ordered raises, if_pos (contains_iff.mpr queued)]
  exact Ranked.insert_eq_append (t, p) (ordered.erase t)

/-- A thread that is raised above all others but the first ones gets behind these. -/
theorem entries_reprioritize_append {q : ReadyQueue} {t : ThreadId} {p : Priority}
    {front back : List (ThreadId × Priority)} (ordered : q.Ordered)
    (entries : q.entries = front ++ back) (queued : t ∈ q.threads)
    (others : ∀ entry ∈ front, entry.1 ≠ t) (ahead : ∀ entry ∈ front, p ≤ entry.2)
    (behind : ∀ entry ∈ back, entry.2 < p) :
    (q.reprioritize t p).entries =
      front ++ (t, p) :: back.eraseP fun entry => entry.1 = t := by
  have raises : ∀ entry ∈ q.entries, entry.1 = t → entry.2 < p := by
    intro entry member here
    rw [entries] at member
    rcases List.mem_append.mp member with first | last
    · exact absurd here (others entry first)
    · exact behind entry last
  rw [reprioritize_of_raises ordered raises, if_pos (contains_iff.mpr queued), insert, erase, entries,
    List.eraseP_append_right _ (by simpa using others), Ranked.insert_append _ ahead,
    Ranked.insert_eq_cons]
  exact fun entry member => behind entry (List.mem_of_mem_eraseP member)

@[simp]
theorem rule_insert (q : ReadyQueue) (t : ThreadId) (p : Priority) :
    (q.insert t p).rule = q.rule := rfl

@[simp]
theorem rule_erase (q : ReadyQueue) (t : ThreadId) : (q.erase t).rule = q.rule := rfl

/-- A queued thread divides a queue without repetition. -/
theorem exists_entries_eq_of_mem {q : ReadyQueue} {t : ThreadId} {p : Priority}
    (nodup : q.threads.Nodup) (queued : (t, p) ∈ q.entries) :
    ∃ front back, q.entries = front ++ (t, p) :: back ∧ (q.erase t).entries = front ++ back ∧
      ∀ entry ∈ front ++ back, entry.1 ≠ t := by
  rcases List.append_of_mem queued with ⟨front, back, entries⟩
  rw [threads, entries, List.map_append, List.map_cons] at nodup
  rcases List.nodup_append.mp nodup with ⟨_, later, earlier⟩
  have ahead : ∀ entry ∈ front, entry.1 ≠ t := fun entry first =>
    earlier _ (List.mem_map_of_mem first) _ List.mem_cons_self
  have behind : ∀ entry ∈ back, entry.1 ≠ t := by
    rintro entry last rfl
    have listed := List.mem_map_of_mem (f := Prod.fst) last
    exact (List.nodup_cons.mp later).1 listed
  refine ⟨front, back, entries, ?_, List.forall_mem_append.mpr ⟨ahead, behind⟩⟩
  rw [erase, entries, List.eraseP_append_right _ (by simpa using ahead),
    List.eraseP_cons_of_pos (by simp)]

/-- In a queue without repetition a thread has one priority. -/
theorem priority_unique {q : ReadyQueue} {t : ThreadId} {p p' : Priority} (nodup : q.threads.Nodup)
    (queued : (t, p) ∈ q.entries) (queued' : (t, p') ∈ q.entries) : p' = p := by
  rcases exists_entries_eq_of_mem nodup queued with ⟨front, back, entries, _, apart⟩
  rw [entries] at queued'
  rcases List.mem_append.mp queued' with ahead | behind
  · exact absurd rfl (apart _ (List.mem_append_left back ahead))
  · rcases List.mem_cons.mp behind with same | behind
    · exact congrArg Prod.snd same
    · exact absurd rfl (apart _ (List.mem_append_right front behind))

theorem eq_of_entries {q q' : ReadyQueue} (rule : q.rule = q'.rule)
    (entries : q.entries = q'.entries) : q = q' := by
  cases q
  cases rule
  cases entries
  rfl

@[simp]
theorem rule_reprioritize (q : ReadyQueue) (t : ThreadId) (p : Priority) :
    (q.reprioritize t p).rule = q.rule := by
  unfold reprioritize
  split
  · split <;> rfl
  · rfl

/-! ## Where a move takes a thread -/

section Reprioritized

variable {q : ReadyQueue} {t : ThreadId} {p old : Priority} (ordered : q.Ordered)
  (nodup : q.threads.Nodup) (queued : (t, old) ∈ q.entries)

theorem reprioritize_of_not_mem (absent : t ∉ q.threads) : q.reprioritize t p = q :=
  if_neg fun queued => absent (contains_iff.mp queued)

theorem entries_reprioritize_of_stable (rule : q.rule = .stable) (queued : t ∈ q.threads) :
    (q.reprioritize t p).entries = Ranked.sort Prod.snd (relabel t p q.entries) := by
  rw [reprioritize, if_pos (contains_iff.mpr queued), rule]

include nodup queued

theorem forall_lt_of_lt (raises : old < p) : ∀ entry ∈ q.entries, entry.1 = t → entry.2 < p := by
  rintro ⟨_, priority⟩ member rfl
  rw [priority_unique nodup queued member]
  exact raises

include ordered

/-- To raise a thread is to take it out and to queue it anew. -/
theorem enqueue_erase_of_lt (raises : old < p) :
    (q.erase t).enqueue t p = .ok (q.reprioritize t p) := by
  have absent : (q.erase t).contains t = false := by
    rw [Bool.eq_false_iff, ne_eq, contains_iff, threads_erase]
    exact nodup.not_mem_erase
  have present : q.contains t = true := contains_iff.mpr (mem_threads_of_mem_entries queued)
  rw [reprioritize_of_raises ordered (forall_lt_of_lt nodup queued raises), if_pos present, enqueue,
    absent]
  rfl

variable (rule : q.rule = .stable)

include rule

theorem reprioritize_self : q.reprioritize t old = q := by
  have entries : (q.reprioritize t old).entries = q.entries := by
    rcases exists_entries_eq_of_mem nodup queued with ⟨front, back, entries, _, apart⟩
    rw [entries_reprioritize_of_stable rule (mem_threads_of_mem_entries queued), entries,
      relabel_append_cons (List.forall_mem_append.mp apart).1, ← entries,
      Ranked.Descending.sort_eq ordered]
  exact eq_of_entries (rule_reprioritize q t old) entries

/-- A thread that is lowered gets behind all that stay higher, and ahead of all that do not. -/
theorem entries_reprioritize_of_lt (lowers : p < old) :
    ∃ front back, (q.erase t).entries = front ++ back ∧
      (q.reprioritize t p).entries = front ++ (t, p) :: back ∧
      (∀ entry ∈ front, p < entry.2) ∧ ∀ entry ∈ back, entry.2 ≤ p := by
  rcases exists_entries_eq_of_mem nodup queued with ⟨front, back, entries, left, apart⟩
  have sorted : Ranked.Descending Prod.snd (front ++ back) := left ▸ ordered.erase t
  have ahead : ∀ entry ∈ front, p < entry.2 := by
    intro entry first
    rw [Ordered, entries] at ordered
    exact Nat.lt_of_lt_of_le lowers
      ((List.pairwise_append.mp ordered).2.2 entry first _ List.mem_cons_self)
  rw [entries_reprioritize_of_stable rule (mem_threads_of_mem_entries queued), left, entries,
    relabel_append_cons (List.forall_mem_append.mp apart).1]
  exact Ranked.sort_append_cons_of_lt sorted ahead

/-- Whichever way a thread is moved, it is put in somewhere among the others as they stand. -/
theorem exists_entries_reprioritize : ∃ front back, (q.erase t).entries = front ++ back ∧
    (q.reprioritize t p).entries = front ++ (t, p) :: back := by
  rcases Nat.lt_trichotomy p old with lowers | rfl | raises
  · rcases entries_reprioritize_of_lt ordered nodup queued rule lowers with
      ⟨front, back, left, entries, _⟩
    exact ⟨front, back, left, entries⟩
  · rcases exists_entries_eq_of_mem nodup queued with ⟨front, back, entries, left, _⟩
    exact ⟨front, back, left, by rw [reprioritize_self ordered nodup queued rule, entries]⟩
  · rcases entries_reprioritize ordered (mem_threads_of_mem_entries queued)
      (forall_lt_of_lt nodup queued raises) with ⟨front, back, left, entries, _⟩
    exact ⟨front, back, left, entries⟩

/-- The others keep their order. -/
theorem erase_reprioritize : (q.reprioritize t p).erase t = q.erase t := by
  rcases exists_entries_reprioritize ordered nodup queued rule (p := p) with
    ⟨front, back, left, entries⟩
  have apart : ∀ entry ∈ front, entry.1 ≠ t := by
    intro entry first same
    have member := mem_threads_of_mem_entries
      (left.symm ▸ List.mem_append_left back first : entry ∈ (q.erase t).entries)
    rw [same, threads_erase] at member
    exact nodup.not_mem_erase member
  refine eq_of_entries ((rule_erase _ t).trans (rule_reprioritize q t p)) ?_
  rw [left, erase, entries, List.eraseP_append_right _ (by simpa using apart),
    List.eraseP_cons_of_pos (by simp)]

end Reprioritized

end ReadyQueue

end ThreadKernel
