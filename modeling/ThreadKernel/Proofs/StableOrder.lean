import ThreadKernel.RankedList

/-!
# One order for all ranked lists

A list can be put in order as a whole (`Ranked.sort`) or be kept in order while
elements come in (`Ranked.insert`), and `Ranked.isSorted` tells whether it is.
The three agree.  The order that is meant is `Ordered`: the same elements,
descending, and all that are of one priority as they stood.  There is one such
list only (`ordered_iff`), so every way to reach it is the same way, and an
insertion into an ordered list is the sort of the list with the newcomer last.
-/

namespace ThreadKernel.Ranked

variable {α : Type} {priority : α → Nat} {list result : List α}

theorem isSorted_iff : isSorted priority list = true ↔ Descending priority list := by
  induction list with
  | nil => simp [isSorted, Descending]
  | cons x rest ih =>
    cases rest with
    | nil => simp [isSorted, Descending]
    | cons y rest =>
      rw [isSorted, Bool.and_eq_true, ih, decide_eq_true_iff]
      constructor
      · intro ⟨first, tail⟩
        refine List.pairwise_cons.mpr ⟨List.forall_mem_cons.mpr ⟨first, ?_⟩, tail⟩
        exact fun z later => Nat.le_trans ((List.pairwise_cons.mp tail).1 z later) first
      · intro sorted
        rcases List.pairwise_cons.mp sorted with ⟨above, tail⟩
        exact ⟨above y List.mem_cons_self, tail⟩

/-! ## Elements of one priority -/

/-- The elements of one priority, as they stand. -/
def equals (priority : α → Nat) (p : Nat) (list : List α) : List α :=
  list.filter fun x => priority x = p

@[simp]
theorem mem_equals {p : Nat} {x : α} : x ∈ equals priority p list ↔ x ∈ list ∧ priority x = p := by
  simp [equals]

theorem equals_cons (priority : α → Nat) (p : Nat) (x : α) (list : List α) :
    equals priority p (x :: list) =
      if priority x = p then x :: equals priority p list else equals priority p list := by
  simp [equals, List.filter_cons]

theorem equals_append (priority : α → Nat) (p : Nat) (front back : List α) :
    equals priority p (front ++ back) = equals priority p front ++ equals priority p back :=
  List.filter_append ..

theorem mem_iff_of_equals {front back : List α}
    (same : ∀ p, equals priority p front = equals priority p back) (x : α) :
    x ∈ front ↔ x ∈ back := by
  have level := congrArg (x ∈ ·) (same (priority x))
  simpa using level

/-- What `x` is placed before is lower or its equal, what it passes is neither. -/
theorem equals_place (p : Nat) (x : α) (list : List α) :
    equals priority p (place priority x list) = equals priority p (x :: list) := by
  induction list with
  | nil => rfl
  | cons y ys ih =>
    rw [place]
    split
    · rfl
    · next higher =>
      simp only [equals_cons, ih]
      split
      · next level =>
        have other : priority x ≠ p := by omega
        rw [if_neg other, if_neg other]
      · rfl

theorem equals_sort (p : Nat) (list : List α) :
    equals priority p (sort priority list) = equals priority p list := by
  induction list with
  | nil => rfl
  | cons x xs ih => rw [sort, equals_place, equals_cons, equals_cons, ih]

/-! ## The order that is meant -/

/-- `result` is `list` in order: highest first, and equals in their old order. -/
structure Ordered (priority : α → Nat) (list result : List α) : Prop where
  perm : result.Perm list
  descending : Descending priority result
  equals : ∀ p, equals priority p result = equals priority p list

theorem ordered_sort (priority : α → Nat) (list : List α) :
    Ordered priority list (sort priority list) :=
  ⟨sort_perm priority list, descending_sort priority list, fun p => equals_sort p list⟩

/-- A descending list is known by its elements of each priority. -/
theorem Descending.eq_of_equals {front back : List α} (first : Descending priority front)
    (second : Descending priority back)
    (same : ∀ p, equals priority p front = equals priority p back) : front = back := by
  induction front generalizing back with
  | nil =>
    have none := mem_iff_of_equals same
    exact (List.eq_nil_iff_forall_not_mem.mpr fun y listed => by cases (none y).mpr listed).symm
  | cons x xs ih =>
    have listed : x ∈ back := (mem_iff_of_equals same x).mp List.mem_cons_self
    cases back with
    | nil => cases listed
    | cons y ys =>
      have listed' : y ∈ x :: xs := (mem_iff_of_equals same y).mpr List.mem_cons_self
      rcases List.pairwise_cons.mp first with ⟨belowX, restX⟩
      rcases List.pairwise_cons.mp second with ⟨belowY, restY⟩
      have atMostY : ∀ z ∈ y :: ys, priority z ≤ priority y :=
        List.forall_mem_cons.mpr ⟨Nat.le_refl _, belowY⟩
      have atMostX : ∀ z ∈ x :: xs, priority z ≤ priority x :=
        List.forall_mem_cons.mpr ⟨Nat.le_refl _, belowX⟩
      have level : priority y = priority x := Nat.le_antisymm (atMostX y listed') (atMostY x listed)
      have head := same (priority x)
      rw [equals_cons, equals_cons, if_pos rfl, if_pos level] at head
      injection head with head _
      subst head
      refine congrArg (x :: ·) (ih restX restY fun p => ?_)
      have tail := same p
      rw [equals_cons, equals_cons] at tail
      split at tail
      · exact (List.cons.inj tail).2
      · exact tail

/-- No list but the sorted one is the list in order. -/
theorem ordered_iff : Ordered priority list result ↔ result = sort priority list := by
  constructor
  · intro ordered
    refine ordered.descending.eq_of_equals (descending_sort priority list) fun p => ?_
    rw [ordered.equals, equals_sort]
  · intro eq
    rw [eq]
    exact ordered_sort priority list

/-- To put the front in order first makes no difference. -/
theorem sort_sort_append (front back : List α) :
    sort priority (sort priority front ++ back) = sort priority (front ++ back) := by
  refine ordered_iff.mp ⟨?_, descending_sort priority _, fun p => ?_⟩
  · exact (sort_perm priority _).trans ((sort_perm priority front).append_right back)
  · rw [equals_sort, equals_append, equals_sort, equals_append]

/-! ## Lists that are kept in order -/

/-- An ordered list takes a newcomer where a sort takes it from the end. -/
theorem Descending.insert_eq_sort (sorted : Descending priority list) (x : α) :
    Ranked.insert priority x list = sort priority (list ++ [x]) := by
  rcases insert_eq_append x sorted with ⟨front, back, rfl, inserted, ahead, behind⟩
  rcases List.pairwise_append.mp sorted with ⟨higher, lower, above⟩
  rw [inserted, List.append_assoc, sort_append higher]
  · have last := sort_append_cons behind (List.forall_mem_nil fun y => priority y ≤ priority x)
    rw [last, List.append_nil, Descending.sort_eq lower]
  · intro y first
    refine List.forall_mem_append.mpr ⟨above y first, ?_⟩
    exact List.forall_mem_singleton.mpr (ahead y first)

/-- Elements that are inserted one by one behind an ordered list. -/
theorem foldl_insert (priority : α → Nat) (list items : List α) :
    items.foldl (fun kept x => insert priority x kept) (sort priority list) =
      sort priority (list ++ items) := by
  induction items generalizing list with
  | nil => rw [List.foldl_nil, List.append_nil]
  | cons x items ih =>
    rw [List.foldl_cons, (descending_sort priority list).insert_eq_sort, sort_sort_append, ih,
      List.append_assoc, List.singleton_append]

/-- Insertion one by one, the sort and the test for order agree: the elements inserted into an
empty list are their sort, which is the only list in order that keeps equals as they stood; a list
is its own sort exactly if it passes the test; and a list that passes it passes it again with a
newcomer inserted, and is the sort of the list with the newcomer last. -/
theorem insert_sort_agree (priority : α → Nat) (items : List α) :
    items.foldl (fun kept x => insert priority x kept) [] = sort priority items ∧
    Ordered priority items (sort priority items) ∧
    (∀ result, Ordered priority items result → result = sort priority items) ∧
    (sort priority items = items ↔ isSorted priority items = true) ∧
    (isSorted priority items = true → ∀ x, isSorted priority (insert priority x items) = true ∧
      insert priority x items = sort priority (items ++ [x])) := by
  refine ⟨foldl_insert priority [] items, ordered_sort priority items,
    fun result => ordered_iff.mp, ?_, ?_⟩
  · rw [isSorted_iff]
    constructor
    · intro fixed
      rw [← fixed]
      exact descending_sort priority items
    · exact Descending.sort_eq
  · intro sorted x
    have descending := isSorted_iff.mp sorted
    exact ⟨isSorted_iff.mpr (descending.insert x), descending.insert_eq_sort x⟩

/-- Equals stay in the order in which they came. -/
example : sort Prod.fst [(5, 'a'), (7, 'b'), (5, 'c'), (9, 'd'), (7, 'e')] =
    [(9, 'd'), (7, 'b'), (7, 'e'), (5, 'a'), (5, 'c')] := by decide

end ThreadKernel.Ranked
