import ThreadKernel.LookupOrder

/-!
# Lists ranked by priority

Ready queues, wait lists and donor lists are kept highest priority first, and
elements of equal priority keep their arrival order.  A list is only known to
be ranked at the moment it was last put in order: priorities change while
threads wait, so `insert` and `sort` are defined on every list.

* `Ranked.insert` puts an element behind every one of equal or higher priority
  that precedes the first lower one.
* `Ranked.sort` is the stable sort.
* `Ranked.insertWith` and `Ranked.sortWith` do the same when finding a priority
  may fail.  They fail on the first element they look at that has none, and
  `LookupOrder` says in which order a sort looks: `insertWith_eq` and
  `sortWith_eq` say that otherwise they agree with the plain forms.
-/

namespace ThreadKernel.Ranked

variable {α ε : Type}

/-- Insert `x` before the first element of lower priority. -/
def insert (priority : α → Nat) (x : α) : List α → List α
  | [] => [x]
  | y :: ys => if priority y < priority x then x :: y :: ys else y :: insert priority x ys

/-- Insert `x` before the first element of equal or lower priority. -/
def place (priority : α → Nat) (x : α) : List α → List α
  | [] => [x]
  | y :: ys => if priority y ≤ priority x then x :: y :: ys else y :: place priority x ys

/-- Order by descending priority, equal priorities in their old order: each
element goes in front of its equals that stood behind it. -/
def sort (priority : α → Nat) : List α → List α
  | [] => []
  | x :: xs => place priority x (sort priority xs)

/-- How `x` joins those who wait: they are put in order first. -/
def join (priority : α → Nat) (x : α) (list : List α) : List α :=
  insert priority x (sort priority list)

/-- No element stands behind one of lower priority. -/
def isSorted (priority : α → Nat) : List α → Bool
  | x :: y :: rest => decide (priority y ≤ priority x) && isSorted priority (y :: rest)
  | _ => true

/-! ## Priorities that may be missing -/

/-- The scan of `insertWith`, once the priority of `x` is known to be `key`. -/
def insertScan (rank : α → Except ε Nat) (key : Nat) (x : α) : List α → Except ε (List α)
  | [] => .ok [x]
  | y :: ys => do
    let p ← rank y
    if p < key then pure (x :: y :: ys)
    else pure (y :: (← insertScan rank key x ys))

/-- `insert` for priorities that may be missing: `x` is looked up first, then
the list up to the first lower element. -/
def insertWith (rank : α → Except ε Nat) (x : α) (list : List α) : Except ε (List α) := do
  let key ← rank x
  insertScan rank key x list

/-- Look up every priority, in list order. -/
def withRanks (rank : α → Except ε Nat) : List α → Except ε (List (Nat × α))
  | [] => .ok []
  | x :: xs => do
    let p ← rank x
    pure ((p, x) :: (← withRanks rank xs))

/-- `sort` for priorities that may be missing.  A list of at most one element
is in order whatever its priority, so nothing is looked up for it. -/
def sortWith (rank : α → Except ε Nat) : List α → Except ε (List α)
  | [] => .ok []
  | [x] => .ok [x]
  | x :: y :: rest =>
    match withRanks rank (x :: y :: rest) with
    | .ok ranked => .ok ((sort Prod.fst ranked).map Prod.snd)
    | .error missing => do
      LookupOrder.lookUpAll rank (x :: y :: rest)
      .error missing

/-! ## What the list holds -/

theorem insert_perm (priority : α → Nat) (x : α) (list : List α) :
    (insert priority x list).Perm (x :: list) := by
  induction list with
  | nil => exact .refl _
  | cons y ys ih =>
    simp only [insert]
    split
    · exact .refl _
    · exact (ih.cons y).trans (.swap x y ys)

theorem place_perm (priority : α → Nat) (x : α) (list : List α) :
    (place priority x list).Perm (x :: list) := by
  induction list with
  | nil => exact .refl _
  | cons y ys ih =>
    simp only [place]
    split
    · exact .refl _
    · exact (ih.cons y).trans (.swap x y ys)

theorem sort_perm (priority : α → Nat) (list : List α) : (sort priority list).Perm list := by
  induction list with
  | nil => exact .refl _
  | cons x xs ih => exact (place_perm priority x _).trans (ih.cons x)

theorem join_perm (priority : α → Nat) (x : α) (list : List α) :
    (join priority x list).Perm (x :: list) :=
  (insert_perm priority x _).trans ((sort_perm priority list).cons x)

theorem perm_of_sort_eq_cons {priority : α → Nat} {x : α} {list rest : List α}
    (h : sort priority list = x :: rest) : list.Perm (x :: rest) := by
  rw [← h]
  exact (sort_perm priority list).symm

@[simp]
theorem mem_insert {priority : α → Nat} {x y : α} {list : List α} :
    y ∈ insert priority x list ↔ y = x ∨ y ∈ list := by
  simp [(insert_perm priority x list).mem_iff]

@[simp]
theorem mem_sort {priority : α → Nat} {y : α} {list : List α} :
    y ∈ sort priority list ↔ y ∈ list :=
  (sort_perm priority list).mem_iff

/-! ## Order -/

/-- `isSorted` as a relation between any two elements. -/
def Descending (priority : α → Nat) (list : List α) : Prop :=
  list.Pairwise fun x y => priority y ≤ priority x

theorem Descending.insert {priority : α → Nat} {list : List α} (h : Descending priority list)
    (x : α) : Descending priority (insert priority x list) := by
  induction list with
  | nil => exact List.pairwise_singleton _ _
  | cons y ys ih =>
    obtain ⟨above, tail⟩ := List.pairwise_cons.mp h
    simp only [Ranked.insert]
    split
    · next lower =>
      refine List.pairwise_cons.mpr ⟨fun z hz => ?_, h⟩
      rcases List.mem_cons.mp hz with rfl | hz
      · exact Nat.le_of_lt lower
      · exact Nat.le_trans (above z hz) (Nat.le_of_lt lower)
    · next higher =>
      refine List.pairwise_cons.mpr ⟨fun z hz => ?_, ih tail⟩
      rcases mem_insert.mp hz with rfl | hz
      · exact Nat.le_of_not_lt higher
      · exact above z hz

theorem Descending.place {priority : α → Nat} {list : List α} (h : Descending priority list)
    (x : α) : Descending priority (place priority x list) := by
  induction list with
  | nil => exact List.pairwise_singleton _ _
  | cons y ys ih =>
    obtain ⟨above, tail⟩ := List.pairwise_cons.mp h
    simp only [Ranked.place]
    split
    · next lower =>
      refine List.pairwise_cons.mpr ⟨fun z hz => ?_, h⟩
      rcases List.mem_cons.mp hz with rfl | hz
      · exact lower
      · exact Nat.le_trans (above z hz) lower
    · next higher =>
      refine List.pairwise_cons.mpr ⟨fun z hz => ?_, ih tail⟩
      rcases List.mem_cons.mp ((place_perm priority x ys).mem_iff.mp hz) with rfl | hz
      · exact Nat.le_of_not_le higher
      · exact above z hz

theorem descending_sort (priority : α → Nat) (list : List α) :
    Descending priority (sort priority list) := by
  induction list with
  | nil => exact List.Pairwise.nil
  | cons x xs ih => exact ih.place x

/-- What is sorted first outranks everything. -/
theorem le_of_sort_eq_cons {priority : α → Nat} {list rest : List α} {x y : α}
    (h : sort priority list = x :: rest) (hy : y ∈ list) : priority y ≤ priority x := by
  have sorted := descending_sort priority list
  rw [h] at sorted
  have hy : y ∈ x :: rest := by rw [← h]; exact mem_sort.mpr hy
  rcases List.mem_cons.mp hy with rfl | hy
  · exact Nat.le_refl _
  · exact (List.pairwise_cons.mp sorted).1 y hy

/-- What nothing in the list outranks is placed in front. -/
theorem place_eq_cons {priority : α → Nat} {x : α} {list : List α}
    (above : ∀ y ∈ list, priority y ≤ priority x) : place priority x list = x :: list := by
  cases list with
  | nil => rfl
  | cons y ys => rw [place, if_pos (above y List.mem_cons_self)]

/-- What outranks the whole list is inserted in front. -/
theorem insert_eq_cons {priority : α → Nat} {x : α} {list : List α}
    (above : ∀ y ∈ list, priority y < priority x) : insert priority x list = x :: list := by
  cases list with
  | nil => rfl
  | cons y ys => rw [insert, if_pos (above y List.mem_cons_self)]

/-- What is inserted passes all that it does not outrank. -/
theorem insert_append {priority : α → Nat} {x : α} {front : List α} (back : List α)
    (ahead : ∀ y ∈ front, priority x ≤ priority y) :
    insert priority x (front ++ back) = front ++ insert priority x back := by
  induction front with
  | nil => rfl
  | cons y front ih =>
    rcases List.forall_mem_cons.mp ahead with ⟨le, ahead⟩
    rw [List.cons_append, insert, if_neg (Nat.not_lt_of_le le), ih ahead, List.cons_append]

/-- The first of the highest comes first, and the others are put in order as if it were not there. -/
theorem sort_append_cons {priority : α → Nat} {x : α} {front back : List α}
    (ahead : ∀ y ∈ front, priority y < priority x) (behind : ∀ y ∈ back, priority y ≤ priority x) :
    sort priority (front ++ x :: back) = x :: sort priority (front ++ back) := by
  induction front with
  | nil => exact place_eq_cons fun y listed => behind y (mem_sort.mp listed)
  | cons z front ih =>
    rcases List.forall_mem_cons.mp ahead with ⟨below, ahead⟩
    rw [List.cons_append, sort, ih ahead, place, if_neg (Nat.not_le_of_lt below), List.cons_append,
      sort]

/-- What is inserted divides the list: nobody before it is lower, all behind it are. -/
theorem insert_eq_append {priority : α → Nat} (x : α) {list : List α}
    (sorted : Descending priority list) : ∃ front back,
    list = front ++ back ∧ insert priority x list = front ++ x :: back ∧
      (∀ y ∈ front, priority x ≤ priority y) ∧ ∀ y ∈ back, priority y < priority x := by
  induction list with
  | nil => exact ⟨[], [], rfl, rfl, List.forall_mem_nil _, List.forall_mem_nil _⟩
  | cons z rest ih =>
    rcases List.pairwise_cons.mp sorted with ⟨below, sorted⟩
    by_cases lower : priority z < priority x
    · refine ⟨[], z :: rest, rfl, if_pos lower, List.forall_mem_nil _, ?_⟩
      exact List.forall_mem_cons.mpr ⟨lower, fun y behind => Nat.lt_of_le_of_lt (below y behind) lower⟩
    · rcases ih sorted with ⟨front, back, rfl, inserted, ahead, behind⟩
      refine ⟨z :: front, back, rfl, ?_, ?_, behind⟩
      · rw [insert, if_neg lower, inserted, List.cons_append]
      · exact List.forall_mem_cons.mpr ⟨Nat.le_of_not_lt lower, ahead⟩

/-- What is placed divides the list: all before it are higher, nobody behind it is. -/
theorem place_eq_append {priority : α → Nat} (x : α) {list : List α}
    (sorted : Descending priority list) : ∃ front back,
    list = front ++ back ∧ place priority x list = front ++ x :: back ∧
      (∀ y ∈ front, priority x < priority y) ∧ ∀ y ∈ back, priority y ≤ priority x := by
  induction list with
  | nil => exact ⟨[], [], rfl, rfl, List.forall_mem_nil _, List.forall_mem_nil _⟩
  | cons z rest ih =>
    rcases List.pairwise_cons.mp sorted with ⟨below, sorted⟩
    by_cases le : priority z ≤ priority x
    · refine ⟨[], z :: rest, rfl, if_pos le, List.forall_mem_nil _, ?_⟩
      exact List.forall_mem_cons.mpr ⟨le, fun y behind => Nat.le_trans (below y behind) le⟩
    · rcases ih sorted with ⟨front, back, rfl, placed, ahead, behind⟩
      refine ⟨z :: front, back, rfl, ?_, ?_, behind⟩
      · rw [place, if_neg le, placed, List.cons_append]
      · exact List.forall_mem_cons.mpr ⟨Nat.lt_of_not_le le, ahead⟩

theorem Descending.sort_eq {priority : α → Nat} {list : List α}
    (sorted : Descending priority list) : sort priority list = list := by
  induction list with
  | nil => rfl
  | cons x xs ih =>
    rcases List.pairwise_cons.mp sorted with ⟨above, tail⟩
    rw [sort, ih tail, place_eq_cons above]

/-- What is in order and nowhere lower than the rest stays in front of it. -/
theorem sort_append {priority : α → Nat} {front rest : List α}
    (sorted : Descending priority front)
    (above : ∀ y ∈ front, ∀ z ∈ rest, priority z ≤ priority y) :
    sort priority (front ++ rest) = front ++ sort priority rest := by
  induction front with
  | nil => rfl
  | cons z front ih =>
    rcases List.pairwise_cons.mp sorted with ⟨below, sorted⟩
    rcases List.forall_mem_cons.mp above with ⟨first, above⟩
    rw [List.cons_append, sort, ih sorted above, List.cons_append]
    apply place_eq_cons
    intro y member
    rcases List.mem_append.mp member with ahead | behind
    · exact below y ahead
    · exact first y (mem_sort.mp behind)

/-- What has got lower is sorted in behind all that are higher, and ahead of its equals. -/
theorem sort_append_cons_of_lt {priority : α → Nat} {x : α} {front back : List α}
    (sorted : Descending priority (front ++ back)) (ahead : ∀ y ∈ front, priority x < priority y) :
    ∃ front' back', front ++ back = front' ++ back' ∧
      sort priority (front ++ x :: back) = front' ++ x :: back' ∧
      (∀ y ∈ front', priority x < priority y) ∧ ∀ y ∈ back', priority y ≤ priority x := by
  rcases List.pairwise_append.mp sorted with ⟨higher, lower, above⟩
  rcases place_eq_append x lower with ⟨middle, back', rfl, placed, between, behind⟩
  refine ⟨front ++ middle, back', (List.append_assoc ..).symm, ?_,
    List.forall_mem_append.mpr ⟨ahead, between⟩, behind⟩
  rw [sort_append higher, sort, Descending.sort_eq lower, placed, List.append_assoc]
  exact fun y first => List.forall_mem_cons.mpr ⟨Nat.le_of_lt (ahead y first), above y first⟩

/-- Placing and inserting come to the same if nothing is of equal priority. -/
theorem place_eq_insert_iff {priority : α → Nat} {x : α} {list : List α}
    (sorted : Descending priority list) (fresh : x ∉ list) :
    place priority x list = insert priority x list ↔ ∀ y ∈ list, priority y ≠ priority x := by
  induction list with
  | nil => exact ⟨fun _ => List.forall_mem_nil _, fun _ => rfl⟩
  | cons y ys ih =>
    rcases List.pairwise_cons.mp sorted with ⟨above, tail⟩
    rw [place, insert, List.forall_mem_cons]
    rcases Nat.lt_trichotomy (priority y) (priority x) with lower | equal | higher
    · rw [if_pos (Nat.le_of_lt lower), if_pos lower]
      have below : ∀ z ∈ ys, priority z ≠ priority x := fun z later =>
        Nat.ne_of_lt (Nat.lt_of_le_of_lt (above z later) lower)
      exact ⟨fun _ => ⟨Nat.ne_of_lt lower, below⟩, fun _ => rfl⟩
    · rw [if_pos (Nat.le_of_eq equal), if_neg (by omega)]
      constructor
      · intro same
        injection same with first _
        exact absurd (first ▸ List.mem_cons_self) fresh
      · exact fun ⟨other, _⟩ => absurd equal other
    · rw [if_neg (by omega), if_neg (by omega), List.cons.injEq,
        ih tail fun later => fresh (List.mem_cons_of_mem y later)]
      exact ⟨fun ⟨_, rest⟩ => ⟨Nat.ne_of_gt higher, rest⟩, fun ⟨_, rest⟩ => ⟨rfl, rest⟩⟩

/-- An element that may be out of order is sorted in where it would be inserted, unless an equal
stands behind it. -/
theorem sort_append_cons_eq_insert_iff {priority : α → Nat} {x : α} {front back : List α}
    (sorted : Descending priority (front ++ back)) (fresh : x ∉ back) :
    sort priority (front ++ x :: back) = insert priority x (front ++ back) ↔
      ∀ y ∈ back, priority y ≠ priority x := by
  induction front with
  | nil =>
    have sorted : Descending priority back := sorted
    rw [List.nil_append, List.nil_append, sort, Descending.sort_eq sorted]
    exact place_eq_insert_iff sorted fresh
  | cons z front ih =>
    have sorted : Descending priority (z :: (front ++ back)) := sorted
    rcases List.pairwise_cons.mp sorted with ⟨above, tail⟩
    have ih := ih tail
    rw [List.cons_append, List.cons_append, sort, insert]
    by_cases lower : priority z < priority x
    · have below : ∀ y ∈ front ++ back, priority y < priority x := fun y member =>
        Nat.lt_of_le_of_lt (above y member) lower
      have unequal : ∀ y ∈ back, priority y ≠ priority x := fun y member =>
        Nat.ne_of_lt (below y (List.mem_append_right front member))
      rw [if_pos lower, ih.mpr unequal, insert_eq_cons below, place, if_neg (Nat.not_le_of_lt lower),
        place_eq_cons above]
      exact ⟨fun _ => unequal, fun _ => rfl⟩
    · have highest : ∀ y ∈ sort priority (front ++ x :: back), priority y ≤ priority z := by
        intro y member
        rcases List.mem_append.mp (mem_sort.mp member) with ahead | behind
        · exact above y (List.mem_append_left back ahead)
        · rcases List.mem_cons.mp behind with rfl | behind
          · exact Nat.le_of_not_lt lower
          · exact above y (List.mem_append_right front behind)
      rw [if_neg lower, place_eq_cons highest, List.cons.injEq, ih]
      exact and_iff_right rfl

/-! ## Lists of what stands for the elements -/

section Map

variable {β : Type} (priority : β → Nat) (f : α → β) (x : α) (list : List α)

theorem insert_map : insert priority (f x) (list.map f) =
    (insert (fun y => priority (f y)) x list).map f := by
  induction list with
  | nil => rfl
  | cons y ys ih =>
    simp only [List.map_cons, insert]
    split <;> simp only [List.map_cons, ih]

theorem place_map : place priority (f x) (list.map f) =
    (place (fun y => priority (f y)) x list).map f := by
  induction list with
  | nil => rfl
  | cons y ys ih =>
    simp only [List.map_cons, place]
    split <;> simp only [List.map_cons, ih]

theorem sort_map : sort priority (list.map f) = (sort (fun y => priority (f y)) list).map f := by
  induction list with
  | nil => rfl
  | cons x xs ih => rw [List.map_cons, sort, ih, place_map, sort]

theorem join_map : join priority (f x) (list.map f) =
    (join (fun y => priority (f y)) x list).map f := by
  rw [join, sort_map, insert_map, join]

end Map

section Congr

variable {priority priority' : α → Nat} {x : α} {list : List α}

theorem place_congr (first : priority x = priority' x)
    (same : ∀ y ∈ list, priority y = priority' y) :
    place priority x list = place priority' x list := by
  induction list with
  | nil => rfl
  | cons y ys ih =>
    rcases List.forall_mem_cons.mp same with ⟨second, same⟩
    rw [place, place, first, second, ih same]

/-- Only the priorities of the elements count. -/
theorem sort_congr (same : ∀ y ∈ list, priority y = priority' y) :
    sort priority list = sort priority' list := by
  induction list with
  | nil => rfl
  | cons y ys ih =>
    rcases List.forall_mem_cons.mp same with ⟨first, same⟩
    rw [sort, sort, ← ih same]
    exact place_congr first fun z listed => same z (mem_sort.mp listed)

theorem Descending.congr (descending : Descending priority list)
    (same : ∀ y ∈ list, priority' y = priority y) : Descending priority' list := by
  refine List.Pairwise.imp_of_mem (fun {x y} first second le => ?_) descending
  rw [same x first, same y second]
  exact le

end Congr

/-! ## Who came first -/

theorem sublist_insert (priority : α → Nat) (x : α) (list : List α) :
    list.Sublist (insert priority x list) := by
  induction list with
  | nil => exact List.nil_sublist _
  | cons y ys ih =>
    rw [insert]
    split
    · exact List.sublist_cons_self x _
    · exact ih.cons_cons y

theorem sublist_place (priority : α → Nat) (x : α) (list : List α) :
    list.Sublist (place priority x list) := by
  induction list with
  | nil => exact List.nil_sublist _
  | cons y ys ih =>
    rw [place]
    split
    · exact List.sublist_cons_self x _
    · exact ih.cons_cons y

/-- What is placed stands in front of all that do not outrank it. -/
theorem pair_sublist_place {priority : α → Nat} {x y : α} {list : List α} (listed : y ∈ list)
    (le : priority y ≤ priority x) : [x, y].Sublist (place priority x list) := by
  induction list with
  | nil => cases listed
  | cons z zs ih =>
    rw [place]
    split
    · exact (List.singleton_sublist.mpr listed).cons_cons x
    · next above =>
      rcases List.mem_cons.mp listed with rfl | listed
      · exact absurd le above
      · exact (ih listed).cons z

/-- A sort keeps two elements in their order unless the later one outranks the earlier. -/
theorem pair_sublist_sort {priority : α → Nat} {x y : α} {list : List α}
    (ordered : [x, y].Sublist list) (le : priority y ≤ priority x) :
    [x, y].Sublist (sort priority list) := by
  induction list with
  | nil => cases ordered
  | cons z zs ih =>
    rw [sort]
    cases ordered with
    | cons _ ordered => exact (ih ordered).trans (sublist_place priority z _)
    | cons_cons _ later => exact pair_sublist_place (mem_sort.mpr (later.subset (.head _))) le

/-- Who joins stands behind all that it does not outrank. -/
theorem pair_sublist_join_self {priority : α → Nat} {x y : α} {list : List α} (listed : x ∈ list)
    (le : priority y ≤ priority x) : [x, y].Sublist (join priority y list) := by
  rcases insert_eq_append y (descending_sort priority list) with
    ⟨front, back, sorted, inserted, _, behind⟩
  rw [join, inserted]
  have listed : x ∈ front ++ back := by
    rw [← sorted]
    exact mem_sort.mpr listed
  rcases List.mem_append.mp listed with ahead | lower
  · exact List.Sublist.append (List.singleton_sublist.mpr ahead)
      ((List.nil_sublist back).cons_cons y)
  · exact absurd (behind x lower) (Nat.not_lt_of_le le)

/-- Those who wait keep their order when another one joins. -/
theorem pair_sublist_join {priority : α → Nat} {x y : α} {list : List α}
    (ordered : [x, y].Sublist list) (le : priority y ≤ priority x) (z : α) :
    [x, y].Sublist (join priority z list) :=
  (pair_sublist_sort ordered le).trans (sublist_insert priority z _)

/-! ## Agreement with the plain forms -/

theorem insertScan_eq {rank : α → Except ε Nat} {priority : α → Nat} {x : α} {list : List α}
    (found : ∀ y ∈ list, rank y = .ok (priority y)) :
    insertScan rank (priority x) x list = .ok (insert priority x list) := by
  induction list with
  | nil => rfl
  | cons y ys ih =>
    have tail := ih fun z hz => found z (List.mem_cons_of_mem y hz)
    simp only [insertScan, insert, found y List.mem_cons_self, bind, Except.bind, tail]
    split <;> rfl

theorem insertWith_eq {rank : α → Except ε Nat} {priority : α → Nat} {x : α} {list : List α}
    (hx : rank x = .ok (priority x)) (found : ∀ y ∈ list, rank y = .ok (priority y)) :
    insertWith rank x list = .ok (insert priority x list) := by
  simp only [insertWith, hx, bind, Except.bind]
  exact insertScan_eq found

theorem withRanks_eq {rank : α → Except ε Nat} {priority : α → Nat} {list : List α}
    (found : ∀ y ∈ list, rank y = .ok (priority y)) :
    withRanks rank list = .ok (list.map fun y => (priority y, y)) := by
  induction list with
  | nil => rfl
  | cons y ys ih =>
    have tail := ih fun z hz => found z (List.mem_cons_of_mem y hz)
    simp only [withRanks, found y List.mem_cons_self, bind, Except.bind, tail, List.map_cons]
    rfl

theorem sortWith_eq {rank : α → Except ε Nat} {priority : α → Nat} {list : List α}
    (found : ∀ y ∈ list, rank y = .ok (priority y)) :
    sortWith rank list = .ok (sort priority list) := by
  match list with
  | [] => rfl
  | [x] => rfl
  | x :: y :: rest =>
    simp only [sortWith, withRanks_eq found, sort_map, List.map_map]
    exact congrArg Except.ok (List.map_id _)

/-! ## What is in the list when every priority was found -/

theorem withRanks_map_snd {rank : α → Except ε Nat} {list : List α} {ranked : List (Nat × α)}
    (h : withRanks rank list = .ok ranked) : ranked.map Prod.snd = list := by
  induction list generalizing ranked with
  | nil => cases h; rfl
  | cons x xs ih =>
    simp only [withRanks] at h
    cases hx : rank x with
    | error e => rw [hx] at h; cases h
    | ok p =>
      cases hxs : withRanks rank xs with
      | error e => rw [hx, hxs] at h; cases h
      | ok tail =>
        rw [hx, hxs] at h
        cases h
        exact congrArg (x :: ·) (ih hxs)

theorem sortWith_perm {rank : α → Except ε Nat} {list result : List α}
    (h : sortWith rank list = .ok result) : result.Perm list := by
  match list with
  | [] => cases h; exact .refl _
  | [_] => cases h; exact .refl _
  | x :: y :: rest =>
    simp only [sortWith] at h
    split at h
    · next ranked ranks =>
      cases h
      have perm := (sort_perm Prod.fst ranked).map Prod.snd
      rwa [withRanks_map_snd ranks] at perm
    · next missing _ =>
      cases looked : LookupOrder.lookUpAll rank (x :: y :: rest) <;> rw [looked] at h <;> cases h

/-! ## The plain form when every priority was found -/

section Known

variable {rank : α → Except ε Nat} {priority : α → Nat}
  (known : ∀ y p, rank y = .ok p → priority y = p)

include known

theorem eq_insert_of_insertScan {x : α} {list result : List α}
    (h : insertScan rank (priority x) x list = .ok result) :
    result = insert priority x list := by
  induction list generalizing result with
  | nil => cases h; rfl
  | cons y ys ih =>
    simp only [insertScan] at h
    cases hy : rank y with
    | error e => rw [hy] at h; cases h
    | ok p =>
      simp only [hy, bind, Except.bind] at h
      rw [insert, known y p hy]
      split at h
      · next lower =>
        cases h
        rw [if_pos lower]
      · next higher =>
        cases hys : insertScan rank (priority x) x ys with
        | error e => rw [hys] at h; cases h
        | ok tail =>
          rw [hys] at h
          cases h
          rw [if_neg higher, ih hys]

/-- The elements behind the first lower one need no priority. -/
theorem eq_insert_of_insertWith {x : α} {list result : List α}
    (h : insertWith rank x list = .ok result) : result = insert priority x list := by
  simp only [insertWith] at h
  cases hx : rank x with
  | error e => rw [hx] at h; cases h
  | ok key =>
    rw [hx] at h
    cases known x key hx
    exact eq_insert_of_insertScan known h

theorem rank_of_withRanks {list : List α} {ranked : List (Nat × α)}
    (h : withRanks rank list = .ok ranked) : ∀ y ∈ list, rank y = .ok (priority y) := by
  induction list generalizing ranked with
  | nil => exact List.forall_mem_nil _
  | cons x xs ih =>
    simp only [withRanks] at h
    cases hx : rank x with
    | error e => rw [hx] at h; cases h
    | ok p =>
      cases hxs : withRanks rank xs with
      | error e => rw [hx, hxs] at h; cases h
      | ok tail =>
        refine List.forall_mem_cons.mpr ⟨?_, ih hxs⟩
        rw [hx, known x p hx]

theorem eq_sort_of_sortWith {list result : List α} (h : sortWith rank list = .ok result) :
    result = sort priority list := by
  match list with
  | [] => cases h; rfl
  | [_] => cases h; rfl
  | x :: y :: rest =>
    cases ranks : withRanks rank (x :: y :: rest) with
    | ok ranked =>
      have found := rank_of_withRanks known ranks
      exact (Except.ok.inj ((sortWith_eq found).symm.trans h)).symm
    | error missing =>
      simp only [sortWith, ranks] at h
      cases looked : LookupOrder.lookUpAll rank (x :: y :: rest) <;> rw [looked] at h <;> cases h

end Known

/-! ## Failures -/

theorem withRanks_error {rank : α → Except ε Nat} {list : List α} {e : ε}
    (h : withRanks rank list = .error e) : ∃ x ∈ list, rank x = .error e := by
  induction list with
  | nil => cases h
  | cons x xs ih =>
    simp only [withRanks] at h
    cases hx : rank x with
    | error e' =>
      rw [hx] at h
      cases h
      exact ⟨x, List.mem_cons_self, hx⟩
    | ok p =>
      cases hxs : withRanks rank xs with
      | error e' =>
        rw [hx, hxs] at h
        cases h
        rcases ih hxs with ⟨y, hy, failed⟩
        exact ⟨y, List.mem_cons_of_mem x hy, failed⟩
      | ok ranked =>
        rw [hx, hxs] at h
        cases h

theorem insertScan_error {rank : α → Except ε Nat} {key : Nat} {x : α} {list : List α} {e : ε}
    (h : insertScan rank key x list = .error e) : ∃ y ∈ list, rank y = .error e := by
  induction list with
  | nil => cases h
  | cons y ys ih =>
    simp only [insertScan] at h
    cases hy : rank y with
    | error e' =>
      rw [hy] at h
      cases h
      exact ⟨y, List.mem_cons_self, hy⟩
    | ok p =>
      rw [hy] at h
      simp only [bind, Except.bind] at h
      split at h
      · cases h
      · cases hys : insertScan rank key x ys with
        | error e' =>
          rw [hys] at h
          cases h
          rcases ih hys with ⟨z, hz, failed⟩
          exact ⟨z, List.mem_cons_of_mem y hz, failed⟩
        | ok tail =>
          rw [hys] at h
          cases h

/-- A failure is always that of an element. -/
theorem insertWith_error {rank : α → Except ε Nat} {x : α} {list : List α} {e : ε}
    (h : insertWith rank x list = .error e) : ∃ y ∈ x :: list, rank y = .error e := by
  simp only [insertWith] at h
  cases hx : rank x with
  | error e' =>
    rw [hx] at h
    cases h
    exact ⟨x, List.mem_cons_self, hx⟩
  | ok key =>
    rw [hx] at h
    rcases insertScan_error h with ⟨y, hy, failed⟩
    exact ⟨y, List.mem_cons_of_mem x hy, failed⟩

theorem sortWith_error {rank : α → Except ε Nat} {list : List α} {e : ε}
    (h : sortWith rank list = .error e) : ∃ x ∈ list, rank x = .error e := by
  match list with
  | [] => cases h
  | [_] => cases h
  | x :: y :: rest =>
    simp only [sortWith] at h
    split at h
    · cases h
    · next missing ranks =>
      cases looked : LookupOrder.lookUpAll rank (x :: y :: rest) with
      | error e' =>
        rw [looked] at h
        cases h
        exact LookupOrder.lookUpAll_error looked
      | ok _ =>
        rw [looked] at h
        cases h
        exact withRanks_error ranks

end ThreadKernel.Ranked
