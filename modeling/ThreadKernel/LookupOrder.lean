/-!
# In which order a sort looks its elements up

Sorting a list whose priorities may be missing fails on the first missing one
that it looks up, so a failure shows in which order a sort looks at its
elements for the first time.  This module follows a stable sort just far enough
to know that order; what the sorted list is, `Ranked.sort` says.

A short list is sorted by insertion, from the front.  A longer one is cut into
runs, from the front:

* A long stretch in order, or strictly in reverse order, is a run as it stands.
* Any other stretch is sorted on its own, at once if the list is not very long.
  In a very long list it is left for later, so that neighbouring stretches can
  be sorted together.

Runs are merged with their neighbours along a balanced tree, whose shape
`boundaryLevel` gives.  Once all elements of a stretch have been looked at,
nothing that is done to it matters here.

* `lookUpAll_error` says that a failure is always that of an element.
-/

namespace ThreadKernel.LookupOrder

variable {α ε : Type}

/-! ## Stretches that are sorted on their own -/

/-- The positions of the stretch of `size` elements from `start` on. -/
def span (start size : Nat) : List Nat := List.range' start size

/-- A stretch whose elements are inserted one after the other.  A single
element is in order without being looked at. -/
def insertionOrder (start size : Nat) : List Nat := if size = 1 then [] else span start size

/-- A stretch that is sorted in two halves.  First a block at the front of each
half is put in order, then the rest of each half is inserted, and at last the
halves are merged. -/
def halvesOrder (start size : Nat) : List Nat :=
  let half := size / 2
  let block := if 16 ≤ size then 8 else if 8 ≤ size then 4 else 0
  span start block ++ span (start + half) block ++
    insertionOrder start half ++ insertionOrder (start + half) (size - half) ++
    span start size

/-- The elements among which a pivot is chosen: the middle one of three, each
of which is itself the middle one of three when they lie far apart. -/
def pivotOrder (start step : Nat) : List Nat :=
  if step < 8 then [start + 4 * step, start, start + 7 * step]
  else
    pivotOrder start (step / 8) ++ pivotOrder (start + 4 * step) (step / 8) ++
      pivotOrder (start + 7 * step) (step / 8)
termination_by step

/-- Most elements of a stretch that is sorted in two halves. -/
def halvesLimit : Nat := 32

/-- A stretch sorted on its own.  A long one is divided by a pivot, with which
every element is compared. -/
def stretchOrder (start size : Nat) : List Nat :=
  if size ≤ halvesLimit then halvesOrder start size
  else pivotOrder start (size / 8) ++ span start size

/-! ## Runs -/

/-- A stretch that takes part in merging. -/
structure Run where
  start : Nat
  size : Nat
  /-- Whether it is in order.  If not, it is still to be sorted. -/
  inOrder : Bool

/-- The position behind a run. -/
def Run.stop (r : Run) : Nat := r.start + r.size

/-- How far up in the tree of merges the boundary at `middle`, between a run
from `start` and one up to `stop`, is.  Seen as binary fractions of the whole,
the middles of the two runs differ first at this bit. -/
def boundaryLevel (total start middle stop : Nat) : Nat :=
  let scale := (0x4000000000000000 + total - 1) / total
  Nat.log2 ((scale * (start + middle)) ^^^ (scale * (middle + stop)))

/-- The root of `n`, roughly. -/
def roughRoot (n : Nat) : Nat :=
  let shift := (1 + Nat.log2 n) / 2
  ((1 <<< shift) + (n >>> shift)) / 2

/-- How long a stretch in order has to be to stand as a run. -/
def goodSize (total : Nat) : Nat :=
  if total ≤ 4096 then min (total - total / 2) 64 else roughRoot total

/-- Longest list that is sorted by insertion. -/
def insertionLimit : Nat := 20

/-- Longest list in which every stretch is sorted at once. -/
def eagerLimit : Nat := 64

/-! ## Looking up -/

/-- Look up the elements at these positions. -/
def lookUp (rank : α → Except ε Nat) (list : List α) : List Nat → Except ε Unit
  | [] => .ok ()
  | i :: rest => do
    if let some x := list[i]? then
      let _ ← rank x
    lookUp rank list rest

/-- How many elements carry on a run that is rising, or is not, after an element
of priority `p`. -/
def carryOn (rank : α → Except ε Nat) (rising : Bool) (p : Nat) : List α → Except ε Nat
  | [] => .ok 0
  | x :: rest => do
    let q ← rank x
    if decide (p < q) = rising then pure ((← carryOn rank rising q rest) + 1)
    else pure 0

/-- The size of the longest stretch at the front whose priorities nowhere rise,
or rise everywhere. -/
def naturalSize (rank : α → Except ε Nat) : List α → Except ε Nat
  | x :: y :: rest => do
    let p ← rank x
    let q ← rank y
    pure ((← carryOn rank (decide (p < q)) q rest) + 2)
  | list => .ok list.length

/-- Sort a run, unless it is in order. -/
def settle (rank : α → Except ε Nat) (list : List α) (r : Run) : Except ε Unit :=
  if r.inOrder then .ok () else lookUp rank list (stretchOrder r.start r.size)

/-- Merge two neighbours.  Two stretches that are still to be sorted become one. -/
def merge (rank : α → Except ε Nat) (list : List α) (left right : Run) : Except ε Run := do
  let size := left.size + right.size
  if left.inOrder || right.inOrder then
    settle rank list left
    settle rank list right
    pure { start := left.start, size, inOrder := true }
  else
    pure { start := left.start, size, inOrder := false }

/-- The size of the stretch at the front that may stand as a run.  What is too
short for that is not looked at. -/
def standingSize (rank : α → Except ε Nat) (good : Nat) (rest : List α) : Except ε Nat :=
  if good ≤ rest.length then naturalSize rank rest else .ok 0

/-- The run from `start` on. -/
def nextRun (rank : α → Except ε Nat) (list : List α) (start : Nat) : Except ε Run := do
  let rest := list.drop start
  let good := goodSize list.length
  let standing ← standingSize rank good rest
  if good ≤ standing then
    pure { start, size := standing, inOrder := true }
  else if list.length ≤ eagerLimit then
    let size := min halvesLimit rest.length
    lookUp rank list (stretchOrder start size)
    pure { start, size, inOrder := true }
  else
    pure { start, size := min good rest.length, inOrder := false }

/-- Merge `r` with the pending runs on its left, as long as the boundary between
them is not above `level`. -/
def collapse (rank : α → Except ε Nat) (list : List α) (level : Nat) :
    List (Run × Nat) → Run → Except ε (List (Run × Nat) × Run)
  | [], r => .ok ([], r)
  | (left, boundary) :: pending, r =>
    if boundary ≤ level then do
      collapse rank list level pending (← merge rank list left r)
    else .ok ((left, boundary) :: pending, r)

/-- Merge `r` with all pending runs. -/
def collapseAll (rank : α → Except ε Nat) (list : List α) :
    List (Run × Nat) → Run → Except ε Run
  | [], r => .ok r
  | (left, _) :: pending, r => do collapseAll rank list pending (← merge rank list left r)

/-- Cut what stands behind `r` into runs, at most so many, and merge all.  Each
pending run comes with the level of the boundary behind it. -/
def mergeRuns (rank : α → Except ε Nat) (list : List α) :
    Nat → List (Run × Nat) → Run → Except ε Unit
  | 0, _, _ => .ok ()
  | runs + 1, pending, r => do
    if r.stop < list.length then
      let next ← nextRun rank list r.stop
      let level := boundaryLevel list.length r.start r.stop next.stop
      let (pending, r) ← collapse rank list level pending r
      mergeRuns rank list runs ((r, level) :: pending) next
    else
      settle rank list (← collapseAll rank list pending r)

/-- Look up all elements, in the order in which a sort does. -/
def lookUpAll (rank : α → Except ε Nat) (list : List α) : Except ε Unit := do
  if list.length ≤ insertionLimit then
    lookUp rank list (span 0 list.length)
  else
    mergeRuns rank list list.length [] (← nextRun rank list 0)

/-! ## Failures -/

/-- Whatever `act` fails with, an element of the list fails with. -/
def FailsWithin (rank : α → Except ε Nat) (list : List α) {β : Type} (act : Except ε β) : Prop :=
  ∀ e, act = .error e → ∃ x ∈ list, rank x = .error e

section

variable {β γ : Type} {rank : α → Except ε Nat} {list : List α}

theorem FailsWithin.ok (b : β) : FailsWithin rank list (.ok b) := fun _ h => nomatch h

theorem FailsWithin.look {x : α} (hx : x ∈ list) : FailsWithin rank list (rank x) :=
  fun _ h => ⟨x, hx, h⟩

theorem FailsWithin.bind {act : Except ε β} {rest : β → Except ε γ}
    (first : FailsWithin rank list act) (later : ∀ b, FailsWithin rank list (rest b)) :
    FailsWithin rank list (act >>= rest) := by
  intro e h
  cases act with
  | error _ => exact first e (by cases h; rfl)
  | ok b => exact later b e h

theorem lookUp_fails (positions : List Nat) : FailsWithin rank list (lookUp rank list positions) := by
  induction positions with
  | nil => exact .ok ()
  | cons i rest ih =>
    unfold lookUp
    split
    · next x found => exact .bind (.look (List.mem_of_getElem? found)) fun _ => ih
    · exact ih

theorem carryOn_fails (rising : Bool) (p : Nat) {front : List α} (within : ∀ x ∈ front, x ∈ list) :
    FailsWithin rank list (carryOn rank rising p front) := by
  induction front generalizing p with
  | nil => exact .ok 0
  | cons x rest ih =>
    refine .bind (.look (within x List.mem_cons_self)) fun q => ?_
    split
    · exact .bind (ih q fun y hy => within y (List.mem_cons_of_mem x hy)) fun _ => .ok _
    · exact .ok 0

theorem naturalSize_fails {front : List α} (within : ∀ x ∈ front, x ∈ list) :
    FailsWithin rank list (naturalSize rank front) := by
  match front with
  | [] => exact .ok 0
  | [_] => exact .ok 1
  | x :: y :: rest =>
    refine .bind (.look (within x (by simp))) fun p => ?_
    refine .bind (.look (within y (by simp))) fun q => ?_
    exact .bind (carryOn_fails _ q fun z hz => within z (by simp [hz])) fun _ => .ok _

theorem settle_fails (r : Run) : FailsWithin rank list (settle rank list r) := by
  unfold settle
  split
  · exact .ok ()
  · exact lookUp_fails _

theorem merge_fails (left right : Run) : FailsWithin rank list (merge rank list left right) := by
  unfold merge
  split
  · exact .bind (settle_fails left) fun _ => .bind (settle_fails right) fun _ => .ok _
  · exact .ok _

theorem nextRun_fails (start : Nat) : FailsWithin rank list (nextRun rank list start) := by
  have standing : FailsWithin rank list
      (standingSize rank (goodSize list.length) (list.drop start)) := by
    unfold standingSize
    split
    · exact naturalSize_fails fun _ => List.mem_of_mem_drop
    · exact .ok 0
  refine .bind standing fun size => ?_
  split
  · exact .ok _
  · split
    · exact .bind (lookUp_fails _) fun _ => .ok _
    · exact .ok _

theorem collapse_fails (level : Nat) (pending : List (Run × Nat)) (r : Run) :
    FailsWithin rank list (collapse rank list level pending r) := by
  induction pending generalizing r with
  | nil => exact .ok _
  | cons left pending ih =>
    unfold collapse
    split
    · exact .bind (merge_fails left.1 r) fun merged => ih merged
    · exact .ok _

theorem collapseAll_fails (pending : List (Run × Nat)) (r : Run) :
    FailsWithin rank list (collapseAll rank list pending r) := by
  induction pending generalizing r with
  | nil => exact .ok _
  | cons left pending ih => exact .bind (merge_fails left.1 r) fun merged => ih merged

theorem mergeRuns_fails (runs : Nat) (pending : List (Run × Nat)) (r : Run) :
    FailsWithin rank list (mergeRuns rank list runs pending r) := by
  induction runs generalizing pending r with
  | zero => exact .ok ()
  | succ runs ih =>
    unfold mergeRuns
    split
    · refine .bind (nextRun_fails r.stop) fun next => ?_
      exact .bind (collapse_fails _ pending r) fun merged => ih _ next
    · exact .bind (collapseAll_fails pending r) settle_fails

theorem lookUpAll_error {e : ε} (h : lookUpAll rank list = .error e) :
    ∃ x ∈ list, rank x = .error e := by
  revert e
  change FailsWithin rank list (lookUpAll rank list)
  unfold lookUpAll
  split
  · exact lookUp_fails _
  · exact .bind (nextRun_fails 0) fun r => mergeRuns_fails _ [] r

end

end ThreadKernel.LookupOrder
