import ThreadKernel.Fault

/-!
# Tables that never reuse a handle

An `Arena` holds one slot for every handle it has ever issued; removing an
entry empties its slot for good.  A stale handle therefore finds nothing, and
never a younger entry.  `Arena.get?` is the view all statements go through, and
`mem_entries` ties the listing to it.
-/

namespace ThreadKernel

/-- A table of `α`, indexed by handles of one kind. -/
structure Arena (kind : Kind) (α : Type) where
  slots : List (Option α)
deriving DecidableEq

namespace Arena

variable {kind : Kind} {α : Type}

/-- A table whose first `reserved` handles name nothing. -/
def empty (reserved : Nat) : Arena kind α := ⟨List.replicate reserved none⟩

/-- The handle issued next. -/
def next (a : Arena kind α) : Handle kind := ⟨a.slots.length⟩

def get? (a : Arena kind α) (h : Handle kind) : Option α := a.slots[h.index]?.join

/-- The entry of a handle that must name one. -/
def find (a : Arena kind α) (h : Handle kind) : Except Fault α :=
  match a.get? h with
  | some x => .ok x
  | none => .error (.missing kind h.index)

def contains (a : Arena kind α) (h : Handle kind) : Bool := (a.get? h).isSome

/-- Store `x` under the next handle. -/
def push (a : Arena kind α) (x : α) : Arena kind α := ⟨a.slots ++ [some x]⟩

/-- Issue the next handle without an entry. -/
def reserve (a : Arena kind α) : Arena kind α := ⟨a.slots ++ [none]⟩

/-- Change the entry of `h`, if there is one. -/
def modify (a : Arena kind α) (h : Handle kind) (f : α → α) : Arena kind α :=
  ⟨a.slots.modify h.index (Option.map f)⟩

/-- Empty the slot of `h` for good. -/
def erase (a : Arena kind α) (h : Handle kind) : Arena kind α := ⟨a.slots.set h.index none⟩

/-- The entries of `slots`, the first of which has index `start`. -/
def entriesFrom : Nat → List (Option α) → List (Handle kind × α)
  | _, [] => []
  | start, none :: rest => entriesFrom (start + 1) rest
  | start, some x :: rest => (⟨start⟩, x) :: entriesFrom (start + 1) rest

/-- All entries, by handle. -/
def entries (a : Arena kind α) : List (Handle kind × α) := entriesFrom 0 a.slots

/-- How many entries there are. -/
def size (a : Arena kind α) : Nat := a.entries.length

/-! ## Each operation through `get?` -/

theorem find_eq_ok_iff {a : Arena kind α} {h : Handle kind} {x : α} :
    a.find h = .ok x ↔ a.get? h = some x := by
  unfold find; split <;> simp_all

theorem contains_iff {a : Arena kind α} {h : Handle kind} :
    a.contains h = true ↔ ∃ x, a.get? h = some x := by
  simp [contains, Option.isSome_iff_exists]

@[simp]
theorem get?_empty (reserved : Nat) (h : Handle kind) :
    (empty reserved : Arena kind α).get? h = none := by
  simp only [get?, empty, List.getElem?_replicate]
  split <;> rfl

theorem get?_next (a : Arena kind α) : a.get? a.next = none := by
  simp [get?, next]

theorem lt_next_of_get? {a : Arena kind α} {h : Handle kind} {x : α} (hx : a.get? h = some x) :
    h.index < a.next.index := by
  simp only [get?, next] at *
  rcases Nat.lt_or_ge h.index a.slots.length with lt | ge
  · exact lt
  · simp [List.getElem?_eq_none ge] at hx

theorem get?_push (a : Arena kind α) (x : α) (h : Handle kind) :
    (a.push x).get? h = if h = a.next then some x else a.get? h := by
  simp only [get?, push, next, Handle.ext_iff, List.getElem?_append]
  split
  · rw [if_neg (by omega)]
  · split
    · simp_all
    · rw [List.getElem?_eq_none (by simp; omega), List.getElem?_eq_none (by omega)]

theorem ne_next_of_get? {a : Arena kind α} {h : Handle kind} {x : α} (hx : a.get? h = some x) :
    h ≠ a.next := by
  rintro rfl
  rw [get?_next] at hx
  cases hx

theorem get?_push_next (a : Arena kind α) (x : α) : (a.push x).get? a.next = some x := by
  rw [get?_push, if_pos rfl]

theorem get?_push_of_get? {a : Arena kind α} {h : Handle kind} {y : α} (x : α)
    (hy : a.get? h = some y) : (a.push x).get? h = some y := by
  rw [get?_push, if_neg (ne_next_of_get? hy), hy]

theorem of_get?_push {a : Arena kind α} {h : Handle kind} {x y : α}
    (hy : (a.push x).get? h = some y) : h = a.next ∧ y = x ∨ a.get? h = some y := by
  rw [get?_push] at hy
  split at hy
  · next new => exact .inl ⟨new, (Option.some.inj hy).symm⟩
  · exact .inr hy

@[simp]
theorem get?_reserve (a : Arena kind α) (h : Handle kind) : a.reserve.get? h = a.get? h := by
  simp only [get?, reserve, List.getElem?_append]
  split
  · rfl
  · rename_i ge
    rw [List.getElem?_eq_none (Nat.le_of_not_lt ge)]
    rcases Nat.lt_or_ge (h.index - a.slots.length) 1 with lt | ge'
    · rw [Nat.lt_one_iff.mp lt]; rfl
    · rw [List.getElem?_eq_none (by simpa using ge')]

theorem get?_modify (a : Arena kind α) (h : Handle kind) (f : α → α) (h' : Handle kind) :
    (a.modify h f).get? h' = if h = h' then (a.get? h').map f else a.get? h' := by
  simp only [get?, modify, List.getElem?_modify, Handle.ext_iff]
  split <;> rcases a.slots[h'.index]? with _ | _ | _ <;> rfl

theorem get?_modify_self {a : Arena kind α} {h : Handle kind} {x : α} (f : α → α)
    (hx : a.get? h = some x) : (a.modify h f).get? h = some (f x) := by
  rw [get?_modify, if_pos rfl, hx, Option.map_some]

theorem get?_modify_of_ne {a : Arena kind α} {h h' : Handle kind} (f : α → α) (ne : h ≠ h') :
    (a.modify h f).get? h' = a.get? h' := by
  rw [get?_modify, if_neg ne]

theorem of_get?_modify {a : Arena kind α} {h h' : Handle kind} {f : α → α} {x y : α}
    (hx : a.get? h = some x) (hy : (a.modify h f).get? h' = some y) :
    h' = h ∧ y = f x ∨ h' ≠ h ∧ a.get? h' = some y := by
  by_cases same : h' = h
  · subst same
    rw [get?_modify_self f hx, Option.some.injEq] at hy
    exact .inl ⟨rfl, hy.symm⟩
  · rw [get?_modify_of_ne f (Ne.symm same)] at hy
    exact .inr ⟨same, hy⟩

/-- Only what is done to the entry counts. -/
theorem modify_congr {a : Arena kind α} {h : Handle kind} {x : α} {f g : α → α}
    (hx : a.get? h = some x) (same : f x = g x) : a.modify h f = a.modify h g := by
  refine congrArg mk (List.ext_getElem? fun i => ?_)
  simp only [get?] at hx
  rw [List.getElem?_modify, List.getElem?_modify]
  split
  · next eq =>
    subst eq
    rcases slot : a.slots[h.index]? with _ | _ | y
    · rfl
    · rfl
    · rw [slot] at hx
      cases hx
      simp only [Option.map_eq_map, Option.map_some, same]
  · rfl

theorem modify_modify (a : Arena kind α) (h : Handle kind) (f g : α → α) :
    (a.modify h f).modify h g = a.modify h fun x => g (f x) := by
  simp only [modify, List.modify_modify_eq]
  congr 2
  funext slot
  cases slot <;> rfl

@[simp]
theorem contains_modify (a : Arena kind α) (h : Handle kind) (f : α → α) (h' : Handle kind) :
    (a.modify h f).contains h' = a.contains h' := by
  rw [contains, get?_modify]
  split
  · exact Option.isSome_map
  · rfl

theorem modify_eq_self {a : Arena kind α} {h : Handle kind} {x : α} {f : α → α}
    (hx : a.get? h = some x) (same : f x = x) : a.modify h f = a := by
  rw [modify_congr (g := id) hx same, modify, Option.map_id]
  simp only [List.modify_id]

theorem get?_erase (a : Arena kind α) (h h' : Handle kind) :
    (a.erase h).get? h' = if h = h' then none else a.get? h' := by
  simp only [get?, erase, List.getElem?_set, Handle.ext_iff]
  split
  · split <;> rfl
  · rfl

@[simp]
theorem next_push (a : Arena kind α) (x : α) : (a.push x).next = ⟨a.next.index + 1⟩ := by
  simp [next, push]

@[simp]
theorem next_reserve (a : Arena kind α) : a.reserve.next = ⟨a.next.index + 1⟩ := by
  simp [next, reserve]

@[simp]
theorem next_modify (a : Arena kind α) (h : Handle kind) (f : α → α) :
    (a.modify h f).next = a.next := by
  simp [next, modify]

@[simp]
theorem next_erase (a : Arena kind α) (h : Handle kind) : (a.erase h).next = a.next := by
  simp [next, erase]

/-! ## Tables that look alike -/

/-- The entries of the two tables are the same as far as `view` shows. -/
def Agree {β : Type} (view : α → β) (a b : Arena kind α) : Prop :=
  ∀ h, (a.get? h).map view = (b.get? h).map view

section Agree

variable {β γ : Type} {view : α → β} {a b c : Arena kind α}

theorem Agree.refl (view : α → β) (a : Arena kind α) : Agree view a a := fun _ => rfl

theorem Agree.symm (ab : Agree view a b) : Agree view b a := fun h => (ab h).symm

theorem Agree.trans (ab : Agree view a b) (bc : Agree view b c) : Agree view a c :=
  fun h => (ab h).trans (bc h)

/-- What shows less shows no difference either. -/
theorem Agree.coarsen (ab : Agree view a b) (f : β → γ) : Agree (fun x => f (view x)) a b := by
  intro h
  have same := congrArg (Option.map f) (ab h)
  rwa [Option.map_map, Option.map_map] at same

theorem Agree.exists_get? (ab : Agree view a b) {h : Handle kind} {x : α}
    (hx : a.get? h = some x) : ∃ y, b.get? h = some y ∧ view y = view x := by
  have same := ab h
  rw [hx, Option.map_some] at same
  exact Option.map_eq_some_iff.mp same.symm

theorem agree_modify_modify {h : Handle kind} {f g : α → α}
    (blind : ∀ x, view (f x) = view (g x)) :
    Agree view (a.modify h f) (a.modify h g) := by
  intro h'
  rw [get?_modify, get?_modify]
  split
  · rw [Option.map_map, Option.map_map]
    congr 1
    funext x
    exact blind x
  · rfl

theorem agree_modify {h : Handle kind} {f : α → α}
    (blind : ∀ x, view (f x) = view x) : Agree view (a.modify h f) a := by
  intro h'
  rw [get?_modify]
  split
  · rw [Option.map_map]
    congr 1
    funext x
    exact blind x
  · rfl

/-- An entry of a table that agrees with one after a change is the changed one, or as it was. -/
theorem Agree.exists_get?_modify {h h' : Handle kind} {f : α → α} {x y : α}
    (ab : Agree view a (b.modify h f)) (found : b.get? h = some x) (found' : a.get? h' = some y) :
    h' = h ∧ view y = view (f x) ∨ h' ≠ h ∧ ∃ z, b.get? h' = some z ∧ view z = view y := by
  obtain ⟨changed, foundChanged, same⟩ := ab.exists_get? found'
  obtain ⟨rfl, rfl⟩ | ⟨other, old⟩ := of_get?_modify found foundChanged
  · exact .inl ⟨rfl, same.symm⟩
  · exact .inr ⟨other, changed, old, same⟩

/-- What shows of an entry shows in both tables. -/
theorem Agree.exists_iff (ab : Agree view a b) {h : Handle kind} (motive : β → Prop) :
    (∃ x, a.get? h = some x ∧ motive (view x)) ↔ ∃ y, b.get? h = some y ∧ motive (view y) := by
  constructor
  · rintro ⟨x, found, shows⟩
    obtain ⟨y, found', same⟩ := ab.exists_get? found
    exact ⟨y, found', same ▸ shows⟩
  · rintro ⟨y, found, shows⟩
    obtain ⟨x, found', same⟩ := ab.symm.exists_get? found
    exact ⟨x, found', same ▸ shows⟩

theorem Agree.exists_modify_iff {h h' : Handle kind} {f : α → α} {x : α}
    (ab : Agree view a (b.modify h f)) (found : b.get? h = some x) (motive : β → Prop) :
    (∃ y, a.get? h' = some y ∧ motive (view y)) ↔
      if h' = h then motive (view (f x)) else ∃ z, b.get? h' = some z ∧ motive (view z) := by
  rw [ab.exists_iff]
  split
  · next here =>
    subst here
    constructor
    · rintro ⟨y, foundChanged, shows⟩
      cases (get?_modify_self f found).symm.trans foundChanged
      exact shows
    · exact fun shows => ⟨f x, get?_modify_self f found, shows⟩
  · next other => rw [get?_modify_of_ne f (Ne.symm other)]

/-- A change that can be told from what shows keeps what shows alike. -/
theorem Agree.modify (ab : Agree view a b) (h : Handle kind) {f : α → α} {g : β → β}
    (through : ∀ x, view (f x) = g (view x)) :
    Agree view (a.modify h f) (b.modify h f) := by
  intro h'
  have commutes : view ∘ f = g ∘ view := funext through
  rw [get?_modify, get?_modify]
  split
  · rw [Option.map_map, Option.map_map, commutes, ← Option.map_map, ← Option.map_map, ab h']
  · exact ab h'

end Agree

/-! ## The listing -/

theorem mem_entriesFrom {start : Nat} {slots : List (Option α)} {h : Handle kind} {x : α} :
    (h, x) ∈ entriesFrom start slots ↔ start ≤ h.index ∧ slots[h.index - start]? = some (some x) := by
  induction slots generalizing start with
  | nil => simp [entriesFrom]
  | cons slot rest ih =>
    rcases Nat.lt_trichotomy h.index start with lt | eq | gt
    · cases slot <;> simp [entriesFrom, ih, Handle.ext_iff] <;> omega
    · subst eq
      have later : ¬ h.index + 1 ≤ h.index := by omega
      cases slot <;> simp [entriesFrom, ih, later, eq_comm]
    · have step : h.index - start = h.index - (start + 1) + 1 := by omega
      cases slot <;>
        simp [entriesFrom, ih, Handle.ext_iff, step, Nat.ne_of_gt gt, Nat.succ_le_of_lt gt,
          Nat.le_of_lt gt]

theorem mem_entries {a : Arena kind α} {h : Handle kind} {x : α} :
    (h, x) ∈ a.entries ↔ a.get? h = some x := by
  simp only [entries, mem_entriesFrom, get?, Nat.zero_le, true_and, Nat.sub_zero]
  rcases a.slots[h.index]? with _ | _ | _ <;> simp

end Arena

end ThreadKernel
