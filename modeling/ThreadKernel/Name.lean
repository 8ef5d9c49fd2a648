/-!
# Thread names

A thread keeps at most fifteen bytes of its name, counted in UTF-8, and only
whole characters.
-/

namespace ThreadKernel.Name

/-- Most bytes of a name that are kept. -/
def limit : Nat := 15

/-- Back from byte `n`, a byte at a time, to where no character is cut. -/
def boundaryUpTo (name : String) : Nat → name.Pos
  | 0 => name.startPos
  | n + 1 =>
    if boundary : String.Pos.Raw.IsValid name ⟨n + 1⟩ then ⟨⟨n + 1⟩, boundary⟩
    else boundaryUpTo name n

/-- Where the part of `name` that is kept ends. -/
def cut (name : String) : name.Pos :=
  boundaryUpTo name (min name.utf8ByteSize limit)

/-- The part of `name` that is kept. -/
def clip (name : String) : String := (name.sliceTo (cut name)).copy

theorem boundaryUpTo_le (name : String) (n : Nat) :
    (boundaryUpTo name n).offset.byteIdx ≤ n := by
  induction n with
  | zero => exact Nat.le_refl 0
  | succ n ih =>
    simp only [boundaryUpTo]
    split
    · exact Nat.le_refl _
    · exact Nat.le_succ_of_le ih

/-- Every byte that was passed is inside a character. -/
theorem inside_of_boundaryUpTo_lt {name : String} {n byte : Nat}
    (passed : (boundaryUpTo name n).offset.byteIdx < byte) (le : byte ≤ n) :
    ¬String.Pos.Raw.IsValid name ⟨byte⟩ := by
  induction n with
  | zero => omega
  | succ n ih =>
    simp only [boundaryUpTo] at passed
    split at passed
    · simp only at passed
      omega
    · next inside =>
      rcases Nat.lt_or_eq_of_le le with lt | rfl
      · exact ih passed (Nat.le_of_lt_succ lt)
      · exact inside

/-- What is kept, and the rest of the name. -/
theorem cut_splits (name : String) :
    (cut name).Splits (clip name) (name.sliceFrom (cut name)).copy :=
  (cut name).splits

theorem utf8ByteSize_clip (name : String) :
    (clip name).utf8ByteSize = (cut name).offset.byteIdx := by
  rw [(cut_splits name).offset_eq_rawEndPos, String.byteIdx_rawEndPos]

end ThreadKernel.Name
