import ThreadKernel.Name

/-!
# How much of a name is kept

A name is cut at the last character boundary at or before its limit.  The
search for the boundary starts at the limit, or at the end of a shorter name,
and goes back a byte at a time.  A character takes at most four bytes, so the
search is over after three of them (`boundaryUpTo_near`), and what comes next
would not have fitted any more: where it ends there is a boundary too.
-/

namespace ThreadKernel.Name

variable {name : String}

/-- No boundary up to byte `n` lies behind the one that was found. -/
theorem le_boundaryUpTo {byte n : Nat} (boundary : String.Pos.Raw.IsValid name ⟨byte⟩)
    (le : byte ≤ n) : byte ≤ (boundaryUpTo name n).offset.byteIdx :=
  Nat.le_of_not_lt fun passed => inside_of_boundaryUpTo_lt passed le boundary

/-- The boundary behind the first character of `back`. -/
theorem isValid_append_cons {front back : String} {c : Char} {rest : List Char}
    (listed : back.toList = c :: rest) :
    String.Pos.Raw.IsValid (front ++ back) ⟨front.utf8ByteSize + c.utf8Size⟩ := by
  have split : back = String.singleton c ++ String.ofList rest := by
    rw [← String.toList_inj, listed]
    simp
  rw [String.Pos.Raw.isValid_iff_exists_append]
  refine ⟨front ++ String.singleton c, String.ofList rest, ?_, ?_⟩
  · rw [split, String.append_assoc]
  · rw [String.Pos.Raw.ext_iff, String.byteIdx_rawEndPos, String.utf8ByteSize_append,
      String.utf8ByteSize_singleton]

/-- The boundary after `p` is one character further, unless the name is over. -/
theorem exists_next_boundary {p : name.Pos} {front back : String} (splits : p.Splits front back)
    (before : p.offset.byteIdx < name.utf8ByteSize) :
    ∃ c rest, name.toList = front.toList ++ c :: rest ∧
      String.Pos.Raw.IsValid name ⟨p.offset.byteIdx + c.utf8Size⟩ := by
  have reached : p.offset.byteIdx = front.utf8ByteSize := by
    rw [splits.offset_eq_rawEndPos, String.byteIdx_rawEndPos]
  have sizes := congrArg String.utf8ByteSize splits.eq_append
  rw [String.utf8ByteSize_append] at sizes
  cases listed : back.toList with
  | nil =>
    rw [String.toList_eq_nil_iff] at listed
    rw [listed, String.utf8ByteSize_empty] at sizes
    omega
  | cons c rest =>
    refine ⟨c, rest, ?_, ?_⟩
    · rw [← listed, ← String.toList_append, ← splits.eq_append]
    · rw [reached, splits.eq_append]
      exact isValid_append_cons listed

/-- The search goes back three bytes at most. -/
theorem boundaryUpTo_near {n : Nat} (le : n ≤ name.utf8ByteSize) :
    n ≤ (boundaryUpTo name n).offset.byteIdx + 3 := by
  refine Nat.le_of_not_lt fun far => ?_
  have before : (boundaryUpTo name n).offset.byteIdx < name.utf8ByteSize := by omega
  rcases exists_next_boundary (boundaryUpTo name n).splits before with ⟨c, rest, -, boundary⟩
  have small : c.utf8Size ≤ 4 := c.utf8Size_le_four
  have some : 0 < c.utf8Size := c.utf8Size_pos
  have found := le_boundaryUpTo (n := n) boundary (by omega)
  omega

/-- The search for the cut ends, after three steps at most, at the first byte on its way that is
on a boundary.  What is kept is the characters up to there: a prefix that has at most `limit`
bytes, which is the whole name if that has no more, and to which otherwise the next character
cannot be added. -/
theorem clip_longest (name : String) :
    (∃ steps ≤ 3, (cut name).offset.byteIdx + steps = min name.utf8ByteSize limit ∧
      ∀ i < steps, ¬String.Pos.Raw.IsValid name ⟨min name.utf8ByteSize limit - i⟩) ∧
    String.Pos.Raw.IsValid name (cut name).offset ∧
    (clip name).utf8ByteSize = (cut name).offset.byteIdx ∧
    (clip name).toList <+: name.toList ∧
    (clip name).utf8ByteSize ≤ limit ∧
    (name.utf8ByteSize ≤ limit → clip name = name) ∧
    (limit < name.utf8ByteSize → ∃ c rest, name.toList = (clip name).toList ++ c :: rest ∧
      limit < (clip name).utf8ByteSize + c.utf8Size) := by
  have size := utf8ByteSize_clip name
  have le : (cut name).offset.byteIdx ≤ min name.utf8ByteSize limit := boundaryUpTo_le name _
  have near : min name.utf8ByteSize limit ≤ (cut name).offset.byteIdx + 3 :=
    boundaryUpTo_near (Nat.min_le_left _ _)
  refine ⟨?search, (cut name).isValid, size, ?prefixed, ?fits, ?whole, ?longest⟩
  case search =>
    refine ⟨min name.utf8ByteSize limit - (cut name).offset.byteIdx, by omega, by omega, ?_⟩
    intro i early
    apply inside_of_boundaryUpTo_lt (n := min name.utf8ByteSize limit) _ (Nat.sub_le _ _)
    rw [← cut]
    omega
  case prefixed =>
    refine ⟨(name.sliceFrom (cut name)).copy.toList, ?_⟩
    rw [← String.toList_append, ← (cut_splits name).eq_append]
  case fits => omega
  case whole =>
    intro short
    have all : name.utf8ByteSize ≤ (cut name).offset.byteIdx :=
      le_boundaryUpTo String.Pos.Raw.isValid_rawEndPos (by omega)
    have split := (cut_splits name).eq_append
    have sizes := congrArg String.utf8ByteSize split
    rw [String.utf8ByteSize_append] at sizes
    have none : (name.sliceFrom (cut name)).copy = "" :=
      String.utf8ByteSize_eq_zero_iff.mp (by omega)
    rw [none, String.append_empty] at split
    exact split.symm
  case longest =>
    intro long
    rcases exists_next_boundary (cut_splits name) (by omega) with ⟨c, rest, listed, boundary⟩
    refine ⟨c, rest, listed, Nat.lt_of_not_le fun room => ?_⟩
    have small : 0 < c.utf8Size := c.utf8Size_pos
    have found : (cut name).offset.byteIdx + c.utf8Size ≤ (cut name).offset.byteIdx :=
      le_boundaryUpTo boundary (by omega)
    omega

/-- The last character would end in the sixteenth byte. -/
example : clip "aaaaaaaaaaaaaaé" = "aaaaaaaaaaaaaa" := by decide

end ThreadKernel.Name
