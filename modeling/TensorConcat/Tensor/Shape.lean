import TensorConcat.Error

/-! Shapes: the extents of a tensor along its axes, the x axis first. -/

namespace TensorConcat

/-- At most six extents. An axis past the rank has the extent one. -/
structure Shape where
  extents : List UInt64
  rank_le : extents.length ≤ 6
deriving DecidableEq, Repr

namespace Shape

/-- Extents of one at the end say nothing and are dropped, except for the first axis. -/
def trimmed : List UInt64 → List UInt64
  | [] => []
  | d :: rest => d :: (rest.reverse.dropWhile (· = 1)).reverse

theorem length_trimmed_le (extents : List UInt64) : (trimmed extents).length ≤ extents.length := by
  cases extents with
  | nil => exact Nat.le_refl _
  | cons d rest =>
    have := (List.dropWhile_sublist (· = (1 : UInt64)) (l := rest.reverse)).length_le
    simp only [List.length_reverse] at this
    simpa [trimmed] using this

def ofExtents (extents : List UInt64) : Except Error Shape :=
  if h : extents.length ≤ 6 then
    .ok ⟨trimmed extents, Nat.le_trans (length_trimmed_le extents) h⟩
  else .error (.rankTooLarge extents.length)

def rank (s : Shape) : Nat :=
  s.extents.length

def extent (s : Shape) (axis : Nat) : Nat :=
  ((s.extents[axis]?).getD 1).toNat

theorem extent_lt (s : Shape) (axis : Nat) : s.extent axis < 0x10000000000000000 :=
  UInt64.toNat_lt _

theorem extent_of_rank_le {s : Shape} {axis : Nat} (h : s.rank ≤ axis) : s.extent axis = 1 := by
  simp [extent, List.getElem?_eq_none h]

def text (s : Shape) : String :=
  "[" ++ ", ".intercalate (s.extents.map fun d => toString d.toNat) ++ "]"

end Shape
end TensorConcat
