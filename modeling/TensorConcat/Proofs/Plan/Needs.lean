import TensorConcat.Concat.Plan
import TensorConcat.Proofs.Plan.Compatible
import TensorConcat.Proofs.Plan.Narrowing

/-! The padding that a plan asks of each tensor, and the column up to which the second input is
read, as long as 64-bit numbers hold all sizes. -/

namespace TensorConcat

namespace Descriptor

/-- The padding can be had: the tensor is not allocated yet, or it has that padding already. -/
def Admits (d : Descriptor) (p : Padding) : Prop :=
  d.resizable = true ∨
    p.top ≤ d.padding.top ∧ p.right ≤ d.padding.right ∧ p.bottom ≤ d.padding.bottom ∧
      p.left ≤ d.padding.left

instance (d : Descriptor) (p : Padding) : Decidable (d.Admits p) :=
  inferInstanceAs (Decidable (_ ∨ _ ∧ _ ∧ _ ∧ _))

structure InRange (d : Descriptor) : Prop where
  columns : d.paddedExtent 0 < 0x8000000000000000
  rows : d.paddedExtent 1 < 0x8000000000000000
  extents : ∀ a : Axis, d.extent a < 0x8000000000000000

theorem InRange.extent_lt {d : Descriptor} (h : d.InRange) (axis : Nat) :
    d.extent axis < 0x8000000000000000 := by
  by_cases ha : axis < 6
  · exact h.extents ⟨axis, ha⟩
  · rw [extent_eq_one_of_six_le d (Nat.le_of_not_lt ha)]
    decide

theorem InRange.signedPlane {d : Descriptor} (h : d.InRange) : d.SignedPlane := by
  have hx := h.columns
  have hy := h.rows
  simp only [paddedExtent] at hx hy
  simp only [SignedPlane, List.forall_mem_cons, List.not_mem_nil, false_implies, implies_true,
    and_true]
  omega

theorem InRange.paddedPlane_eq {d : Descriptor} (h : d.InRange) :
    d.paddedPlane = ⟨-d.padding.left, d.extent 0 + d.padding.right, -d.padding.top,
      d.extent 1 + d.padding.bottom⟩ :=
  h.signedPlane.paddedPlane_eq

/-- The descriptor with the padding `p` as well, if the tensor is not allocated yet. -/
def grown (d : Descriptor) (p : Padding) : Descriptor :=
  { d with padding := if d.resizable then d.padding.max p else d.padding }

theorem extend_eq_grown (d : Descriptor) (p : Padding) : d.extend p = d.grown p := by
  by_cases h : d.resizable = true
  · rw [extend, grown, if_pos h, if_pos h]
  · rw [extend, grown, if_neg h, if_neg h]

end Descriptor

namespace Operands

def vectorEnd (width : Nat) : Nat :=
  ceilMultiple width vectorWidth

theorem vectorEnd_eq (width : Nat) : vectorEnd width = (width + 7) / 8 * 8 :=
  rfl

theorem le_vectorEnd (width : Nat) : width ≤ vectorEnd width := by
  rw [vectorEnd_eq]
  omega

def firstNeed (o : Operands) : Padding :=
  .horizontal 0 (vectorEnd (o.first.extent 0) - o.first.extent 0)

/-- The padding with which vectors of the second input can be loaded as the output divides it. -/
def secondNeed (o : Operands) : Padding :=
  .horizontal (o.first.extent 0 % vectorWidth) (vectorEnd o.joinedWidth - o.joinedWidth)

def outputNeed (o : Operands) : Padding :=
  .horizontal 0 (vectorEnd (o.output.extent 0) - o.output.extent 0)

structure InRange (o : Operands) : Prop where
  first : o.first.InRange
  second : o.second.InRange
  output : o.output.InRange
  vectors : vectorEnd (o.output.extent 0) < 0x8000000000000000

variable {o : Operands} {half : Bool}

theorem Compatible.widths_lt (h : o.Compatible half)
    (hv : vectorEnd (o.output.extent 0) < 0x8000000000000000) :
    o.first.extent 0 < 0x8000000000000000 ∧ o.second.extent 0 < 0x8000000000000000 ∧
      vectorEnd (o.first.extent 0) < 0x8000000000000000 := by
  have hw := h.width_le
  simp only [vectorEnd_eq, joinedWidth] at *
  omega

theorem secondRightPadding_eq (h : o.Compatible half)
    (hv : vectorEnd (o.output.extent 0) < 0x8000000000000000) :
    secondRightPadding (o.output.extent 0) (o.first.extent 0) (o.second.extent 0)
      = vectorEnd o.joinedWidth - o.joinedWidth := by
  have hw := h.width_le
  obtain ⟨h1, h2, -⟩ := h.widths_lt hv
  simp only [vectorEnd_eq, joinedWidth] at *
  rw [secondRightPadding, signed64_of_lt h1, signed64_of_lt h2, signed64_of_lt]
  · simp only [residue, floorMultiple, vectorWidth]
    omega
  · simp only [floorMultiple, vectorWidth]
    omega

theorem secondLimit_eq (h : o.Compatible half)
    (hv : vectorEnd (o.output.extent 0) < 0x8000000000000000) :
    o.secondLimit = vectorEnd o.joinedWidth - o.first.extent 0 := by
  have := le_vectorEnd o.joinedWidth
  rw [secondLimit, secondRightPadding_eq h hv]
  simp only [joinedWidth] at *
  omega

theorem secondLimit_lt (h : o.Compatible half)
    (hv : vectorEnd (o.output.extent 0) < 0x8000000000000000) :
    o.secondLimit < 0x8000000000000000 := by
  have hw := h.width_le
  rw [secondLimit_eq h hv]
  simp only [vectorEnd_eq, joinedWidth] at *
  omega

theorem reach_le_limit_iff (h : o.Compatible half)
    (hv : vectorEnd (o.output.extent 0) < 0x8000000000000000) :
    ¬ signed64 o.secondLimit < o.secondReach ↔
      vectorEnd (o.output.extent 0) = vectorEnd o.joinedWidth := by
  have hw := h.width_le
  have h1 := (h.widths_lt hv).1
  have hj := le_vectorEnd o.joinedWidth
  have reach : o.secondReach = vectorEnd (o.output.extent 0) - o.first.extent 0 := by
    rw [secondReach, signed64_of_lt h1, ← vectorEnd, signed64_of_lt hv]
  rw [reach, signed64_of_lt (secondLimit_lt h hv), secondLimit_eq h hv]
  simp only [vectorEnd_eq, joinedWidth] at *
  omega

end Operands
end TensorConcat
