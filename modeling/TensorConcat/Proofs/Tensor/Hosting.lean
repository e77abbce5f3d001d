import TensorConcat.Proofs.Plan.Needs
import TensorConcat.Proofs.Tensor.Rows

/-! Descriptors that can stand for others: the shape and the type are the same, and the padding may
be larger. -/

namespace TensorConcat

def Padding.IsWithin (p q : Padding) : Prop :=
  p.top ≤ q.top ∧ p.right ≤ q.right ∧ p.bottom ≤ q.bottom ∧ p.left ≤ q.left

instance (p q : Padding) : Decidable (p.IsWithin q) :=
  inferInstanceAs (Decidable (_ ∧ _ ∧ _ ∧ _))

theorem Padding.IsWithin.trans {p q r : Padding} (h : p.IsWithin q) (h' : q.IsWithin r) :
    p.IsWithin r := by
  simp only [IsWithin] at *
  omega

namespace Descriptor

/-- The first descriptor has the shape and type of the second, and at least its padding. -/
structure Hosts (d' d : Descriptor) : Prop where
  shape : d'.shape = d.shape
  type : d'.type = d.type
  padding : d.padding.IsWithin d'.padding

variable {d d' d'' : Descriptor}

theorem Hosts.refl (d : Descriptor) : d.Hosts d :=
  ⟨rfl, rfl, Nat.le_refl _, Nat.le_refl _, Nat.le_refl _, Nat.le_refl _⟩

theorem Hosts.trans (h : d''.Hosts d') (h' : d'.Hosts d) : d''.Hosts d :=
  ⟨h.shape.trans h'.shape, h.type.trans h'.type, h'.padding.trans h.padding⟩

theorem Hosts.extent_eq (h : d'.Hosts d) (axis : Nat) : d'.extent axis = d.extent axis := by
  rw [extent, extent, h.shape]

theorem Hosts.paddedExtent_le (h : d'.Hosts d) (axis : Nat) :
    d.paddedExtent axis ≤ d'.paddedExtent axis := by
  obtain ⟨top, right, bottom, left⟩ := h.padding
  have same := h.extent_eq
  match axis with
  | 0 =>
    simp only [paddedExtent, same]
    omega
  | 1 =>
    simp only [paddedExtent, same]
    omega
  | axis + 2 =>
    simp only [paddedExtent, same]
    omega

theorem hasElements_of_forall (h : ∀ a : Axis, 0 < d.extent a) : d.HasElements := by
  intro axis
  by_cases ha : axis < 6
  · exact h ⟨axis, ha⟩
  · rw [extent_eq_one_of_six_le d (Nat.le_of_not_lt ha)]
    decide

theorem extend_hosts (d : Descriptor) (p : Padding) : (d.extend p).Hosts d := by
  unfold extend
  split
  · exact ⟨rfl, rfl, Nat.le_max_left .., Nat.le_max_left .., Nat.le_max_left .., Nat.le_max_left ..⟩
  · exact .refl d

theorem Hosts.inRange (h : d'.Hosts d) (elements : d'.HasElements) (size : 0 < d'.stride 0)
    (small : d'.totalSize < 0x8000000000000000) : d.InRange := by
  have side {axis : Nat} (ha : axis < 6) : d.paddedExtent axis < 0x8000000000000000 :=
    Nat.lt_of_le_of_lt (Nat.le_trans (h.paddedExtent_le axis)
      (paddedExtent_le_totalSize elements size ha)) small
  exact ⟨side (by decide), side (by decide), fun a =>
    Nat.lt_of_le_of_lt (d.extent_le_paddedExtent a) (side a.isLt)⟩

end Descriptor
end TensorConcat
