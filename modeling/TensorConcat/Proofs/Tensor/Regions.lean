import TensorConcat.Axis
import TensorConcat.Tensor.Descriptor

/-! Regions of tensors, seen as planes: in memory, those of one batch are followed by those of the
next. -/

namespace TensorConcat

namespace ValidRegion

def Has (r : ValidRegion) (coordinates : List Nat) : Prop :=
  ∀ a : Axis, r.anchor.get a ≤ coordinates.getD a 0 ∧
    coordinates.getD a 0 < r.anchor.get a + r.shape.extent a

instance (r : ValidRegion) (coordinates : List Nat) : Decidable (r.Has coordinates) :=
  inferInstanceAs (Decidable (∀ _, _))

def firstPlane (r : ValidRegion) (depth : Nat) : Nat :=
  r.anchor.get Axis.z + depth * r.anchor.get Axis.batch

/-- The planes that a launch for the region counts. If its outer axes are merged into the planes,
those before the first one are counted for all batches but one. -/
def planeCount (r : ValidRegion) : Nat :=
  if ∀ a, Axis.z < a → r.anchor.get a = 0 then
    (r.anchor.get Axis.z + max (r.shape.extent Axis.z) 1) * max (r.shape.extent Axis.batch) 1
      - r.anchor.get Axis.z
  else max (r.shape.extent Axis.z) 1 * max (r.shape.extent Axis.batch) 1

/-- All planes of the region follow one another in a tensor with the given depth: there is one batch
of them, or they are all planes of their batches. -/
def IsConsecutive (r : ValidRegion) (depth : Nat) : Prop :=
  (∀ a : Axis, .z ≤ a → 0 < r.shape.extent a) ∧
    (r.shape.extent Axis.batch = 1 ∨ r.shape.extent Axis.z = depth)

instance (r : ValidRegion) (depth : Nat) : Decidable (r.IsConsecutive depth) :=
  inferInstanceAs (Decidable (_ ∧ _))

structure HasPlane (r : ValidRegion) (z b : Nat) : Prop where
  plane : r.anchor.get Axis.z ≤ z ∧ z < r.anchor.get Axis.z + r.shape.extent Axis.z
  batch : r.anchor.get Axis.batch ≤ b ∧ b < r.anchor.get Axis.batch + r.shape.extent Axis.batch
  outer : ∀ a : Axis, .batch < a → r.anchor.get a = 0 ∧ 0 < r.shape.extent a

theorem has_iff (r : ValidRegion) (x y z b : Nat) :
    r.Has [x, y, z, b] ↔
      (r.anchor.get Axis.x ≤ x ∧ x < r.anchor.get Axis.x + r.shape.extent Axis.x) ∧
        (r.anchor.get Axis.y ≤ y ∧ y < r.anchor.get Axis.y + r.shape.extent Axis.y) ∧
        r.HasPlane z b := by
  have zero : ∀ a : Axis, .batch < a → [x, y, z, b].getD a 0 = 0 := by
    intro a ha
    rw [List.getD_eq_getElem?_getD, List.getElem?_eq_none (show 4 ≤ (a : Nat) from ha),
      Option.getD_none]
  constructor
  · intro h
    refine ⟨h .x, h .y, h .z, h .batch, fun a ha => ?_⟩
    have := h a
    rw [zero a ha] at this
    omega
  · rintro ⟨hx, hy, hz, hb, outer⟩ a
    have cases : ∀ a : Axis, a = .x ∨ a = .y ∨ a = .z ∨ a = .batch ∨ .batch < a := by decide
    rcases cases a with rfl | rfl | rfl | rfl | ha
    · exact hx
    · exact hy
    · exact hz
    · exact hb
    · have := outer a ha
      rw [zero a ha]
      omega

section Planes

variable {r : ValidRegion} {depth batches : Nat}

theorem planeCount_pos (r : ValidRegion) : 0 < r.planeCount := by
  have one : 1 ≤ max (r.shape.extent Axis.batch) 1 := Nat.le_max_right ..
  unfold planeCount
  split
  · have := Nat.mul_le_mul_left
      (r.anchor.get Axis.z + max (r.shape.extent Axis.z) 1) one
    omega
  · exact Nat.mul_pos (Nat.lt_of_lt_of_le Nat.one_pos (Nat.le_max_right ..)) one

variable (plane : r.anchor.get Axis.z + r.shape.extent Axis.z ≤ depth)
  (batch : r.anchor.get Axis.batch + r.shape.extent Axis.batch ≤ batches)
include plane

theorem planeCount_eq (h : r.IsConsecutive depth) :
    r.planeCount = r.shape.extent Axis.z * r.shape.extent Axis.batch := by
  obtain ⟨some, h⟩ := h
  have hz := some .z (by decide)
  have hb := some .batch (by decide)
  rw [planeCount, Nat.max_eq_left hz, Nat.max_eq_left hb]
  split
  · rcases h with one | all
    · rw [one]
      omega
    · have zero : r.anchor.get Axis.z = 0 := by omega
      rw [zero, Nat.zero_add, Nat.sub_zero]
  · rfl

theorem counted_iff_hasPlane (outer : ∀ a : Axis, .batch < a → r.anchor.get a + r.shape.extent a ≤ 1)
    (h : r.IsConsecutive depth) {z b : Nat} (hz : z < depth) :
    (r.firstPlane depth ≤ z + depth * b ∧
      z + depth * b < r.firstPlane depth + r.planeCount) ↔ r.HasPlane z b := by
  have next {c d : Nat} (h : c < d) : depth * c + depth ≤ depth * d := by
    rw [← Nat.mul_succ]
    exact Nat.mul_le_mul_left _ h
  rw [planeCount_eq plane h, firstPlane]
  obtain ⟨some, cases⟩ := h
  have ho (a : Axis) (ha : .batch < a) : r.anchor.get a = 0 ∧ 0 < r.shape.extent a := by
    have := outer a ha
    have := some a (Fin.le_of_lt (Fin.lt_trans (by decide) ha))
    omega
  have hasPlane : r.HasPlane z b ↔
      (r.anchor.get Axis.z ≤ z ∧ z < r.anchor.get Axis.z + r.shape.extent Axis.z) ∧
        r.anchor.get Axis.batch ≤ b ∧
          b < r.anchor.get Axis.batch + r.shape.extent Axis.batch :=
    ⟨fun h => ⟨h.plane, h.batch⟩, fun h => ⟨h.1, h.2, ho⟩⟩
  rw [hasPlane]
  rcases Nat.lt_or_ge b (r.anchor.get Axis.batch) with before | after
  · have := next before
    omega
  rcases cases with one | all
  · rw [one, Nat.mul_one]
    rcases Nat.eq_or_lt_of_le after with rfl | behind
    · omega
    · have := next behind
      omega
  · have lower := Nat.mul_le_mul_left depth after
    have batches' := Nat.mul_add depth (r.anchor.get Axis.batch) (r.shape.extent Axis.batch)
    rw [all]
    rcases Nat.lt_or_ge b (r.anchor.get Axis.batch + r.shape.extent Axis.batch)
      with inside | behind
    · have := next inside
      omega
    · have := Nat.mul_le_mul_left depth behind
      omega

include batch

theorem planeCount_le (hd : 0 < depth) (hb : 0 < batches) :
    r.planeCount ≤ 2 * (depth * batches) := by
  have few : max (r.shape.extent Axis.batch) 1 ≤ batches := by omega
  unfold planeCount
  split
  · have all := Nat.mul_le_mul (show r.anchor.get Axis.z + max (r.shape.extent Axis.z) 1 ≤ 2 * depth
      by omega) few
    rw [Nat.mul_assoc] at all
    omega
  · have all := Nat.mul_le_mul (show max (r.shape.extent Axis.z) 1 ≤ depth by omega) few
    omega

theorem firstPlane_add_le (h : r.IsConsecutive depth) :
    r.firstPlane depth + r.planeCount ≤ depth * batches := by
  have batches' := Nat.mul_le_mul_left depth batch
  rw [Nat.mul_add] at batches'
  rw [planeCount_eq plane h, firstPlane]
  rcases h.2 with one | all
  · rw [one, Nat.mul_one] at batches' ⊢
    omega
  · rw [all] at plane ⊢
    omega

theorem isConsecutive_of_counted (fits : r.firstPlane depth + r.planeCount ≤ depth * batches)
    (h : ∀ z b, z < depth → b < batches →
      ((r.firstPlane depth ≤ z + depth * b ∧
        z + depth * b < r.firstPlane depth + r.planeCount) ↔ r.HasPlane z b)) :
    r.IsConsecutive depth := by
  have count := r.planeCount_pos
  have hd : 0 < depth := Nat.pos_of_mul_pos_right (Nat.lt_of_lt_of_le (by omega) fits)
  have split := Nat.mod_add_div (r.firstPlane depth) depth
  -- Whatever is counted begins with the first plane, so that it belongs to the region.
  obtain ⟨hz, hb, ho⟩ := (h _ _ (Nat.mod_lt _ hd) (Nat.div_lt_of_lt_mul (by omega))).1
    ⟨Nat.le_of_eq split.symm, by omega⟩
  refine ⟨fun a ha => ?_, Classical.or_iff_not_imp_left.2 fun several => ?_⟩
  · have cases : ∀ a : Axis, .z ≤ a → a = .z ∨ a = .batch ∨ .batch < a := by decide
    rcases cases a ha with rfl | rfl | ha
    · omega
    · omega
    · exact (ho a ha).2
  · -- From a plane to the same one of the next batch all planes are counted.
    have later := (h (r.anchor.get Axis.z) (r.anchor.get Axis.batch + 1) (by omega) (by omega)).2
      ⟨by omega, by omega, ho⟩
    rw [firstPlane, Nat.mul_succ] at later
    have last := ((h (depth - 1) (r.anchor.get Axis.batch) (by omega) (by omega)).1
      (by rw [firstPlane]; omega)).plane
    have first := ((h 0 (r.anchor.get Axis.batch + 1) hd (by omega)).1
      (by rw [firstPlane, Nat.mul_succ]; omega)).plane
    omega

theorem isConsecutive_iff (outer : ∀ a : Axis, .batch < a → r.anchor.get a + r.shape.extent a ≤ 1)
    (fits : r.firstPlane depth + r.planeCount ≤ depth * batches) :
    (∀ z b, z < depth → b < batches →
      ((r.firstPlane depth ≤ z + depth * b ∧
        z + depth * b < r.firstPlane depth + r.planeCount) ↔ r.HasPlane z b)) ↔
      r.IsConsecutive depth :=
  ⟨isConsecutive_of_counted plane batch fits,
    fun h _ _ hz _ => counted_iff_hasPlane plane outer h hz⟩

end Planes

end ValidRegion

end TensorConcat
