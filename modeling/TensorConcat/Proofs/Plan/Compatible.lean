import TensorConcat.Concat.Check
import TensorConcat.Proofs.Answer

/-! What the check of operands establishes. -/

namespace TensorConcat

theorem Descriptor.extent_eq_one_of_six_le (d : Descriptor) {axis : Nat} (h : 6 ≤ axis) :
    d.extent axis = 1 :=
  Shape.extent_of_rank_le (Nat.le_trans d.shape.rank_le h)

namespace Operands

def joinedWidth (o : Operands) : Nat :=
  o.first.extent 0 + o.second.extent 0

/-- Operands of one known element type that agree on every axis but x, where the output has room. -/
structure Compatible (o : Operands) (half : Bool) : Prop where
  supported : o.first.type = .half → half = true
  known : o.first.type ≠ .unknown
  second_type : o.first.type = o.second.type
  output_type : o.first.type = o.output.type
  width_le : o.joinedWidth ≤ o.output.extent 0
  first_extent : ∀ axis, 1 ≤ axis → o.first.extent axis = o.output.extent axis
  second_extent : ∀ axis, 1 ≤ axis → o.second.extent axis = o.output.extent axis
  rank_le : o.first.rank ≤ 4

theorem Compatible.outer_extent {o : Operands} {half : Bool} (h : o.Compatible half) {axis : Nat}
    (ha : 4 ≤ axis) : o.output.extent axis = 1 := by
  rw [← h.first_extent axis (Nat.le_trans (by decide) ha)]
  exact Shape.extent_of_rank_le (Nat.le_trans h.rank_le ha)

theorem ensure_eq_ok_iff (condition : Bool) (e : Error) :
    ensure condition e = .ok () ↔ condition = true := by
  cases condition <;> simp [ensure]

theorem checkExtent_eq_ok_iff (o : Operands) (axis : Nat) :
    o.checkExtent axis = .ok () ↔
      o.first.extent axis = o.output.extent axis ∧ o.second.extent axis = o.output.extent axis := by
  simp [checkExtent, Answer.then_eq_ok_iff, ensure_eq_ok_iff]

theorem check_eq_ok_iff (o : Operands) (half : Bool) :
    o.check half = .ok () ↔ o.Compatible half := by
  simp only [check, Answer.then_eq_ok_iff, ensure_eq_ok_iff, List.forM_eq_forM,
    Answer.forM_eq_ok_iff, checkExtent_eq_ok_iff, decide_eq_true_eq, Bool.or_eq_true]
  constructor
  · rintro ⟨hs, hk, ht, hw, he, hr⟩
    have extents (axis : Nat) (h : 1 ≤ axis) : o.first.extent axis = o.output.extent axis ∧
        o.second.extent axis = o.output.extent axis := by
      by_cases h6 : 6 ≤ axis
      · simp only [Descriptor.extent_eq_one_of_six_le _ h6, and_self]
      · exact he axis (by simp; omega)
    exact ⟨fun h => hs.resolve_left fun hn => hn h, hk, ht.1, ht.2, hw,
      fun axis h => (extents axis h).1, fun axis h => (extents axis h).2, hr⟩
  · intro h
    refine ⟨?_, h.known, ⟨h.second_type, h.output_type⟩, h.width_le, ?_, h.rank_le⟩
    · by_cases hh : o.first.type = .half
      · exact Or.inr (h.supported hh)
      · exact Or.inl hh
    · intro axis ha
      have : 1 ≤ axis := by simp at ha; omega
      exact ⟨h.first_extent axis this, h.second_extent axis this⟩

end Operands
end TensorConcat
