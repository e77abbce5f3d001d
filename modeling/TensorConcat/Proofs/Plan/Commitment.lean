import TensorConcat.Proofs.Plan.Narrowing

/-! Committed tensors. The padding that a plan has left is enough for the same accesses, whether the
tensor is allocated with it or can still grow. -/

namespace TensorConcat

theorem Padding.max_max (p q : Padding) : (p.max q).max q = p.max q := by
  simp only [Padding.max, Nat.max_assoc, Nat.max_self]

namespace Descriptor

def commit (d : Descriptor) (committed : Bool) : Descriptor :=
  { d with resizable := d.resizable && !committed }

def SignedPadding (d : Descriptor) : Prop :=
  ∀ n ∈ [d.padding.top, d.padding.right, d.padding.bottom, d.padding.left], n < 0x8000000000000000

instance (d : Descriptor) : Decidable d.SignedPadding :=
  inferInstanceAs (Decidable (∀ n ∈ _, n < _))

theorem commit_false (d : Descriptor) : d.commit false = d := by
  rw [commit, Bool.not_false, Bool.and_true]

theorem commit_of_not_resizable {d : Descriptor} (h : d.resizable = false) (committed : Bool) :
    d.commit committed = d := by
  rw [commit, h, Bool.false_and, ← h]

end Descriptor

namespace AccessPattern

variable {p : AccessPattern} {v w : Window} {d : Descriptor}

theorem extend_of_not_resizable (p : AccessPattern) (w : Window) (h : d.resizable = false) :
    p.extend w d = d := by
  rw [extend, Descriptor.extend, h]
  rfl

theorem resizable_extend (p : AccessPattern) (w : Window) (d : Descriptor) :
    (p.extend w d).resizable = d.resizable := by
  rw [extend, Descriptor.extend]
  split <;> rfl

theorem requiredPadding_congr (same : p.box v = p.box w) (d : Descriptor) :
    p.requiredPadding v d = p.requiredPadding w d := by
  rw [requiredPadding, requiredPadding, same]

theorem box_isWithin_paddedPlane_extend (p : AccessPattern) (w : Window)
    (resizable : d.resizable = true) (signed : (p.extend w d).SignedPadding) :
    (p.box w).IsWithin (p.extend w d).paddedPlane := by
  have held {n : Nat} (hn : n ∈ [(p.extend w d).padding.top, (p.extend w d).padding.right,
      (p.extend w d).padding.bottom, (p.extend w d).padding.left]) : signed64 n = n :=
    signed64_of_lt (signed n hn)
  have extended : p.extend w d = { d with padding := d.padding.max (p.requiredPadding w d) } := by
    rw [extend, Descriptor.extend, if_pos resizable]
  rw [extended] at held ⊢
  have grown (old : Nat) (needed : Int) : needed ≤ (old.max needed.toNat : Nat) :=
    Int.le_trans (Int.self_le_toNat needed) (Int.ofNat_le.2 (Nat.le_max_right ..))
  have left := grown d.padding.left (-(p.box w).left)
  have right := grown d.padding.right ((p.box w).right - signed64 (d.extent 0))
  have top := grown d.padding.top (-(p.box w).top)
  have bottom := grown d.padding.bottom ((p.box w).bottom - signed64 (d.extent 1))
  simp only [Padding.max, requiredPadding, List.mem_cons, List.not_mem_nil, or_false] at held
  have leftHeld := held (.inr (.inr (.inr rfl)))
  have rightHeld := held (.inr (.inl rfl))
  have topHeld := held (.inl rfl)
  have bottomHeld := held (.inr (.inr (.inl rfl)))
  simp only [Descriptor.paddedPlane, Box.IsWithin, Padding.max, requiredPadding, leftHeld,
    rightHeld, topHeld, bottomHeld]
  clear held leftHeld rightHeld topHeld bottomHeld
  simp only [Descriptor.extent] at right bottom ⊢
  generalize signed64 (d.shape.extent 0) = width, signed64 (d.shape.extent 1) = height at *
  omega

/-- The descriptor neither narrows a window nor has to grow for it. -/
structure Settled (p : AccessPattern) (w : Window) (d : Descriptor) : Prop where
  narrow : p.narrow? w d = none
  extend : p.extend w d = d

theorem narrow?_congr (same : p.box v = p.box w) (d : Descriptor) :
    p.narrow? v d = none ↔ p.narrow? w d = none := by
  rw [narrow?_eq_none_iff, narrow?_eq_none_iff, same]

theorem settled_congr (same : p.box v = p.box w) : p.Settled v d ↔ p.Settled w d := by
  have narrow := narrow?_congr same d
  have extend : p.extend v d = p.extend w d := by
    rw [AccessPattern.extend, AccessPattern.extend, requiredPadding_congr same]
  exact ⟨fun h => ⟨narrow.1 h.narrow, extend ▸ h.extend⟩,
    fun h => ⟨narrow.2 h.narrow, extend ▸ h.extend⟩⟩

theorem settled_fixed {b : Box} : (fixed b).Settled v d ↔ (fixed b).Settled w d :=
  settled_congr rfl

theorem settled_commit (fits : p.narrow? w d = none) {committed : Bool}
    (signed : committed = true → (p.extend w d).resizable = true →
      (p.extend w d).SignedPadding) :
    p.Settled w ((p.extend w d).commit committed) := by
  rw [resizable_extend] at signed
  cases resizable : d.resizable with
  | false =>
    rw [extend_of_not_resizable p w resizable, Descriptor.commit_of_not_resizable resizable]
    exact ⟨fits, extend_of_not_resizable p w resizable⟩
  | true =>
    cases committed with
    | false =>
      rw [Descriptor.commit_false]
      refine ⟨narrow?_eq_none_of_resizable p w ((resizable_extend p w d).trans resizable), ?_⟩
      simp only [extend, Descriptor.extend, resizable, if_true, requiredPadding, Descriptor.extent,
        Padding.max_max]
    | true =>
      have within := box_isWithin_paddedPlane_extend p w resizable (signed rfl resizable)
      refine ⟨(narrow?_eq_none_iff ..).2 (Or.inr within), extend_of_not_resizable p w ?_⟩
      rw [Descriptor.commit, Bool.not_true, Bool.and_false]

end AccessPattern
end TensorConcat
