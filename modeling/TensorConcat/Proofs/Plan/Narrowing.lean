import TensorConcat.Access

/-! When a window need not be narrowed for a tensor, and what a list of tensors does to it. -/

namespace TensorConcat

theorem signed64_le (n : Nat) : signed64 n ≤ n := by
  have := @Int.bmod_le n 0x10000000000000000 (by decide)
  by_cases small : n < 0x8000000000000000
  · exact Int.le_of_eq (signed64_of_lt small)
  · unfold signed64
    omega

theorem signed64_lt (n : Nat) : signed64 n < 0x8000000000000000 :=
  Int.bmod_lt (by decide)

namespace Box

def IsWithin (b outer : Box) : Prop :=
  outer.left ≤ b.left ∧ b.right ≤ outer.right ∧ outer.top ≤ b.top ∧ b.bottom ≤ outer.bottom

instance (b outer : Box) : Decidable (b.IsWithin outer) :=
  inferInstanceAs (Decidable (_ ∧ _ ∧ _ ∧ _))

theorem IsWithin.trans {a b c : Box} (h : a.IsWithin b) (h' : b.IsWithin c) : a.IsWithin c := by
  obtain ⟨left, right, top, bottom⟩ := h
  obtain ⟨left', right', top', bottom'⟩ := h'
  exact ⟨Int.le_trans left' left, Int.le_trans right right', Int.le_trans top' top,
    Int.le_trans bottom bottom'⟩

end Box

namespace Descriptor

def plane (d : Descriptor) : Box where
  left := -d.padding.left
  right := d.extent 0 + d.padding.right
  top := -d.padding.top
  bottom := d.extent 1 + d.padding.bottom

/-- Signed 64-bit numbers hold the sizes that make up the padded plane. -/
def SignedPlane (d : Descriptor) : Prop :=
  ∀ n ∈ [d.extent 0, d.extent 1, d.padding.top, d.padding.right, d.padding.bottom, d.padding.left],
    n < 0x8000000000000000

instance (d : Descriptor) : Decidable d.SignedPlane :=
  inferInstanceAs (Decidable (∀ n ∈ _, n < _))

theorem SignedPlane.paddedPlane_eq {d : Descriptor} (h : d.SignedPlane) : d.paddedPlane = d.plane := by
  have same {n : Nat} (hn : n ∈ [d.extent 0, d.extent 1, d.padding.top, d.padding.right,
      d.padding.bottom, d.padding.left]) : signed64 n = n := signed64_of_lt (h n hn)
  rw [paddedPlane, plane, same (by simp), same (by simp), same (by simp), same (by simp),
    same (by simp), same (by simp)]

theorem paddedPlane_isWithin_plane (d : Descriptor) : d.paddedPlane.IsWithin d.plane := by
  refine ⟨?_, ?_, ?_, ?_⟩
  · exact Int.neg_le_neg (signed64_le _)
  · exact Int.add_le_add (signed64_le _) (signed64_le _)
  · exact Int.neg_le_neg (signed64_le _)
  · exact Int.add_le_add (signed64_le _) (signed64_le _)

end Descriptor

namespace AccessPattern

theorem narrow?_eq_none_of_resizable (p : AccessPattern) (w : Window) {d : Descriptor}
    (h : d.resizable = true) : p.narrow? w d = none := by
  simp [narrow?, h]

theorem narrow?_eq_none_iff (p : AccessPattern) (w : Window) (d : Descriptor) :
    p.narrow? w d = none ↔ d.resizable = true ∨ (p.box w).IsWithin d.paddedPlane := by
  by_cases hr : d.resizable = true
  · simp [hr, narrow?_eq_none_of_resizable]
  · cases p with
    | fixed b =>
      simp only [narrow?, hr, Bool.false_eq_true, if_false, false_or, Box.IsWithin]
      split <;> simp_all
    | horizontal offset width =>
      simp only [narrow?, hr, Bool.false_eq_true, if_false, false_or, Box.IsWithin]
      split
      next h => exact ⟨fun e => absurd e (by simp), fun e => by omega⟩
      next h => exact ⟨fun _ => by omega, fun _ => rfl⟩

theorem box_isWithin_extend (p : AccessPattern) (w : Window) {d : Descriptor}
    (h : p.narrow? w d = none) : (p.box w).IsWithin (p.extend w d).plane := by
  by_cases hr : d.resizable = true
  · have columns := signed64_le (d.extent 0)
    have rows := signed64_le (d.extent 1)
    have covered (old : Nat) (needed : Int) : needed ≤ (Nat.max old needed.toNat : Nat) :=
      Int.le_trans (Int.self_le_toNat needed) (Int.ofNat_le.2 (Nat.le_max_right ..))
    have left := covered d.padding.left (-(p.box w).left)
    have right := covered d.padding.right ((p.box w).right - signed64 (d.extent 0))
    have top := covered d.padding.top (-(p.box w).top)
    have bottom := covered d.padding.bottom ((p.box w).bottom - signed64 (d.extent 1))
    rw [extend, Descriptor.extend, if_pos hr, requiredPadding]
    generalize signed64 (d.extent 0) = width, signed64 (d.extent 1) = height at *
    simp only [Box.IsWithin, Descriptor.plane, Descriptor.extent, Padding.max] at *
    omega
  · rw [extend, Descriptor.extend, if_neg hr]
    exact (((narrow?_eq_none_iff p w d).1 h).resolve_left hr).trans d.paddedPlane_isWithin_plane

end AccessPattern

namespace Access

theorem narrowAll_of_all_none {w : Window} {accesses : List Access}
    (h : ∀ a ∈ accesses, a.pattern.narrow? w a.descriptor = none) :
    narrowAll w accesses = (w, false) := by
  induction accesses with
  | nil => rfl
  | cons a rest ih =>
    rw [narrowAll, h a (List.mem_cons_self ..)]
    exact ih fun b hb => h b (List.mem_cons_of_mem _ hb)

theorem narrowAll_unchanged_iff (w : Window) (accesses : List Access) :
    (narrowAll w accesses).2 = false ↔
      ∀ a ∈ accesses, a.pattern.narrow? w a.descriptor = none := by
  constructor
  · intro h
    induction accesses with
    | nil => simp
    | cons a rest ih =>
      rw [narrowAll] at h
      cases ha : a.pattern.narrow? w a.descriptor with
      | none =>
        rw [ha] at h
        simpa [ha] using ih h
      | some narrower => simp [ha] at h
  · intro h
    rw [narrowAll_of_all_none h]

end Access
end TensorConcat
