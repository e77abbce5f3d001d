import TensorConcat.Proofs.Concat.Prepared

/-! Windows inside the planned one: which elements they cover, and where the items of a window that
keeps all columns load and store. -/

namespace TensorConcat

namespace Operands

theorem plannedWindow_x (o : Operands) :
    o.plannedWindow.span .x = ⟨0, vectorEnd (o.output.extent 0), vectorWidth, by decide⟩ := by
  rw [plannedWindow, Window.span_ofSpans, if_pos rfl]

theorem plannedWindow_y (o : Operands) :
    o.plannedWindow.span .y = .between 0 (o.output.extent 1) := by
  rw [plannedWindow, Window.span_ofSpans, if_neg (by decide), if_pos rfl]

theorem plannedWindow_z (o : Operands) :
    o.plannedWindow.span .z =
      .between 0 (max (o.output.extent 2) 1 * max (o.output.extent 3) 1 : Nat) := by
  rw [plannedWindow, Window.span_ofSpans, if_neg (by decide), if_neg (by decide), if_pos rfl]

theorem plannedWindow_outer (o : Operands) {a : Axis} (ha : .z < a) :
    o.plannedWindow.span a = .unit := by
  have ne {b : Axis} (hb : b ≤ .z) : a ≠ b := fun e => Fin.not_le.2 ha (e ▸ hb)
  rw [plannedWindow, Window.span_ofSpans, if_neg (ne (by decide)), if_neg (ne (by decide)),
    if_neg (ne (by decide))]

end Operands

namespace Window

structure IsPart (w full : Window) : Prop where
  within : w.IsWithin full
  batch : w.span .batch = full.span .batch
  outer : w.span .outer = full.span .outer
  outermost : w.span .outermost = full.span .outermost

theorem IsPart.refl (w : Window) : w.IsPart w :=
  ⟨fun _ => ⟨Int.le_refl _, Int.le_refl _, rfl, by rw [Int.sub_self, Int.zero_emod]⟩, rfl, rfl, rfl⟩

def HasRow (w : Window) (row plane : Nat) : Prop :=
  ((w.span .y).start ≤ row ∧ row < (w.span .y).stop) ∧
    (w.span .z).start ≤ plane ∧ plane < (w.span .z).stop

instance (w : Window) (row plane : Nat) : Decidable (w.HasRow row plane) :=
  inferInstanceAs (Decidable (_ ∧ _))

end Window

namespace Operands

theorem planned_start (o : Operands) (a : Axis) : (o.plannedWindow.span a).start = 0 := by
  rcases axis_cases a with rfl | rfl | rfl | ha
  · rw [plannedWindow_x]
  · rw [plannedWindow_y]
    rfl
  · rw [plannedWindow_z]
    rfl
  · rw [plannedWindow_outer o ha]
    rfl

theorem planned_startAt (o : Operands) (a : Axis) : o.plannedWindow.startAt a = 0 := by
  rw [Window.startAt, planned_start]
  rfl

variable {o : Operands} {s : Storage} {k : Kernel} {t : Submission.Tensors} {m : Memory}
  {w : Window} {column row level : Nat}

theorem flat_of_isPart (h : w.IsPart o.plannedWindow) : w.Flat where
  start_nonneg a := by
    have := (h.within a).1
    rwa [planned_start] at this
  batch := h.batch.trans (plannedWindow_outer o (by decide))
  outer := h.outer.trans (plannedWindow_outer o (by decide))
  outermost := h.outermost.trans (plannedWindow_outer o (by decide))

theorem ofWindow_isPart (h : w.IsPart o.plannedWindow) :
    (w.span .x).step = vectorWidth ∧
      (LaunchRange.ofWindow w).y = ((w.span .y).stop - (w.span .y).start).toNat ∧
      (LaunchRange.ofWindow w).z = ((w.span .z).stop - (w.span .z).start).toNat := by
  have step (a : Axis) := (h.within a).2.2.1
  have x := step .x
  have y := step .y
  have z := step .z
  rw [plannedWindow_x] at x
  rw [plannedWindow_y] at y
  rw [plannedWindow_z] at z
  have batch : (w.span .batch).wholeSteps = 1 := by
    rw [(flat_of_isPart h).batch]
    rfl
  refine ⟨x, Span.wholeSteps_of_step_eq_one y, ?_⟩
  rw [LaunchRange.ofWindow, batch, Nat.mul_one, Span.wholeSteps_of_step_eq_one z]

theorem Provided.output_extent (p : o.Provided s t m) (axis : Nat) :
    t.output.descriptor.extent axis = o.output.extent axis :=
  p.host.output.extent_eq axis

theorem Provided.extent_pos (p : o.Provided s t m) (axis : Nat) : 0 < o.output.extent axis := by
  rw [← p.output_extent]
  exact p.room.elements axis

theorem Provided.extent_eq (p : o.Provided s t m) (axis : Nat) (h : 1 ≤ axis) :
    t.first.descriptor.extent axis = o.output.extent axis ∧
      t.second.descriptor.extent axis = o.output.extent axis := by
  rw [p.host.first.extent_eq, p.host.second.extent_eq]
  exact ⟨p.first_extent axis h, p.second_extent axis h⟩

theorem Provided.planes_eq (p : o.Provided s t m) :
    t.first.descriptor.planes = o.output.planes ∧ t.second.descriptor.planes = o.output.planes ∧
      t.output.descriptor.planes = o.output.planes := by
  simp only [Descriptor.planes, p.extent_eq 2 (by decide), p.extent_eq 3 (by decide),
    p.output_extent, and_self]

theorem Provided.planned_planes (p : o.Provided s t m) :
    max (o.output.extent 2) 1 * max (o.output.extent 3) 1 = o.output.planes := by
  rw [Nat.max_eq_left (p.extent_pos 2), Nat.max_eq_left (p.extent_pos 3), Descriptor.planes]

theorem Provided.windowStores (p : o.Provided s t m) (h : w.IsPart o.plannedWindow)
    (some : (LaunchRange.ofWindow w).isEmpty = false) : WindowStores t w := by
  obtain ⟨step, rows, planes⟩ := ofWindow_isPart h
  have flat := flat_of_isPart h
  have stop (a : Axis) := (h.within a).2.1
  have x := stop .x
  have y := stop .y
  have z := stop .z
  rw [plannedWindow_x] at x
  rw [plannedWindow_y] at y
  rw [plannedWindow_z, p.planned_planes] at z
  obtain ⟨hx, hy, hz⟩ := LaunchRange.isEmpty_eq_false_iff.1 some
  have columns : (LaunchRange.ofWindow w).x
      = (max ((w.span .x).stop - (w.span .x).start) 0 / 8).toNat := by
    rw [LaunchRange.ofWindow, Span.wholeSteps, step]
    rfl
  have x0 := flat.start_nonneg .x
  have y0 := flat.start_nonneg .y
  have z0 := flat.start_nonneg .z
  refine ⟨?_, ?_, ?_⟩
  · rw [p.output_extent, Window.startAt, vectorWidth]
    simp only at x
    omega
  · rw [p.output_extent, Window.startAt]
    simp only [Span.between] at y
    omega
  · rw [p.planes_eq.2.2, Window.startAt]
    simp only [Span.between] at z
    omega

/-! Loads and stores of the items of whole rows stay in the rows: this is what the padding is for. -/

theorem Provided.first_inRow (p : o.Provided s t m) (width : 0 < o.first.extent 0) (i : Nat)
    (hr : row < o.output.extent 1) (hl : level < o.output.planes) :
    t.first.InRow (o.firstColumn i) row level where
  left := by
    simp only [firstColumn, Operands.vectorEnd_eq, vectorWidth]
    omega
  right := by
    have right := p.first_right
    rw [p.host.first.extent_eq]
    simp only [firstColumn]
    omega
  row := by
    rw [(p.extent_eq 1 (Nat.le_refl 1)).1]
    exact hr
  plane := by
    rw [p.planes_eq.1]
    exact hl

theorem Provided.second_inRow (p : o.Provided s t m)
    (width : 0 < o.second.extent 0 ∨ o.first.extent 0 % vectorWidth ≠ 0) {i : Nat}
    (hi : i * vectorWidth + vectorWidth ≤ vectorEnd (o.output.extent 0))
    (hr : row < o.output.extent 1) (hl : level < o.output.planes) :
    t.second.InRow (o.secondColumn i) row level where
  left := by
    have left := p.second_left
    simp only [secondColumn]
    omega
  right := by
    have right := p.second_right
    have ends := p.vectorEnd_eq
    rw [p.host.second.extent_eq]
    simp only [secondColumn, joinedWidth, Operands.vectorEnd_eq, vectorWidth] at *
    omega
  row := by
    rw [(p.extent_eq 1 (Nat.le_refl 1)).2]
    exact hr
  plane := by
    rw [p.planes_eq.2.1]
    exact hl

theorem Provided.output_inRow (p : o.Provided s t m) {i : Nat}
    (hi : i * vectorWidth + vectorWidth ≤ vectorEnd (o.output.extent 0))
    (hr : row < o.output.extent 1) (hl : level < o.output.planes) :
    t.output.InRow (i * vectorWidth : Nat) row level where
  left := by omega
  right := by
    have vectors := p.room.vectors
    rw [p.output_extent] at *
    omega
  row := by
    rw [p.output_extent]
    exact hr
  plane := by
    rw [p.planes_eq.2.2]
    exact hl

section WholeRows

variable (hx : w.span .x = o.plannedWindow.span .x)
include hx

theorem startAt_x : w.startAt .x = 0 := by
  rw [Window.startAt, hx]
  exact o.planned_startAt .x

theorem ofWindow_x : (LaunchRange.ofWindow w).x * vectorWidth = vectorEnd (o.output.extent 0) := by
  have steps : (LaunchRange.ofWindow w).x
      = (max ((vectorEnd (o.output.extent 0) : Int) - 0) 0 / 8).toNat := by
    rw [LaunchRange.ofWindow, Span.wholeSteps, hx, plannedWindow_x]
    rfl
  rw [steps, vectorWidth, vectorEnd_eq]
  omega

variable (h : w.IsPart o.plannedWindow)
include h

theorem covers_iff_hasRow (hc : column < o.output.extent 0) :
    w.Covers column row level ↔ w.HasRow row level := by
  obtain ⟨-, rows, planes⟩ := ofWindow_isPart h
  have y0 := (flat_of_isPart h).start_nonneg .y
  have z0 := (flat_of_isPart h).start_nonneg .z
  have ends := le_vectorEnd (o.output.extent 0)
  rw [Window.Covers, startAt_x hx, ofWindow_x hx, rows, planes, Window.HasRow, Window.startAt,
    Window.startAt]
  omega

variable (p : o.Filled s t m)
include p

theorem Filled.inRow (some : (LaunchRange.ofWindow w).isEmpty = false) {i j n : Nat}
    (hi : i < (LaunchRange.ofWindow w).x) (hj : j < (LaunchRange.ofWindow w).y)
    (hn : n < (LaunchRange.ofWindow w).z) :
    t.first.InRow (w.startAt .x + o.firstColumn i) (w.startAt .y + j) (w.startAt .z + n) ∧
      t.second.InRow (w.startAt .x + o.secondColumn i) (w.startAt .y + j) (w.startAt .z + n) ∧
      t.output.InRow (w.startAt .x + i * vectorWidth) (w.startAt .y + j) (w.startAt .z + n) := by
  obtain ⟨-, rows, planes⟩ := p.windowStores h some
  rw [p.output_extent] at rows
  rw [p.planes_eq.2.2] at planes
  have row : w.startAt .y + j < o.output.extent 1 := by omega
  have level : w.startAt .z + n < o.output.planes := by omega
  have column : i * vectorWidth + vectorWidth ≤ vectorEnd (o.output.extent 0) := by
    rw [← ofWindow_x hx, ← Nat.succ_mul]
    exact Nat.mul_le_mul_right _ hi
  rw [startAt_x hx, Int.natCast_zero, Int.zero_add, Int.zero_add, Int.zero_add]
  have width : 0 < o.first.extent 0 := p.host.first.extent_eq 0 ▸ p.ordinary.first.elements 0
  have width' : 0 < o.second.extent 0 := p.host.second.extent_eq 0 ▸ p.ordinary.second.elements 0
  exact ⟨p.first_inRow width i row level, p.second_inRow (.inl width') column row level,
    p.output_inRow column row level⟩

theorem Filled.windowLoads (some : (LaunchRange.ofWindow w).isEmpty = false) :
    o.WindowLoads t m w := by
  intro i j n hi hj hn
  obtain ⟨first, second, -⟩ := p.inRow hx h some hi hj hn
  exact ⟨first.hasVector p.addressed.first.rows p.allocated.first,
    second.hasVector p.addressed.second.rows p.allocated.second⟩

end WholeRows

end Operands
end TensorConcat
