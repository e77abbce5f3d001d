import TensorConcat.Proofs.Plan.Needs

/-! The window over whole rows of an output: vectors along x, rows along y, and planes along z. -/

namespace TensorConcat

namespace Window

def coverLength (s : Shape) (steps : List Nat) (a : Axis) : Nat :=
  if a ≤ Axis.y then ceilMultiple (s.extent a) (stepAt steps a) else max (s.extent a) 1

theorem stepAt_pos (steps : List Nat) (axis : Nat) : 0 < stepAt steps axis :=
  Nat.le_max_left ..

theorem step_coverSpan (region : ValidRegion) {steps : List Nat} {a : Axis}
    (hs : stepAt steps a < 0x8000000000000000) :
    (coverSpan region steps a).step = stepAt steps a := by
  have hp : (0 : Int) < stepAt steps a := Int.natCast_pos.2 (stepAt_pos steps a)
  simp only [coverSpan, signed64_of_lt hs, Span.ofBounds?, dif_pos hp, Option.getD_some]

theorem start_coverSpan (region : ValidRegion) (steps : List Nat) (a : Axis) :
    (coverSpan region steps a).start = signed64 (region.anchor.get a) := by
  simp only [coverSpan, Span.ofBounds?]
  split <;> simp only [Option.getD_some, Option.getD_none, Span.between]

theorem stop_coverSpan (region : ValidRegion) (steps : List Nat) (a : Axis) :
    (coverSpan region steps a).stop =
      signed64 (region.anchor.get a) + signed64 (coverLength region.shape steps a) := by
  simp only [coverSpan, Span.ofBounds?]
  split <;> simp only [Option.getD_some, Option.getD_none, Span.between, coverLength]

theorem coverSpan_eq {region : ValidRegion} {steps : List Nat} {a : Axis}
    (hs : stepAt steps a < 0x8000000000000000) (ha : region.anchor.get a < 0x8000000000000000)
    (hl : coverLength region.shape steps a < 0x8000000000000000) :
    coverSpan region steps a =
      ⟨region.anchor.get a, region.anchor.get a + coverLength region.shape steps a, stepAt steps a,
        Int.natCast_pos.2 (stepAt_pos steps a)⟩ := by
  have hp : (0 : Int) < stepAt steps a := Int.natCast_pos.2 (stepAt_pos steps a)
  have hl' : signed64 (if a ≤ Axis.y then ceilMultiple (region.shape.extent a) (stepAt steps a)
      else max (region.shape.extent a) 1) = coverLength region.shape steps a := signed64_of_lt hl
  simp only [coverSpan, signed64_of_lt ha, signed64_of_lt hs, Span.ofBounds?, dif_pos hp,
    Option.getD_some, hl']

theorem anchor_full (s : Shape) (a : Axis) : (ValidRegion.full s).anchor.get a = 0 := by
  simp [ValidRegion.full, Vector.get]

end Window

namespace Operands

/-- The window over the whole output: vectors of a row, rows, and all planes along one axis. -/
def plannedWindow (o : Operands) : Window :=
  .ofSpans fun a =>
    if a = .x then ⟨0, vectorEnd (o.output.extent 0), vectorWidth, by decide⟩
    else if a = .y then .between 0 (o.output.extent 1)
    else if a = .z then .between 0 (max (o.output.extent 2) 1 * max (o.output.extent 3) 1 : Nat)
    else .unit

variable {o : Operands} {half : Bool}

/-- The valid region of the output consists of whole rows inside it. -/
structure ValidRows (o : Operands) : Prop where
  inside : ∀ a : Axis,
    o.output.valid.anchor.get a + o.output.valid.shape.extent a ≤ o.output.extent a
  start : o.output.valid.anchor.get Axis.x = 0
  width : o.output.valid.shape.extent 0 = o.output.extent 0

theorem validRows_of_full (hv : o.output.valid = .full o.output.shape) : o.ValidRows where
  inside a := by
    rw [hv, Window.anchor_full, Nat.zero_add]
    exact Nat.le_refl _
  start := by rw [hv, Window.anchor_full]
  width := by
    rw [hv]
    rfl

theorem step_cover (region : ValidRegion) (a : Axis) :
    ((Window.cover region [vectorWidth]).span a).step = if a = .x then (vectorWidth : Int) else 1 := by
  have steps : ∀ a : Axis, Window.stepAt [vectorWidth] a = if a = .x then vectorWidth else 1 := by
    decide
  rw [Window.cover, Window.span_ofSpans, Window.step_coverSpan _ (by rw [steps]; split <;> decide),
    steps]
  split <;> rfl

theorem cover_x (hv : vectorEnd (o.output.extent 0) < 0x8000000000000000)
    (start : o.output.valid.anchor.get Axis.x = 0)
    (width : o.output.valid.shape.extent 0 = o.output.extent 0) :
    (Window.cover o.output.valid [vectorWidth]).span .x =
      ⟨0, vectorEnd (o.output.extent 0), vectorWidth, by decide⟩ := by
  have hl : Window.coverLength o.output.valid.shape [vectorWidth] .x =
      vectorEnd (o.output.extent 0) :=
    congrArg vectorEnd width
  rw [Window.cover, Window.span_ofSpans, Window.coverSpan_eq (by decide) (by omega) (by omega)]
  simp only [hl, start, Int.natCast_zero, Int.zero_add]
  rfl

theorem cover_ne_x (hr : o.output.InRange) (inside : ∀ a : Axis,
      o.output.valid.anchor.get a + o.output.valid.shape.extent a ≤ o.output.extent a)
    {a : Axis} (ha : a ≠ .x) :
    (Window.cover o.output.valid [vectorWidth]).span a =
      .between (o.output.valid.anchor.get a)
        (o.output.valid.anchor.get a +
          (if a = .y then o.output.valid.shape.extent a
            else max (o.output.valid.shape.extent a) 1 : Nat)) := by
  have hs : Window.stepAt [vectorWidth] a = 1 := by
    have : ∀ a : Axis, a ≠ .x → Window.stepAt [vectorWidth] a = 1 := by decide
    exact this a ha
  have low : ∀ a : Axis, a ≠ .x → (a ≤ .y ↔ a = .y) := by decide
  have hl : Window.coverLength o.output.valid.shape [vectorWidth] a =
      if a = .y then o.output.valid.shape.extent a else max (o.output.valid.shape.extent a) 1 := by
    rw [Window.coverLength, hs, ceilMultiple, Nat.add_sub_cancel, Nat.div_one, Nat.mul_one]
    simp only [low a ha]
  have bound := hr.extent_lt a
  have within := inside a
  rw [Window.cover, Window.span_ofSpans, Window.coverSpan_eq (by rw [hs]; decide) (by omega)
    (by rw [hl]; split <;> omega)]
  simp only [hl, hs]
  rfl

theorem cover_output (hr : o.output.InRange)
    (vectors : vectorEnd (o.output.extent 0) < 0x8000000000000000)
    (hv : o.output.valid = .full o.output.shape) (a : Axis) :
    (Window.cover o.output.valid [vectorWidth]).span a =
      if a = .x then ⟨0, vectorEnd (o.output.extent 0), vectorWidth, by decide⟩
      else if a = .y then .between 0 (o.output.extent 1)
      else .between 0 (max (o.output.extent a) 1 : Nat) := by
  have rows := validRows_of_full hv
  have extent (a : Axis) : o.output.valid.shape.extent a = o.output.extent a := by
    rw [hv]
    rfl
  by_cases hx : a = .x
  · rw [hx, if_pos rfl, cover_x vectors rows.start rows.width]
  · rw [if_neg hx, cover_ne_x hr rows.inside hx, hv, Window.anchor_full, ← hv, extent,
      Int.natCast_zero, Int.zero_add]
    by_cases hy : a = .y
    · rw [if_pos hy, if_pos hy, hy]
      rfl
    · rw [if_neg hy, if_neg hy]

theorem collapsible_iff {w : Window} (unit : ∀ a, .z < a → (w.span a).step = 1) :
    w.Collapsible w .z ↔ ∀ a, .z < a → (w.span a).start = 0 := by
  constructor
  · exact fun h a ha => (h a ha).1
  · exact fun h a ha => ⟨h a ha, h a ha, Int.le_of_eq (unit a ha), rfl⟩

theorem span_merged {w : Window} (h : w.Collapsible w .z) (a : Axis) :
    (merged w).span a = if a < .z then w.span a
      else if a = .z then { w.span a with stop := w.mergedStop .z } else .unit := by
  rw [merged, Window.collapse?, if_pos h, Option.getD_some, Window.span_ofSpans]

theorem merged_of_not_collapsible {w : Window} (h : ¬ w.Collapsible w .z) : merged w = w := by
  rw [merged, Window.collapse?, if_neg h, Option.getD_none]

theorem span_merged_inner (w : Window) {a : Axis} (ha : a < .z) : (merged w).span a = w.span a := by
  by_cases h : w.Collapsible w .z
  · rw [span_merged h, if_pos ha]
  · rw [merged_of_not_collapsible h]

theorem span_merged_outer {w : Window} (h : w.Collapsible w .z) {a : Axis} (ha : .z < a) :
    (merged w).span a = .unit := by
  rw [span_merged h, if_neg (Fin.not_lt.2 (Fin.le_of_lt ha)), if_neg (Fin.ne_of_gt ha)]

theorem start_merged_nonneg {w : Window} (nonneg : ∀ a, 0 ≤ (w.span a).start) (a : Axis) :
    0 ≤ ((merged w).span a).start := by
  by_cases h : w.Collapsible w .z
  · rw [span_merged h]
    split
    · exact nonneg a
    · split
      · exact nonneg a
      · exact Int.le_refl 0
  · rw [merged_of_not_collapsible h]
    exact nonneg a

theorem mergedStop_z (w : Window) :
    w.mergedStop .z = (w.span .z).stop * ((w.span .batch).stop * ((w.span .outer).stop *
      ((w.span .outermost).stop * 1))) := by
  have axes : (List.finRange 6).filter (Axis.z ≤ ·) = [.z, .batch, .outer, .outermost] := by decide
  simp only [Window.mergedStop, axes, List.map_cons, List.map_nil, List.foldr_cons, List.foldr_nil]

theorem axis_cases : ∀ a : Axis, a = .x ∨ a = .y ∨ a = .z ∨ .z < a := by decide

theorem merged_cover (h : o.Compatible half) (hr : o.output.InRange)
    (vectors : vectorEnd (o.output.extent 0) < 0x8000000000000000)
    (hv : o.output.valid = .full o.output.shape) :
    merged (.cover o.output.valid [vectorWidth]) = o.plannedWindow := by
  have hspan := cover_output hr vectors hv
  generalize Window.cover o.output.valid [vectorWidth] = w at *
  have plane {a : Axis} (ha : .z ≤ a) :
      w.span a = .between 0 (max (o.output.extent a) 1 : Nat) := by
    rw [hspan a, if_neg (by rintro rfl; exact absurd ha (by decide)),
      if_neg (by rintro rfl; exact absurd ha (by decide))]
  have hcol : w.Collapsible w .z := by
    rw [collapsible_iff fun a ha => by rw [plane (Fin.le_of_lt ha)]; rfl]
    intro a ha
    rw [plane (Fin.le_of_lt ha)]
    rfl
  -- Operands have at most four axes, so that only planes and batches are folded into one axis.
  have hstop : w.mergedStop .z = (max (o.output.extent 2) 1 * max (o.output.extent 3) 1 : Nat) := by
    rw [mergedStop_z]
    rw [plane (a := .z) (by decide), plane (a := .batch) (by decide), plane (a := .outer) (by decide),
      plane (a := .outermost) (by decide), h.outer_extent (show 4 ≤ (Axis.outer : Nat) by decide),
      h.outer_extent (show 4 ≤ (Axis.outermost : Nat) by decide)]
    have hz : ((Axis.z : Axis) : Nat) = 2 := rfl
    have hb : ((Axis.batch : Axis) : Nat) = 3 := rfl
    simp only [Span.between, Nat.max_self, Int.natCast_mul, Int.natCast_one, Int.mul_one, hz, hb]
  apply Window.ext_span
  intro a
  rw [span_merged hcol, plannedWindow, Window.span_ofSpans]
  rcases axis_cases a with rfl | rfl | rfl | hz
  · rw [if_pos (by decide), if_pos rfl, hspan, if_pos rfl]
  · rw [if_pos (by decide), if_neg (by decide), if_pos rfl, hspan, if_neg (by decide), if_pos rfl]
  · rw [if_neg (by decide), if_pos rfl, if_neg (by decide), if_neg (by decide), if_pos rfl]
    simp only [hstop, plane (Fin.le_refl _), Span.between]
  · have lower {b : Axis} (hb : b ≤ .z) : a ≠ b := fun e => Fin.not_le.2 hz (e ▸ hb)
    rw [if_neg (Fin.not_lt.2 (Fin.le_of_lt hz)), if_neg (lower (by decide)),
      if_neg (lower (by decide)), if_neg (lower (by decide)), if_neg (lower (by decide))]

end Operands
end TensorConcat
