import TensorConcat.Proofs.Concat.Columns
import TensorConcat.Proofs.Tensor.Regions

/-! Outputs of which only some rows, planes and batches are valid. A launch counts the planes of all
its batches in one row, as the program does. The planes of the region need not follow one another. -/

namespace TensorConcat

theorem DeviceTensor.HasVector.plane_lt {t : DeviceTensor} {m : Memory} {y plane : Nat}
    (h : t.HasVector m 0 y plane) (outer : ∀ axis, 4 ≤ axis → t.descriptor.extent axis = 1)
    (hs : 0 < t.descriptor.stride 0) (size : (m.buffer t.buffer).size = t.descriptor.totalSize) :
    plane < t.descriptor.planes := by
  have place := t.descriptor.address_natCast 0 y plane
  have vector : 0 < Operands.vectorWidth * t.descriptor.stride 0 := Nat.mul_pos (by decide) hs
  have room := h.2
  rw [Int.natCast_zero] at place
  rw [place, size, Descriptor.totalSize_eq outer, Descriptor.position_eq] at room
  exact Nat.lt_of_mul_lt_mul_left (show t.descriptor.stride 2 * plane < _ by omega)

namespace Operands

def regionWindow (o : Operands) : Window :=
  .ofSpans fun a =>
    if a = .x then o.plannedWindow.span .x
    else if a = .y then
      .between (o.output.valid.anchor.get Axis.y)
        (o.output.valid.anchor.get Axis.y + o.output.valid.shape.extent Axis.y)
    else if a = .z then
      .between (o.output.valid.firstPlane (o.output.extent 2))
        (o.output.valid.firstPlane (o.output.extent 2) + o.output.valid.planeCount)
    else .unit

theorem regionWindow_x (o : Operands) : o.regionWindow.span .x = o.plannedWindow.span .x := by
  rw [regionWindow, Window.span_ofSpans, if_pos rfl]

theorem regionWindow_y (o : Operands) :
    o.regionWindow.span .y = .between (o.output.valid.anchor.get Axis.y)
      (o.output.valid.anchor.get Axis.y + o.output.valid.shape.extent Axis.y) := by
  rw [regionWindow, Window.span_ofSpans, if_neg (by decide), if_pos rfl]

theorem regionWindow_z (o : Operands) :
    o.regionWindow.span .z = .between (o.output.valid.firstPlane (o.output.extent 2))
      (o.output.valid.firstPlane (o.output.extent 2) + o.output.valid.planeCount) := by
  rw [regionWindow, Window.span_ofSpans, if_neg (by decide), if_neg (by decide), if_pos rfl]

theorem regionWindow_outer (o : Operands) {a : Axis} (ha : .z < a) :
    o.regionWindow.span a = .unit := by
  have ne {b : Axis} (hb : b ≤ .z) : a ≠ b := fun e => Fin.not_le.2 ha (e ▸ hb)
  rw [regionWindow, Window.span_ofSpans, if_neg (ne (by decide)), if_neg (ne (by decide)),
    if_neg (ne (by decide))]

variable {o : Operands} {half : Bool}

section Window

variable (compatible : o.Compatible half) (hr : o.output.InRange)
  (rows : o.ValidRows)
include hr rows

theorem cover_outer {a : Axis} (ha : .z ≤ a) :
    (Window.cover o.output.valid [vectorWidth]).span a =
      .between (o.output.valid.anchor.get a)
        (o.output.valid.anchor.get a + (max (o.output.valid.shape.extent a) 1 : Nat)) := by
  have ne {b : Axis} (hb : b < .z) : a ≠ b := Fin.ne_of_gt (Std.lt_of_lt_of_le hb ha)
  rw [cover_ne_x hr rows.inside (ne (by decide)), if_neg (ne (by decide))]

theorem collapsible_cover_iff :
    (Window.cover o.output.valid [vectorWidth]).Collapsible
        (Window.cover o.output.valid [vectorWidth]) .z ↔
      ∀ a, Axis.z < a → o.output.valid.anchor.get a = 0 := by
  have unit (a : Axis) (ha : .z < a) :
      ((Window.cover o.output.valid [vectorWidth]).span a).step = 1 := by
    rw [cover_outer hr rows (Fin.le_of_lt ha)]
    rfl
  have start (a : Axis) (ha : .z < a) :
      ((Window.cover o.output.valid [vectorWidth]).span a).start = o.output.valid.anchor.get a := by
    rw [cover_outer hr rows (Fin.le_of_lt ha)]
    rfl
  rw [collapsible_iff unit]
  constructor
  · exact fun h a ha => Int.ofNat_eq_zero.1 ((start a ha).symm.trans (h a ha))
  · exact fun h a ha => (start a ha).trans (Int.ofNat_eq_zero.2 (h a ha))

include compatible

theorem cover_outermost {a : Axis} (ha : .batch < a) :
    (Window.cover o.output.valid [vectorWidth]).span a =
      .single (o.output.valid.anchor.get a) := by
  have inside := rows.inside a
  have one : o.output.extent a = 1 := compatible.outer_extent ha
  have length : max (o.output.valid.shape.extent a) 1 = 1 := by omega
  rw [cover_outer hr rows (Fin.le_of_lt (Fin.lt_trans (by decide) ha)), length]
  rfl

theorem merged_region_planes :
    (merged (.cover o.output.valid [vectorWidth])).startAt .z = o.output.valid.anchor.get Axis.z ∧
      (merged (.cover o.output.valid [vectorWidth])).startAt .batch =
        o.output.valid.anchor.get Axis.batch ∧
      (LaunchRange.ofWindow (merged (.cover o.output.valid [vectorWidth]))).z =
        o.output.valid.planeCount := by
  have plane := cover_outer hr rows (a := .z) (by decide)
  have batch := cover_outer hr rows (a := .batch) (by decide)
  have outer := cover_outermost compatible hr rows (a := .outer) (by decide)
  have outermost := cover_outermost compatible hr rows (a := .outermost) (by decide)
  have iff := collapsible_cover_iff hr rows
  generalize Window.cover o.output.valid [vectorWidth] = w at *
  rw [Window.startAt, Window.startAt, ValidRegion.planeCount]
  by_cases h : w.Collapsible w .z
  · have zero := iff.1 h
    rw [zero .batch (by decide), Int.natCast_zero, Int.zero_add] at batch
    rw [zero .outer (by decide), Int.natCast_zero] at outer
    rw [zero .outermost (by decide), Int.natCast_zero] at outermost
    have stop : w.mergedStop .z = ((o.output.valid.anchor.get Axis.z
        + max (o.output.valid.shape.extent Axis.z) 1) *
          max (o.output.valid.shape.extent Axis.batch) 1 : Nat) := by
      rw [mergedStop_z, plane, batch, outer, outermost]
      simp only [Span.between, Span.single, Int.natCast_mul, Int.natCast_add, Int.zero_add,
        Int.mul_one]
    have spanZ : (merged w).span .z = { w.span .z with stop := w.mergedStop .z } := by
      rw [span_merged h, if_neg (by decide), if_pos rfl]
    have spanBatch : (merged w).span .batch = .unit := span_merged_outer h (by decide)
    have one : Span.unit.wholeSteps = 1 := rfl
    rw [if_pos zero, LaunchRange.ofWindow, spanZ, spanBatch, zero .batch (by decide), one,
      Nat.mul_one, plane]
    refine ⟨Int.toNat_natCast _, rfl, (Span.wholeSteps_of_step_eq_one rfl).trans ?_⟩
    simp only [stop, Span.between]
    omega
  · rw [if_neg (fun zero => h (iff.2 zero)), merged_of_not_collapsible h, LaunchRange.ofWindow,
      plane, batch, Span.wholeSteps_between, Span.wholeSteps_between]
    exact ⟨Int.toNat_natCast _, Int.toNat_natCast _, rfl⟩

variable (vectors : vectorEnd (o.output.extent 0) < 0x8000000000000000)
include vectors

theorem oneSlice_merged_region : (merged (.cover o.output.valid [vectorWidth])).OneSlice := by
  have outermost (a : Axis) (ha : .batch < a) :
      (merged (.cover o.output.valid [vectorWidth])).span a =
        .single ((merged (.cover o.output.valid [vectorWidth])).span a).start := by
    by_cases h : (Window.cover o.output.valid [vectorWidth]).Collapsible
        (Window.cover o.output.valid [vectorWidth]) .z
    · rw [span_merged_outer h (Fin.lt_trans (by decide) ha)]
      rfl
    · rw [merged_of_not_collapsible h, cover_outermost compatible hr rows ha]
      rfl
  refine ⟨start_merged_nonneg fun a => ?_, outermost _ (by decide), outermost _ (by decide)⟩
  by_cases h : a = .x
  · subst h
    exact Int.le_of_eq (congrArg Span.start (cover_x vectors rows.start rows.width)).symm
  · rw [cover_ne_x hr rows.inside h]
    exact Int.natCast_nonneg _

theorem flattened_merged_region :
    (merged (.cover o.output.valid [vectorWidth])).flattened (o.output.extent 2) =
      o.regionWindow := by
  obtain ⟨plane, batch, count⟩ := merged_region_planes compatible hr rows
  apply Window.ext_span
  intro a
  rcases axis_cases a with rfl | rfl | rfl | ha
  · rw [Window.flattened_inner (by decide), span_merged_inner _ (by decide), regionWindow_x,
      cover_x vectors rows.start rows.width, plannedWindow_x]
  · rw [Window.flattened_inner (by decide), span_merged_inner _ (by decide), regionWindow_y,
      cover_ne_x hr rows.inside (by decide), if_pos rfl]
  · rw [Window.flattened_z, plane, batch, count, regionWindow_z]
    rfl
  · rw [Window.flattened_outer ha, regionWindow_outer o ha]

end Window

/-- Between two memories, all elements of the valid region have been stored to once, and are what
the inputs hold side by side. No other element of the output has been stored to. -/
def RegionJoined (o : Operands) (s : Storage) (t : Submission.Tensors) (m m' : Memory) : Prop :=
  ∀ x y z b, x < o.output.extent 0 → y < o.output.extent 1 → z < o.output.extent 2 →
    b < o.output.extent 3 →
    t.output.storesAt m' [x, y, z, b] = (t.output.storesAt m [x, y, z, b]).map
      (· + if o.output.valid.Has [x, y, z, b] then 1 else 0) ∧
    (o.output.valid.Has [x, y, z, b] → x < o.joinedWidth →
      t.output.elementAt m' [x, y, z, b] = o.joinedElement s t m 0 x y z b)

variable {planned : Operands} {s : Storage} {k : Kernel} {t : Submission.Tensors} {m m' : Memory}

theorem regionJoined_of_no_rows (none : o.output.valid.shape.extent Axis.y = 0) :
    o.RegionJoined s t m m := by
  intro x y z b _ _ _ _
  have outside : ¬ o.output.valid.Has [x, y, z, b] := by
    rw [ValidRegion.has_iff]
    omega
  refine ⟨?_, fun has => absurd has outside⟩
  simp only [if_neg outside, Nat.add_zero, List.map_id']

theorem ofWindow_region (o : Operands) :
    (LaunchRange.ofWindow o.regionWindow).y = o.output.valid.shape.extent Axis.y ∧
      (LaunchRange.ofWindow o.regionWindow).z = o.output.valid.planeCount := by
  have batch := regionWindow_outer o (a := .batch) (by decide)
  have one : Span.unit.wholeSteps = 1 := rfl
  rw [LaunchRange.ofWindow, regionWindow_y, regionWindow_z, batch, one, Nat.mul_one,
    Span.wholeSteps_between, Span.wholeSteps_between]
  exact ⟨rfl, rfl⟩

theorem hasRow_region (o : Operands) (y plane : Nat) :
    o.regionWindow.HasRow y plane ↔
      (o.output.valid.anchor.get Axis.y ≤ y ∧
          y < o.output.valid.anchor.get Axis.y + o.output.valid.shape.extent Axis.y) ∧
        o.output.valid.firstPlane (o.output.extent 2) ≤ plane ∧
          plane < o.output.valid.firstPlane (o.output.extent 2) + o.output.valid.planeCount := by
  rw [Window.HasRow, regionWindow_y, regionWindow_z]
  simp only [Span.between]
  omega

theorem map_add_ite_inj {ns : List Nat} (some : ns ≠ []) {c d : Prop} [Decidable c] [Decidable d] :
    ns.map (· + if c then 1 else 0) = ns.map (· + if d then 1 else 0) ↔ (c ↔ d) := by
  obtain ⟨n, rest, rfl⟩ := List.exists_cons_of_ne_nil some
  constructor
  · intro same
    have first := Nat.add_left_cancel (List.cons.inj same).1
    by_cases hc : c <;> by_cases hd : d <;> simp_all
  · intro iff
    simp only [iff]

section Provided

variable (p : o.Provided s t m)
include p

theorem Provided.isEmpty_region_iff :
    (LaunchRange.ofWindow o.regionWindow).isEmpty = true ↔
      o.output.valid.shape.extent Axis.y = 0 := by
  obtain ⟨height, count⟩ := o.ofWindow_region
  have columns := ofWindow_x o.regionWindow_x
  have width := le_vectorEnd (o.output.extent 0)
  have := p.extent_pos 0
  have := o.output.valid.planeCount_pos
  rw [LaunchRange.isEmpty_iff]
  simp only [vectorWidth] at *
  omega

theorem Provided.regionWindow_isPart (rows : o.ValidRows)
    (fits : o.output.valid.firstPlane (o.output.extent 2) + o.output.valid.planeCount ≤
      o.output.planes) : o.regionWindow.IsPart o.plannedWindow where
  within a := by
    have inside : o.output.valid.anchor.get Axis.y + o.output.valid.shape.extent Axis.y ≤
      o.output.extent 1 := rows.inside .y
    rcases axis_cases a with rfl | rfl | rfl | ha
    · rw [regionWindow_x]
      exact (Window.IsPart.refl o.plannedWindow).within .x
    · rw [regionWindow_y, plannedWindow_y]
      refine ⟨Int.natCast_nonneg _, ?_, rfl, Int.emod_one _⟩
      simp only [Span.between]
      omega
    · rw [regionWindow_z, plannedWindow_z, p.planned_planes]
      refine ⟨Int.natCast_nonneg _, ?_, rfl, Int.emod_one _⟩
      simp only [Span.between]
      omega
    · rw [regionWindow_outer o ha, plannedWindow_outer o ha]
      exact ⟨Int.le_refl _, Int.le_refl _, rfl, rfl⟩
  batch := by rw [regionWindow_outer o (by decide), plannedWindow_outer o (by decide)]
  outer := by rw [regionWindow_outer o (by decide), plannedWindow_outer o (by decide)]
  outermost := by rw [regionWindow_outer o (by decide), plannedWindow_outer o (by decide)]

theorem Provided.storesAt_ne_nil {x y z b : Nat} (hx : x < o.output.extent 0)
    (hy : y < o.output.extent 1) (hz : z < o.output.extent 2) (hb : b < o.output.extent 3) :
    t.output.storesAt m [x, y, z, b] ≠ [] := by
  rw [← p.output_extent] at hx hy hz hb
  have size : t.output.descriptor.elementSize = s.size := p.suit.size t.output (by simp)
  rw [DeviceTensor.storesAt,
    DeviceTensor.cells_at p.room.elements p.room.size_le hx hy hz hb, size]
  cases s <;> simp [Storage.size]

theorem Provided.regionJoined_iff (rows : o.ValidRows)
    (some : 0 < o.output.valid.shape.extent Axis.y)
    (elements : o.RowsJoined s t m m' o.regionWindow) :
    o.RegionJoined s t m m' ↔
      ∀ z b, z < o.output.extent 2 → b < o.output.extent 3 →
        ((o.output.valid.firstPlane (o.output.extent 2) ≤ z + o.output.extent 2 * b ∧
          z + o.output.extent 2 * b <
            o.output.valid.firstPlane (o.output.extent 2) + o.output.valid.planeCount) ↔
          o.output.valid.HasPlane z b) := by
  have inside : o.output.valid.anchor.get Axis.y + o.output.valid.shape.extent Axis.y ≤
    o.output.extent 1 := rows.inside .y
  have column (x : Nat) (hx : x < o.output.extent 0) : o.output.valid.anchor.get Axis.x ≤ x ∧
      x < o.output.valid.anchor.get Axis.x + o.output.valid.shape.extent Axis.x := by
    have width : o.output.valid.shape.extent Axis.x = o.output.extent 0 := rows.width
    rw [rows.start, width]
    omega
  constructor
  · intro joined z b hz hb
    have hy : o.output.valid.anchor.get Axis.y < o.output.extent 1 := by omega
    have both := (elements 0 _ z b (p.extent_pos 0) hy hz hb).1.symm.trans
      (joined 0 _ z b (p.extent_pos 0) hy hz hb).1
    rw [map_add_ite_inj (p.storesAt_ne_nil (p.extent_pos 0) hy hz hb)] at both
    rw [hasRow_region, ValidRegion.has_iff] at both
    constructor
    · intro counted
      exact (both.1 ⟨by omega, counted⟩).2.2
    · intro plane
      exact (both.2 ⟨column 0 (p.extent_pos 0), by omega, plane⟩).2
  · intro planes x y z b hx hy hz hb
    have row : o.regionWindow.HasRow y (z + o.output.extent 2 * b) ↔
        o.output.valid.Has [x, y, z, b] := by
      rw [hasRow_region, ValidRegion.has_iff, planes z b hz hb]
      exact (and_iff_right (column x hx)).symm
    obtain ⟨stores, value⟩ := elements x y z b hx hy hz hb
    simp only [row] at stores value
    exact ⟨stores, fun has _ => value has⟩

theorem Provided.planes_le_of_fits (compatible : o.Compatible half)
    (allocation : t.IsAllocation planned m) (fits : o.WindowFits t m o.regionWindow)
    (some : (LaunchRange.ofWindow o.regionWindow).isEmpty = false) :
    o.output.valid.firstPlane (o.output.extent 2) + o.output.valid.planeCount ≤
      o.output.planes := by
  have count := o.output.valid.planeCount_pos
  have start : o.regionWindow.startAt .z = o.output.valid.firstPlane (o.output.extent 2) := by
    rw [Window.startAt, regionWindow_z]
    exact Int.toNat_natCast _
  obtain ⟨columns, height, -⟩ := LaunchRange.isEmpty_eq_false_iff.1 some
  -- The last of the planes has an item of its own, and that stores inside of the buffer.
  have last := (fits 0 0 (o.output.valid.planeCount - 1) columns height
    (by rw [o.ofWindow_region.2]; omega)).2.2
  rw [startAt_x o.regionWindow_x, start, Int.natCast_zero, Int.zero_mul, Int.add_zero] at last
  have below := last.plane_lt
    (fun axis ha => by rw [p.output_extent, compatible.outer_extent ha])
    (p.suit.stride_pos t.output (by simp))
    (by rw [allocation.output_size, allocation.output])
  rw [p.planes_eq.2.2] at below
  omega

theorem Provided.isSmall_region (rows : o.ValidRows) (addressable : m.Addressable) :
    (LaunchRange.ofWindow o.regionWindow).IsSmall := by
  obtain ⟨inRange, vectors⟩ := p.inRange addressable
  have columns := ofWindow_x o.regionWindow_x
  have height : o.output.valid.shape.extent Axis.y ≤ o.output.extent 1 :=
    Nat.le_trans (Nat.le_add_left ..) (rows.inside .y)
  have bound := inRange.extent_lt 1
  -- Not even twice the planes of the output are too many.
  have planes : o.output.valid.planeCount ≤ 2 * o.output.planes :=
    ValidRegion.planeCount_le (rows.inside .z) (rows.inside .batch) (p.extent_pos 2)
      (p.extent_pos 3)
  have total := Descriptor.planes_le_totalSize p.room.elements
    (p.suit.stride_pos t.output (by simp))
  have room := p.room.size_le
  have small := addressable t.output.buffer
  rw [p.planes_eq.2.2] at total
  simp only [vectorWidth] at columns
  refine ⟨by omega, ?_, ?_⟩
  · rw [o.ofWindow_region.1]
    omega
  · rw [o.ofWindow_region.2]
    omega

theorem Provided.served_region {full : Window} {pack : TensorPack} {q q' : Queue} {k' : Kernel}
    (compatible : o.Compatible half) (rows : o.ValidRows) (addressable : m.Addressable)
    (window : merged (.cover o.output.valid [vectorWidth]) = full) (runs : k.Runs o s full)
    (bound : Submission.Tensors.ofPack pack = .ok t) (idle : q.pending = [])
    (hok : k.run pack full q = (.ok (), k', q')) :
    Served o s t [o.regionWindow] q'.pending := by
  obtain ⟨inRange, vectors⟩ := p.inRange addressable
  have one := oneSlice_merged_region compatible inRange rows vectors
  have flat := flattened_merged_region compatible inRange rows vectors
  rw [window] at one flat
  obtain ⟨-, fits, -, l, binds, rfl⟩ := Kernel.run_eq_ok runs bound (fun _ => one) hok
  have depths : ∀ u ∈ [t.first, t.second, t.output],
      u.descriptor.extent 2 = o.output.extent 2 := by
    simp only [List.forall_mem_cons, List.not_mem_nil, false_implies, implies_true, and_true]
    exact ⟨(p.extent_eq 2 (by decide)).1, (p.extent_eq 2 (by decide)).2, p.output_extent 2⟩
  have serves := binds.serves_flattened p.addressed depths one.start_nonneg fits
  have range : LaunchRange.ofWindow o.regionWindow = .ofWindow full := by
    rw [← flat, Window.ofWindow_flattened]
  rw [flat] at serves
  rw [← range]
  cases empty : (LaunchRange.ofWindow o.regionWindow).isEmpty with
  | true =>
    rw [if_pos rfl, idle]
    exact .idle empty .nil
  | false =>
    rw [if_neg (by decide), Queue.submit, idle, List.nil_append]
    exact .launch empty serves .nil

end Provided

theorem Filled.finish_region_iff {full : Window} {pack : TensorPack} {q q' : Queue} {k' : Kernel}
    (p : o.Filled s t m) (compatible : o.Compatible half) (rows : o.ValidRows)
    (allocation : t.IsAllocation planned m) (addressable : m.Addressable)
    (window : merged (.cover o.output.valid [vectorWidth]) = full) (runs : k.Runs o s full)
    (bound : Submission.Tensors.ofPack pack = .ok t) (idle : q.pending = [])
    (hok : k.run pack full q = (.ok (), k', q')) :
    ((∃ count, (q'.finish m).1 = .ok count) ∧ o.RegionJoined s t m (q'.finish m).2.2) ↔
      o.output.valid.shape.extent Axis.y = 0 ∨
        o.output.valid.IsConsecutive (o.output.extent 2) := by
  have served := p.served_region compatible rows addressable window runs bound idle hok
  by_cases height : o.output.valid.shape.extent Axis.y = 0
  · have idle : q'.pending = [] := served.eq_nil
      (List.forall_mem_singleton.2 (p.isEmpty_region_iff.2 height))
    rw [Queue.finish, idle, Queue.runAll]
    exact iff_of_true ⟨⟨_, rfl⟩, regionJoined_of_no_rows height⟩ (.inl height)
  have some : (LaunchRange.ofWindow o.regionWindow).isEmpty = false :=
    Bool.eq_false_iff.2 fun empty => height (p.isEmpty_region_iff.1 empty)
  rw [or_iff_right height]
  have outer (a : Axis) (ha : .batch < a) :
      o.output.valid.anchor.get a + o.output.valid.shape.extent a ≤ 1 :=
    compatible.outer_extent ha ▸ rows.inside a
  -- The planes of the tensor are all that a run can store to.
  have joined_iff (fits : o.output.valid.firstPlane (o.output.extent 2)
      + o.output.valid.planeCount ≤ o.output.planes) :
      (∃ count, (q'.finish m).1 = .ok count) ∧
        (o.RegionJoined s t m (q'.finish m).2.2 ↔
          o.output.valid.IsConsecutive (o.output.extent 2)) := by
    have part := p.regionWindow_isPart rows fits
    obtain ⟨m', finish, elements⟩ := p.rows_elements addressable part o.regionWindow_x served
      (p.windowLoads o.regionWindow_x part)
    rw [finish]
    refine ⟨⟨_, rfl⟩, ?_⟩
    rw [p.regionJoined_iff rows (Nat.pos_of_ne_zero height) elements]
    exact ValidRegion.isConsecutive_iff (rows.inside .z) (rows.inside .batch) outer fits
  constructor
  · rintro ⟨⟨count, ok⟩, joined⟩
    have fits := runAll_requires_fits p.suit addressable served
      (List.forall_mem_singleton.2 fun _ => p.isSmall_region rows addressable) (.refl m _)
      (Queue.runAll_of_finish ok) _ (List.mem_singleton_self _) some
    exact (joined_iff (p.planes_le_of_fits compatible allocation fits some)).2.1 joined
  · intro consecutive
    obtain ⟨finishes, iff⟩ := joined_iff
      (ValidRegion.firstPlane_add_le (rows.inside .z) (rows.inside .batch) consecutive)
    exact ⟨finishes, iff.2 consecutive⟩

/-- A kernel for an output whose valid region consists of whole rows, and tensors in buffers of just
their sizes. The run over the window of the kernel is accepted exactly if 32 bits hold all of its
arguments. It then finishes and joins the region, and nothing else of the output, exactly if there
are no rows in the region, or its planes follow one another. -/
theorem run_region_iff (half : Bool) (requests : List (String × BuildOptions))
    {o planned : Operands} {k : Kernel} {full : Window} {pack : TensorPack}
    {t : Submission.Tensors} {m : Memory} {q : Queue} (elements : o.HasElements)
    (rows : o.ValidRows)
    (configured : (Kernel.configure (.after (.host half) requests) o).1 = .ok (k, planned))
    (window : k.configuration?.map (·.window) = some full)
    (bound : Submission.Tensors.ofPack pack = .ok t) (allocation : t.IsAllocation planned m)
    (addressable : m.Addressable) (idle : q.pending = []) :
    ∃ s, o.first.type.storage? = some s ∧
      ((∃ k' q', k.run pack full q = (.ok (), k', q')) ↔
        ∀ u ∈ [t.first, t.second, t.output], Cursor.Fits u full) ∧
      ∀ k' q', k.run pack full q = (.ok (), k', q') →
        ((∃ count, (q'.finish m).1 = .ok count) ∧ o.RegionJoined s t m (q'.finish m).2.2 ↔
          o.output.valid.shape.extent Axis.y = 0 ∨
            o.output.valid.IsConsecutive (o.output.extent 2)) := by
  have sound := (ProgramCache.after_sound (.host half) requests).1
  obtain ⟨compatible, -⟩ := (Kernel.configure_eq_ok_iff sound).1 configured
  obtain ⟨s, w, hs, hw, runs, p⟩ := provided_of_configure sound elements.output rows.start
    rows.width configured allocation.host allocation.allocated addressable
  obtain rfl := runs.window_eq window
  obtain ⟨-, -, merged_eq⟩ := plan_eq_ok_iff.1 hw
  obtain ⟨inRange, vectors⟩ := p.inRange addressable
  have one := oneSlice_merged_region compatible inRange rows vectors
  rw [merged_eq] at one
  have filled : o.Filled s t m :=
    { p with ordinary := elements.ordinary p.host allocation.allocated addressable }
  refine ⟨s, hs, ⟨?_, ?_⟩, ?_⟩
  · rintro ⟨k', q', hok⟩
    exact (Kernel.run_eq_ok runs bound (fun _ => one) hok).2.1
  · exact fun fits =>
      Kernel.exists_run_of_oneSlice runs bound (Window.IsPart.refl full).within one fits q
  · intro k' q' hok
    exact filled.finish_region_iff compatible rows allocation addressable merged_eq runs bound idle
      hok

def stacked (valid : ValidRegion) : Operands where
  first := .ofShape ⟨[8, 1, 2, 2], by decide⟩ .unsigned8
  second := .ofShape ⟨[8, 1, 2, 2], by decide⟩ .unsigned8
  output := { Descriptor.ofShape ⟨[16, 1, 2, 2], by decide⟩ .unsigned8 with valid }

def lastPlane : ValidRegion :=
  ⟨#v[0, 0, 1, 1, 0, 0], ⟨[16, 1, 1, 1], by decide⟩⟩

def firstPlanes : ValidRegion :=
  ⟨#v[0, 0, 0, 0, 0, 0], ⟨[16, 1, 1, 2], by decide⟩⟩

def stackedTensors : Submission.Tensors where
  first := ⟨.ofShape ⟨[8, 1, 2, 2], by decide⟩ .unsigned8, 0⟩
  second := ⟨.ofShape ⟨[8, 1, 2, 2], by decide⟩ .unsigned8, 1⟩
  output := ⟨.ofShape ⟨[16, 1, 2, 2], by decide⟩ .unsigned8, 2⟩

def stackedPack : TensorPack :=
  ((TensorPack.empty.add (.source 0) stackedTensors.first).add (.source 1)
    stackedTensors.second).add .destination stackedTensors.output

def stackedMemory : Memory :=
  ⟨#[⟨((List.range 32).map fun n => ⟨.ofNat n, 0⟩).toArray⟩,
    ⟨((List.range 32).map fun n => ⟨.ofNat (100 + n), 0⟩).toArray⟩, .zeroed 64]⟩

theorem stacked_addressable : stackedMemory.Addressable
  | 0 => by decide
  | 1 => by decide
  | 2 => by decide
  | id + 3 => by simp [Memory.buffer, stackedMemory, Buffer.zeroed, Buffer.size]

variable {valid : ValidRegion}

theorem stacked_compatible (valid : ValidRegion) : (stacked valid).Compatible false :=
  (check_eq_ok_iff _ _).1 rfl

theorem stacked_hasElements (valid : ValidRegion) : (stacked valid).HasElements where
  first := Descriptor.hasElements_of_forall
    (d := .ofShape ⟨[8, 1, 2, 2], by decide⟩ .unsigned8) (by decide)
  second := Descriptor.hasElements_of_forall
    (d := .ofShape ⟨[8, 1, 2, 2], by decide⟩ .unsigned8) (by decide)
  output := Descriptor.hasElements_of_forall
    (d := .ofShape ⟨[16, 1, 2, 2], by decide⟩ .unsigned8) (by decide)

theorem stacked_allocation (valid : ValidRegion) :
    stackedTensors.IsAllocation (Kernel.written (stacked valid)) stackedMemory := by
  -- No region is left once the kernel has been configured.
  have whole : Kernel.written (stacked valid) =
    Kernel.written (stacked (.full ⟨[16, 1, 2, 2], by decide⟩)) := rfl
  rw [whole]
  exact ⟨rfl, rfl, rfl, by decide, by decide, by decide, by decide, by decide, by decide⟩

theorem stacked_validRows (h : valid = lastPlane ∨ valid = firstPlanes) :
    (stacked valid).ValidRows := by
  rcases h with rfl | rfl <;> exact ⟨by decide, by decide, by decide⟩

theorem exists_run_stacked (h : valid = lastPlane ∨ valid = firstPlanes) :
    ∃ k, (Kernel.configure (.after (.host false) []) (stacked valid)).1 =
        .ok (k, Kernel.written (stacked valid)) ∧
      k.configuration?.map (·.window) = some (merged (.cover valid [vectorWidth])) ∧
      k.Runs (stacked valid) .u8 (merged (.cover valid [vectorWidth])) ∧
      ∃ k' q', k.run stackedPack (merged (.cover valid [vectorWidth])) .empty =
        (.ok (), k', q') := by
  have compilable : (stacked valid).Compilable := by
    have planes : (stacked valid).first.extent 2 = 2 := rfl
    refine ⟨by rw [planes]; decide, fun r hr => absurd hr ?_⟩
    simp [rescaling?, stacked, Descriptor.ofShape, ElementType.isAffine]
  have plan : (stacked valid).plan.1 = .ok (merged (.cover valid [vectorWidth])) := by
    rcases h with rfl | rfl <;> rfl
  have same : (stacked valid).plan.2 = stacked valid := by
    rcases h with rfl | rfl <;> rfl
  have one : (merged (.cover valid [vectorWidth])).OneSlice := by
    rcases h with rfl | rfl <;> exact ⟨by decide, by decide, by decide⟩
  have fits : ∀ u ∈ [stackedTensors.first, stackedTensors.second, stackedTensors.output],
      Cursor.Fits u (merged (.cover valid [vectorWidth])) := by
    rcases h with rfl | rfl <;> decide
  obtain ⟨k, configured, window, runs⟩ := configure_of_plan (s := .u8) [] (stacked_compatible valid)
    compilable rfl plan
  rw [same] at configured
  exact ⟨k, configured, window, runs,
    Kernel.exists_run_of_oneSlice runs rfl (Window.IsPart.refl _).within one fits .empty⟩

theorem run_region_lastPlane :
    ∃ (k k' : Kernel) (q' : Queue) (count : Nat),
      k.run stackedPack (merged (.cover lastPlane [vectorWidth])) .empty = (.ok (), k', q') ∧
      (q'.finish stackedMemory).1 = .ok count ∧
      stackedTensors.output.elementAt (q'.finish stackedMemory).2.2 [9, 0, 1, 1] = [125] ∧
      stackedTensors.output.storesAt (q'.finish stackedMemory).2.2 [9, 0, 0, 1] = [0] := by
  obtain ⟨k, configured, window, -, k', q', hok⟩ := exists_run_stacked (.inl rfl)
  have bound : Submission.Tensors.ofPack stackedPack = .ok stackedTensors := rfl
  obtain ⟨s, hs, -, finish⟩ := run_region_iff (q := .empty) false [] (stacked_hasElements lastPlane)
    (stacked_validRows (.inl rfl)) configured window bound (stacked_allocation lastPlane)
    stacked_addressable rfl
  obtain rfl : s = .u8 := (Option.some.inj hs).symm
  obtain ⟨⟨count, ok⟩, joined⟩ := (finish k' q' hok).2 (.inr (by decide))
  refine ⟨k, k', q', count, hok, ok, ?_, ?_⟩
  · rw [(joined 9 0 1 1 (by decide) (by decide) (by decide) (by decide)).2 (by decide) (by decide)]
    decide
  · rw [(joined 9 0 0 1 (by decide) (by decide) (by decide) (by decide)).1]
    decide

/-- Of the first planes of both batches, the launch takes the second for the plane behind the first
one. -/
theorem run_firstPlanes_fails :
    ∃ (k k' : Kernel) (q' : Queue), (stacked firstPlanes).HasElements ∧
      (stacked firstPlanes).ValidRows ∧
      (Kernel.configure (.after (.host false) []) (stacked firstPlanes)).1 =
        .ok (k, Kernel.written (stacked firstPlanes)) ∧
      k.configuration?.map (·.window) = some (merged (.cover firstPlanes [vectorWidth])) ∧
      stackedTensors.IsAllocation (Kernel.written (stacked firstPlanes)) stackedMemory ∧
      k.run stackedPack (merged (.cover firstPlanes [vectorWidth])) .empty = (.ok (), k', q') ∧
      ¬ ((∃ count, (q'.finish stackedMemory).1 = .ok count) ∧
        (stacked firstPlanes).RegionJoined .u8 stackedTensors stackedMemory
          (q'.finish stackedMemory).2.2) := by
  obtain ⟨k, configured, window, runs, k', q', hok⟩ := exists_run_stacked (.inr rfl)
  have elements := stacked_hasElements firstPlanes
  have rows := stacked_validRows (.inr rfl)
  have allocation := stacked_allocation firstPlanes
  obtain ⟨s, w, hs, -, -, p⟩ := provided_of_configure (ProgramCache.after_sound _ _).1
    elements.output rows.start rows.width configured allocation.host allocation.allocated
    stacked_addressable
  obtain rfl : s = .u8 := (Option.some.inj hs).symm
  have filled : (stacked firstPlanes).Filled .u8 stackedTensors stackedMemory :=
    { p with ordinary := elements.ordinary p.host allocation.allocated stacked_addressable }
  refine ⟨k, k', q', elements, rows, configured, window, allocation, hok, ?_⟩
  rw [filled.finish_region_iff (stacked_compatible firstPlanes) rows allocation stacked_addressable
    rfl runs rfl rfl hok]
  decide

end Operands
end TensorConcat
