import TensorConcat.Proofs.Concat.Columns

/-! Runs over the whole window in buffers that hold just their tensors. Rows of an input may be empty:
whole vectors are then loaded from beside them, where there may be no padding. -/

namespace TensorConcat

namespace DeviceTensor

open Operands (vectorWidth)

variable {t : DeviceTensor} {m : Memory} {y plane : Nat}

theorem hasVector_before_iff :
    t.HasVector m (-vectorWidth) y plane ↔
      vectorWidth * t.descriptor.stride 0 ≤
          t.descriptor.position t.descriptor.padding.left (t.descriptor.padding.top + y) plane ∧
        t.descriptor.position t.descriptor.padding.left (t.descriptor.padding.top + y) plane ≤
          (m.buffer t.buffer).size := by
  have move := t.descriptor.address_add (-vectorWidth) y plane vectorWidth
  have place := t.descriptor.address_natCast 0 y plane
  rw [Int.add_left_neg] at move
  rw [Nat.add_zero, Int.natCast_zero, move] at place
  have bytes := Int.natCast_mul vectorWidth (t.descriptor.stride 0)
  rw [HasVector]
  omega

theorem hasVector_behind_iff :
    t.HasVector m (t.descriptor.extent 0) y plane ↔
      t.descriptor.position (t.descriptor.padding.left + t.descriptor.extent 0)
          (t.descriptor.padding.top + y) plane + vectorWidth * t.descriptor.stride 0 ≤
        (m.buffer t.buffer).size := by
  have place := t.descriptor.address_natCast (t.descriptor.extent 0) y plane
  rw [HasVector]
  omega

variable (rows : t.descriptor.HasRows) (hs : 0 < t.descriptor.stride 0)
include rows hs

theorem forall_hasVector_before_iff
    (size : t.descriptor.totalSize ≤ (m.buffer t.buffer).size) :
    (∀ y plane, y < t.descriptor.extent 1 → plane < t.descriptor.planes →
        t.HasVector m (-vectorWidth) y plane) ↔
      vectorWidth ≤ t.descriptor.padding.left
        + t.descriptor.paddedExtent 0 * t.descriptor.padding.top := by
  constructor
  · intro all
    have first := (hasVector_before_iff.1
      (all 0 0 (rows 1 (Nat.le_refl 1)) (Nat.mul_pos (rows 2 (by decide)) (rows 3 (by decide))))).1
    rw [Descriptor.position_eq, Nat.mul_zero, Nat.add_zero, Nat.add_zero, Nat.mul_comm vectorWidth]
      at first
    exact Nat.le_of_mul_le_mul_left first hs
  · intro fits y plane hy hp
    -- No other row begins before the first one does.
    have first := Nat.mul_le_mul_left (t.descriptor.stride 0) fits
    have below : t.descriptor.paddedExtent 0 * t.descriptor.padding.top ≤
        t.descriptor.paddedExtent 0 * (t.descriptor.padding.top + y) :=
      Nat.mul_le_mul_left _ (Nat.le_add_right ..)
    have later := Nat.mul_le_mul_left (t.descriptor.stride 0)
      (Nat.add_le_add_left below t.descriptor.padding.left)
    have inside := Descriptor.position_add_le rows
      (show t.descriptor.padding.left + 0 ≤ _ by simp only [Descriptor.paddedExtent]; omega)
      (t.descriptor.top_add_lt hy) hp
    rw [hasVector_before_iff, Nat.mul_comm vectorWidth]
    rw [Descriptor.position_eq] at *
    omega

theorem forall_hasVector_behind_iff (outer : ∀ axis, 4 ≤ axis → t.descriptor.extent axis = 1)
    (size : (m.buffer t.buffer).size = t.descriptor.totalSize) :
    (∀ y plane, y < t.descriptor.extent 1 → plane < t.descriptor.planes →
        t.HasVector m (t.descriptor.extent 0) y plane) ↔
      vectorWidth ≤ t.descriptor.padding.right
        + t.descriptor.paddedExtent 0 * t.descriptor.padding.bottom := by
  have width : t.descriptor.paddedExtent 0 =
    t.descriptor.padding.left + t.descriptor.extent 0 + t.descriptor.padding.right := rfl
  constructor
  · intro all
    have height := rows 1 (Nat.le_refl 1)
    have planes : 0 < t.descriptor.planes :=
      Nat.mul_pos (rows 2 (by decide)) (rows 3 (by decide))
    -- The last row of the last plane ends before the padding below it.
    have last := hasVector_behind_iff.1 (all (t.descriptor.extent 1 - 1) (t.descriptor.planes - 1)
      (by omega) (by omega))
    have total : t.descriptor.stride 2 * t.descriptor.planes =
        t.descriptor.stride 2 * (t.descriptor.planes - 1) + t.descriptor.stride 2 := by
      rw [← Nat.mul_succ, Nat.succ_eq_add_one, Nat.sub_add_cancel planes]
    have sheet : t.descriptor.stride 2 = t.descriptor.stride 0 *
        (t.descriptor.paddedExtent 0 * t.descriptor.paddedExtent 1) := Nat.mul_assoc ..
    have rows' : t.descriptor.paddedExtent 1 =
        t.descriptor.padding.top + (t.descriptor.extent 1 - 1) + (1 + t.descriptor.padding.bottom) := by
      simp only [Descriptor.paddedExtent]
      omega
    rw [size, Descriptor.totalSize_eq outer, total, Descriptor.position_eq,
      Nat.mul_comm vectorWidth] at last
    have cancelled : t.descriptor.stride 0 * (t.descriptor.padding.left + t.descriptor.extent 0
        + t.descriptor.paddedExtent 0 *
          (t.descriptor.padding.top + (t.descriptor.extent 1 - 1)) + vectorWidth) ≤
        t.descriptor.stride 0 * (t.descriptor.paddedExtent 0 * t.descriptor.paddedExtent 1) := by
      rw [← sheet, Nat.mul_add]
      omega
    have columns := Nat.le_of_mul_le_mul_left cancelled hs
    rw [rows', Nat.mul_add (t.descriptor.paddedExtent 0) (_ + _), Nat.mul_add _ 1] at columns
    omega
  · intro fits y plane hy hp
    have inside := Descriptor.position_add_le rows (Nat.le_of_eq width.symm)
      (show t.descriptor.padding.top + y + t.descriptor.padding.bottom < _ by
        simp only [Descriptor.paddedExtent]; omega) hp
    have vector := Nat.mul_le_mul_left (t.descriptor.stride 0) fits
    rw [hasVector_behind_iff, size]
    rw [Descriptor.position_eq] at *
    rw [Nat.mul_add (t.descriptor.paddedExtent 0)] at inside
    simp only [Nat.mul_add, Nat.mul_comm vectorWidth, Nat.mul_comm t.descriptor.padding.right] at *
    omega

end DeviceTensor

namespace Program

theorem runItem_requires_bytes (p : Program) (bytes : 0 < p.vectorBytes) (f : Frame) (i j k : Nat) :
    Action.Requires (fun m : Memory => (m.buffer f.first.buffer).size = 0) (p.runItem f i j k)
      False := by
  intro m m' empty hok
  simp only [runItem, Action.perform_bind_eq_ok_iff, Action.perform_get, Action.perform_ofExcept,
    Prod.mk.injEq, Except.ok.injEq] at hok
  obtain ⟨_, _, ⟨rfl, rfl⟩, _, _, ⟨read, -⟩, -⟩ := hok
  -- No vector fits into a buffer without bytes, wherever it begins.
  obtain ⟨lower, upper, -⟩ := (Buffer.read_eq_ok_iff (by rw [empty]; decide)).1 read
  omega

theorem runItems_requires_bytes (p : Program) (bytes : 0 < p.vectorBytes) (f : Frame)
    {r : LaunchRange} (small : r.IsSmall) (some : r.isEmpty = false) {m m' : Memory}
    (hok : (p.runItems f r).perform m = (.ok (), m')) : 0 < (m.buffer f.first.buffer).size := by
  obtain ⟨columns, rows, planes⟩ := LaunchRange.isEmpty_eq_false_iff.1 some
  refine Nat.pos_of_ne_zero fun empty => ?_
  rw [runItems_eq _ _ small] at hok
  have run := Action.Requires.countTo r.z 0 fun k _ _ =>
    Action.Requires.countTo r.y 0 fun j _ _ =>
      Action.Requires.countTo r.x 0 fun i _ _ => p.runItem_requires_bytes bytes f i j k
  have item := (run m m' empty hok).1 0 (Nat.le_refl 0) (by omega) 0 (Nat.le_refl 0) (by omega)
  exact item 0 (Nat.le_refl 0) (by omega)

end Program

theorem Launch.Binds.size_pos {l : Launch} {o : Operands} {s : Storage} {t : Submission.Tensors}
    {w : Window} {m m' : Memory} (h : l.Binds o s t w)
    (small : (LaunchRange.ofWindow w).IsSmall) (some : (LaunchRange.ofWindow w).isEmpty = false)
    (hok : (l.handle.execute l.range).perform m = (.ok (), m')) :
    0 < (m.buffer t.first.buffer).size := by
  rw [Operands.execute_eq_of_frame h.program h.frame h.range] at hok
  have bytes : 0 < (o.program s).vectorBytes := Nat.mul_pos (show 0 < Operands.vectorWidth by decide)
    s.size_pos
  exact Program.runItems_requires_bytes _ bytes _ small some hok

namespace Operands

/-- Vectors that are loaded for an input without columns stay in its padded planes. -/
structure FitsEmptyRows (o : Operands) : Prop where
  first : o.first.extent 0 = 0 →
    vectorWidth ≤ o.first.padding.left + o.first.paddedExtent 0 * o.first.padding.top
  second : o.second.extent 0 = 0 → o.first.extent 0 % vectorWidth = 0 →
    vectorWidth ≤ o.second.padding.right + o.second.paddedExtent 0 * o.second.padding.bottom

variable {o planned : Operands} {s : Storage} {k : Kernel} {t : Submission.Tensors} {m : Memory}
  {half : Bool}

theorem Provided.planned_range (p : o.Provided s t m) :
    (LaunchRange.ofWindow o.plannedWindow).y = o.output.extent 1 ∧
      (LaunchRange.ofWindow o.plannedWindow).z = o.output.planes ∧
      (LaunchRange.ofWindow o.plannedWindow).isEmpty = false := by
  obtain ⟨-, rows, planes⟩ := ofWindow_isPart (.refl o.plannedWindow)
  have columns := ofWindow_x (o := o) (w := o.plannedWindow) rfl
  have width := le_vectorEnd (o.output.extent 0)
  have := p.extent_pos 0
  have := p.extent_pos 1
  have : 0 < o.output.planes := Nat.mul_pos (p.extent_pos 2) (p.extent_pos 3)
  rw [plannedWindow_y] at rows
  rw [plannedWindow_z, p.planned_planes] at planes
  rw [LaunchRange.isEmpty_eq_false_iff]
  simp only [Span.between, vectorWidth] at *
  omega

theorem firstColumn_of_empty (empty : o.first.extent 0 = 0) (i : Nat) :
    o.firstColumn i = -vectorWidth := by
  simp only [firstColumn, vectorEnd_eq, empty, vectorWidth]
  omega

theorem Provided.secondColumn_of_empty (p : o.Provided s t m) (empty : o.second.extent 0 = 0)
    (aligned : o.first.extent 0 % vectorWidth = 0) {i : Nat}
    (inside : i * vectorWidth + vectorWidth ≤ vectorEnd (o.output.extent 0)) :
    o.secondColumn i = o.second.extent 0 := by
  -- The output ends with the vectors of the first input, so that no vector begins behind them.
  have ends := p.vectorEnd_eq
  simp only [secondColumn, joinedWidth, Operands.vectorEnd_eq, empty, aligned, vectorWidth] at *
  omega

section Allocation

variable (p : o.Provided s t m) (allocation : t.IsAllocation planned m)
include p allocation

theorem Provided.planned_extents :
    planned.first.extent 0 = o.first.extent 0 ∧ planned.second.extent 0 = o.second.extent 0 := by
  rw [← allocation.first, ← allocation.second]
  exact ⟨p.host.first.extent_eq 0, p.host.second.extent_eq 0⟩

theorem Provided.first_before_iff :
    (∀ y plane, y < o.output.extent 1 → plane < o.output.planes →
        t.first.HasVector m (-vectorWidth) y plane) ↔
      vectorWidth ≤ planned.first.padding.left
        + planned.first.paddedExtent 0 * planned.first.padding.top := by
  have before := DeviceTensor.forall_hasVector_before_iff p.addressed.first.rows
    (p.suit.stride_pos t.first (by simp)) p.allocated.first
  rw [p.planes_eq.1, (p.extent_eq 1 (Nat.le_refl 1)).1, allocation.first] at before
  exact before

theorem Provided.second_behind_iff (compatible : o.Compatible half) :
    (∀ y plane, y < o.output.extent 1 → plane < o.output.planes →
        t.second.HasVector m (o.second.extent 0) y plane) ↔
      vectorWidth ≤ planned.second.padding.right
        + planned.second.paddedExtent 0 * planned.second.padding.bottom := by
  have outer : ∀ axis, 4 ≤ axis → t.second.descriptor.extent axis = 1 := by
    intro axis ha
    rw [(p.extent_eq axis (Nat.le_trans (by decide) ha)).2, compatible.outer_extent ha]
  have behind := DeviceTensor.forall_hasVector_behind_iff p.addressed.second.rows
    (p.suit.stride_pos t.second (by simp)) outer (by rw [allocation.second_size, allocation.second])
  rw [p.planes_eq.2.1, (p.extent_eq 1 (Nat.le_refl 1)).2, p.host.second.extent_eq 0,
    allocation.second] at behind
  exact behind

theorem Provided.windowLoads_iff (compatible : o.Compatible half) :
    o.WindowLoads t m o.plannedWindow ↔ planned.FitsEmptyRows := by
  obtain ⟨height, depth, some⟩ := p.planned_range
  have columns := (LaunchRange.isEmpty_eq_false_iff.1 some).1
  obtain ⟨first_extent, second_extent⟩ := p.planned_extents allocation
  have before := p.first_before_iff allocation
  have behind := p.second_behind_iff allocation compatible
  have vectors := ofWindow_x (o := o) (w := o.plannedWindow) rfl
  have inside {i : Nat} (hi : i < (LaunchRange.ofWindow o.plannedWindow).x) :
      i * vectorWidth + vectorWidth ≤ vectorEnd (o.output.extent 0) := by
    rw [← vectors, ← Nat.succ_mul]
    exact Nat.mul_le_mul_right _ hi
  rw [WindowLoads, LoadsFit, planned_startAt, planned_startAt, planned_startAt, height, depth]
  simp only [Int.natCast_zero, Int.zero_add, Nat.zero_add]
  constructor
  · intro loads
    constructor
    · intro empty
      have column := firstColumn_of_empty (first_extent ▸ empty) 0
      exact before.1 fun y plane hy hp => column ▸ (loads 0 y plane columns hy hp).1
    · intro empty aligned
      have column := p.secondColumn_of_empty (second_extent ▸ empty) (first_extent ▸ aligned)
        (inside columns)
      exact behind.1 fun y plane hy hp => column ▸ (loads 0 y plane columns hy hp).2
  · rintro ⟨first, second⟩ i j n hi hj hn
    rw [first_extent] at first
    rw [first_extent, second_extent] at second
    constructor
    · by_cases empty : o.first.extent 0 = 0
      · rw [firstColumn_of_empty empty]
        exact before.2 (first empty) j n hj hn
      · exact (p.first_inRow (Nat.pos_of_ne_zero empty) i hj hn).hasVector p.addressed.first.rows
          p.allocated.first
    · by_cases some : 0 < o.second.extent 0 ∨ o.first.extent 0 % vectorWidth ≠ 0
      · exact (p.second_inRow some (inside hi) hj hn).hasVector p.addressed.second.rows
          p.allocated.second
      · obtain ⟨empty, aligned⟩ : o.second.extent 0 = 0 ∧ o.first.extent 0 % vectorWidth = 0 := by
          omega
        rw [p.secondColumn_of_empty empty aligned (inside hi)]
        exact behind.2 (second empty aligned) j n hj hn

end Allocation

theorem Compatible.hasElements_of_pos (h : o.Compatible half) (width : 0 < o.output.extent 0)
    (height : 0 < o.output.extent 1) (depth : 0 < o.output.extent 2)
    (batch : 0 < o.output.extent 3) : o.output.HasElements
  | 0 => width
  | 1 => height
  | 2 => depth
  | 3 => batch
  | axis + 4 => by
    rw [h.outer_extent (Nat.le_add_left 4 axis)]
    exact Nat.one_pos

section Full

variable (valid : o.output.valid = .full o.output.shape)
include valid

theorem start_cover_full (a : Axis) :
    ((Window.cover o.output.valid [vectorWidth]).span a).start = 0 := by
  rw [Window.cover, Window.span_ofSpans, Window.start_coverSpan, valid, Window.anchor_full]
  rfl

theorem stop_cover_full (a : Axis) :
    ((Window.cover o.output.valid [vectorWidth]).span a).stop =
      signed64 (Window.coverLength o.output.shape [vectorWidth] a) := by
  have zero : signed64 0 = 0 := rfl
  rw [Window.cover, Window.span_ofSpans, Window.stop_coverSpan, valid, Window.anchor_full, zero,
    Int.zero_add]
  rfl

theorem collapsible_cover_full :
    (Window.cover o.output.valid [vectorWidth]).Collapsible
      (Window.cover o.output.valid [vectorWidth]) .z := by
  refine (collapsible_iff fun a ha => ?_).2 fun a _ => start_cover_full valid a
  rw [step_cover, if_neg (Fin.ne_of_gt (Fin.lt_trans (by decide) ha))]

theorem flat_merged_full : (merged (.cover o.output.valid [vectorWidth])).Flat where
  start_nonneg := start_merged_nonneg fun a => Int.le_of_eq (start_cover_full valid a).symm
  batch := span_merged_outer (collapsible_cover_full valid) (by decide)
  outer := span_merged_outer (collapsible_cover_full valid) (by decide)
  outermost := span_merged_outer (collapsible_cover_full valid) (by decide)

theorem ofWindow_merged_full :
    LaunchRange.ofWindow (merged (.cover o.output.valid [vectorWidth])) =
      ⟨(max (signed64 (vectorEnd (o.output.extent 0))) 0 / 8).toNat,
        (signed64 (o.output.extent 1)).toNat,
        ((Window.cover o.output.valid [vectorWidth]).mergedStop .z).toNat⟩ := by
  have start := start_cover_full valid
  have stop := stop_cover_full valid
  have step := step_cover o.output.valid
  have span := span_merged (collapsible_cover_full valid)
  have batch := (flat_merged_full valid).batch
  generalize Window.cover o.output.valid [vectorWidth] = w at *
  have width : Window.coverLength o.output.shape [vectorWidth] .x = vectorEnd (o.output.extent 0) :=
    rfl
  have height : Window.coverLength o.output.shape [vectorWidth] .y = o.output.extent 1 := by
    have one : Window.stepAt [vectorWidth] Axis.y = 1 := rfl
    rw [Window.coverLength, if_pos (by decide), one, ceilMultiple, Nat.add_sub_cancel, Nat.div_one,
      Nat.mul_one]
    rfl
  have unit : Span.unit.wholeSteps = 1 := rfl
  rw [LaunchRange.ofWindow, batch, unit, Nat.mul_one, span, span, span, if_pos (by decide),
    if_pos (by decide), if_neg (by decide), if_pos rfl, LaunchRange.mk.injEq]
  refine ⟨?_, ?_, ?_⟩
  · rw [Span.wholeSteps, start, stop, step, width, Int.sub_zero]
    rfl
  · rw [Span.wholeSteps_of_step_eq_one (step .y), start, stop, height, Int.sub_zero]
  · refine (Span.wholeSteps_of_step_eq_one ?_).trans ?_
    · exact step .z
    · simp only [start, Int.sub_zero]

theorem batch_eq_zero_of_range (compatible : o.Compatible half) (depth : o.first.extent 2 ≠ 0)
    (none : ¬ o.output.HasElements)
    (some : (LaunchRange.ofWindow
      (merged (.cover o.output.valid [vectorWidth]))).isEmpty = false) :
    o.output.extent 3 = 0 := by
  rw [ofWindow_merged_full valid] at some
  obtain ⟨columns, rows, -⟩ := LaunchRange.isEmpty_eq_false_iff.1 some
  have zero : signed64 0 = 0 := rfl
  have width : o.output.extent 0 ≠ 0 := by
    intro h
    have ends : vectorEnd 0 = 0 := rfl
    exact Nat.ne_of_gt columns (by rw [h, ends, zero]; rfl)
  have height : o.output.extent 1 ≠ 0 := by
    intro h
    exact Nat.ne_of_gt rows (by rw [h, zero]; rfl)
  have planes : 0 < o.output.extent 2 :=
    Nat.pos_of_ne_zero (compatible.first_extent 2 (by decide) ▸ depth)
  -- Batches are counted from one on, so that only their number can be zero.
  exact Decidable.byContradiction fun batch => none (compatible.hasElements_of_pos
    (Nat.pos_of_ne_zero width) (Nat.pos_of_ne_zero height) planes (Nat.pos_of_ne_zero batch))

theorem isSmall_of_batch_eq_zero (compatible : o.Compatible half) (batch : o.output.extent 3 = 0) :
    (LaunchRange.ofWindow (merged (.cover o.output.valid [vectorWidth]))).IsSmall := by
  have stop := stop_cover_full valid
  have one (a : Axis) (ha : .z < a) :
      ((Window.cover o.output.valid [vectorWidth]).span a).stop = 1 := by
    have extent : o.output.shape.extent a = 0 ∨ o.output.shape.extent a = 1 := by
      by_cases h : (a : Nat) = 3
      · exact .inl (h ▸ batch)
      · exact .inr (compatible.outer_extent (Nat.lt_of_le_of_ne ha (Ne.symm h)))
    have length : Window.coverLength o.output.shape [vectorWidth] a = 1 := by
      rw [Window.coverLength, if_neg (Fin.not_le.2 (Fin.lt_trans (by decide) ha))]
      omega
    rw [stop, length]
    rfl
  have columns := signed64_lt (vectorEnd (o.output.extent 0))
  have rows := signed64_lt (o.output.extent 1)
  have planes := signed64_lt (Window.coverLength o.output.shape [vectorWidth] .z)
  rw [ofWindow_merged_full valid, mergedStop_z, one .batch (by decide), one .outer (by decide),
    one .outermost (by decide), stop, Int.mul_one, Int.mul_one, Int.mul_one, Int.mul_one]
  generalize signed64 (vectorEnd (o.output.extent 0)) = width,
    signed64 (o.output.extent 1) = height,
    signed64 (Window.coverLength o.output.shape [vectorWidth] .z) = depth at *
  constructor <;> simp only <;> omega

end Full

theorem finish_iff_of_no_elements {full : Window} {pack : TensorPack}
    {q q' : Queue} {k' : Kernel} (compatible : o.Compatible half) (depth : o.first.extent 2 ≠ 0)
    (valid : o.output.valid = .full o.output.shape)
    (window : merged (.cover o.output.valid [vectorWidth]) = full)
    (none : ¬ o.output.HasElements) (hosts : t.first.descriptor.Hosts o.first)
    (size : (m.buffer t.first.buffer).size = t.first.descriptor.totalSize)
    (runs : k.Runs o s full) (bound : Submission.Tensors.ofPack pack = .ok t)
    (idle : q.pending = []) (hok : k.run pack full q = (.ok (), k', q')) :
    (∃ count, (q'.finish m).1 = .ok count) ↔ (LaunchRange.ofWindow full).isEmpty = true := by
  have flat := flat_merged_full valid
  have counted := batch_eq_zero_of_range valid compatible depth none
  have small := isSmall_of_batch_eq_zero valid compatible
  rw [window] at flat counted small
  obtain ⟨-, -, -, l, binds, rfl⟩ := Kernel.run_eq_ok runs bound (fun _ => flat.oneSlice) hok
  cases some : (LaunchRange.ofWindow full).isEmpty with
  | true =>
    rw [if_pos rfl]
    exact ⟨fun _ => rfl, fun _ => ⟨_, by rw [Queue.finish, idle]; rfl⟩⟩
  | false =>
    rw [if_neg (by decide)]
    refine ⟨?_, fun h => absurd h (by decide)⟩
    rintro ⟨count, ok⟩
    have batch := counted some
    have ran := Queue.runAll_of_finish ok
    rw [Queue.submit, idle, List.nil_append, Queue.runAll] at ran
    rcases hl : (l.handle.execute l.range).perform m with ⟨_ | _, m1⟩
    · rw [hl] at ran
      exact absurd ran (by simp)
    · -- The buffer of the first input has room for no batch, and so for no vector.
      have bytes := binds.size_pos (small batch) some hl
      have none : t.first.descriptor.stride 4 = 0 := by
        have extent : t.first.descriptor.paddedExtent 3 = 0 := by
          show t.first.descriptor.extent 3 = 0
          rw [hosts.extent_eq, compatible.first_extent 3 (by decide), batch]
        rw [Descriptor.stride_succ, extent, Nat.mul_zero]
      rw [size, Descriptor.totalSize, Descriptor.stride_succ, Descriptor.stride_succ, none,
        Nat.zero_mul, Nat.zero_mul] at bytes
      exact absurd bytes (by decide)

theorem Provided.finish_iff {pack : TensorPack} {q q' : Queue} {k' : Kernel}
    (p : o.Provided s t m) (compatible : o.Compatible half)
    (allocation : t.IsAllocation planned m) (addressable : m.Addressable)
    (runs : k.Runs o s o.plannedWindow) (bound : Submission.Tensors.ofPack pack = .ok t)
    (idle : q.pending = []) (hok : k.run pack o.plannedWindow q = (.ok (), k', q')) :
    ((∃ count, (q'.finish m).1 = .ok count) ↔ planned.FitsEmptyRows) ∧
      ((∃ count, (q'.finish m).1 = .ok count) →
        ∀ x, x < o.output.extent 0 → o.ColumnJoined s t m (q'.finish m).2.2 0 x) := by
  have whole := Window.IsPart.refl o.plannedWindow
  have flat := flat_of_isPart whole
  have some := p.planned_range.2.2
  have loads_iff := p.windowLoads_iff allocation compatible
  obtain ⟨-, fits, -, l, binds, rfl⟩ := Kernel.run_eq_ok runs bound (fun _ => flat.oneSlice) hok
  rw [some, if_neg (by decide)]
  have served : Served o s t [o.plannedWindow] (q.submit l).pending := by
    rw [Queue.submit, idle, List.nil_append]
    exact .launch some (binds.serves p.addressed flat fits) .nil
  have loads {count : Nat} (ok : ((q.submit l).finish m).1 = .ok count) :
      o.WindowLoads t m o.plannedWindow :=
    runAll_requires p.suit addressable p.room served
      (List.forall_mem_singleton.2 (p.windowStores whole)) (.refl m _)
      (Queue.runAll_of_finish ok) _ (List.mem_singleton_self _) some
  have joins (loads : o.WindowLoads t m o.plannedWindow) :=
    p.whole_elements_of_loads addressable served fun _ => loads
  refine ⟨⟨?_, ?_⟩, ?_⟩
  · rintro ⟨count, ok⟩
    exact loads_iff.1 (loads ok)
  · intro fits
    obtain ⟨m', finish, -⟩ := joins (loads_iff.2 fits)
    exact ⟨_, by rw [finish]⟩
  · rintro ⟨count, ok⟩
    obtain ⟨m', finish, joined⟩ := joins (loads ok)
    rw [finish]
    exact joined

/-- A kernel for a whole output, and tensors in buffers of just their sizes. The run over the window
of the kernel is accepted exactly if 32 bits hold all of its arguments. It then finishes exactly if
there are no work items, or there are batches and the padding holds the vectors for inputs without
columns. If it finishes, the output joins both inputs, and all of it has been stored to once. -/
theorem run_full_finishes_iff (half : Bool) (requests : List (String × BuildOptions))
    {o planned : Operands} {k : Kernel} {full : Window} {pack : TensorPack}
    {t : Submission.Tensors} {m : Memory} {q : Queue}
    (valid : o.output.valid = .full o.output.shape)
    (configured : (Kernel.configure (.after (.host half) requests) o).1 = .ok (k, planned))
    (window : k.configuration?.map (·.window) = some full)
    (bound : Submission.Tensors.ofPack pack = .ok t) (allocation : t.IsAllocation planned m)
    (addressable : m.Addressable) (idle : q.pending = []) :
    ∃ s, o.first.type.storage? = some s ∧
      ((∃ k' q', k.run pack full q = (.ok (), k', q')) ↔
        ∀ u ∈ [t.first, t.second, t.output], Cursor.Fits u full) ∧
      ∀ k' q', k.run pack full q = (.ok (), k', q') →
        ((∃ count, (q'.finish m).1 = .ok count) ↔
          (LaunchRange.ofWindow full).isEmpty = true ∨
            0 < o.output.extent 3 ∧ planned.FitsEmptyRows) ∧
        ((∃ count, (q'.finish m).1 = .ok count) →
          ∀ x, x < o.output.extent 0 → o.ColumnJoined s t m (q'.finish m).2.2 0 x) := by
  have sound := (ProgramCache.after_sound (.host half) requests).1
  obtain ⟨compatible, compilable, written, s, w, h, hs, hw, hb, kernel⟩ :=
    (Kernel.configure_eq_ok_iff sound).1 configured
  have runs : k.Runs o s w := kernel ▸ Kernel.runs_of_bindPaddings hb
  obtain rfl := runs.window_eq window
  have merged_eq := (plan_eq_ok_iff.1 hw).2.2
  have flat : full.Flat := merged_eq ▸ flat_merged_full valid
  refine ⟨s, hs, ⟨?_, ?_⟩, ?_⟩
  · rintro ⟨k', q', hok⟩
    exact (Kernel.run_eq_ok runs bound (fun _ => flat.oneSlice) hok).2.1
  · exact fun fits => Kernel.exists_run runs bound (Window.IsPart.refl full).within flat fits q
  intro k' q' hok
  by_cases elements : o.output.HasElements
  · obtain ⟨s', hs', runs', p⟩ := planned_of_configure sound elements valid configured
      allocation.host allocation.allocated addressable
    obtain rfl := Option.some.inj (hs.symm.trans hs')
    obtain rfl := runs'.window_eq window
    obtain ⟨finish, joined⟩ :=
      p.finish_iff compatible allocation addressable runs bound idle hok
    refine ⟨?_, joined⟩
    rw [finish, p.planned_range.2.2]
    exact ⟨fun fits => .inr ⟨elements 3, fits⟩, fun h => (h.resolve_left (by decide)).2⟩
  · have host := host_of_plan (written ▸ allocation.host)
    have finish := finish_iff_of_no_elements compatible compilable.depth_ne_zero valid merged_eq
      elements host.first (by rw [allocation.first_size, allocation.first]) runs bound idle hok
    refine ⟨⟨fun ok => .inl (finish.1 ok), ?_⟩, ?_⟩
    · rintro (empty | ⟨batch, -⟩)
      · exact finish.2 empty
      · refine finish.2 (Bool.of_not_eq_false fun some => ?_)
        have := batch_eq_zero_of_range valid compatible compilable.depth_ne_zero elements
          (merged_eq ▸ some)
        omega
    · intro _ x hx y z b hy hz hb
      exact absurd (compatible.hasElements_of_pos (Nat.zero_lt_of_lt hx) (Nat.zero_lt_of_lt hy)
        (Nat.zero_lt_of_lt hz) (Nat.zero_lt_of_lt hb)) elements

def emptyFirst (left : Nat) : Operands where
  first := { Descriptor.ofShape ⟨[0], by decide⟩ .unsigned8 with padding := .horizontal left 0 }
  second := .ofShape ⟨[8], by decide⟩ .unsigned8
  output := .ofShape ⟨[8], by decide⟩ .unsigned8

def emptyFirstTensors (left : Nat) : Submission.Tensors where
  first := ⟨(emptyFirst left).padded.first, 0⟩
  second := ⟨(emptyFirst left).padded.second, 1⟩
  output := ⟨(emptyFirst left).padded.output, 2⟩

def emptyFirstPack (left : Nat) : TensorPack :=
  ((TensorPack.empty.add (.source 0) (emptyFirstTensors left).first).add (.source 1)
    (emptyFirstTensors left).second).add .destination (emptyFirstTensors left).output

def emptyFirstMemory (left : Nat) : Memory :=
  ⟨#[.zeroed left, ⟨((List.range 8).map fun n => ⟨.ofNat (10 + n), 0⟩).toArray⟩, .zeroed 8]⟩

theorem emptyFirst_compatible (left : Nat) : (emptyFirst left).Compatible false :=
  (check_eq_ok_iff _ _).1 rfl

theorem emptyFirst_addressable {left : Nat} (h : left ≤ 8) : (emptyFirstMemory left).Addressable
  | 0 => by
    simp [Memory.buffer, emptyFirstMemory, Buffer.zeroed, Buffer.size]
    omega
  | 1 => by simp [Memory.buffer, emptyFirstMemory, Buffer.size]
  | 2 => by simp [Memory.buffer, emptyFirstMemory, Buffer.zeroed, Buffer.size]
  | id + 3 => by simp [Memory.buffer, emptyFirstMemory, Buffer.zeroed, Buffer.size]

theorem emptyFirst_allocation {left : Nat} (h : left = 0 ∨ left = 8) :
    (emptyFirstTensors left).IsAllocation (Kernel.written (emptyFirst left).padded)
      (emptyFirstMemory left) := by
  rcases h with rfl | rfl <;>
    exact ⟨rfl, rfl, rfl, by decide, by decide, by decide, by decide, by decide, by decide⟩

theorem exists_run_emptyFirst {left : Nat} (h : left = 0 ∨ left = 8) :
    ∃ k, (Kernel.configure (.after (.host false) []) (emptyFirst left)).1 =
        .ok (k, Kernel.written (emptyFirst left).padded) ∧
      k.configuration?.map (·.window) = some (emptyFirst left).plannedWindow ∧
      k.Runs (emptyFirst left) .u8 (emptyFirst left).plannedWindow ∧
      ∃ k' q', k.run (emptyFirstPack left) (emptyFirst left).plannedWindow .empty =
        (.ok (), k', q') := by
  have inRange : (emptyFirst left).InRange := by
    rcases h with rfl | rfl <;>
      exact ⟨⟨by decide, by decide, by decide⟩, ⟨by decide, by decide, by decide⟩,
        ⟨by decide, by decide, by decide⟩, by decide⟩
  have fits : ∀ u ∈ [(emptyFirstTensors left).first, (emptyFirstTensors left).second,
      (emptyFirstTensors left).output], Cursor.Fits u (emptyFirst left).plannedWindow := by
    rcases h with rfl | rfl <;> decide
  have compilable : (emptyFirst left).Compilable := by
    have planes : (emptyFirst left).first.extent 2 = 1 := rfl
    refine ⟨by rw [planes]; decide, fun r hr => absurd hr ?_⟩
    simp [rescaling?, emptyFirst, Descriptor.ofShape, ElementType.isAffine]
  obtain ⟨k, configured, window, runs⟩ := configure_of_plannable (s := .u8) []
    (emptyFirst_compatible left) inRange rfl ⟨rfl, .inl rfl, .inl rfl, .inl rfl⟩ compilable rfl
  have whole := Window.IsPart.refl (emptyFirst left).plannedWindow
  exact ⟨k, configured, window, runs,
    Kernel.exists_run runs rfl whole.within (flat_of_isPart whole) fits .empty⟩

theorem finish_emptyFirst_padded :
    ∃ (k k' : Kernel) (q' : Queue) (count : Nat), (emptyFirst 8).first.extent 0 = 0 ∧
      k.run (emptyFirstPack 8) (emptyFirst 8).plannedWindow .empty = (.ok (), k', q') ∧
      (q'.finish (emptyFirstMemory 8)).1 = .ok count ∧
      (emptyFirstTensors 8).output.elementAt (q'.finish (emptyFirstMemory 8)).2.2 [3, 0, 0, 0] =
        [13] := by
  obtain ⟨k, configured, window, -, k', q', hok⟩ := exists_run_emptyFirst (.inr rfl)
  have bound : Submission.Tensors.ofPack (emptyFirstPack 8) = .ok (emptyFirstTensors 8) := rfl
  obtain ⟨s, hs, -, finish⟩ := run_full_finishes_iff (q := .empty) false [] rfl configured window
    bound (emptyFirst_allocation (.inr rfl)) (emptyFirst_addressable (by decide)) rfl
  obtain rfl : s = .u8 := (Option.some.inj hs).symm
  obtain ⟨finishes, joined⟩ := finish k' q' hok
  obtain ⟨count, ok⟩ := finishes.2 (.inr ⟨by decide, fun _ => by decide, fun h => absurd h (by decide)⟩)
  refine ⟨k, k', q', count, rfl, hok, ok, ?_⟩
  rw [(joined ⟨count, ok⟩ 3 (by decide) 0 0 0 (by decide) (by decide) (by decide)).2]
  decide

/-- Without that padding, the vector for the empty row would begin before its buffer. -/
theorem finish_emptyFirst_fails :
    ∃ (k k' : Kernel) (q' : Queue), (emptyFirst 0).output.valid = .full (emptyFirst 0).output.shape ∧
      (emptyFirst 0).first.extent 0 = 0 ∧
      (Kernel.configure (.after (.host false) []) (emptyFirst 0)).1 =
        .ok (k, Kernel.written (emptyFirst 0).padded) ∧
      k.configuration?.map (·.window) = some (emptyFirst 0).plannedWindow ∧
      (emptyFirstTensors 0).IsAllocation (Kernel.written (emptyFirst 0).padded)
        (emptyFirstMemory 0) ∧
      k.run (emptyFirstPack 0) (emptyFirst 0).plannedWindow .empty = (.ok (), k', q') ∧
      ¬ ∃ count, (q'.finish (emptyFirstMemory 0)).1 = .ok count := by
  obtain ⟨k, configured, window, runs, k', q', hok⟩ := exists_run_emptyFirst (.inl rfl)
  have allocation := emptyFirst_allocation (.inl rfl)
  have addressable := emptyFirst_addressable (Nat.zero_le 8)
  have elements : (emptyFirst 0).output.HasElements := Descriptor.hasElements_of_forall (by decide)
  obtain ⟨s, hs, -, p⟩ := planned_of_configure (ProgramCache.after_sound _ _).1 elements rfl
    configured allocation.host allocation.allocated addressable
  obtain rfl : s = .u8 := (Option.some.inj hs).symm
  refine ⟨k, k', q', rfl, rfl, configured, window, allocation, hok, ?_⟩
  rw [(p.finish_iff (emptyFirst_compatible 0) allocation addressable runs rfl rfl hok).1]
  intro fits
  exact absurd (fits.first rfl) (by decide)

end Operands
end TensorConcat
