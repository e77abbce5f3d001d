import TensorConcat.Proofs.Concat.EndToEnd
import TensorConcat.Proofs.Iteration.Parts

/-! Dealing the columns of the planned window out to parts. A run starts to count its columns with
its window, so that a part further to the right joins its inputs too late. -/

namespace TensorConcat

def DeviceTensor.SameElements (t : DeviceTensor) (width : Nat) (m m' : Memory) : Prop :=
  ∀ x y z b, x < t.descriptor.extent 0 → y < t.descriptor.extent 1 → z < t.descriptor.extent 2 →
    b < t.descriptor.extent 3 →
    t.storesAt m [x, y, z, b] = t.storesAt m' [x, y, z, b] ∧
      (x < width → t.elementAt m [x, y, z, b] = t.elementAt m' [x, y, z, b])

namespace Operands

def rowVectors (o : Operands) : Nat :=
  vectorEnd (o.output.extent 0) / vectorWidth

theorem rowVectors_mul (o : Operands) : o.rowVectors * vectorWidth = vectorEnd (o.output.extent 0) :=
  Nat.div_mul_cancel (dvd_ceilMultiple _ _)

theorem plannedWindow_iterations (o : Operands) :
    (o.plannedWindow.span .x).iterations = o.rowVectors := by
  have whole := o.rowVectors_mul
  rw [plannedWindow_x, Span.iterations, stepsOver]
  simp only [vectorWidth] at *
  split <;> omega

/-- Where a window takes columns of the second input from the rows of the first, because they are
less than the first width away from its start, these rows go on like those of the second. -/
def SeamAgrees (o : Operands) (s : Storage) (t : Submission.Tensors) (m : Memory) (w : Window) :
    Prop :=
  ∀ x y z b : Nat, (w.span .x).start ≤ x → x < (w.span .x).stop → o.first.extent 0 ≤ x →
    x < (w.span .x).start + o.first.extent 0 → x < o.joinedWidth → y < o.output.extent 1 →
    z < o.output.extent 2 → b < o.output.extent 3 →
    o.carried s Rescaling.first (t.first.elementAt m [x, y, z, b]) =
      o.carried s Rescaling.second (t.second.elementAt m [x - o.first.extent 0, y, z, b])

/-- Between two memories a column of the output has been stored to once, and is what is joined from
column `start` on. -/
def ColumnJoined (o : Operands) (s : Storage) (t : Submission.Tensors) (m m' : Memory)
    (start x : Nat) : Prop :=
  ∀ y z b, y < o.output.extent 1 → z < o.output.extent 2 → b < o.output.extent 3 →
    t.output.storesAt m' [x, y, z, b] = (t.output.storesAt m [x, y, z, b]).map (· + 1) ∧
      t.output.elementAt m' [x, y, z, b] = o.joinedElement s t m start x y z b

variable {o : Operands} {s : Storage} {k k' : Kernel} {t : Submission.Tensors} {m m' whole : Memory}
  {w : Window} {total i x y z b plane : Nat}

theorem joinedElement_eq_iff (start : Nat) :
    o.joinedElement s t m 0 x y z b = o.joinedElement s t m start x y z b ↔
      (o.first.extent 0 ≤ x → x < start + o.first.extent 0 →
        o.carried s Rescaling.first (t.first.elementAt m [x, y, z, b]) =
          o.carried s Rescaling.second (t.second.elementAt m [x - o.first.extent 0, y, z, b])) := by
  unfold joinedElement
  rw [Nat.zero_add]
  by_cases before : x < o.first.extent 0
  · rw [if_pos before, if_pos (by omega)]
    exact ⟨fun _ h => absurd before (Nat.not_lt_of_le h), fun _ => rfl⟩
  · rw [if_neg before]
    by_cases late : x < start + o.first.extent 0
    · rw [if_pos late]
      exact ⟨fun h _ _ => h.symm, fun h => (h (Nat.le_of_not_lt before) late).symm⟩
    · rw [if_neg late]
      exact ⟨fun _ _ h => absurd h late, fun _ => rfl⟩

theorem Prepared.covers_iff_column (p : o.Prepared s k t m) (h : w.IsPart o.plannedWindow)
    (rows : w.span .y = o.plannedWindow.span .y) (planes : w.span .z = o.plannedWindow.span .z)
    (hy : y < o.output.extent 1) (hp : plane < o.output.planes) :
    w.Covers x y plane ↔
      w.startAt .x ≤ x ∧ x < w.startAt .x + (LaunchRange.ofWindow w).x * vectorWidth := by
  obtain ⟨-, height, depth⟩ := ofWindow_isPart h
  have start (a : Axis) (ha : w.span a = o.plannedWindow.span a) : w.startAt a = 0 := by
    rw [Window.startAt, ha]
    exact o.planned_startAt a
  rw [rows, plannedWindow_y] at height
  rw [planes, plannedWindow_z, p.planned_planes] at depth
  rw [Window.Covers, start .y rows, start .z planes, height, depth]
  simp only [Span.between]
  omega

section Parts

variable (size : total < 0x10000000000000000)
  (parts : ∀ j < total, (o.plannedWindow.part .x j total).IsPart o.plannedWindow)
include size parts

theorem total_le_of_parts : total ≤ 0x8000000000000000 := by
  apply Nat.le_of_not_lt
  intro large
  obtain ⟨j, hj, lt⟩ := Span.exists_part_start_lt o.plannedWindow_iterations large size
  have start := ((parts j hj).within .x).1
  rw [Window.part_span_self] at start
  exact absurd lt (Int.not_lt_of_ge start)

variable (p : o.Prepared s k t m) (positive : 0 < total)
include p positive

theorem Prepared.part_span (hi : i < total) :
    ((o.plannedWindow.part .x i total).span .x).start =
        (pointsBefore o.rowVectors total i * vectorWidth : Nat) ∧
      ((o.plannedWindow.part .x i total).span .x).stop =
        (pointsBefore o.rowVectors total (i + 1) * vectorWidth : Nat) := by
  have ends := p.room.vectors
  have wide := Descriptor.paddedExtent_le_totalSize p.ordinary.output.elements
    (p.suit.stride_pos t.output (by simp)) (show 0 < 6 by decide)
  have small := p.ordinary.output.totalSize_lt
  have whole := o.rowVectors_mul
  rw [p.output_extent] at ends
  simp only [Descriptor.paddedExtent, p.output_extent] at wide
  have le : pointsBefore o.rowVectors total (i + 1) ≤ o.rowVectors := pointsBefore_le hi positive
  have grow : pointsBefore o.rowVectors total i ≤ pointsBefore o.rowVectors total (i + 1) :=
    pointsBefore_mono (Nat.le_succ i)
  obtain ⟨start, stop⟩ := Span.part_eq o.plannedWindow_iterations
    (by simp only [vectorWidth] at whole; omega) positive (total_le_of_parts size parts) hi
  rw [Window.part_span_self, start, stop, plannedWindow_x]
  simp only [vectorWidth] at *
  omega

theorem Prepared.covers_part_iff (hi : i < total) (hy : y < o.output.extent 1)
    (hp : plane < o.output.planes) :
    (o.plannedWindow.part .x i total).Covers x y plane ↔
      pointsBefore o.rowVectors total i ≤ x / vectorWidth ∧
        x / vectorWidth < pointsBefore o.rowVectors total (i + 1) := by
  obtain ⟨start, stop⟩ := p.part_span size parts positive hi
  have step := (ofWindow_isPart (parts i hi)).1
  rw [p.covers_iff_column (parts i hi) (Window.part_span_ne _ _ _ (by decide))
    (Window.part_span_ne _ _ _ (by decide)) hy hp, Window.startAt, LaunchRange.ofWindow,
    Span.wholeSteps, step, start, stop]
  simp only [vectorWidth]
  omega

theorem Prepared.countP_parts {ids : List Nat} (order : ids.Perm (List.range total))
    (hx : x < o.output.extent 0) (hy : y < o.output.extent 1) (hp : plane < o.output.planes) :
    (ids.map (o.plannedWindow.part .x · total)).countP (·.Covers x y plane) = 1 := by
  have whole := o.rowVectors_mul
  have ends := le_vectorEnd (o.output.extent 0)
  have inside : x / vectorWidth < o.rowVectors := by
    simp only [vectorWidth] at *
    omega
  have one := countP_pointsBefore o.rowVectors total (x / vectorWidth) total
  rw [pointsBefore_all positive, if_pos inside] at one
  rw [List.countP_map, order.countP_eq, ← one]
  apply List.countP_congr
  intro j hj
  simp [p.covers_part_iff size parts positive (List.mem_range.1 hj) hy hp]

theorem Prepared.parts_elements {ids : List Nat} {q : Queue} (addressable : m.Addressable)
    (order : ids.Perm (List.range total))
    (served : Served o s t (ids.map (o.plannedWindow.part .x · total)) q.pending)
    (loads : ∀ j < total, (LaunchRange.ofWindow (o.plannedWindow.part .x j total)).isEmpty = false →
      o.WindowLoads t m (o.plannedWindow.part .x j total)) :
    ∃ m', q.finish m = (.ok q.pending.length, ⟨[], q.completed ++ q.pending⟩, m') ∧
      ∀ x j, x < o.output.extent 0 → j < total →
        pointsBefore o.rowVectors total j ≤ x / vectorWidth →
        x / vectorWidth < pointsBefore o.rowVectors total (j + 1) →
        o.ColumnJoined s t m m' (pointsBefore o.rowVectors total j * vectorWidth) x := by
  have mem {w : Window} (hw : w ∈ ids.map (o.plannedWindow.part .x · total)) :
      ∃ j < total, o.plannedWindow.part .x j total = w := by
    obtain ⟨j, hj, rfl⟩ := List.mem_map.1 hw
    exact ⟨j, List.mem_range.1 (order.mem_iff.1 hj), rfl⟩
  obtain ⟨m', run, elements⟩ := p.elements_of_runAll addressable served
    (fun w hw => by obtain ⟨j, hj, rfl⟩ := mem hw; exact parts j hj)
    (fun w hw => by obtain ⟨j, hj, rfl⟩ := mem hw; exact loads j hj)
  refine ⟨m', Queue.finish_of_runAll run, ?_⟩
  intro x j hx hj lower upper y z b hy hz hb
  have plane : z + o.output.extent 2 * b < o.output.planes := Descriptor.add_mul_lt hz hb
  have start : (o.plannedWindow.part .x j total).startAt .x =
      pointsBefore o.rowVectors total j * vectorWidth := by
    rw [Window.startAt, (p.part_span size parts positive hj).1, Int.toNat_natCast]
  have here := (p.covers_part_iff size parts positive hj hy plane).2 ⟨lower, upper⟩
  obtain ⟨stores, value⟩ := elements x y z b _ hx hy hz hb fun w hw covers => by
    obtain ⟨i, hi, rfl⟩ := mem hw
    obtain ⟨lower', upper'⟩ := (p.covers_part_iff size parts positive hi hy plane).1 covers
    -- No other part has the column, so that all runs that store there start at the same one.
    obtain rfl := part_unique lower' upper' lower upper
    exact start
  rw [p.countP_parts size parts positive order hx hy plane] at stores
  exact ⟨stores, value ⟨_, List.mem_map.2 ⟨j, order.mem_iff.2 (List.mem_range.2 hj), rfl⟩, here⟩⟩

theorem Prepared.sameElements_iff (all : ∀ x, x < o.output.extent 0 → o.ColumnJoined s t m whole 0 x)
    (dealt : ∀ x j, x < o.output.extent 0 → j < total →
      pointsBefore o.rowVectors total j ≤ x / vectorWidth →
      x / vectorWidth < pointsBefore o.rowVectors total (j + 1) →
      o.ColumnJoined s t m m' (pointsBefore o.rowVectors total j * vectorWidth) x) :
    t.output.SameElements o.joinedWidth whole m' ↔
      ∀ j < total, o.SeamAgrees s t m (o.plannedWindow.part .x j total) := by
  simp only [DeviceTensor.SameElements, p.output_extent]
  constructor
  · intro same j hj x y z b lower upper behind late hx hy hz hb
    obtain ⟨start, stop⟩ := p.part_span size parts positive hj
    rw [start] at lower late
    rw [stop] at upper
    simp only [vectorWidth] at *
    have wide := Nat.lt_of_lt_of_le hx p.width_le
    have element := (same x y z b wide hy hz hb).2 hx
    rw [(all x wide y z b hy hz hb).2,
      (dealt x j wide hj (by omega) (by omega) y z b hy hz hb).2] at element
    exact (joinedElement_eq_iff _).1 element behind (by omega)
  · intro agree x y z b hx hy hz hb
    have ends := le_vectorEnd (o.output.extent 0)
    have vectors := o.rowVectors_mul
    obtain ⟨j, hj, lower, upper⟩ :
        ∃ j < total, pointsBefore o.rowVectors total j ≤ x / vectorWidth ∧
          x / vectorWidth < pointsBefore o.rowVectors total (j + 1) :=
      exists_part (by simp only [vectorWidth] at *; omega) positive
    obtain ⟨stores, value⟩ := all x hx y z b hy hz hb
    obtain ⟨stores', value'⟩ := dealt x j hx hj lower upper y z b hy hz hb
    refine ⟨by rw [stores, stores'], ?_⟩
    intro joined
    rw [value, value', joinedElement_eq_iff]
    intro behind late
    obtain ⟨start, stop⟩ := p.part_span size parts positive hj
    refine agree j hj x y z b ?_ ?_ behind ?_ joined hy hz hb
    · rw [start]
      simp only [vectorWidth] at *
      omega
    · rw [stop]
      simp only [vectorWidth] at *
      omega
    · rw [start]
      omega

theorem Prepared.fits_planned {u : DeviceTensor}
    (fits : Cursor.Fits u (o.plannedWindow.part .x 0 total)) : Cursor.Fits u o.plannedWindow := by
  apply fits.of_span_eq
  intro a
  by_cases ha : a = .x
  · subst ha
    have zero : pointsBefore o.rowVectors total 0 = 0 := by simp [pointsBefore]
    rw [(p.part_span size parts positive positive).1, ((parts 0 positive).within .x).2.2.1, zero,
      planned_start]
    exact ⟨rfl, rfl⟩
  · rw [Window.part_span_ne _ _ _ ha]
    exact ⟨rfl, rfl⟩

end Parts

theorem Provided.whole_elements_of_loads (p : o.Provided s t m) (addressable : m.Addressable)
    {q : Queue} (served : Served o s t [o.plannedWindow] q.pending)
    (loads : (LaunchRange.ofWindow o.plannedWindow).isEmpty = false →
      o.WindowLoads t m o.plannedWindow) :
    ∃ m', q.finish m = (.ok q.pending.length, ⟨[], q.completed ++ q.pending⟩, m') ∧
      ∀ x, x < o.output.extent 0 → o.ColumnJoined s t m m' 0 x := by
  obtain ⟨m', finish, elements⟩ := p.rows_elements addressable (.refl _) rfl served loads
  refine ⟨m', finish, ?_⟩
  intro x hx y z b hy hz hb
  have plane : z + o.output.extent 2 * b < o.output.planes := Descriptor.add_mul_lt hz hb
  have row : o.plannedWindow.HasRow y (z + o.output.extent 2 * b) := by
    rw [Window.HasRow, plannedWindow_y, plannedWindow_z, p.planned_planes]
    simp only [Span.between]
    omega
  obtain ⟨stores, value⟩ := elements x y z b hx hy hz hb
  rw [if_pos row] at stores
  exact ⟨stores, value row⟩

theorem Prepared.whole_elements (p : o.Prepared s k t m) (addressable : m.Addressable) {q : Queue}
    (served : Served o s t [o.plannedWindow] q.pending) :
    ∃ m', q.finish m = (.ok q.pending.length, ⟨[], q.completed ++ q.pending⟩, m') ∧
      ∀ x, x < o.output.extent 0 → o.ColumnJoined s t m m' 0 x :=
  p.whole_elements_of_loads addressable served (p.windowLoads rfl (.refl _))

/-- Runs of a configured kernel over all parts of its window along the columns, in any order. If all
of them are accepted, so is a run over the whole window, and that run finishes, with counters of 32
bits that do not overflow if there was room for one store. The parts finish as well and leave what it
leaves exactly if all loads of the parts fit, and every part agrees with it behind the seam of the
inputs. -/
theorem run_parts_agree_iff (half : Bool) (requests : List (String × BuildOptions))
    {o planned : Operands} {k k' : Kernel} {full : Window} {pack : TensorPack}
    {t : Submission.Tensors} {m : Memory} {q q' : Queue} {total : Nat} {ids : List Nat}
    (elements : o.HasElements) (valid : o.output.valid = .full o.output.shape)
    (configured : (Kernel.configure (.after (.host half) requests) o).1 = .ok (k, planned))
    (window : k.configuration?.map (·.window) = some full)
    (host : t.Host planned) (bound : Submission.Tensors.ofPack pack = .ok t)
    (addressable : m.Addressable) (allocated : t.Allocated m)
    (counted : (m.buffer t.output.buffer).HasRoom 1)
    (positive : 0 < total) (size : total < 0x10000000000000000)
    (order : ids.Perm (List.range total)) (idle : q.pending = [])
    (runs : k.runAll pack (ids.map (full.part .x · total)) q = (.ok (), k', q')) :
    ∃ s k'' q'' whole, o.first.type.storage? = some s ∧
      k.run pack full q = (.ok (), k'', q'') ∧
      q''.finish m = (.ok q''.pending.length, ⟨[], q''.completed ++ q''.pending⟩, whole) ∧
      (∀ x y z b, x < o.output.extent 0 → y < o.output.extent 1 → z < o.output.extent 2 →
        b < o.output.extent 3 → ∀ count ∈ t.output.storesAt whole [x, y, z, b], count < 0x100000000) ∧
      (((∃ count, (q'.finish m).1 = .ok count) ∧
          t.output.SameElements o.joinedWidth whole (q'.finish m).2.2) ↔
        ∀ i < total, ((LaunchRange.ofWindow (full.part .x i total)).isEmpty = false →
            o.WindowLoads t m (full.part .x i total)) ∧
          o.SeamAgrees s t m (full.part .x i total)) := by
  obtain ⟨s, hs, p⟩ := prepared_of_configure (ProgramCache.after_sound _ _).1 elements valid
    configured host allocated addressable
  obtain rfl := p.runs.window_eq window
  obtain ⟨served, accepted⟩ := p.served_of_runAll bound (fun w hw a ha => by
    obtain ⟨j, -, rfl⟩ := List.mem_map.1 hw
    exact Window.part_span_ne _ _ _ fun e => absurd (e ▸ ha) (by decide)) idle runs
  have accepted (j : Nat) (hj : j < total) := accepted _
    (List.mem_map.2 ⟨j, order.mem_iff.2 (List.mem_range.2 hj), rfl⟩)
  have parts (j : Nat) (hj : j < total) := (accepted j hj).1
  -- The whole window starts where the first part does, so that its run is accepted too.
  have whole := Window.IsPart.refl o.plannedWindow
  obtain ⟨k'', q'', run⟩ := Kernel.exists_run p.runs bound whole.within (flat_of_isPart whole)
    (fun u hu => p.fits_planned size parts positive ((accepted 0 positive).2 u hu)) q
  have runs' : k.runAll pack [o.plannedWindow] q = (.ok (), k'', q'') := by
    simp only [Kernel.runAll, run]
  obtain ⟨served', -⟩ := p.served_of_runAll bound (by simp) idle runs'
  obtain ⟨m'', finish', all⟩ := p.whole_elements addressable served'
  refine ⟨s, k'', q'', m'', hs, run, finish', ?_, ?_⟩
  · intro x y z b hx hy hz hb
    exact DeviceTensor.storesAt_lt counted (Nat.le_refl 1) (all x hx y z b hy hz hb).1
  · constructor
    · rintro ⟨⟨count, ok⟩, same⟩
      have loads := runAll_requires p.suit addressable p.room served
        (fun w hw some => by
          obtain ⟨j, hj, rfl⟩ := List.mem_map.1 hw
          exact p.windowStores (parts j (List.mem_range.1 (order.mem_iff.1 hj))) some)
        (.refl m _) (Queue.runAll_of_finish ok)
      have loads (j : Nat) (hj : j < total) := loads _
        (List.mem_map.2 ⟨j, order.mem_iff.2 (List.mem_range.2 hj), rfl⟩)
      obtain ⟨m', finish, dealt⟩ :=
        p.parts_elements size parts positive addressable order served loads
      rw [finish, p.sameElements_iff size parts positive all dealt] at same
      exact fun i hi => ⟨loads i hi, same i hi⟩
    · intro agree
      obtain ⟨m', finish, dealt⟩ := p.parts_elements size parts positive addressable order served
        fun j hj => (agree j hj).1
      rw [finish, p.sameElements_iff size parts positive all dealt]
      exact ⟨⟨_, rfl⟩, fun i hi => (agree i hi).2⟩

theorem small_halves : ∀ j < 2, (small.plannedWindow.part .x j 2).IsPart small.plannedWindow ∧
    (∀ u ∈ [smallTensors.first, smallTensors.second, smallTensors.output],
      Cursor.Fits u (small.plannedWindow.part .x j 2)) ∧
    small.WindowLoads smallTensors smallMemory (small.plannedWindow.part .x j 2)
  | 0, _ => ⟨⟨by decide, rfl, rfl, rfl⟩, by decide, by decide⟩
  | 1, _ => ⟨⟨by decide, rfl, rfl, rfl⟩, by decide, by decide⟩

theorem small_accepts_halves {k : Kernel}
    (accepts : ∀ ws, (∀ w ∈ ws, w.IsPart small.plannedWindow ∧
      ∀ u ∈ [smallTensors.first, smallTensors.second, smallTensors.output], Cursor.Fits u w) →
      ∃ k' q', k.runAll smallPack ws .empty = (.ok (), k', q')) {ids : List Nat}
    (order : ids.Perm (List.range 2)) :
    ∃ k' q', k.runAll smallPack (ids.map (small.plannedWindow.part .x · 2)) .empty =
      (.ok (), k', q') := by
  apply accepts
  intro w hw
  obtain ⟨j, hj, rfl⟩ := List.mem_map.1 hw
  obtain ⟨part, fits, -⟩ := small_halves j (List.mem_range.1 (order.mem_iff.1 hj))
  exact ⟨part, fits⟩

theorem run_parts_differ_small :
    ∃ k k' q' k'' q'', (Kernel.configure (.after (.host false) []) small).1 =
        .ok (k, Kernel.written small.padded) ∧
      k.runAll smallPack ([1, 0].map (small.plannedWindow.part .x · 2)) .empty = (.ok (), k', q') ∧
      k.run smallPack small.plannedWindow .empty = (.ok (), k'', q'') ∧
      ¬ ((∃ count, (q'.finish smallMemory).1 = .ok count) ∧
        smallTensors.output.SameElements small.joinedWidth (q''.finish smallMemory).2.2
          (q'.finish smallMemory).2.2) := by
  obtain ⟨k, configured, window, accepts⟩ := small_configured
  have order : [1, 0].Perm (List.range 2) := by decide
  obtain ⟨k', q', runs⟩ := small_accepts_halves accepts order
  obtain ⟨s, k'', q'', whole, hs, run, finish, -, agree⟩ := run_parts_agree_iff false []
    small_hasElements rfl configured window small_host rfl small_addressable small_allocated
    (by decide) (by decide) (by decide) order rfl runs
  obtain rfl : s = .u8 := (Option.some.inj hs).symm
  refine ⟨k, k', q', k'', q'', configured, runs, run, ?_⟩
  rw [finish, agree]
  intro same
  have seam := (same 1 (by decide)).2 8 0 0 0 (by decide) (by decide) (by decide) (by decide)
    (by decide) (by decide) (by decide) (by decide)
  exact absurd seam (by decide)

theorem halves_leave_other_elements :
    ∃ k k' q' k'' q'' parts whole, (Kernel.configure (.after (.host false) []) small).1 =
        .ok (k, Kernel.written small.padded) ∧
      k.runAll smallPack ([0, 1].map (small.plannedWindow.part .x · 2)) .empty = (.ok (), k', q') ∧
      k.runAll smallPack [small.plannedWindow] .empty = (.ok (), k'', q'') ∧
      q'.finish smallMemory = (.ok q'.pending.length, ⟨[], q'.completed ++ q'.pending⟩, parts) ∧
      q''.finish smallMemory = (.ok q''.pending.length, ⟨[], q''.completed ++ q''.pending⟩, whole) ∧
      smallTensors.output.elementAt parts [8, 0, 0, 0] = [8] ∧
      smallTensors.output.elementAt whole [8, 0, 0, 0] = [108] := by
  obtain ⟨k, configured, window, accepts⟩ := small_configured
  have order : [0, 1].Perm (List.range 2) := .refl _
  obtain ⟨k', q', runs⟩ := small_accepts_halves accepts order
  obtain ⟨k'', q'', run⟩ := accepts [small.plannedWindow]
    (List.forall_mem_singleton.2 ⟨.refl _, by decide⟩)
  obtain ⟨s, hs, p⟩ := prepared_of_configure (ProgramCache.after_sound _ _).1 small_hasElements rfl
    configured small_host small_allocated small_addressable
  obtain rfl : s = .u8 := (Option.some.inj hs).symm
  obtain ⟨served, -⟩ := p.served_of_runAll rfl (fun w hw a ha => by
    obtain ⟨j, -, rfl⟩ := List.mem_map.1 hw
    exact Window.part_span_ne _ _ _ fun e => absurd (e ▸ ha) (by decide)) rfl runs
  obtain ⟨served', -⟩ := p.served_of_runAll rfl (by simp) rfl run
  obtain ⟨parts, finish, dealt⟩ := p.parts_elements (by decide) (fun j hj => (small_halves j hj).1)
    (by decide) small_addressable order served fun j hj _ => (small_halves j hj).2.2
  obtain ⟨whole, finish', all⟩ := p.whole_elements small_addressable served'
  refine ⟨k, k', q', k'', q'', parts, whole, configured, runs, run, finish, finish', ?_, ?_⟩
  · rw [(dealt 8 1 (by decide) (by decide) (by decide) (by decide) 0 0 0 (by decide) (by decide)
      (by decide)).2]
    decide
  · rw [(all 8 (by decide) 0 0 0 (by decide) (by decide) (by decide)).2]
    decide

end Operands
end TensorConcat
