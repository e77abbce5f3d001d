import TensorConcat.Concat.Kernel
import TensorConcat.Proofs.Concat.Configured
import TensorConcat.Proofs.Iteration.Points
import TensorConcat.Proofs.Iteration.Slices
import TensorConcat.Proofs.Launch.Arguments
import TensorConcat.Proofs.Launch.Launches

/-! From a window to its launch: what a run binds and submits. -/

namespace TensorConcat

structure DeviceTensor.Addressed (t : DeviceTensor) : Prop where
  rows : t.descriptor.HasRows
  totalSize_lt : t.descriptor.totalSize < 0x8000000000000000

structure DeviceTensor.Ordinary (t : DeviceTensor) : Prop where
  elements : t.descriptor.HasElements
  totalSize_lt : t.descriptor.totalSize < 0x8000000000000000

theorem DeviceTensor.Ordinary.addressed {t : DeviceTensor} (h : t.Ordinary) : t.Addressed :=
  ⟨h.elements.hasRows, h.totalSize_lt⟩

namespace Window

structure OneSlice (w : Window) : Prop where
  start_nonneg : ∀ a, 0 ≤ (w.span a).start
  outer : w.span .outer = .single (w.span .outer).start
  outermost : w.span .outermost = .single (w.span .outermost).start

structure Flat (w : Window) : Prop where
  start_nonneg : ∀ a, 0 ≤ (w.span a).start
  batch : w.span .batch = .unit
  outer : w.span .outer = .unit
  outermost : w.span .outermost = .unit

theorem Flat.oneSlice {w : Window} (h : w.Flat) : w.OneSlice :=
  ⟨h.start_nonneg, by rw [h.outer]; rfl, by rw [h.outermost]; rfl⟩

/-- The planes of all batches in a row, as the work items count them. -/
def flattened (w : Window) (depth : Nat) : Window :=
  .ofSpans fun a =>
    if a = .z then
      .between (w.startAt .z + depth * w.startAt .batch : Nat)
        ((w.startAt .z + depth * w.startAt .batch : Nat) + (LaunchRange.ofWindow w).z)
    else if .z < a then .unit else w.span a

variable {w : Window} {depth : Nat}

theorem flattened_inner {a : Axis} (h : a < .z) : (w.flattened depth).span a = w.span a := by
  rw [flattened, span_ofSpans, if_neg (Fin.ne_of_lt h), if_neg (Fin.not_lt.2 (Fin.le_of_lt h))]

theorem flattened_z :
    (w.flattened depth).span .z = .between (w.startAt .z + depth * w.startAt .batch : Nat)
      ((w.startAt .z + depth * w.startAt .batch : Nat) + (LaunchRange.ofWindow w).z) := by
  rw [flattened, span_ofSpans, if_pos rfl]

theorem flattened_outer {a : Axis} (h : .z < a) : (w.flattened depth).span a = .unit := by
  rw [flattened, span_ofSpans, if_neg (Fin.ne_of_gt h), if_pos h]

theorem ofWindow_flattened : LaunchRange.ofWindow (w.flattened depth) = .ofWindow w := by
  have planes : ((w.flattened depth).span .z).wholeSteps = (LaunchRange.ofWindow w).z := by
    rw [flattened_z, Span.wholeSteps_between]
  have batch : ((w.flattened depth).span .batch).wholeSteps = 1 := by
    rw [flattened_outer (by decide)]
    rfl
  rw [LaunchRange.ofWindow, planes, batch, flattened_inner (by decide), flattened_inner (by decide),
    Nat.mul_one, LaunchRange.ofWindow]

end Window

namespace DeviceTensor.Addressed

variable {t : DeviceTensor} {w : Window}

theorem stride_lt (ht : t.Addressed) (axis : Nat) (ha : axis ≤ 6) :
    t.descriptor.stride axis < 0x8000000000000000 := by
  cases axis with
  | zero =>
    have size (type : ElementType) : type.size < 0x8000000000000000 := by cases type <;> decide
    exact size t.descriptor.type
  | succ axis =>
    exact Nat.lt_of_le_of_lt (Descriptor.stride_le_totalSize ht.rows (Nat.succ_pos axis) ha)
      ht.totalSize_lt

theorem signed64_stride (ht : t.Addressed) (axis : Nat) (ha : axis ≤ 6) :
    signed64 (t.descriptor.stride axis) = t.descriptor.stride axis :=
  signed64_of_lt (ht.stride_lt axis ha)

theorem toNat_signed64_stride (ht : t.Addressed) (axis : Nat) (ha : axis ≤ 6) :
    (signed64 (t.descriptor.stride axis)).toNat = t.descriptor.stride axis := by
  rw [ht.signed64_stride axis ha, Int.toNat_natCast]

theorem startOffset_eq_address (ht : t.Addressed) (start_nonneg : ∀ a, 0 ≤ (w.span a).start) :
    Cursor.startOffset t.descriptor w =
      t.descriptor.address (w.startAt .x) (w.startAt .y)
        (w.startAt .z + t.descriptor.extent 2 * w.startAt .batch : Nat) := by
  have first : signed64 t.descriptor.firstOffset = t.descriptor.firstOffset :=
    signed64_of_lt (Nat.lt_of_le_of_lt (Descriptor.firstOffset_le_totalSize ht.rows)
      ht.totalSize_lt)
  have start (a : Axis) : (w.span a).start = w.startAt a :=
    (Int.toNat_of_nonneg (start_nonneg a)).symm
  have batches : t.descriptor.stride 3 = t.descriptor.stride 2 * t.descriptor.extent 2 := rfl
  simp only [Cursor.startOffset, Axis.inner, List.foldr_cons, List.foldr_nil, start .x, start .y,
    start .z, start .batch, first, ht.signed64_stride Axis.x (by decide),
    ht.signed64_stride Axis.y (by decide), ht.signed64_stride Axis.z (by decide),
    ht.signed64_stride Axis.batch (by decide), Descriptor.address]
  have x : ((Axis.x : Axis) : Nat) = 0 := rfl
  have y : ((Axis.y : Axis) : Nat) = 1 := rfl
  have z : ((Axis.z : Axis) : Nat) = 2 := rfl
  have batch : ((Axis.batch : Axis) : Nat) = 3 := rfl
  rw [x, y, z, batch, batches]
  simp only [Int.natCast_add, Int.natCast_mul, Int.add_mul]
  simp only [Int.add_assoc, Int.add_comm, Int.add_left_comm, Int.mul_assoc, Int.mul_comm,
    Int.mul_left_comm]

theorem standsAt_of (ht : t.Addressed) (start_nonneg : ∀ a, 0 ≤ (w.span a).start)
    (offset : IsWord (Cursor.startOffset t.descriptor w)) :
    (TensorView.of t w).StandsAt t (w.startAt .x) (w.startAt .y)
      (w.startAt .z + t.descriptor.extent 2 * w.startAt .batch) where
  buffer := rfl
  strideX := by simp only [TensorView.of, ht.toNat_signed64_stride 0 (by decide)]
  strideY := by simp only [TensorView.of, ht.toNat_signed64_stride 1 (by decide)]
  strideZ := by simp only [TensorView.of, ht.toNat_signed64_stride 2 (by decide)]
  strideBatch := by simp only [TensorView.of, ht.toNat_signed64_stride 3 (by decide)]
  offset := by
    rw [← ht.startOffset_eq_address start_nonneg]
    exact Int.toNat_of_nonneg offset.1

end DeviceTensor.Addressed

namespace Submission

variable {t : Tensors} {w : Window}

theorem arguments_eq_ok {h : Handle} {c : Cursor}
    (hok : (arguments t w).perform ⟨h, 0⟩ = (.ok (), c)) :
    c.handle.program = h.program ∧
      (∀ j, Frame.paddingSlot ≤ j → c.handle.argument? j = h.argument? j) ∧
      TensorView.ofHandle c.handle 0 = .ok (.of t.first w) ∧
      TensorView.ofHandle c.handle Cursor.slotsPerTensor = .ok (.of t.second w) ∧
      TensorView.ofHandle c.handle (2 * Cursor.slotsPerTensor) = .ok (.of t.output w) ∧
      ∀ u ∈ [t.first, t.second, t.output], Cursor.Fits u w := by
  obtain ⟨_, c1, h1, hok⟩ := Action.perform_bind_eq_ok_iff.1 hok
  obtain ⟨_, c2, h2, h3⟩ := Action.perform_bind_eq_ok_iff.1 hok
  obtain ⟨f1, w1⟩ := Cursor.wrote_tensor h1
  obtain ⟨f2, w2⟩ := Cursor.wrote_tensor h2
  obtain ⟨f3, w3⟩ := Cursor.wrote_tensor h3
  have length (u : DeviceTensor) : (Cursor.slots u w).length = 10 := rfl
  have i1 : c1.index = 10 := by simpa [length] using w1.index
  have i2 : c2.index = 20 := by simpa [length, i1] using w2.index
  have per : Cursor.slotsPerTensor = 10 := rfl
  -- Each tensor writes ten slots of its own, so that those of the tensors before stay as they are.
  refine ⟨w3.program.trans (w2.program.trans w1.program), fun j hj => ?_, ?_, ?_, ?_, ?_⟩
  · have slot : Frame.paddingSlot = 30 := rfl
    rw [w3.outside j (by rw [length]; omega), w2.outside j (by rw [length]; omega),
      w1.outside j (by rw [length]; simp only; omega)]
  · refine TensorView.ofHandle_eq_ok f1 fun n hn => ?_
    rw [w3.outside _ (by omega), w2.outside _ (by omega)]
    exact w1.inside n (by rw [length]; omega)
  · refine TensorView.ofHandle_eq_ok f2 fun n hn => ?_
    rw [w3.outside _ (by omega), ← w2.inside n (by rw [length]; omega), i1, per]
  · refine TensorView.ofHandle_eq_ok f3 fun n hn => ?_
    rw [← w3.inside n (by rw [length]; omega), i2, per]
  · simp only [List.forall_mem_cons, List.not_mem_nil, false_implies, implies_true, and_true]
    exact ⟨f1, f2, f3⟩

theorem submitSlice_eq_ok {hint? : Option LaunchRange} {s s' : Submission}
    (hok : (submitSlice t hint? w).perform s = (.ok (), s')) :
    ∃ index, (arguments t w).perform ⟨s.handle, 0⟩ = (.ok (), ⟨s'.handle, index⟩) ∧
      s'.queue = s.queue.submitWindow s'.handle w hint? := by
  obtain ⟨_, s1, h1, hok⟩ := Action.perform_bind_eq_ok_iff.1 hok
  obtain ⟨hx, rfl⟩ := Prod.mk.inj h1
  obtain rfl := Except.ok.inj hx
  rcases hargs : (arguments t w).perform ⟨s.handle, 0⟩ with ⟨answer, c⟩
  rw [hargs] at hok
  obtain ⟨_, s2, h2, hok⟩ := Action.perform_bind_eq_ok_iff.1 hok
  obtain ⟨-, rfl⟩ := Prod.mk.inj h2
  obtain ⟨_, s3, h3, hok⟩ := Action.perform_bind_eq_ok_iff.1 hok
  obtain ⟨rfl, rfl⟩ := Prod.mk.inj h3
  obtain ⟨-, rfl⟩ := Prod.mk.inj hok
  exact ⟨c.index, rfl, rfl⟩

theorem exists_submitSlice (hint? : Option LaunchRange) (s : Submission)
    (fits : ∀ u ∈ [t.first, t.second, t.output], Cursor.Fits u w) :
    ∃ s', (submitSlice t hint? w).perform s = (.ok (), s') := by
  have per : Cursor.slotsPerTensor = 10 := rfl
  have first : (⟨s.handle, 0⟩ : Cursor).index = 0 := rfl
  obtain ⟨c1, h1, i1⟩ := Cursor.exists_tensor (c := ⟨s.handle, 0⟩) (fits t.first (by simp))
    (by omega)
  obtain ⟨c2, h2, i2⟩ := Cursor.exists_tensor (c := c1) (fits t.second (by simp)) (by omega)
  obtain ⟨c3, h3, i3⟩ := Cursor.exists_tensor (c := c2) (fits t.output (by simp)) (by omega)
  have bound : (arguments t w).perform ⟨s.handle, 0⟩ = (.ok (), c3) :=
    Action.perform_bind_eq_ok_iff.2 ⟨(), c1, h1, Action.perform_bind_eq_ok_iff.2 ⟨(), c2, h2, h3⟩⟩
  refine ⟨⟨c3.handle, s.queue.submitWindow c3.handle w hint?⟩, ?_⟩
  refine Action.perform_bind_eq_ok_iff.2 ⟨s, s, rfl, ?_⟩
  rw [bound]
  rfl

end Submission

namespace Window

variable {w : Window}

theorem OneSlice.firstSlice_eq (h : w.OneSlice) : w.firstSlice = w := by
  apply ext_span
  intro a
  simp only [firstSlice, span_set]
  by_cases ho : a = .outermost
  · rw [if_pos ho, ho]
    exact h.outermost.symm
  · rw [if_neg ho]
    by_cases hi : a = .outer
    · rw [if_pos hi, hi]
      exact h.outer.symm
    · rw [if_neg hi]

theorem OneSlice.nextSlice?_eq (h : w.OneSlice) : w.nextSlice? w = none := by
  have one {s : Span} (hs : s = .single s.start) : ¬ s.start + 1 < s.stop := by
    have stop : s.stop = s.start + 1 := congrArg Span.stop hs
    omega
  simp only [nextSlice?, if_neg (one h.outer), if_neg (one h.outermost)]

theorem OneSlice.perform_forSlices {σ : Type} (h : w.OneSlice) (action : Window → Action σ Unit)
    (s : σ) : (w.forSlices action).perform s = (action w).perform s := by
  rw [forSlices, h.firstSlice_eq, forSlicesFrom_of_none h.nextSlice?_eq, Action.perform_bind]
  rcases (action w).perform s with ⟨_ | _, _⟩ <;> rfl

end Window

namespace Submission.Tensors

structure Addressed (t : Tensors) : Prop where
  first : t.first.Addressed
  second : t.second.Addressed
  output : t.output.Addressed

structure Ordinary (t : Tensors) : Prop where
  first : t.first.Ordinary
  second : t.second.Ordinary
  output : t.output.Ordinary

end Submission.Tensors

/-- The launch runs the program for the operands with the arguments of a window. -/
structure Launch.Binds (l : Launch) (o : Operands) (s : Storage) (t : Submission.Tensors)
    (w : Window) : Prop where
  program : l.handle.program = o.program s
  frame : Frame.ofHandle l.handle = .ok ⟨.of t.first w, .of t.second w, .of t.output w,
    firstRightPadding (o.first.extent 0), secondLeftPadding (o.first.extent 0)⟩
  range : l.range = .ofWindow w

namespace Launch

variable {l : Launch} {o : Operands} {s : Storage} {t : Submission.Tensors} {w : Window}

theorem Binds.serves (h : l.Binds o s t w) (addressed : t.Addressed) (flat : w.Flat)
    (fits : ∀ u ∈ [t.first, t.second, t.output], Cursor.Fits u w) : l.Serves o s t w := by
  have view {u : DeviceTensor} (hu : u ∈ [t.first, t.second, t.output]) (ha : u.Addressed) :
      (TensorView.of u w).StandsAt u (w.startAt .x) (w.startAt .y) (w.startAt .z) := by
    have stands := ha.standsAt_of flat.start_nonneg (fits u hu).2
    rwa [show w.startAt .batch = 0 by rw [Window.startAt, flat.batch]; rfl, Nat.mul_zero,
      Nat.add_zero] at stands
  exact ⟨h.program, ⟨_, h.frame, view (by simp) addressed.first, view (by simp) addressed.second,
    view (by simp) addressed.output, rfl, rfl⟩, h.range⟩

theorem Binds.serves_flattened (h : l.Binds o s t w) (addressed : t.Addressed) {depth : Nat}
    (depths : ∀ u ∈ [t.first, t.second, t.output], u.descriptor.extent 2 = depth)
    (start_nonneg : ∀ a, 0 ≤ (w.span a).start)
    (fits : ∀ u ∈ [t.first, t.second, t.output], Cursor.Fits u w) :
    l.Serves o s t (w.flattened depth) := by
  have z : (w.flattened depth).startAt .z = w.startAt .z + depth * w.startAt .batch := by
    rw [Window.startAt, Window.flattened_z]
    exact Int.toNat_natCast _
  have view {u : DeviceTensor} (hu : u ∈ [t.first, t.second, t.output]) (ha : u.Addressed) :
      (TensorView.of u w).StandsAt u ((w.flattened depth).startAt .x)
        ((w.flattened depth).startAt .y) ((w.flattened depth).startAt .z) := by
    have stands := ha.standsAt_of start_nonneg (fits u hu).2
    rw [depths u hu] at stands
    rw [z, Window.startAt, Window.startAt, Window.flattened_inner (by decide),
      Window.flattened_inner (by decide)]
    exact stands
  exact ⟨h.program, ⟨_, h.frame, view (by simp) addressed.first, view (by simp) addressed.second,
    view (by simp) addressed.output, rfl, rfl⟩, h.range.trans Window.ofWindow_flattened.symm⟩

end Launch

namespace Kernel

variable {k k' : Kernel} {o : Operands} {s : Storage} {full w : Window} {t : Submission.Tensors}
  {pack : TensorPack} {q q' : Queue}

/-- The kernel is configured to run the program for the operands over parts of a window. -/
def Runs (k : Kernel) (o : Operands) (s : Storage) (full : Window) : Prop :=
  ∃ c, k.configuration? = some c ∧ c.window = full ∧ c.handle.program = o.program s ∧
    c.handle.argument? Frame.paddingSlot
      = some (.word (.ofNat (firstRightPadding (o.first.extent 0)))) ∧
    c.handle.argument? (Frame.paddingSlot + 1)
      = some (.word (.ofNat (secondLeftPadding (o.first.extent 0))))

theorem Runs.window_eq (hk : k.Runs o s full) (hw : k.configuration?.map (·.window) = some w) :
    w = full := by
  obtain ⟨c, hc, rfl, -⟩ := hk
  rw [hc] at hw
  exact (Option.some.inj hw).symm

theorem runs_of_bindPaddings {h : Handle} {options : BuildOptions} {id : String}
    (hb : bindPaddings (.fresh Program.kernelName (o.program s)) (o.first.extent 0) = .ok h) :
    (Kernel.mk (some ⟨h, full, options, id, none⟩)).Runs o s full := by
  obtain ⟨h', hb', program, right, left⟩ :=
    bindPaddings_eq_ok (.fresh Program.kernelName (o.program s)) (o.first.extent 0)
  obtain rfl := Except.ok.inj (hb.symm.trans hb')
  exact ⟨_, rfl, rfl, program, right, left⟩

theorem toNat_firstRightPadding (width : Nat) :
    (UInt32.ofNat (firstRightPadding width)).toNat = firstRightPadding width := by
  rw [UInt32.toNat_ofNat', Nat.mod_eq_of_lt]
  simp only [firstRightPadding, ceilMultiple, Operands.vectorWidth]
  omega

theorem toNat_secondLeftPadding (width : Nat) :
    (UInt32.ofNat (secondLeftPadding width)).toNat = secondLeftPadding width := by
  rw [UInt32.toNat_ofNat', Nat.mod_eq_of_lt]
  simp only [secondLeftPadding, Operands.vectorWidth]
  omega

theorem configuration_eq_ok_iff {c : Configuration} :
    k.configuration = .ok c ↔ k.configuration? = some c := by
  unfold configuration
  cases k.configuration? with
  | none => exact ⟨fun h => (nomatch h), fun h => (nomatch h)⟩
  | some c' =>
    exact ⟨fun h => congrArg some (Except.ok.inj h), fun h => congrArg Except.ok (Option.some.inj h)⟩

theorem run_eq_ok_iff :
    k.run pack w q = (.ok (), k', q') ↔
      ∃ c t s, k.configuration? = some c ∧ w.IsWithin c.window ∧
        Submission.Tensors.ofPack pack = .ok t ∧
        (w.forSlices (Submission.submitSlice t c.hint?)).perform ⟨c.handle, q⟩ = (.ok (), s) ∧
        k' = ⟨some { c with handle := s.handle }⟩ ∧ q' = s.queue := by
  constructor
  · intro h
    simp only [run] at h
    split at h
    next => exact nomatch (Prod.mk.inj h).1
    next c t ready =>
      obtain ⟨c', hc, ready⟩ := Answer.bind_eq_ok_iff.1 ready
      split at ready
      next hw =>
        obtain ⟨t', ht, same⟩ := Answer.map_eq_ok_iff.1 ready
        obtain ⟨rfl, rfl⟩ := Prod.mk.inj same
        obtain ⟨answer, rest⟩ := Prod.mk.inj h
        obtain ⟨rfl, rfl⟩ := Prod.mk.inj rest
        exact ⟨c', t', _, configuration_eq_ok_iff.1 hc, hw, ht, Prod.ext answer rfl, rfl, rfl⟩
      next => exact nomatch ready
  · rintro ⟨c, t, s, hc, hw, ht, submitted, rfl, rfl⟩
    rw [run, configuration_eq_ok_iff.2 hc]
    simp only [Answer.ok_bind, if_pos hw, ht, pure, Except.pure, submitted]

theorem run_eq_ok (hk : k.Runs o s full) (ht : Submission.Tensors.ofPack pack = .ok t)
    (one : w.IsWithin full → w.OneSlice) (hok : k.run pack w q = (.ok (), k', q')) :
    w.IsWithin full ∧ (∀ u ∈ [t.first, t.second, t.output], Cursor.Fits u w) ∧
      k'.Runs o s full ∧ ∃ l : Launch, l.Binds o s t w ∧
        q' = if (LaunchRange.ofWindow w).isEmpty then q else q.submit l := by
  obtain ⟨c, hc, window, program, right, left⟩ := hk
  obtain ⟨c', t', s', hc', hw, ht', submitted, rfl, rfl⟩ := run_eq_ok_iff.1 hok
  obtain rfl := Option.some.inj (hc.symm.trans hc')
  obtain rfl := Except.ok.inj (ht.symm.trans ht')
  rw [window] at hw
  rw [(one hw).perform_forSlices] at submitted
  obtain ⟨index, bound, queue⟩ := Submission.submitSlice_eq_ok submitted
  obtain ⟨program', padding, first, second, output, fits⟩ := Submission.arguments_eq_ok bound
  have hright := (padding _ (Nat.le_refl _)).trans right
  have hleft := (padding _ (Nat.le_succ _)).trans left
  refine ⟨hw, fits, ⟨_, rfl, window, program'.trans program, hright, hleft⟩,
    ⟨s'.handle, .ofWindow w, c.hint?.filter (·.divides (.ofWindow w))⟩,
    ⟨program'.trans program, ?_, rfl⟩, queue⟩
  rw [Frame.ofHandle, first, second, output, Handle.word_of_argument? _ hright,
    Handle.word_of_argument? _ hleft, toNat_firstRightPadding, toNat_secondLeftPadding]
  rfl

theorem exists_run_of_oneSlice (hk : k.Runs o s full) (ht : Submission.Tensors.ofPack pack = .ok t)
    (hw : w.IsWithin full) (one : w.OneSlice)
    (fits : ∀ u ∈ [t.first, t.second, t.output], Cursor.Fits u w) (q : Queue) :
    ∃ k' q', k.run pack w q = (.ok (), k', q') := by
  obtain ⟨c, hc, window, -⟩ := hk
  obtain ⟨s', hs⟩ := Submission.exists_submitSlice c.hint? ⟨c.handle, q⟩ fits
  rw [← one.perform_forSlices] at hs
  exact ⟨_, _, run_eq_ok_iff.2 ⟨c, t, s', hc, window ▸ hw, ht, hs, rfl, rfl⟩⟩

theorem exists_run (hk : k.Runs o s full) (ht : Submission.Tensors.ofPack pack = .ok t)
    (hw : w.IsWithin full) (flat : w.Flat)
    (fits : ∀ u ∈ [t.first, t.second, t.output], Cursor.Fits u w) (q : Queue) :
    ∃ k' q', k.run pack w q = (.ok (), k', q') :=
  exists_run_of_oneSlice hk ht hw flat.oneSlice fits q

def runAll (k : Kernel) (pack : TensorPack) :
    List Window → Queue → Except Error Unit × Kernel × Queue
  | [], q => (.ok (), k, q)
  | w :: ws, q =>
    match k.run pack w q with
    | (.ok (), k, q) => runAll k pack ws q
    | (.error e, k, q) => (.error e, k, q)

theorem runAll_eq_ok {ws : List Window} (hk : k.Runs o s full)
    (ht : Submission.Tensors.ofPack pack = .ok t) (addressed : t.Addressed)
    (flat : ∀ w ∈ ws, w.IsWithin full → w.Flat)
    (hok : k.runAll pack ws q = (.ok (), k', q')) :
    ∃ ls, q'.pending = q.pending ++ ls ∧ q'.completed = q.completed ∧ Served o s t ws ls ∧
      ∀ w ∈ ws, w.IsWithin full ∧ ∀ u ∈ [t.first, t.second, t.output], Cursor.Fits u w := by
  induction ws generalizing k q with
  | nil =>
    obtain ⟨-, hq⟩ := Prod.mk.inj hok
    obtain ⟨rfl, rfl⟩ := Prod.mk.inj hq
    exact ⟨[], (List.append_nil _).symm, rfl, .nil, by simp⟩
  | cons w ws ih =>
    rw [runAll] at hok
    rcases hrun : k.run pack w q with ⟨_ | _, k1, q1⟩
    · rw [hrun] at hok
      exact nomatch (Prod.mk.inj hok).1
    · rw [hrun] at hok
      have here := flat w (List.mem_cons_self ..)
      obtain ⟨within, fits, hk1, l, binds, rfl⟩ :=
        run_eq_ok hk ht (fun within => (here within).oneSlice) hrun
      have serves := binds.serves addressed (here within) fits
      obtain ⟨ls, pending, completed, served, inside⟩ :=
        ih hk1 (fun w hw => flat w (List.mem_cons_of_mem _ hw)) hok
      cases he : (LaunchRange.ofWindow w).isEmpty with
      | true =>
        rw [he, if_pos rfl] at pending completed
        exact ⟨ls, pending, completed, .idle he served,
          List.forall_mem_cons.2 ⟨⟨within, fits⟩, inside⟩⟩
      | false =>
        rw [he, if_neg (by decide)] at pending completed
        refine ⟨l :: ls, ?_, completed, .launch he serves served,
          List.forall_mem_cons.2 ⟨⟨within, fits⟩, inside⟩⟩
        rw [pending, Queue.submit, List.append_assoc, List.singleton_append]

theorem exists_runAll {ws : List Window} (hk : k.Runs o s full)
    (ht : Submission.Tensors.ofPack pack = .ok t)
    (flat : ∀ w ∈ ws, w.Flat) (within : ∀ w ∈ ws, w.IsWithin full)
    (fits : ∀ w ∈ ws, ∀ u ∈ [t.first, t.second, t.output], Cursor.Fits u w) (q : Queue) :
    ∃ k' q', k.runAll pack ws q = (.ok (), k', q') := by
  induction ws generalizing k q with
  | nil => exact ⟨k, q, rfl⟩
  | cons w ws ih =>
    rw [List.forall_mem_cons] at flat within fits
    obtain ⟨k1, q1, h1⟩ := exists_run hk ht within.1 flat.1 fits.1 q
    obtain ⟨-, -, hk1, -⟩ := run_eq_ok hk ht (fun _ => flat.1.oneSlice) h1
    obtain ⟨k', q', h⟩ := ih hk1 flat.2 within.2 fits.2 q1
    exact ⟨k', q', by simp only [runAll, h1, h]⟩

end Kernel
end TensorConcat
