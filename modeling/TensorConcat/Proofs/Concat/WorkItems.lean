import TensorConcat.Proofs.Concat.EndToEnd
import TensorConcat.Proofs.Iteration.Points
import TensorConcat.Proofs.Iteration.Slices

/-! How many work items a run submits: one for each whole step of its window along x, and for each
iteration along the other axes. -/

namespace TensorConcat

namespace LaunchRange

theorem count_of_isEmpty {r : LaunchRange} (h : r.isEmpty = true) : r.count = 0 := by
  unfold count
  rcases isEmpty_iff.1 h with h | h | h
  · rw [h, Nat.zero_mul, Nat.zero_mul]
  · rw [h, Nat.mul_zero, Nat.zero_mul]
  · rw [h, Nat.mul_zero]

end LaunchRange

def workItems : List Launch → Nat
  | [] => 0
  | l :: rest => l.range.count + workItems rest

theorem workItems_append (ls rest : List Launch) :
    workItems (ls ++ rest) = workItems ls + workItems rest := by
  induction ls with
  | nil => rw [workItems, List.nil_append, Nat.zero_add]
  | cons l ls ih => rw [List.cons_append, workItems, workItems, ih, Nat.add_assoc]

namespace Queue

theorem exists_submitWindow (q : Queue) (h : Handle) (w : Window) (hint? : Option LaunchRange) :
    ∃ ls, (q.submitWindow h w hint?).pending = q.pending ++ ls ∧
      workItems ls = (LaunchRange.ofWindow w).count := by
  cases empty : (LaunchRange.ofWindow w).isEmpty with
  | true =>
    simp only [submitWindow, empty, if_true]
    exact ⟨[], (List.append_nil _).symm, (LaunchRange.count_of_isEmpty empty).symm⟩
  | false =>
    simp only [submitWindow, empty, Bool.false_eq_true, if_false, submit]
    exact ⟨[_], rfl, Nat.add_zero _⟩

end Queue

namespace Submission

theorem submitSlices_eq_ok {t : Tensors} {hint? : Option LaunchRange} {slices : List Window}
    {count : Nat} (same : ∀ slice ∈ slices, (LaunchRange.ofWindow slice).count = count)
    {s s' : Submission} (h : (List.forM slices (submitSlice t hint?)).perform s = (.ok (), s')) :
    ∃ ls, s'.queue.pending = s.queue.pending ++ ls ∧ workItems ls = slices.length * count := by
  induction slices generalizing s with
  | nil =>
    obtain ⟨-, rfl⟩ := Prod.mk.inj h
    exact ⟨[], (List.append_nil _).symm, (Nat.zero_mul count).symm⟩
  | cons slice rest ih =>
    rw [List.forall_mem_cons] at same
    rw [List.forM] at h
    obtain ⟨_, s1, first, h⟩ := Action.perform_bind_eq_ok_iff.1 h
    obtain ⟨_, -, queue⟩ := submitSlice_eq_ok first
    obtain ⟨ls, here, items⟩ := s.queue.exists_submitWindow s1.handle slice hint?
    obtain ⟨ls', later, items'⟩ := ih same.2 h
    refine ⟨ls ++ ls', ?_, ?_⟩
    · rw [later, queue, here, List.append_assoc]
    · rw [workItems_append, items, items', same.1, List.length_cons, Nat.succ_mul, Nat.add_comm]

end Submission

namespace Window

variable {w : Window}

theorem totalIterations_eq (w : Window) :
    w.totalIterations = (w.span .x).iterations * ((w.span .y).iterations *
      ((w.span .z).iterations * ((w.span .batch).iterations * ((w.span .outer).iterations *
        ((w.span .outermost).iterations * 1))))) :=
  rfl

theorem slices_length_mul_count (unit : ∀ a, a ≠ .x → (w.span a).step = 1)
    (some : 0 < w.totalIterations) :
    ((w.slices.length * (LaunchRange.ofWindow w).count : Nat) : Int) =
      (w.span .x).wholeSteps * ((w.span .y).iterations * ((w.span .z).iterations *
        ((w.span .batch).iterations * ((w.span .outer).iterations *
          (w.span .outermost).iterations)))) := by
  have range := w.totalIterations_pos_iff.1 some
  have whole (a : Axis) (ha : a ≠ .x) : ((w.span a).wholeSteps : Int) = (w.span a).iterations := by
    rw [Span.wholeSteps_eq_iterations_iff (range a), unit a ha]
    exact Int.one_dvd _
  have points (a : Axis) (ha : a ≠ .x) :
      ((((w.span a).stop - (w.span a).start).toNat : Nat) : Int) = (w.span a).iterations := by
    rw [← whole a ha, Span.wholeSteps_of_step_eq_one (unit a ha)]
  rw [length_slices, slicePoints_of_lt (range .outer), slicePoints_of_lt (range .outermost),
    LaunchRange.count, LaunchRange.ofWindow]
  simp only [Int.natCast_mul, whole .y (by decide), whole .z (by decide), whole .batch (by decide),
    points .outer (by decide), points .outermost (by decide)]
  simp only [Int.mul_assoc, Int.mul_comm, Int.mul_left_comm]

end Window

namespace Kernel

/-- The kernels that a configuration leaves, and what becomes of them when they are used. -/
inductive Configured : Kernel → Prop
  | configure {c : ProgramCache} {o planned : Operands} {k : Kernel}
      (h : (Kernel.configure c o).1 = .ok (k, planned)) : Configured k
  | setHint {k k' : Kernel} {hint? : Option LaunchRange} (configured : Configured k)
      (h : k.setHint hint? = .ok k') : Configured k'
  | tune {k k' : Kernel} {table table' : TuningTable} {found : Bool} (configured : Configured k)
      (h : k.tune table = .ok (found, k', table')) : Configured k'
  | run {k : Kernel} (pack : TensorPack) (w : Window) (q : Queue) (configured : Configured k) :
      Configured (k.run pack w q).2.1

theorem window_of_configure {c : ProgramCache} {o planned : Operands} {k : Kernel}
    (h : (Kernel.configure c o).1 = .ok (k, planned)) :
    ∃ g, k.configuration? = some g ∧ o.plan.1 = .ok g.window := by
  simp only [Kernel.configure] at h
  split at h
  next => exact absurd h (by simp)
  next options w prepared =>
    obtain ⟨_, -, prepared⟩ := Answer.bind_eq_ok_iff.1 prepared
    obtain ⟨_, -, prepared⟩ := Answer.bind_eq_ok_iff.1 prepared
    obtain ⟨_, hw, prepared⟩ := Answer.bind_eq_ok_iff.1 prepared
    obtain ⟨-, rfl⟩ := Prod.mk.inj (Except.ok.inj prepared)
    obtain ⟨_, -, h⟩ := Answer.bind_eq_ok_iff.1 h
    obtain ⟨_, -, h⟩ := Answer.bind_eq_ok_iff.1 h
    obtain ⟨rfl, -⟩ := Prod.mk.inj (Except.ok.inj h)
    exact ⟨_, rfl, hw⟩

theorem exists_window_run {k : Kernel} {c : Configuration} (hc : k.configuration? = some c)
    (pack : TensorPack) (w : Window) (q : Queue) :
    ∃ c', (k.run pack w q).2.1.configuration? = some c' ∧ c'.window = c.window := by
  simp only [run, configuration_eq_ok_iff.2 hc, Answer.ok_bind]
  split
  next => exact ⟨c, hc, rfl⟩
  next c' t ready =>
    split at ready
    next =>
      obtain ⟨_, -, same⟩ := Answer.map_eq_ok_iff.1 ready
      obtain ⟨rfl, -⟩ := Prod.mk.inj same
      exact ⟨_, rfl, rfl⟩
    next => exact absurd ready (by simp [throw, throwThe, MonadExceptOf.throw])

theorem Configured.exists_plan {k : Kernel} (h : k.Configured) :
    ∃ c o, k.configuration? = some c ∧ (Operands.plan o).1 = .ok c.window := by
  induction h with
  | configure h =>
    obtain ⟨c, hc, plan⟩ := window_of_configure h
    exact ⟨c, _, hc, plan⟩
  | setHint _ h ih =>
    obtain ⟨c, o, hc, plan⟩ := ih
    rw [Kernel.setHint, configuration_eq_ok_iff.2 hc] at h
    obtain rfl := Except.ok.inj h
    exact ⟨_, o, rfl, plan⟩
  | @tune k k' table table' found _ h ih =>
    obtain ⟨c, o, hc, plan⟩ := ih
    rw [Kernel.tune, configuration_eq_ok_iff.2 hc, Answer.ok_bind] at h
    split at h
    next =>
      obtain ⟨-, h⟩ := Prod.mk.inj (Except.ok.inj h)
      obtain ⟨rfl, -⟩ := Prod.mk.inj h
      exact ⟨_, o, rfl, plan⟩
    next =>
      obtain ⟨-, h⟩ := Prod.mk.inj (Except.ok.inj h)
      obtain ⟨rfl, -⟩ := Prod.mk.inj h
      exact ⟨c, o, hc, plan⟩
  | run pack w q _ ih =>
    obtain ⟨c, o, hc, plan⟩ := ih
    obtain ⟨c', hc', window⟩ := exists_window_run hc pack w q
    exact ⟨c', o, hc', window ▸ plan⟩

variable {k k' : Kernel} {w : Window} {pack : TensorPack} {q q' : Queue}

theorem Configured.step_of_isWithin (configured : k.Configured) {c : Configuration}
    (hc : k.configuration? = some c) (within : w.IsWithin c.window) (a : Axis) :
    (w.span a).step = if a = .x then (Operands.vectorWidth : Int) else 1 := by
  obtain ⟨c', o, hc', plan⟩ := configured.exists_plan
  obtain rfl := Option.some.inj (hc.symm.trans hc')
  rw [(within a).2.2.1, Operands.plan_step plan]

theorem Configured.step_eq (configured : k.Configured) (runs : k.run pack w q = (.ok (), k', q'))
    (a : Axis) : (w.span a).step = if a = .x then (Operands.vectorWidth : Int) else 1 := by
  obtain ⟨c, t, s, hc, within, -⟩ := run_eq_ok_iff.1 runs
  exact configured.step_of_isWithin hc within a

theorem Configured.exists_launches (configured : k.Configured)
    (runs : k.run pack w q = (.ok (), k', q')) (some : 0 < w.totalIterations) :
    ∃ ls, q'.pending = q.pending ++ ls ∧
      (workItems ls : Int) = (w.span .x).wholeSteps * ((w.span .y).iterations *
        ((w.span .z).iterations * ((w.span .batch).iterations * ((w.span .outer).iterations *
          (w.span .outermost).iterations)))) := by
  have step := configured.step_eq runs
  obtain ⟨c, t, s, -, -, -, submitted, rfl, rfl⟩ := run_eq_ok_iff.1 runs
  rw [Window.forSlices_eq] at submitted
  obtain ⟨ls, pending, count⟩ := Submission.submitSlices_eq_ok (fun slice hs =>
    congrArg _ (Window.ofWindow_of_mem_slices hs)) submitted
  refine ⟨ls, pending, ?_⟩
  rw [count, Window.slices_length_mul_count (fun a ha => (step a).trans (if_neg ha)) some]

/-- A run of a configured kernel submits a work item for every whole vector of its columns, in each
of its rows. These are all iterations of its window exactly if its columns end with a vector. -/
theorem run_submits_whole_vectors (configured : k.Configured) (some : 0 < w.totalIterations)
    (runs : k.run pack w q = (.ok (), k', q')) :
    ∃ ls, q'.pending = q.pending ++ ls ∧
      (workItems ls : Int) = ((w.span .x).stop - (w.span .x).start) / Operands.vectorWidth *
        ((w.span .y).iterations * ((w.span .z).iterations * ((w.span .batch).iterations *
          ((w.span .outer).iterations * (w.span .outermost).iterations)))) ∧
      ((workItems ls : Int) = w.totalIterations ↔
        (Operands.vectorWidth : Int) ∣ (w.span .x).stop - (w.span .x).start) := by
  have range := w.totalIterations_pos_iff.1 some
  have step : (w.span .x).step = (Operands.vectorWidth : Int) := configured.step_eq runs .x
  obtain ⟨ls, pending, count⟩ := configured.exists_launches runs some
  have others : 0 < (w.span .y).iterations * ((w.span .z).iterations *
      ((w.span .batch).iterations * ((w.span .outer).iterations * (w.span .outermost).iterations))) := by
    have pos (a : Axis) := (w.span a).iterations_pos_iff.2 (range a)
    exact Int.mul_pos (pos _) (Int.mul_pos (pos _) (Int.mul_pos (pos _) (Int.mul_pos (pos _) (pos _))))
  refine ⟨ls, pending, ?_, ?_⟩
  · rw [count, Span.wholeSteps_of_le (Int.le_of_lt (range .x)), step]
  · rw [count, Window.totalIterations_eq, Int.mul_one, Int.mul_eq_mul_right_iff (Int.ne_of_gt others),
      Span.wholeSteps_eq_iterations_iff (range .x), step]

theorem run_of_runAll_singleton (h : k.runAll pack [w] q = (.ok (), k', q')) :
    k.run pack w q = (.ok (), k', q') := by
  rw [runAll] at h
  split at h
  next run => rw [run]; exact h
  next => exact absurd (Prod.mk.inj h).1 (by simp)

theorem exists_run_small (part : w.IsPart Operands.small.plannedWindow)
    (fits : ∀ u ∈ [Operands.smallTensors.first, Operands.smallTensors.second,
      Operands.smallTensors.output], Cursor.Fits u w) :
    ∃ (k k' : Kernel) (q' : Queue), k.Configured ∧
      k.configuration?.map (·.window) = some Operands.small.plannedWindow ∧
      k.run Operands.smallPack w .empty = (.ok (), k', q') := by
  obtain ⟨k, configured, window, accepts⟩ := Operands.small_configured
  obtain ⟨k', q', runs⟩ := accepts [w] (List.forall_mem_singleton.2 ⟨part, fits⟩)
  exact ⟨k, k', q', .configure configured, window, run_of_runAll_singleton runs⟩

theorem run_small_submits_all :
    ∃ (k k' : Kernel) (q' : Queue), k.Configured ∧
      0 < Operands.small.plannedWindow.totalIterations ∧
      k.run Operands.smallPack Operands.small.plannedWindow .empty = (.ok (), k', q') ∧
      workItems q'.pending = 4 := by
  obtain ⟨k, k', q', configured, -, runs⟩ := exists_run_small (.refl _) (by decide)
  obtain ⟨ls, pending, count, -⟩ := run_submits_whole_vectors configured (by decide) runs
  have four : (workItems ls : Int) = 4 := by
    rw [count]
    decide
  refine ⟨k, k', q', configured, by decide, runs, ?_⟩
  rw [pending, Queue.empty, List.nil_append]
  exact Int.ofNat_inj.1 four

def betweenVectors : Window :=
  Operands.small.plannedWindow.set .x { Operands.small.plannedWindow.span .x with stop := 12 }

/-- An iteration begins between column 8 and column 12, but no work item is submitted for it. -/
theorem run_drops_last_vector :
    ∃ (k k' : Kernel) (q' : Queue), k.Configured ∧
      k.configuration?.map (·.window) = some Operands.small.plannedWindow ∧
      betweenVectors.IsWithin Operands.small.plannedWindow ∧ 0 < betweenVectors.totalIterations ∧
      k.run Operands.smallPack betweenVectors .empty = (.ok (), k', q') ∧
      (workItems q'.pending : Int) ≠ betweenVectors.totalIterations := by
  have part : betweenVectors.IsPart Operands.small.plannedWindow :=
    ⟨by decide, by decide, by decide, by decide⟩
  obtain ⟨k, k', q', configured, window, runs⟩ := exists_run_small part (by decide)
  obtain ⟨ls, pending, count⟩ := configured.exists_launches runs (by decide)
  refine ⟨k, k', q', configured, window, part.within, by decide, runs, ?_⟩
  rw [pending, Queue.empty, List.nil_append, count]
  decide

end Kernel
end TensorConcat
