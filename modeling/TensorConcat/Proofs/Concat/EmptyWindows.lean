import TensorConcat.Iteration.Split
import TensorConcat.Proofs.Concat.Outcome
import TensorConcat.Proofs.Concat.WorkItems

/-! Runs over windows with an empty range. On one of the four inner axes that means that there is
nothing to do. On one of the two outermost axes it does not: a slice is taken at its start all the
same, and the launch of that slice stores to planes that the window does not have. -/

namespace TensorConcat

theorem Span.wholeSteps_eq_zero_iff (s : Span) : s.wholeSteps = 0 ↔ s.stop - s.start < s.step := by
  have pos := s.step_pos
  have quotient := Int.ediv_nonneg (Int.le_max_right (s.stop - s.start) 0) (Int.le_of_lt pos)
  rw [wholeSteps, Int.toNat_eq_zero]
  constructor
  · intro none
    have less := (Int.ediv_lt_iff_lt_mul pos).1 (Int.lt_add_one_of_le none)
    omega
  · intro less
    exact Int.le_of_eq (Int.ediv_eq_zero_of_lt (Int.le_max_right ..) (by omega))

namespace Window

variable {w : Window}

def IsEmptyAt (w : Window) (a : Axis) : Prop :=
  (w.span a).stop ≤ (w.span a).start

instance (w : Window) (a : Axis) : Decidable (w.IsEmptyAt a) :=
  inferInstanceAs (Decidable (_ ≤ _))

/-- No whole vector along x, or no point on one of the three axes around it. -/
def HasNoWork (w : Window) : Prop :=
  (w.span .x).stop - (w.span .x).start < Operands.vectorWidth ∨ w.IsEmptyAt .y ∨ w.IsEmptyAt .z ∨
    w.IsEmptyAt .batch

instance (w : Window) : Decidable w.HasNoWork :=
  inferInstanceAs (Decidable (_ ∨ _))

theorem isEmpty_ofWindow_iff
    (step : ∀ a, (w.span a).step = if a = .x then (Operands.vectorWidth : Int) else 1) :
    (LaunchRange.ofWindow w).isEmpty = true ↔ w.HasNoWork := by
  have unit {a : Axis} (ha : a ≠ .x) : (w.span a).wholeSteps = 0 ↔ w.IsEmptyAt a := by
    rw [Span.wholeSteps_eq_zero_iff, step, if_neg ha, IsEmptyAt]
    omega
  have vector : (w.span .x).wholeSteps = 0 ↔
      (w.span .x).stop - (w.span .x).start < Operands.vectorWidth := by
    rw [Span.wholeSteps_eq_zero_iff, step, if_pos rfl]
  rw [LaunchRange.isEmpty_iff, LaunchRange.ofWindow, Nat.mul_eq_zero, vector, unit (by decide),
    unit (by decide), unit (by decide), HasNoWork]

theorem hasNoWork_of_isEmptyAt {a : Axis} (h : w.IsEmptyAt a) (ha : a ∈ Axis.inner) :
    w.HasNoWork := by
  simp only [Axis.inner, List.mem_cons, List.not_mem_nil, or_false] at ha
  rcases ha with rfl | rfl | rfl | rfl
  · refine Or.inl (Int.lt_of_le_of_lt (Int.sub_nonpos_of_le h) (by decide))
  · exact Or.inr (Or.inl h)
  · exact Or.inr (Or.inr (Or.inl h))
  · exact Or.inr (Or.inr (Or.inr h))

end Window

namespace Kernel

variable {k : Kernel} {c : Configuration} {w : Window}

/-- A run over a part of the configured window leaves the queue as it was exactly if it fails or has
no work on the inner axes. Any other run submits a launch for every point of the outermost axes, and
one for an axis that is empty. -/
theorem run_leaves_queue_iff (configured : k.Configured) (hc : k.configuration? = some c)
    (within : w.IsWithin c.window) (pack : TensorPack) (q : Queue) :
    ((k.run pack w q).2.2 = q ↔ (∃ e, (k.run pack w q).1 = .error e) ∨ w.HasNoWork) ∧
      ((k.run pack w q).2.2 ≠ q →
        (k.run pack w q).2.2.completed = q.completed ∧
        ∃ ls, (k.run pack w q).2.2.pending = q.pending ++ ls ∧
          ls.length = w.slicePoints .outermost * w.slicePoints .outer ∧ 0 < ls.length) := by
  have idle := Window.isEmpty_ofWindow_iff (configured.step_of_isWithin hc within)
  have outcome := run_outcome k pack w q
  generalize k.run pack w q = r at outcome
  cases outcome with
  | refused => exact ⟨⟨fun _ => Or.inl ⟨_, rfl⟩, fun _ => rfl⟩, fun h => absurd rfl h⟩
  | tooLarge => exact ⟨⟨fun _ => Or.inl ⟨_, rfl⟩, fun _ => rfl⟩, fun h => absurd rfl h⟩
  | @submitted _ _ _ ls _ _ _ _ _ launched =>
    have length := launched.length_eq fun slice hs => Window.ofWindow_of_mem_slices hs
    have some : 0 < w.slices.length := List.length_pos_iff.2 w.slices_ne_nil
    have none : ls = [] ↔ w.HasNoWork := by
      rw [← idle, ← List.length_eq_zero_iff, length]
      cases (LaunchRange.ofWindow w).isEmpty with
      | true => simp
      | false => simp [Nat.ne_of_gt some]
    refine ⟨?_, ?_⟩
    · simp [Queue.submitAll_eq_self_iff, none]
    · intro changed
      have work : ¬ w.HasNoWork := fun h => changed (Queue.submitAll_eq_self_iff.2 (none.2 h))
      rw [if_neg (mt idle.1 work), Nat.mul_one] at length
      exact ⟨rfl, ls, rfl, length.trans w.length_slices, length ▸ some⟩

theorem exists_configured_small :
    ∃ k c, Configured k ∧ k.configuration? = some c ∧ c.window = Operands.small.plannedWindow := by
  obtain ⟨k, configured, window, -⟩ := Operands.small_configured
  obtain ⟨c, hc, full⟩ := Option.map_eq_some_iff.1 window
  exact ⟨k, c, .configure configured, hc, full⟩

def noPlanes : Window :=
  Operands.small.plannedWindow.part .z 1 2

theorem run_over_noPlanes :
    ∃ (k k' : Kernel) (c : Configuration), k.Configured ∧ k.configuration? = some c ∧
      noPlanes.IsWithin c.window ∧ noPlanes.IsEmptyAt .z ∧
      k.run Operands.smallPack noPlanes .empty = (.ok (), k', .empty) := by
  obtain ⟨k, c, configured, hc, full⟩ := exists_configured_small
  have within : noPlanes.IsWithin c.window := full ▸ by decide
  obtain ⟨k', ls, runs, -⟩ := exists_run_of_fit hc within Operands.ofPack_small (by decide) .empty
  have empty : noPlanes.IsEmptyAt .z := by decide
  have idle := (run_leaves_queue_iff configured hc within Operands.smallPack .empty).1.2
    (Or.inr (Window.hasNoWork_of_isEmptyAt empty (by decide)))
  rw [runs] at idle
  refine ⟨k, k', c, configured, hc, within, empty, ?_⟩
  rw [runs]
  exact congrArg (fun q => (Except.ok (), k', q)) idle

def noPoints : Window :=
  Operands.small.plannedWindow.part .outer 1 2

/-- The window is an empty part, but a launch stores to all rows of the output. -/
theorem run_over_noPoints_launches :
    ∃ (k k' : Kernel) (c : Configuration) (l : Launch), k.Configured ∧
      k.configuration? = some c ∧ noPoints.IsWithin c.window ∧ noPoints.IsEmptyAt .outer ∧
      k.run Operands.smallPack noPoints .empty = (.ok (), k', ⟨[l], []⟩) ∧
      l.range = .ofWindow Operands.small.plannedWindow := by
  obtain ⟨k, c, configured, hc, full⟩ := exists_configured_small
  have within : noPoints.IsWithin c.window := full ▸ by decide
  obtain ⟨k', ls, runs, length, range⟩ := exists_run_of_fit hc within Operands.ofPack_small
    (by decide) .empty
  have one : ls.length = 1 := by
    rw [length, Window.length_slices]
    decide
  obtain ⟨l, rfl⟩ := List.length_eq_one_iff.1 one
  exact ⟨k, k', c, l, configured, hc, within, by decide, runs, range l (List.mem_singleton_self l)⟩

end Kernel
end TensorConcat
