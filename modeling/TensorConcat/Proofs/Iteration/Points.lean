import TensorConcat.Iteration.Window

/-! The points of a window: where they are if the range is a whole number of steps, how many they are,
and when there are any. -/

namespace TensorConcat

theorem stepsOver_le_iff {distance step n : Int} (h : 0 < step) :
    stepsOver distance step ≤ n ↔ distance ≤ n * step := by
  rw [stepsOver, ← Int.lt_add_one_iff, Int.ediv_lt_iff_lt_mul h, Int.add_mul, Int.one_mul]
  omega

theorem stepsOver_pos {distance step : Int} (h : 0 < step) (hd : 0 < distance) :
    0 < stepsOver distance step := by
  refine Int.not_le.1 fun hle => ?_
  rw [stepsOver_le_iff h, Int.zero_mul] at hle
  omega

def IsSigned64 (n : Int) : Prop :=
  -0x8000000000000000 ≤ n ∧ n < 0x8000000000000000

instance : DecidablePred IsSigned64 :=
  fun _ => inferInstanceAs (Decidable (_ ∧ _))

namespace Span

/-- Signed numbers of 64 bits hold the bounds of a range, its step, and the sum from which its
iterations are counted. -/
structure Fits (s : Span) : Prop where
  start : IsSigned64 s.start
  stop : IsSigned64 s.stop
  step : IsSigned64 s.step
  sum : s.start < s.stop → IsSigned64 (s.stop - s.start + s.step)

instance (s : Span) : Decidable s.Fits :=
  decidable_of_iff (IsSigned64 s.start ∧ IsSigned64 s.stop ∧ IsSigned64 s.step ∧
      (s.start < s.stop → IsSigned64 (s.stop - s.start + s.step)))
    ⟨fun ⟨start, stop, step, sum⟩ => ⟨start, stop, step, sum⟩,
      fun ⟨start, stop, step, sum⟩ => ⟨start, stop, step, sum⟩⟩

/-- A point of the range is some steps behind its start and before its end. -/
def Has (s : Span) (p : Int) : Prop :=
  ∃ i : Nat, p = s.start + i * s.step ∧ p < s.stop

def IsWhole (s : Span) : Prop :=
  ∃ n : Nat, s.stop = s.start + n * s.step

variable {s : Span} {p : Int} {n : Nat}

theorem steps_lt_iff (s : Span) (i j : Nat) :
    s.start + i * s.step < s.start + j * s.step ↔ i < j := by
  rw [Int.add_lt_add_iff_left, Int.mul_lt_mul_right s.step_pos, Int.ofNat_lt]

theorem steps_le_iff (s : Span) (i j : Nat) :
    s.start + i * s.step ≤ s.start + j * s.step ↔ i ≤ j := by
  rw [← Int.not_lt, steps_lt_iff, Nat.not_lt]

theorem has_iff_of_stop (h : s.stop = s.start + n * s.step) :
    s.Has p ↔ ∃ i < n, p = s.start + i * s.step := by
  constructor
  · rintro ⟨i, rfl, before⟩
    rw [h, steps_lt_iff] at before
    exact ⟨i, before, rfl⟩
  · rintro ⟨i, before, rfl⟩
    exact ⟨i, rfl, by rwa [h, steps_lt_iff]⟩

theorem Has.start_le (h : s.Has p) : s.start ≤ p := by
  obtain ⟨i, rfl, -⟩ := h
  have := Int.mul_nonneg (Int.natCast_nonneg i) (Int.le_of_lt s.step_pos)
  omega

theorem Has.le_last (h : s.Has p) (whole : s.IsWhole) : p ≤ s.stop - s.step := by
  obtain ⟨n, hn⟩ := whole
  obtain ⟨i, before, rfl⟩ := (has_iff_of_stop hn).1 h
  have room : ((i + 1 : Nat) : Int) * s.step ≤ n * s.step :=
    Int.mul_le_mul_of_nonneg_right (Int.ofNat_le.2 before) (Int.le_of_lt s.step_pos)
  rw [Int.natCast_add, Int.natCast_one, Int.add_mul, Int.one_mul] at room
  omega

theorem has_iff_dvd (s : Span) (p : Int) :
    s.Has p ↔ s.start ≤ p ∧ p < s.stop ∧ s.step ∣ p - s.start := by
  constructor
  · intro h
    have after := h.start_le
    obtain ⟨i, rfl, before⟩ := h
    exact ⟨after, before, i, by rw [Int.mul_comm]; omega⟩
  · rintro ⟨after, before, i, hi⟩
    have front : 0 ≤ i := Int.nonneg_of_mul_nonneg_right (by omega) s.step_pos
    obtain ⟨n, rfl⟩ := Int.eq_ofNat_of_zero_le front
    exact ⟨n, by rw [Int.mul_comm, ← hi]; omega, before⟩

instance (s : Span) (p : Int) : Decidable (s.Has p) :=
  decidable_of_iff _ (s.has_iff_dvd p).symm

theorem has_start (h : s.start < s.stop) : s.Has s.start :=
  ⟨0, by simp, h⟩

theorem has_last (h : s.Has p) (whole : s.IsWhole) : s.Has (s.stop - s.step) := by
  obtain ⟨n, hn⟩ := whole
  obtain ⟨i, before, rfl⟩ := (has_iff_of_stop hn).1 h
  refine (has_iff_of_stop hn).2 ⟨n - 1, by omega, ?_⟩
  rw [hn, Int.natCast_sub (by omega), Int.sub_mul, Int.natCast_one, Int.one_mul]
  omega

theorem exists_has_iff (s : Span) : (∃ p, s.Has p) ↔ s.start < s.stop := by
  constructor
  · rintro ⟨p, h⟩
    obtain ⟨i, hp, before⟩ := h
    exact Int.lt_of_le_of_lt (Has.start_le ⟨i, hp, before⟩) before
  · intro h
    exact ⟨_, has_start h⟩

theorem iterations_nonneg (s : Span) : 0 ≤ s.iterations := by
  unfold iterations
  split
  · exact Int.le_refl 0
  · exact Int.le_of_lt (stepsOver_pos s.step_pos (by omega))

theorem iterations_pos_iff (s : Span) : 0 < s.iterations ↔ s.start < s.stop := by
  unfold iterations
  split
  next h => exact ⟨fun e => absurd e (Int.lt_irrefl 0), fun e => absurd h (Int.not_le.2 e)⟩
  next h => exact ⟨fun _ => Int.not_le.1 h, fun _ => stepsOver_pos s.step_pos (by omega)⟩

theorem lt_iterations_iff (s : Span) (n : Nat) :
    (n : Int) < s.iterations ↔ s.start + n * s.step < s.stop := by
  have front := Int.mul_nonneg (Int.natCast_nonneg n) (Int.le_of_lt s.step_pos)
  unfold iterations
  split
  next none => exact ⟨fun h => absurd h (by omega), fun h => absurd h (by omega)⟩
  next some =>
    rw [← Int.not_le, stepsOver_le_iff s.step_pos]
    omega

def pointCount (s : Span) : Nat :=
  s.iterations.toNat

theorem pointCount_eq (s : Span) : s.iterations = s.pointCount :=
  (Int.toNat_of_nonneg s.iterations_nonneg).symm

theorem lt_pointCount_iff (s : Span) (n : Nat) :
    n < s.pointCount ↔ s.start + n * s.step < s.stop := by
  rw [← lt_iterations_iff, pointCount_eq, Int.ofNat_lt]

theorem Fits.pointCount_lt (h : s.Fits) : s.pointCount < 0x8000000000000000 := by
  apply Nat.lt_of_not_le
  intro large
  have last := (s.lt_pointCount_iff 0x7fffffffffffffff).1 large
  have pos := s.step_pos
  have sum := (h.sum (by omega)).2
  omega

theorem pointCount_of_stop (h : s.stop = s.start + n * s.step) : s.pointCount = n := by
  have below (i : Nat) : i < s.pointCount ↔ i < n := by
    rw [lt_pointCount_iff, h, steps_lt_iff]
  have first := below n
  have last := below s.pointCount
  omega

theorem IsWhole.stop_eq (h : s.IsWhole) : s.stop = s.start + s.pointCount * s.step := by
  obtain ⟨n, hn⟩ := h
  rw [pointCount_of_stop hn, hn]

def points (s : Span) : List Int :=
  (List.range s.pointCount).map fun (n : Nat) => s.start + n * s.step

theorem mem_points_iff {p : Int} : p ∈ s.points ↔ s.Has p := by
  simp only [points, List.mem_map, List.mem_range, lt_pointCount_iff, Has]
  constructor
  · rintro ⟨n, before, rfl⟩
    exact ⟨n, rfl, before⟩
  · rintro ⟨n, rfl, before⟩
    exact ⟨n, before, rfl⟩

theorem wholeSteps_of_le (h : s.start ≤ s.stop) :
    (s.wholeSteps : Int) = (s.stop - s.start) / s.step := by
  rw [wholeSteps, Int.max_eq_left (by omega), Int.toNat_of_nonneg]
  exact Int.ediv_nonneg (by omega) (Int.le_of_lt s.step_pos)

theorem wholeSteps_of_step_eq_one (h : s.step = 1) : s.wholeSteps = (s.stop - s.start).toNat := by
  rw [wholeSteps, h, Int.ediv_one]
  omega

theorem wholeSteps_between (start : Int) (count : Nat) :
    (between start (start + count)).wholeSteps = count := by
  rw [wholeSteps_of_step_eq_one rfl]
  simp only [between]
  omega

theorem wholeSteps_eq_iterations_iff (h : s.start < s.stop) :
    (s.wholeSteps : Int) = s.iterations ↔ s.step ∣ s.stop - s.start := by
  rw [wholeSteps_of_le (Int.le_of_lt h), iterations, if_neg (Int.not_le.2 h)]
  have below : (s.stop - s.start) / s.step * s.step ≤ s.stop - s.start :=
    Int.ediv_mul_le _ (Int.ne_of_gt s.step_pos)
  constructor
  · intro same
    have above := (stepsOver_le_iff s.step_pos).1 (Int.le_of_eq same.symm)
    exact ⟨_, by rw [Int.mul_comm]; exact Int.le_antisymm above below⟩
  · intro divides
    apply Int.le_antisymm
    · exact Int.ediv_le_ediv s.step_pos (by have := s.step_pos; omega)
    · exact (stepsOver_le_iff s.step_pos).2 (Int.le_of_eq (Int.ediv_mul_cancel divides).symm)

end Span

namespace Window

def Has (w : Window) (p : Axis → Int) : Prop :=
  ∀ a, (w.span a).Has (p a)

instance (w : Window) (p : Axis → Int) : Decidable (w.Has p) :=
  Nat.decidableForallFin _

variable {w : Window}

theorem foldr_mul_pos_iff {factors : List Int} (h : ∀ n ∈ factors, 0 ≤ n) :
    0 < factors.foldr (· * ·) 1 ↔ ∀ n ∈ factors, 0 < n := by
  induction factors with
  | nil => simp
  | cons n rest ih =>
    rw [List.forall_mem_cons] at h
    rw [List.foldr_cons, List.forall_mem_cons, ← ih h.2]
    constructor
    · intro pos
      have hn : 0 < n := by
        refine Int.lt_iff_le_and_ne.2 ⟨h.1, fun e => ?_⟩
        rw [← e, Int.zero_mul] at pos
        exact Int.lt_irrefl 0 pos
      exact ⟨hn, Int.pos_of_mul_pos_right pos hn⟩
    · rintro ⟨hn, hr⟩
      exact Int.mul_pos hn hr

theorem totalIterations_pos_iff (w : Window) :
    0 < w.totalIterations ↔ ∀ a, (w.span a).start < (w.span a).stop := by
  rw [totalIterations, foldr_mul_pos_iff]
  · simp only [iterations, List.forall_mem_map, List.mem_finRange, true_implies,
      Span.iterations_pos_iff]
  · simp only [iterations, List.forall_mem_map, Span.iterations_nonneg, implies_true]

theorem totalIterations_pos_iff_exists (w : Window) : 0 < w.totalIterations ↔ ∃ p, w.Has p := by
  rw [totalIterations_pos_iff]
  constructor
  · intro h
    exact ⟨fun a => (w.span a).start, fun a => Span.has_start (h a)⟩
  · rintro ⟨p, h⟩ a
    exact (Span.exists_has_iff _).1 ⟨p a, h a⟩

end Window
end TensorConcat
