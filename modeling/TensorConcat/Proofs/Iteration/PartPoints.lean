import TensorConcat.Proofs.Iteration.Parts
import TensorConcat.Proofs.Iteration.Points

/-! The points of the parts of a range: dealt out to parts, the points of a range come back in their
order. A part lies in the range if the points before it do not end behind the range. -/

namespace TensorConcat
namespace Span

variable {s : Span}

theorem IsWithin.refl (s : Span) : s.IsWithin s :=
  ⟨Int.le_refl _, Int.le_refl _, rfl, by rw [Int.sub_self, Int.zero_emod]⟩

theorem IsWithin.trans {r t : Span} (h : r.IsWithin s) (h' : s.IsWithin t) : r.IsWithin t := by
  obtain ⟨start, stop, step, grid⟩ := h
  obtain ⟨start', stop', step', grid'⟩ := h'
  refine ⟨Int.le_trans start' start, Int.le_trans stop stop', step.trans step', ?_⟩
  rw [← step] at grid'
  have sum : r.start - t.start = r.start - s.start + (s.start - t.start) := by omega
  rw [sum]
  exact Int.emod_eq_zero_of_dvd
    (Int.dvd_add (Int.dvd_of_emod_eq_zero grid) (Int.dvd_of_emod_eq_zero grid'))

theorem step_part (s : Span) (i count : Nat) : (s.part i count).step = s.step :=
  rfl

/-- The points of the range can be dealt out to so many parts: signed 64-bit numbers hold both
counts, or the number of parts is the first that they do not hold. -/
structure Deals (s : Span) (count : Nat) : Prop where
  small : s.pointCount < 0x8000000000000000
  positive : 0 < count
  parts : count ≤ 0x8000000000000000

namespace Deals

variable {count i j : Nat}

section Part

variable (h : s.Deals count) (hi : i < count)
include h hi

theorem start_part :
    (s.part i count).start = s.start + pointsBefore s.pointCount count i * s.step :=
  (part_eq s.pointCount_eq h.small h.positive h.parts hi).1

theorem stop_part :
    (s.part i count).stop =
      max (min s.stop (s.start + pointsBefore s.pointCount count (i + 1) * s.step))
        (s.start + pointsBefore s.pointCount count i * s.step) :=
  (part_eq s.pointCount_eq h.small h.positive h.parts hi).2

theorem pointsBefore_succ_le : pointsBefore s.pointCount count (i + 1) ≤ s.pointCount :=
  pointsBefore_le hi h.positive

theorem pointCount_part :
    pointsBefore s.pointCount count i + (s.part i count).pointCount =
      pointsBefore s.pointCount count (i + 1) := by
  have inside := h.pointsBefore_succ_le hi
  have grow : pointsBefore s.pointCount count i ≤ pointsBefore s.pointCount count (i + 1) :=
    pointsBefore_mono (Nat.le_succ i)
  -- Point `n` of the part is so many points behind those that are dealt before it.
  have has (n : Nat) : n < (s.part i count).pointCount ↔
      pointsBefore s.pointCount count i + n < pointsBefore s.pointCount count (i + 1) := by
    have before := s.lt_pointCount_iff (pointsBefore s.pointCount count i + n)
    have dealt := s.steps_lt_iff (pointsBefore s.pointCount count i + n)
      (pointsBefore s.pointCount count (i + 1))
    have front := Int.mul_nonneg (Int.natCast_nonneg n) (Int.le_of_lt s.step_pos)
    rw [Int.natCast_add, Int.add_mul] at before dealt
    rw [lt_pointCount_iff, h.start_part hi, h.stop_part hi, step_part]
    omega
  have first := has (s.part i count).pointCount
  have last := has (pointsBefore s.pointCount count (i + 1) - pointsBefore s.pointCount count i)
  omega

theorem isWithin_part_iff :
    (s.part i count).IsWithin s ↔
      s.start + pointsBefore s.pointCount count i * s.step ≤ s.stop := by
  have front := Int.mul_nonneg (Int.natCast_nonneg (pointsBefore s.pointCount count i))
    (Int.le_of_lt s.step_pos)
  have grid : (s.start + pointsBefore s.pointCount count i * s.step - s.start) % s.step = 0 := by
    rw [Int.add_comm, Int.add_sub_cancel, Int.mul_emod_left]
  rw [IsWithin, h.start_part hi, h.stop_part hi, step_part]
  refine ⟨fun within => ?_, fun inside => ⟨?_, ?_, rfl, grid⟩⟩
  · have := within.2.1
    omega
  · omega
  · omega

theorem start_le_stop : (s.part i count).start ≤ (s.part i count).stop := by
  rw [h.start_part hi, h.stop_part hi]
  exact Int.le_max_right _ _

end Part

variable (h : s.Deals count)
include h

theorem points_parts : (List.range count).flatMap (fun i => (s.part i count).points) = s.points := by
  -- By induction on the number of parts: their points are the ones before the next part.
  have first (k : Nat) (hk : k ≤ count) :
      (List.range k).flatMap (fun i => (s.part i count).points) =
        (List.range (pointsBefore s.pointCount count k)).map fun (n : Nat) =>
          s.start + n * s.step := by
    induction k with
    | zero => simp [pointsBefore]
    | succ k ih =>
      rw [List.range_succ, List.flatMap_append, ih (Nat.le_of_lt hk), List.flatMap_singleton,
        ← h.pointCount_part hk, List.range_add, List.map_append, List.map_map, points,
        h.start_part hk]
      refine congrArg _ (List.map_congr_left fun n _ => ?_)
      rw [Function.comp_apply, Int.natCast_add, Int.add_mul, Int.add_assoc]
      rfl
  rw [first count (Nat.le_refl _), pointsBefore_all h.positive, points]

theorem has_iff_exists_part (p : Int) : s.Has p ↔ ∃ i < count, (s.part i count).Has p := by
  rw [← mem_points_iff, ← h.points_parts]
  simp only [List.mem_flatMap, List.mem_range, mem_points_iff]

theorem pointCount_part_le (hi : i < count) (hj : j < count) :
    (s.part i count).pointCount ≤ (s.part j count).pointCount + 1 := by
  have first := h.pointCount_part hi
  have second := h.pointCount_part hj
  rw [pointsBefore_succ] at first second
  split at first <;> split at second <;> omega

end Deals

section Whole

variable {count i j : Nat} (whole : s.IsWhole) (h : s.Deals count)
include whole h

theorem IsWhole.stop_part (hi : i < count) :
    (s.part i count).stop = s.start + pointsBefore s.pointCount count (i + 1) * s.step := by
  have inside := (s.steps_le_iff _ _).2 (h.pointsBefore_succ_le hi)
  rw [h.stop_part hi, whole.stop_eq, Int.min_eq_right inside, Int.max_eq_left]
  exact (s.steps_le_iff _ _).2 (pointsBefore_mono (Nat.le_succ i))

theorem IsWhole.part (hi : i < count) : (s.part i count).IsWhole := by
  refine ⟨(s.part i count).pointCount, ?_⟩
  rw [whole.stop_part h hi, ← h.pointCount_part hi, h.start_part hi, step_part, Int.natCast_add,
    Int.add_mul, Int.add_assoc]

theorem IsWhole.fits_part (fits : s.Fits) (hi : i < count) : (s.part i count).Fits := by
  obtain ⟨⟨low, -⟩, ⟨-, high⟩, step, sum⟩ := fits
  have first : s.start ≤ (s.part i count).start := by
    rw [h.start_part hi]
    exact Int.le_add_of_nonneg_right
      (Int.mul_nonneg (Int.natCast_nonneg _) (Int.le_of_lt s.step_pos))
  have last : (s.part i count).stop ≤ s.stop := by
    rw [whole.stop_part h hi, whole.stop_eq, steps_le_iff]
    exact h.pointsBefore_succ_le hi
  have forward := h.start_le_stop hi
  refine ⟨⟨by omega, by omega⟩, ⟨by omega, by omega⟩, step, fun some => ?_⟩
  have pos := s.step_pos
  have total := (sum (by omega)).2
  rw [step_part]
  exact ⟨by omega, by omega⟩

theorem IsWhole.part_isWithin (hi : i < count) : (s.part i count).IsWithin s := by
  rw [h.isWithin_part_iff hi, whole.stop_eq, steps_le_iff]
  exact pointsBefore_le (Nat.le_of_lt hi) h.positive

theorem IsWhole.stop_part_le (hj : j < count) (hij : i < j) :
    (s.part i count).stop ≤ (s.part j count).start := by
  rw [whole.stop_part h (Nat.lt_trans hij hj), h.start_part hj, steps_le_iff]
  exact pointsBefore_mono hij

end Whole

end Span
end TensorConcat
