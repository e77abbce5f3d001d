import TensorConcat.Iteration.Split

/-! Dealing the points of a range out to parts: the parts follow one another without gaps. The parts of
a window differ from it along one axis only. -/

namespace TensorConcat

/-- The number of points in front of a part, if they are dealt out to `count` parts. -/
def pointsBefore (points count index : Nat) : Nat :=
  points / count * index + min index (points % count)

section Points

variable {points count i j chunk : Nat}

theorem pointsBefore_succ (points count i : Nat) :
    pointsBefore points count (i + 1) =
      pointsBefore points count i + (points / count + if i < points % count then 1 else 0) := by
  unfold pointsBefore
  rw [Nat.mul_succ]
  split <;> omega

theorem pointsBefore_all (h : 0 < count) : pointsBefore points count count = points := by
  have below := Nat.mod_lt points h
  rw [pointsBefore, Nat.min_eq_right (Nat.le_of_lt below), Nat.div_add_mod']

theorem pointsBefore_mono (h : i ≤ j) :
    pointsBefore points count i ≤ pointsBefore points count j := by
  induction j with
  | zero =>
    obtain rfl := Nat.le_zero.1 h
    exact Nat.le_refl _
  | succ j ih =>
    rcases Nat.lt_or_eq_of_le h with lt | rfl
    · rw [pointsBefore_succ]
      exact Nat.le_trans (ih (Nat.le_of_lt_succ lt)) (Nat.le_add_right _ _)
    · exact Nat.le_refl _

theorem pointsBefore_le (h : i ≤ count) (hc : 0 < count) : pointsBefore points count i ≤ points := by
  exact Nat.le_trans (pointsBefore_mono h) (Nat.le_of_eq (pointsBefore_all hc))

theorem countP_pointsBefore (points count chunk parts : Nat) :
    ((List.range parts).countP fun i =>
      pointsBefore points count i ≤ chunk ∧ chunk < pointsBefore points count (i + 1)) =
        if chunk < pointsBefore points count parts then 1 else 0 := by
  induction parts with
  | zero => simp [pointsBefore]
  | succ parts ih =>
    -- A point behind the parts so far can only be a point of the next one.
    have grow : pointsBefore points count parts ≤ pointsBefore points count (parts + 1) :=
      pointsBefore_mono (Nat.le_succ parts)
    rw [List.range_succ, List.countP_append, ih, List.countP_singleton]
    simp only [decide_eq_true_eq]
    by_cases before : chunk < pointsBefore points count parts
    · rw [if_pos before, if_neg fun h => Nat.not_le_of_lt before h.1,
        if_pos (Nat.lt_of_lt_of_le before grow)]
    · rw [if_neg before, Nat.zero_add]
      by_cases here : chunk < pointsBefore points count (parts + 1)
      · rw [if_pos ⟨Nat.le_of_not_lt before, here⟩, if_pos here]
      · rw [if_neg fun h => here h.2, if_neg here]

theorem exists_part (h : chunk < points) (hc : 0 < count) :
    ∃ i < count, pointsBefore points count i ≤ chunk ∧ chunk < pointsBefore points count (i + 1) := by
  have one := countP_pointsBefore points count chunk count
  rw [pointsBefore_all hc, if_pos h] at one
  obtain ⟨i, hi, part⟩ := List.countP_pos_iff.1 (Nat.lt_of_lt_of_eq Nat.zero_lt_one one.symm)
  exact ⟨i, List.mem_range.1 hi, of_decide_eq_true part⟩

theorem part_unique (hi : pointsBefore points count i ≤ chunk)
    (hi' : chunk < pointsBefore points count (i + 1)) (hj : pointsBefore points count j ≤ chunk)
    (hj' : chunk < pointsBefore points count (j + 1)) : i = j := by
  rcases Nat.lt_trichotomy i j with lt | rfl | lt
  · exact absurd (Nat.le_trans (pointsBefore_mono lt) hj) (Nat.not_le_of_lt hi')
  · rfl
  · exact absurd (Nat.le_trans (pointsBefore_mono lt) hi) (Nat.not_le_of_lt hj')

end Points

theorem bmod_of_half_le {n m unit : Nat} (hm : 0 < m) (h : n + m = unit) (h' : m ≤ n) :
    (n : Int).bmod unit = -m := by
  rw [Int.bmod_eq_emod, Int.emod_eq_of_lt (by omega) (by omega), if_pos (by omega)]
  omega

theorem signed64_of_add {n m : Nat} (h : n + m = 0x10000000000000000) (hm : 0 < m)
    (h' : 0x8000000000000000 ≤ n) : signed64 n = -m := by
  have half : m ≤ n := by omega
  exact bmod_of_half_le hm h half

namespace Span

variable {s : Span} {points count : Nat}

theorem part_eq (hs : s.iterations = points) (hp : points < 0x8000000000000000) (hc : 0 < count)
    (hc' : count ≤ 0x8000000000000000) {i : Nat} (hi : i < count) :
    (s.part i count).start = s.start + pointsBefore points count i * s.step ∧
      (s.part i count).stop = max (min s.stop (s.start + pointsBefore points count (i + 1) * s.step))
        (s.start + pointsBefore points count i * s.step) := by
  have index : signed64 i = i := signed64_of_lt (by omega)
  -- The largest number of parts is read as a negative number, which changes neither the quotient,
  -- zero, nor the remainder.
  have deal : (points : Int).tdiv (signed64 count) = (points / count : Nat) ∧
      (points : Int).tmod (signed64 count) = (points % count : Nat) := by
    rcases Nat.lt_or_eq_of_le hc' with lt | eq
    · rw [signed64_of_lt lt, Int.ofNat_tdiv, Int.ofNat_tmod]
      exact ⟨rfl, rfl⟩
    · have twice : count + count = 0x10000000000000000 := by omega
      have none : points / count = 0 := Nat.div_eq_of_lt (by omega)
      rw [signed64_of_add twice hc (Nat.le_of_eq eq.symm), Int.tdiv_neg, Int.tmod_neg, ← Int.ofNat_tdiv,
        ← Int.ofNat_tmod, none]
      exact ⟨Int.neg_zero, rfl⟩
  have start : (points / count : Nat) * (i : Int) +
      (if (i : Int) < (points % count : Nat) then (i : Int) else (points % count : Nat)) =
        pointsBefore points count i := by
    unfold pointsBefore
    rw [Int.natCast_add, Int.natCast_mul]
    split <;> omega
  have next : (pointsBefore points count i : Int) +
      (if (i : Int) < (points % count : Nat) then ((points / count : Nat) : Int) + 1
        else (points / count : Nat)) = pointsBefore points count (i + 1) := by
    rw [pointsBefore_succ]
    by_cases more : i < points % count
    · rw [if_pos more, if_pos (by omega)]
      omega
    · rw [if_neg more, if_neg (by omega)]
      omega
  simp only [part, hs, index, deal.1, deal.2, start, Int.add_assoc, ← Int.add_mul, next, and_self]

theorem exists_part_start_lt (hs : s.iterations = points) (hc : 0x8000000000000000 < count)
    (hc' : count < 0x10000000000000000) :
    ∃ i < count, (s.part i count).start < s.start := by
  have back (first : Int) (h : first < 0) : s.start + first * s.step < s.start := by
    have := Int.mul_neg_of_neg_of_pos h s.step_pos
    omega
  obtain ⟨c, hsum⟩ := Nat.exists_eq_add_of_lt hc'
  have parts : signed64 count = -((c + 1 : Nat) : Int) :=
    signed64_of_add hsum.symm (Nat.succ_pos c) (Nat.le_of_lt hc)
  have each : (points : Int).tdiv (signed64 count) = -((points / (c + 1) : Nat) : Int) := by
    rw [parts, Int.tdiv_neg, ← Int.ofNat_tdiv]
  have rest : (points : Int).tmod (signed64 count) = (points % (c + 1) : Nat) := by
    rw [parts, Int.tmod_neg, ← Int.ofNat_tmod]
  by_cases few : points < c + 1
  · -- No part has points of its own, and the index itself is read as a negative number.
    obtain ⟨i, hi⟩ : ∃ i : Nat, i = 0x8000000000000000 := ⟨_, rfl⟩
    have index : signed64 i = -i := signed64_of_add (by omega) (by omega) (by omega)
    have none : points / (c + 1) = 0 := Nat.div_eq_of_lt few
    refine ⟨i, by omega, ?_⟩
    simp only [part, hs, each, rest, none, index]
    apply back
    rw [if_pos (by omega), Int.natCast_zero, Int.neg_zero, Int.zero_mul]
    omega
  · -- Every part is moved back by the points of all parts before it.
    have below := Nat.mod_lt points (Nat.succ_pos c)
    generalize points % (c + 1) = r at rest below
    have index : signed64 (r + 1) = (r + 1 : Nat) := signed64_of_lt (by omega)
    have some : 1 ≤ points / (c + 1) := Nat.div_pos (Nat.le_of_not_lt few) (Nat.succ_pos c)
    generalize points / (c + 1) = q at each some
    have moved : r + 1 ≤ q * (r + 1) := Nat.le_mul_of_pos_left _ some
    refine ⟨r + 1, by omega, ?_⟩
    simp only [part, hs, each, rest, index]
    apply back
    rw [if_neg (by omega), Int.neg_mul, ← Int.natCast_mul]
    omega

end Span

namespace Window

variable {a b : Axis}

theorem span_part (w : Window) (a : Axis) (i count : Nat) (b : Axis) :
    (w.part a i count).span b = if b = a then (w.span a).part i count else w.span b := by
  rw [part, span_set]

theorem part_span_self (w : Window) (a : Axis) (i count : Nat) :
    (w.part a i count).span a = (w.span a).part i count := by
  rw [span_part, if_pos rfl]

theorem part_span_ne (w : Window) (i count : Nat) (h : b ≠ a) :
    (w.part a i count).span b = w.span b := by
  rw [span_part, if_neg h]

end Window
end TensorConcat
