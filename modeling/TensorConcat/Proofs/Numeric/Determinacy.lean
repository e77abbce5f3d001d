import TensorConcat.Proofs.Numeric.Arithmetic

/-! The specifications of single-precision arithmetic leave no choice: a result is determined up to the
sign of a zero and the bits of a non-number, and so is what is computed from it. -/

namespace TensorConcat
namespace Binary32

structure Alike (x y : Binary32) : Prop where
  isNaN : x.isNaN = y.isNaN
  value : x.isNaN = false → x.value = y.value

theorem exists_between_of_pos {x y : Binary32} (hy : y.isNaN = false) (pos : 0 < y.value)
    (lt : x.value < y.value) (evenX : x.pattern % 2 = 0) (evenY : y.pattern % 2 = 0) :
    ∃ z : Binary32, z.isNaN = false ∧ x.value < z.value ∧ z.value < y.value := by
  have mono := BinaryFormat.units_strictMono format
  have nonzero : y.pattern ≠ 0 := mt (value_eq_zero_iff y).2 pos.ne'
  have bound : y.pattern - 1 ≤ format.infinity := (Nat.sub_le ..).trans (pattern_le_of_not_isNaN hy)
  have top : y.value = format.units y.pattern / format.one := by
    rw [magnitude_eq_abs, abs_of_pos pos]
  have middle : (ofPattern false (y.pattern - 1)).value = format.units (y.pattern - 1) / format.one :=
    value_ofPattern false bound
  refine ⟨ofPattern false (y.pattern - 1), isNaN_ofPattern _ bound, ?_, ?_⟩
  · rcases le_or_gt x.value 0 with nonpos | positive
    · refine nonpos.trans_lt ?_
      rw [middle]
      exact div_pos (Nat.cast_pos.2 (Nat.pos_of_ne_zero (units_ne_zero (by omega)))) one_pos
    · have bottom : x.value = format.units x.pattern / format.one := by
        rw [magnitude_eq_abs, abs_of_pos positive]
      rw [bottom, top, div_lt_div_iff_of_pos_right one_pos, Nat.cast_lt, mono.lt_iff_lt] at lt
      rw [bottom, middle, div_lt_div_iff_of_pos_right one_pos, Nat.cast_lt, mono.lt_iff_lt]
      omega
  · rw [top, middle, div_lt_div_iff_of_pos_right one_pos, Nat.cast_lt, mono.lt_iff_lt]
    omega

theorem exists_between {x y : Binary32} (hx : x.isNaN = false) (hy : y.isNaN = false)
    (lt : x.value < y.value) (evenX : x.pattern % 2 = 0) (evenY : y.pattern % 2 = 0) :
    ∃ z : Binary32, z.isNaN = false ∧ x.value < z.value ∧ z.value < y.value := by
  rcases lt_or_ge 0 y.value with pos | nonpos
  · exact exists_between_of_pos hy pos lt evenX evenY
  · obtain ⟨z, number, low, high⟩ := exists_between_of_pos (x := y.neg) (y := x.neg)
      (by rw [isNaN_neg, hx]) (by rw [value_neg]; linarith) (by rw [value_neg, value_neg]; linarith)
      (by rw [pattern_neg, evenY]) (by rw [pattern_neg, evenX])
    rw [value_neg] at low high
    refine ⟨z.neg, by rw [isNaN_neg, number], ?_, ?_⟩ <;> rw [value_neg] <;> linarith

theorem Rounds.value_not_lt {x y : Binary32} {exact : ℚ} (hx : x.Rounds exact) (hy : y.Rounds exact) :
    ¬ x.value < y.value := by
  intro lt
  have tie : |x.value - exact| = |y.value - exact| :=
    le_antisymm (hx.nearest y hy.number) (hy.nearest x hx.number)
  -- The exact value is half-way, so that a number in between would be nearer.
  have half : x.value - exact = -(y.value - exact) :=
    (abs_eq_abs.1 tie).resolve_left fun e => lt.ne (sub_left_injective e)
  obtain ⟨z, number, low, high⟩ := exists_between hx.number hy.number lt
    ((hx.even y hy.number tie).resolve_left lt.ne') ((hy.even x hx.number tie.symm).resolve_left lt.ne)
  have nearer : |z.value - exact| < |y.value - exact| := by
    rw [abs_of_pos (by linarith : 0 < y.value - exact), abs_lt]
    constructor <;> linarith
  exact absurd (hy.nearest z number) (not_le.2 nearer)

theorem Rounds.value_eq {x y : Binary32} {exact : ℚ} (hx : x.Rounds exact) (hy : y.Rounds exact) :
    x.value = y.value :=
  le_antisymm (not_lt.1 (hy.value_not_lt hx)) (not_lt.1 (hx.value_not_lt hy))

theorem Rounds.alike {x y : Binary32} {exact : ℚ} (hx : x.Rounds exact) (hy : y.Rounds exact) :
    x.Alike y :=
  ⟨hx.number.trans hy.number.symm, fun _ => hx.value_eq hy⟩

theorem pattern_eq_of_value {x y : Binary32} (h : x.value = y.value) : x.pattern = y.pattern := by
  refine (BinaryFormat.units_strictMono format).injective (Nat.cast_inj (R := ℚ).1 ?_)
  rw [← div_left_inj' one_pos.ne', magnitude_eq_abs, magnitude_eq_abs, h]

theorem negative_eq_decide {x : Binary32} (h : x.value ≠ 0) : x.negative = decide (x.value < 0) := by
  have pos : (0 : ℚ) < format.units x.pattern / format.one := by
    rw [magnitude_eq_abs]
    exact abs_pos.2 h
  rw [value_eq_signed, decide_signed_neg x.negative pos]

namespace Alike

variable {x x' y z z' : Binary32}

theorem of_isNaN (hx : x.isNaN = true) (hy : y.isNaN = true) : x.Alike y :=
  ⟨hx.trans hy.symm, fun number => absurd (hx.symm.trans number) (by decide)⟩

theorem isInfinite (h : x.Alike x') : x.isInfinite = x'.isInfinite := by
  have nan := h.isNaN
  cases number : x.isNaN with
  | false => rw [Binary32.isInfinite, Binary32.isInfinite, pattern_eq_of_value (h.value number)]
  | true =>
    rw [number] at nan
    rcases x.kinds with ⟨-, i, -⟩ | ⟨n, -, -⟩ | ⟨n, -, -⟩
    · rcases x'.kinds with ⟨-, i', -⟩ | ⟨n, -, -⟩ | ⟨n, -, -⟩
      · rw [i, i']
      all_goals cases nan.trans n
    all_goals cases number.symm.trans n

theorem isFinite (h : x.Alike x') : x.isFinite = x'.isFinite := by
  rw [Bool.eq_iff_iff, isFinite_iff, isFinite_iff, h.isNaN, h.isInfinite]

theorem negative (h : x.Alike x') (number : x.isNaN = false) (nonzero : x.value ≠ 0) :
    x.negative = x'.negative := by
  rw [negative_eq_decide nonzero, negative_eq_decide (h.value number ▸ nonzero), h.value number]

theorem eq_of_isInfinite (h : x.Alike x') (number : x.isNaN = false) (nonzero : x.value ≠ 0)
    (hz : z.isInfinite = true) (hz' : z'.isInfinite = true)
    (sign : z.negative = true ↔ x.negative ≠ y.negative)
    (sign' : z'.negative = true ↔ x'.negative ≠ y.negative) : z = z' := by
  refine Binary32.eq_of_isInfinite hz hz' ?_
  rw [Bool.eq_iff_iff, sign, sign', h.negative number nonzero]

end Alike

theorem number_of_isInfinite {x : Binary32} (h : x.isInfinite = true) :
    x.isNaN = false ∧ x.value ≠ 0 := by
  refine ⟨?_, mt (value_eq_zero_iff x).1 (pattern_ne_zero_of_isInfinite h)⟩
  rw [isNaN, beq_iff_eq.1 h]
  decide

variable {x x' y y' z z' : Binary32}

theorem IsDifference.isSum (h : IsDifference x y z) : IsSum x y.neg z := by
  refine ⟨?_, fun number => ⟨(h.infinite number).1, fun hy => ?_⟩, fun hx hy => ?_⟩
  · rw [h.undefined, isNaN_neg, isInfinite_neg, negative_neg]
    simp
  · obtain ⟨hz, sign⟩ := (h.infinite number).2 ((isInfinite_neg y).symm.trans hy)
    refine eq_of_isInfinite hz hy ?_
    rw [negative_neg]
    exact Bool.eq_not.2 sign
  · rw [value_neg, ← sub_eq_add_neg]
    exact h.finite hx ((isFinite_neg y).symm.trans hy)

theorem IsSum.alike (h : IsSum x y z) (h' : IsSum x' y' z') (hx : x.Alike x') (hy : y.Alike y') :
    z.Alike z' := by
  cases nx : x.isNaN with
  | true => exact .of_isNaN (h.undefined.2 (.inl nx)) (h'.undefined.2 (.inl (hx.isNaN ▸ nx)))
  | false =>
  cases ny : y.isNaN with
  | true =>
    exact .of_isNaN (h.undefined.2 (.inr (.inl ny))) (h'.undefined.2 (.inr (.inl (hy.isNaN ▸ ny))))
  | false =>
    have same : z.isNaN = z'.isNaN := by
      rw [Bool.eq_iff_iff, h.undefined, h'.undefined, hx.isNaN, hy.isNaN, ← hx.isInfinite,
        ← hy.isInfinite]
      cases ix : x.isInfinite with
      | false => simp
      | true =>
        cases iy : y.isInfinite with
        | false => simp
        | true =>
          rw [hx.negative nx (number_of_isInfinite ix).2, hy.negative ny (number_of_isInfinite iy).2]
    refine ⟨same, fun defined => ?_⟩
    have defined' := same.symm.trans defined
    cases ix : x.isInfinite with
    | true =>
      rw [(h.infinite defined).1 ix, (h'.infinite defined').1 (hx.isInfinite ▸ ix), hx.value nx]
    | false =>
      cases iy : y.isInfinite with
      | true =>
        rw [(h.infinite defined).2 iy, (h'.infinite defined').2 (hy.isInfinite ▸ iy), hy.value ny]
      | false =>
        have fx := (isFinite_iff x).2 ⟨nx, ix⟩
        have fy := (isFinite_iff y).2 ⟨ny, iy⟩
        have rounds := h'.finite (hx.isFinite ▸ fx) (hy.isFinite ▸ fy)
        rw [← hx.value nx, ← hy.value ny] at rounds
        exact (h.finite fx fy).value_eq rounds

theorem Alike.neg (h : x.Alike x') : x.neg.Alike x'.neg :=
  ⟨by rw [isNaN_neg, isNaN_neg, h.isNaN], fun number => by
    rw [value_neg, value_neg, h.value ((isNaN_neg x).symm.trans number)]⟩

theorem IsDifference.alike (h : IsDifference x y z) (h' : IsDifference x' y' z') (hx : x.Alike x')
    (hy : y.Alike y') : z.Alike z' :=
  h.isSum.alike h'.isSum hx hy.neg

theorem IsProduct.alike (h : IsProduct x y z) (h' : IsProduct x' y z') (hx : x.Alike x') :
    z.Alike z' := by
  cases nx : x.isNaN with
  | true => exact .of_isNaN (h.undefined.2 (.inl nx)) (h'.undefined.2 (.inl (hx.isNaN ▸ nx)))
  | false =>
    have same : z.isNaN = z'.isNaN := by
      rw [Bool.eq_iff_iff, h.undefined, h'.undefined, hx.isNaN, hx.isInfinite, hx.value nx]
    refine ⟨same, fun defined => ?_⟩
    have defined' := same.symm.trans defined
    have ny : y.isNaN = false := Bool.eq_false_iff.2 fun ny =>
      Bool.eq_false_iff.1 defined (h.undefined.2 (.inr (.inl ny)))
    by_cases inf : x.isInfinite = true ∨ y.isInfinite = true
    · have nonzero : x.value ≠ 0 := fun zero => inf.elim (fun ix => (number_of_isInfinite ix).2 zero)
        fun iy => Bool.eq_false_iff.1 defined (h.undefined.2 (.inr (.inr (.inr ⟨zero, iy⟩))))
      rw [hx.eq_of_isInfinite nx nonzero (h.infinite defined inf)
        (h'.infinite defined' (hx.isInfinite ▸ inf)) (h.sign defined) (h'.sign defined')]
    · rw [not_or, Bool.not_eq_true, Bool.not_eq_true] at inf
      have fx := (isFinite_iff x).2 ⟨nx, inf.1⟩
      have fy := (isFinite_iff y).2 ⟨ny, inf.2⟩
      have rounds := h'.finite (hx.isFinite ▸ fx) fy
      rw [← hx.value nx] at rounds
      exact (h.finite fx fy).value_eq rounds

theorem IsQuotient.alike (h : IsQuotient x y z) (h' : IsQuotient x' y z') (hx : x.Alike x') :
    z.Alike z' := by
  cases nx : x.isNaN with
  | true => exact .of_isNaN (h.undefined.2 (.inl nx)) (h'.undefined.2 (.inl (hx.isNaN ▸ nx)))
  | false =>
    have same : z.isNaN = z'.isNaN := by
      rw [Bool.eq_iff_iff, h.undefined, h'.undefined, hx.isNaN, hx.isInfinite, hx.value nx]
    refine ⟨same, fun defined => ?_⟩
    have defined' := same.symm.trans defined
    have ny : y.isNaN = false := Bool.eq_false_iff.2 fun ny =>
      Bool.eq_false_iff.1 defined (h.undefined.2 (.inr (.inl ny)))
    by_cases inf : x.isInfinite = true ∨ y.value = 0
    · have nonzero : x.value ≠ 0 := fun zero => inf.elim (fun ix => (number_of_isInfinite ix).2 zero)
        fun zero' => Bool.eq_false_iff.1 defined (h.undefined.2 (.inr (.inr (.inr ⟨zero, zero'⟩))))
      rw [hx.eq_of_isInfinite nx nonzero (h.infinite defined inf)
        (h'.infinite defined' (hx.isInfinite ▸ inf)) (h.sign defined) (h'.sign defined')]
    · rw [not_or, Bool.not_eq_true] at inf
      have fx := (isFinite_iff x).2 ⟨nx, inf.1⟩
      have fx' : x'.isFinite = true := hx.isFinite ▸ fx
      cases iy : y.isInfinite with
      | true => rw [h.vanishing fx iy, h'.vanishing fx' iy]
      | false =>
        have fy := (isFinite_iff y).2 ⟨ny, iy⟩
        have rounds := h'.finite fx' fy inf.2
        rw [← hx.value nx] at rounds
        exact (h.finite fx fy inf.2).value_eq rounds

end Binary32
end TensorConcat
