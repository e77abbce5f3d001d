import Mathlib.Algebra.Order.Field.Rat
import Mathlib.Algebra.Order.Field.Basic
import Mathlib.Tactic.Linarith
import Mathlib.Tactic.Ring
import Mathlib.Tactic.SplitIfs
import TensorConcat.Proofs.Numeric.Nearest

/-! Arithmetic in single precision: each operation gives its exact result, rounded once. The results
are specified by their values, so that nothing is assumed of how they are computed. -/

namespace TensorConcat
namespace Binary32

/-- The value of a finite number. An infinity stands for the first power of two that no finite number
reaches, so that overflow is rounding, too. -/
def value (x : Binary32) : ℚ :=
  x.units / format.one

/-- The exact value, rounded: no other number is nearer to it, and if another one is as near, the number
is even. -/
structure Rounds (x : Binary32) (exact : ℚ) : Prop where
  number : x.isNaN = false
  sign : exact ≠ 0 → x.negative = decide (exact < 0)
  nearest : ∀ y : Binary32, y.isNaN = false → |x.value - exact| ≤ |y.value - exact|
  even : ∀ y : Binary32, y.isNaN = false → |x.value - exact| = |y.value - exact| →
    y.value = x.value ∨ x.pattern % 2 = 0

structure IsSum (x y z : Binary32) : Prop where
  undefined : z.isNaN = true ↔ x.isNaN = true ∨ y.isNaN = true ∨
    x.isInfinite = true ∧ y.isInfinite = true ∧ x.negative ≠ y.negative
  infinite : z.isNaN = false → (x.isInfinite = true → z = x) ∧ (y.isInfinite = true → z = y)
  finite : x.isFinite = true → y.isFinite = true → z.Rounds (x.value + y.value)

structure IsDifference (x y z : Binary32) : Prop where
  undefined : z.isNaN = true ↔ x.isNaN = true ∨ y.isNaN = true ∨
    x.isInfinite = true ∧ y.isInfinite = true ∧ x.negative = y.negative
  infinite : z.isNaN = false → (x.isInfinite = true → z = x) ∧
    (y.isInfinite = true → z.isInfinite = true ∧ z.negative ≠ y.negative)
  finite : x.isFinite = true → y.isFinite = true → z.Rounds (x.value - y.value)

structure IsProduct (x y z : Binary32) : Prop where
  undefined : z.isNaN = true ↔ x.isNaN = true ∨ y.isNaN = true ∨
    x.isInfinite = true ∧ y.value = 0 ∨ x.value = 0 ∧ y.isInfinite = true
  sign : z.isNaN = false → (z.negative = true ↔ x.negative ≠ y.negative)
  infinite : z.isNaN = false → x.isInfinite = true ∨ y.isInfinite = true → z.isInfinite = true
  finite : x.isFinite = true → y.isFinite = true → z.Rounds (x.value * y.value)

structure IsQuotient (x y z : Binary32) : Prop where
  undefined : z.isNaN = true ↔ x.isNaN = true ∨ y.isNaN = true ∨
    x.isInfinite = true ∧ y.isInfinite = true ∨ x.value = 0 ∧ y.value = 0
  sign : z.isNaN = false → (z.negative = true ↔ x.negative ≠ y.negative)
  infinite : z.isNaN = false → x.isInfinite = true ∨ y.value = 0 → z.isInfinite = true
  vanishing : x.isFinite = true → y.isInfinite = true → z.value = 0
  finite : x.isFinite = true → y.isFinite = true → y.value ≠ 0 → z.Rounds (x.value / y.value)

/-! Signs and magnitudes. -/

def signed (negative : Bool) (magnitude : ℚ) : ℚ :=
  if negative then -magnitude else magnitude

theorem one_pos : (0 : ℚ) < format.one := by
  exact_mod_cast (by decide : 0 < format.one)

theorem value_eq_signed (x : Binary32) :
    x.value = signed x.negative (format.units x.pattern / format.one) := by
  unfold value units signed
  split
  · rw [Int.cast_neg, Int.cast_natCast, neg_div]
  · rw [Int.cast_natCast]

theorem signed_mul_signed (a b : Bool) (v w : ℚ) :
    signed a v * signed b w = signed (a != b) (v * w) := by
  cases a <;> cases b <;> simp [signed]

theorem signed_div_signed (a b : Bool) (v w : ℚ) :
    signed a v / signed b w = signed (a != b) (v / w) := by
  cases a <;> cases b <;> simp [signed, neg_div, div_neg]

theorem signed_div (a : Bool) (v w : ℚ) : signed a (v / w) = signed a v / w := by
  cases a <;> simp [signed, neg_div]

theorem signed_ne_zero {a : Bool} {v : ℚ} : signed a v ≠ 0 ↔ v ≠ 0 := by
  cases a <;> simp [signed]

theorem signed_zero (a : Bool) : signed a 0 = 0 := by
  cases a <;> simp [signed]

theorem decide_signed_neg (a : Bool) {v : ℚ} (pos : 0 < v) : decide (signed a v < 0) = a := by
  cases a
  · exact decide_eq_false (not_lt.2 pos.le)
  · exact decide_eq_true (neg_lt_zero.2 pos)

theorem signed_abs (n : Int) : signed (decide (n < 0)) |(n : ℚ)| = n := by
  unfold signed
  split
  next h => rw [abs_of_neg (Int.cast_lt_zero.2 (of_decide_eq_true h)), neg_neg]
  next h => rw [abs_of_nonneg (Int.cast_nonneg (Int.not_lt.1 fun neg => h (decide_eq_true neg)))]

theorem abs_signed_sub_signed (a : Bool) (v w : ℚ) : |signed a v - signed a w| = |v - w| := by
  cases a
  · rfl
  · rw [signed, signed, if_pos rfl, if_pos rfl, ← neg_sub', abs_neg]

theorem abs_signed_sub_signed_not (a : Bool) {v w : ℚ} (hv : 0 ≤ v) (hw : 0 ≤ w) :
    |signed (!a) v - signed a w| = v + w := by
  cases a
  · rw [signed, signed, Bool.not_false, if_pos rfl, if_neg Bool.false_ne_true, abs_sub_comm,
      abs_of_nonneg (by linarith)]
    ring
  · rw [signed, signed, Bool.not_true, if_pos rfl, if_neg Bool.false_ne_true, sub_neg_eq_add,
      abs_of_nonneg (by linarith)]

theorem magnitude_nonneg (p : Nat) : (0 : ℚ) ≤ format.units p / format.one :=
  div_nonneg (Nat.cast_nonneg _) one_pos.le

theorem units_zero : format.units 0 = 0 :=
  rfl

theorem units_ne_zero {p : Nat} (h : p ≠ 0) : format.units p ≠ 0 :=
  units_zero ▸ (BinaryFormat.units_strictMono format).injective.ne h

theorem value_eq_zero_iff (x : Binary32) : x.value = 0 ↔ x.pattern = 0 := by
  rw [value_eq_signed, ← not_iff_not, ← Ne, signed_ne_zero, div_ne_zero_iff, Nat.cast_ne_zero]
  constructor
  · rintro ⟨h, -⟩ hp
    exact h (hp ▸ units_zero)
  · intro hp
    exact ⟨units_ne_zero hp, one_pos.ne'⟩

theorem pattern_le_of_not_isNaN {x : Binary32} (h : x.isNaN = false) : x.pattern ≤ format.infinity := by
  rw [isNaN, decide_eq_false_iff_not] at h
  exact Nat.not_lt.1 h

theorem cast_quotientDistance (num n : Nat) {den : Nat} (hd : 0 < den) :
    |(n : ℚ) - num / den| = quotientDistance num den n / den := by
  have pos : (0 : ℚ) < den := Nat.cast_pos.2 hd
  calc |(n : ℚ) - num / den| = |((n : ℚ) * den - num) / den| := by
        rw [sub_div, mul_div_cancel_right₀ _ pos.ne']
    _ = (quotientDistance num den n : ℚ) / den := by
        rw [abs_div, abs_of_pos pos, quotientDistance, Nat.cast_natAbs, Int.cast_abs]
        push_cast
        rfl

theorem pattern_infinity_lt {p : Nat} (h : p ≤ format.infinity) : p < 0x80000000 :=
  Nat.lt_of_le_of_lt h (by decide)

theorem isNaN_ofPattern (negative : Bool) {p : Nat} (h : p ≤ format.infinity) :
    (ofPattern negative p).isNaN = false := by
  rw [isNaN, pattern_ofPattern negative (pattern_infinity_lt h), decide_eq_false_iff_not]
  exact Nat.not_lt.2 h

theorem nearestUnits_le_infinity (num den : Nat) : format.nearestUnits num den ≤ format.infinity :=
  Nat.min_le_right ..

theorem value_ofPattern (negative : Bool) {p : Nat} (h : p ≤ format.infinity) :
    (ofPattern negative p).value = signed negative (format.units p / format.one) := by
  rw [value_eq_signed, negative_ofPattern negative (pattern_infinity_lt h),
    pattern_ofPattern negative (pattern_infinity_lt h)]

theorem nearest_magnitude {num den : Nat} (hd : 0 < den) {p : Nat} (hp : p ≤ format.infinity) :
    quotientDistance num den (format.units (format.nearestUnits num den)) ≤
        quotientDistance num den (format.units p) ∧
      (quotientDistance num den (format.units (format.nearestUnits num den)) =
          quotientDistance num den (format.units p) →
        format.units p = format.units (format.nearestUnits num den) ∨
          format.nearestUnits num den % 2 = 0) := by
  rcases format.nearestUnits_roundsTo_or (by decide) (by decide) num hd with
    rounds | ⟨overflow, large⟩
  · exact ⟨rounds.nearest p, rounds.even p⟩
  · rw [overflow]
    have below : format.units p * den ≤ format.units format.infinity * den :=
      Nat.mul_le_mul_right _ ((BinaryFormat.units_strictMono format).monotone hp)
    refine ⟨?_, fun _ => .inr (by decide)⟩
    unfold quotientDistance
    omega

theorem abs_magnitude_sub (num p : Nat) {den : Nat} (hd : 0 < den) :
    |(format.units p / format.one : ℚ) - num / den / format.one| =
      quotientDistance num den (format.units p) / (den * format.one) := by
  rw [← sub_div, abs_div, abs_of_pos one_pos, cast_quotientDistance _ _ hd, div_div]

theorem nearest_magnitude_value (num : Nat) {den p : Nat} (hd : 0 < den) (hp : p ≤ format.infinity) :
    |(format.units (format.nearestUnits num den) / format.one : ℚ) - num / den / format.one| ≤
        |(format.units p / format.one : ℚ) - num / den / format.one| ∧
      (|(format.units (format.nearestUnits num den) / format.one : ℚ) - num / den / format.one| =
          |(format.units p / format.one : ℚ) - num / den / format.one| →
        format.units p = format.units (format.nearestUnits num den) ∨
          format.nearestUnits num den % 2 = 0) := by
  have scale : (0 : ℚ) < den * format.one := mul_pos (Nat.cast_pos.2 hd) one_pos
  obtain ⟨nearest, even⟩ := nearest_magnitude hd hp
  rw [abs_magnitude_sub _ _ hd, abs_magnitude_sub _ _ hd]
  refine ⟨div_le_div_of_nonneg_right (Nat.cast_le.2 nearest) scale.le, fun tie => even ?_⟩
  rw [div_left_inj' scale.ne', Nat.cast_inj] at tie
  exact tie

theorem rounds_ofPattern {num den : Nat} (hd : 0 < den) (negative : Bool) {exact : ℚ}
    (h : exact = signed negative (num / den / format.one)) :
    (ofPattern negative (format.nearestUnits num den)).Rounds exact := by
  have bound := nearestUnits_le_infinity num den
  have small := pattern_infinity_lt bound
  have size : (0 : ℚ) ≤ num / den / format.one :=
    div_nonneg (div_nonneg (Nat.cast_nonneg _) (Nat.cast_nonneg _)) one_pos.le
  have opposite (y : Binary32) (other : y.negative = !negative) : |y.value - exact| =
      (format.units y.pattern / format.one : ℚ) + num / den / format.one := by
    rw [h, value_eq_signed, other, abs_signed_sub_signed_not _ (magnitude_nonneg _) size]
  have same (y : Binary32) (alike : y.negative = negative) : |y.value - exact| =
      |(format.units y.pattern / format.one : ℚ) - num / den / format.one| := by
    rw [h, value_eq_signed, alike, abs_signed_sub_signed]
  have result := same _ (negative_ofPattern negative small)
  rw [pattern_ofPattern negative small] at result
  obtain ⟨zero, tieZero⟩ := nearest_magnitude_value num hd (Nat.zero_le _)
  rw [units_zero, Nat.cast_zero, zero_div, zero_sub, abs_neg, abs_of_nonneg size] at zero tieZero
  refine ⟨isNaN_ofPattern _ bound, ?_, ?_, ?_⟩
  · intro nonzero
    rw [negative_ofPattern negative small]
    rw [h, signed_ne_zero] at nonzero
    rw [h, decide_signed_neg negative (lt_of_le_of_ne size nonzero.symm)]
  · intro y hy
    rw [result]
    rcases Bool.eq_or_eq_not y.negative negative with alike | other
    · rw [same y alike]
      exact (nearest_magnitude_value num hd (pattern_le_of_not_isNaN hy)).1
    · rw [opposite y other]
      exact zero.trans (le_add_of_nonneg_left (magnitude_nonneg _))
  · intro y hy tie
    rw [result] at tie
    rw [pattern_ofPattern negative small, value_ofPattern negative bound, value_eq_signed]
    rcases Bool.eq_or_eq_not y.negative negative with alike | other
    · rw [same y alike] at tie
      have units := (nearest_magnitude_value num hd (pattern_le_of_not_isNaN hy)).2 tie
      exact units.imp_left fun e => by rw [e, alike]
    · -- Then the other number is a zero, and as near as the zero of this sign.
      rw [opposite y other] at tie
      have vanishes : (format.units y.pattern / format.one : ℚ) = 0 := by
        have := magnitude_nonneg y.pattern
        linarith
      rw [vanishes, zero_add] at tie
      refine (tieZero tie).imp_left fun e => ?_
      rw [vanishes, ← e, Nat.cast_zero, zero_div, signed_zero, signed_zero]

theorem rounds_zero (negative : Bool) : (ofPattern negative 0).Rounds 0 := by
  have exact : (0 : ℚ) = signed negative ((0 : Nat) / (1 : Nat) / format.one) := by
    rw [Nat.cast_zero, zero_div, zero_div, signed_zero]
  exact rounds_ofPattern Nat.one_pos negative exact

theorem ofInt_rounds (n : Int) : (ofInt n).Rounds n := by
  refine rounds_ofPattern Nat.one_pos _ ?_
  rw [Nat.cast_one, div_one, Nat.cast_mul, mul_div_cancel_right₀ _ one_pos.ne', Nat.cast_natAbs,
    Int.cast_abs, signed_abs]

/-! The operations. -/

theorem kinds (x : Binary32) :
    (x.isNaN = true ∧ x.isInfinite = false ∧ x.isFinite = false) ∨
      (x.isNaN = false ∧ x.isInfinite = true ∧ x.isFinite = false) ∨
        (x.isNaN = false ∧ x.isInfinite = false ∧ x.isFinite = true) := by
  simp only [isNaN, isInfinite, isFinite, decide_eq_true_eq, decide_eq_false_iff_not, beq_iff_eq,
    beq_eq_false_iff_ne]
  omega

theorem isFinite_iff (x : Binary32) : x.isFinite = true ↔ x.isNaN = false ∧ x.isInfinite = false := by
  rcases x.kinds with ⟨n, i, f⟩ | ⟨n, i, f⟩ | ⟨n, i, f⟩ <;> simp [n, i, f]

theorem ofInt_isNearest {n : Int} (low : -0x80000000 ≤ n) (high : n < 0x80000000) :
    (ofInt n).IsNearest n := by
  have rounds := ofInt_rounds n
  have finite : format.nearest n.natAbs 1 < format.infinity :=
    BinaryFormat.nearest_lt_infinity (by omega)
  have small := pattern_infinity_lt finite.le
  have pattern : (ofInt n).pattern = format.nearest n.natAbs 1 := pattern_ofPattern _ small
  have distance (y : Binary32) :
      |y.value - n| = ((y.units - n * format.one).natAbs : ℚ) / format.one := by
    rw [value, eq_div_iff one_pos.ne', ← abs_of_pos one_pos, ← abs_mul, abs_of_pos one_pos, sub_mul,
      div_mul_cancel₀ _ one_pos.ne', Nat.cast_natAbs, Int.cast_abs]
    push_cast
    rfl
  refine ⟨?_, negative_ofPattern _ small, ?_, ?_⟩
  · rw [isFinite, pattern]
    exact decide_eq_true finite
  · intro y hy
    have nearest := rounds.nearest y ((isFinite_iff y).1 hy).1
    rw [distance, distance, div_le_div_iff_of_pos_right one_pos, Nat.cast_le] at nearest
    exact nearest
  · intro y hy tie
    have even := rounds.even y ((isFinite_iff y).1 hy).1 (by rw [distance, distance, tie])
    refine even.imp_left fun same => ?_
    rw [value, value, div_left_inj' one_pos.ne', Int.cast_inj] at same
    exact same

theorem isNaN_nan : nan.isNaN = true := by
  decide

theorem isNaN_infinity (negative : Bool) : (infinity negative).isNaN = false :=
  isNaN_ofPattern negative (Nat.le_refl _)

theorem isInfinite_infinity (negative : Bool) : (infinity negative).isInfinite = true := by
  cases negative <;> decide

theorem isNaN_nan_or_infinity (c : Prop) [Decidable c] (negative : Bool) :
    (if c then nan else infinity negative).isNaN = true ↔ c := by
  split <;> simp [isNaN_nan, isNaN_infinity, *]

theorem isInfinite_nan_or_infinity {c : Prop} [Decidable c] {negative : Bool}
    (h : (if c then nan else infinity negative).isNaN = false) :
    (if c then nan else infinity negative).isInfinite = true := by
  split at h
  · cases isNaN_nan.symm.trans h
  next hc =>
    rw [if_neg hc]
    exact isInfinite_infinity negative

theorem pattern_ne_zero_of_isInfinite {x : Binary32} (h : x.isInfinite = true) : x.pattern ≠ 0 := by
  rw [beq_iff_eq.1 h]
  decide

theorem add_rounds {x y : Binary32} (hx : x.isFinite = true) (hy : y.isFinite = true) :
    (add x y).Rounds (x.value + y.value) := by
  obtain ⟨nx, ix⟩ := (isFinite_iff x).1 hx
  obtain ⟨ny, iy⟩ := (isFinite_iff y).1 hy
  have sum : x.value + y.value = ((x.units + y.units : Int) : ℚ) / format.one := by
    rw [value, value, Int.cast_add, add_div]
  rw [add, nx, ny, ix, iy, sum]
  simp only [Bool.or_self, Bool.false_eq_true, if_false]
  split
  next zero =>
    rw [zero, Int.cast_zero, zero_div]
    exact rounds_zero _
  next nonzero =>
    refine rounds_ofPattern Nat.one_pos _ ?_
    rw [Nat.cast_one, div_one, Nat.cast_natAbs, Int.cast_abs, signed_div, signed_abs]

theorem eq_of_pattern {x y : Binary32} (sign : x.negative = y.negative) (h : x.pattern = y.pattern) :
    x = y := by
  have bits (z : Binary32) : z.bits.toNat = z.pattern + if z.negative then 0x80000000 else 0 := by
    have := z.bits.toNat_lt
    simp only [pattern, negative, decide_eq_true_eq]
    split <;> omega
  obtain ⟨bx⟩ := x
  obtain ⟨bv⟩ := y
  exact congrArg mk (UInt32.toNat.inj (by rw [bits ⟨bx⟩, bits ⟨bv⟩, sign, h]))

theorem eq_of_isInfinite {x y : Binary32} (hx : x.isInfinite = true) (hy : y.isInfinite = true)
    (sign : x.negative = y.negative) : x = y :=
  eq_of_pattern sign ((beq_iff_eq.1 hx).trans (beq_iff_eq.1 hy).symm)

theorem add_isSum (x y : Binary32) : IsSum x y (x + y) := by
  show IsSum x y (add x y)
  rcases x.kinds with ⟨nx, ix, fx⟩ | ⟨nx, ix, fx⟩ | ⟨nx, ix, fx⟩ <;>
    rcases y.kinds with ⟨ny, iy, fy⟩ | ⟨ny, iy, fy⟩ | ⟨ny, iy, fy⟩
  case inr.inr.inr.inr =>
    have rounds := add_rounds fx fy
    exact ⟨by simp [rounds.number, nx, ny, ix], by simp [ix, iy], fun _ _ => rounds⟩
  case inr.inl.inr.inl =>
    by_cases sign : x.negative = y.negative
    · obtain rfl := eq_of_isInfinite ix iy sign
      constructor <;> simp [add, nx, ix, fx]
    · constructor <;> simp [add, nx, ix, fx, ny, iy, sign, isNaN_nan]
  all_goals
    constructor <;> simp [add, nx, ix, fx, ny, iy, fy, isNaN_nan]

theorem pattern_lt (x : Binary32) : x.pattern < 0x80000000 :=
  Nat.mod_lt _ (by decide)

theorem negative_neg (x : Binary32) : x.neg.negative = !x.negative :=
  negative_ofPattern _ x.pattern_lt

theorem pattern_neg (x : Binary32) : x.neg.pattern = x.pattern :=
  pattern_ofPattern _ x.pattern_lt

theorem value_neg (x : Binary32) : x.neg.value = -x.value := by
  rw [value_eq_signed, value_eq_signed x, negative_neg, pattern_neg]
  cases x.negative <;> simp [signed]

theorem isNaN_neg (x : Binary32) : x.neg.isNaN = x.isNaN := by
  rw [isNaN, isNaN, pattern_neg]

theorem isInfinite_neg (x : Binary32) : x.neg.isInfinite = x.isInfinite := by
  rw [isInfinite, isInfinite, pattern_neg]

theorem isFinite_neg (x : Binary32) : x.neg.isFinite = x.isFinite := by
  rw [isFinite, isFinite, pattern_neg]

theorem sub_isDifference (x y : Binary32) : IsDifference x y (x - y) := by
  have sum : IsSum x y.neg (x - y) := add_isSum x y.neg
  refine ⟨?_, fun number => ⟨(sum.infinite number).1, fun h => ?_⟩, fun hx hy => ?_⟩
  · rw [sum.undefined, isNaN_neg, isInfinite_neg, negative_neg]
    simp
  · rw [(sum.infinite number).2 ((isInfinite_neg y).trans h), isInfinite_neg, negative_neg]
    exact ⟨h, by simp⟩
  · rw [sub_eq_add_neg, ← value_neg]
    exact sum.finite hx ((isFinite_neg y).trans hy)

theorem magnitude_eq_abs (x : Binary32) : (format.units x.pattern / format.one : ℚ) = |x.value| := by
  rw [value_eq_signed, signed]
  split
  · rw [abs_neg, abs_of_nonneg (magnitude_nonneg _)]
  · rw [abs_of_nonneg (magnitude_nonneg _)]

theorem mul_rounds {x y : Binary32} (hx : x.isFinite = true) (hy : y.isFinite = true) :
    (mul x y).Rounds (x.value * y.value) := by
  obtain ⟨nx, ix⟩ := (isFinite_iff x).1 hx
  obtain ⟨ny, iy⟩ := (isFinite_iff y).1 hy
  rw [mul, nx, ny, ix, iy]
  refine rounds_ofPattern (by decide) _ ?_
  rw [value_eq_signed, value_eq_signed y, signed_mul_signed, Nat.cast_mul, div_mul_div_comm, div_div]

theorem negative_iff_of_eq {x y z : Binary32}
    (h : z = nan ∨ ∃ p ≤ format.infinity, z = ofPattern (x.negative != y.negative) p)
    (number : z.isNaN = false) : z.negative = true ↔ x.negative ≠ y.negative := by
  rcases h with rfl | ⟨p, hp, rfl⟩
  · cases isNaN_nan.symm.trans number
  · rw [negative_ofPattern _ (pattern_infinity_lt hp), bne_iff_ne]

theorem mul_eq (x y : Binary32) :
    mul x y = nan ∨ ∃ p ≤ format.infinity, mul x y = ofPattern (x.negative != y.negative) p := by
  unfold mul
  split
  · exact .inl rfl
  · split
    · split
      · exact .inl rfl
      · exact .inr ⟨_, Nat.le_refl _, rfl⟩
    · exact .inr ⟨_, nearestUnits_le_infinity _ _, rfl⟩

theorem mul_isProduct (x y : Binary32) : IsProduct x y (x * y) := by
  show IsProduct x y (mul x y)
  have sign (number : (mul x y).isNaN = false) := negative_iff_of_eq (mul_eq x y) number
  rcases x.kinds with ⟨nx, ix, fx⟩ | ⟨nx, ix, fx⟩ | ⟨nx, ix, fx⟩ <;>
    rcases y.kinds with ⟨ny, iy, fy⟩ | ⟨ny, iy, fy⟩ | ⟨ny, iy, fy⟩
  case inr.inr.inr.inr =>
    have rounds := mul_rounds fx fy
    exact ⟨by simp [rounds.number, nx, ny, ix, iy], sign, by simp [ix, iy], fun _ _ => rounds⟩
  all_goals
    refine ⟨?_, sign, ?_, ?_⟩ <;>
      simp +contextual [mul, nx, ix, fx, ny, iy, fy, isNaN_nan, value_eq_zero_iff,
        isNaN_infinity, isInfinite_infinity, isNaN_nan_or_infinity, isInfinite_nan_or_infinity,
        pattern_ne_zero_of_isInfinite]

theorem div_rounds {x y : Binary32} (hx : x.isFinite = true) (hy : y.isFinite = true)
    (nonzero : y.value ≠ 0) : (div x y).Rounds (x.value / y.value) := by
  obtain ⟨nx, ix⟩ := (isFinite_iff x).1 hx
  obtain ⟨ny, iy⟩ := (isFinite_iff y).1 hy
  have hp : y.pattern ≠ 0 := mt (value_eq_zero_iff y).2 nonzero
  rw [div, nx, ny, ix, iy]
  simp only [Bool.or_self, Bool.false_eq_true, if_false, if_neg hp]
  refine rounds_ofPattern (Nat.pos_of_ne_zero (units_ne_zero hp)) _ ?_
  rw [value_eq_signed, value_eq_signed y, signed_div_signed, Nat.cast_mul,
    div_div_div_cancel_right₀ one_pos.ne', div_right_comm, mul_div_cancel_right₀ _ one_pos.ne']

theorem div_eq (x y : Binary32) :
    div x y = nan ∨ ∃ p ≤ format.infinity, div x y = ofPattern (x.negative != y.negative) p := by
  unfold div
  dsimp only
  split_ifs
  all_goals
    first
    | exact .inl rfl
    | exact .inr ⟨_, Nat.le_refl _, rfl⟩
    | exact .inr ⟨_, Nat.zero_le _, rfl⟩
    | exact .inr ⟨_, nearestUnits_le_infinity _ _, rfl⟩

theorem div_isQuotient (x y : Binary32) : IsQuotient x y (x / y) := by
  show IsQuotient x y (div x y)
  have sign (number : (div x y).isNaN = false) := negative_iff_of_eq (div_eq x y) number
  rcases x.kinds with ⟨nx, ix, fx⟩ | ⟨nx, ix, fx⟩ | ⟨nx, ix, fx⟩ <;>
    rcases y.kinds with ⟨ny, iy, fy⟩ | ⟨ny, iy, fy⟩ | ⟨ny, iy, fy⟩
  case inr.inr.inr.inr =>
    by_cases zero : y.pattern = 0
    · refine ⟨?_, sign, ?_, ?_, ?_⟩ <;>
        simp +contextual [div, nx, ix, ny, iy, zero, value_eq_zero_iff, isNaN_nan_or_infinity,
          isInfinite_nan_or_infinity]
    · have rounds := div_rounds fx fy (mt (value_eq_zero_iff y).1 zero)
      exact ⟨by simp [rounds.number, nx, ny, ix, value_eq_zero_iff, zero], sign,
        by simp [ix, value_eq_zero_iff, zero], by simp [iy], fun _ _ _ => rounds⟩
  all_goals
    refine ⟨?_, sign, ?_, ?_, ?_⟩ <;>
      simp +contextual [div, nx, ix, fx, ny, iy, fy, isNaN_nan, value_eq_zero_iff,
        isNaN_infinity, isInfinite_infinity, pattern_ne_zero_of_isInfinite, isNaN_ofPattern,
        pattern_ofPattern]

/-! The nearest integer. -/

structure IsNearestInteger (value : ℚ) (n : Int) : Prop where
  near : |value - n| ≤ 1 / 2
  even : |value - n| = 1 / 2 → n % 2 = 0

theorem nearestQuotient_isNearestInteger (num : Nat) {den : Nat} (hd : 0 < den) (negative : Bool) :
    IsNearestInteger (signed negative (num / den))
      (if negative then -(nearestQuotient num den : Int) else nearestQuotient num den) := by
  have pos : (0 : ℚ) < den := Nat.cast_pos.2 hd
  have cast (n : Nat) : ((if negative then -(n : Int) else n : Int) : ℚ) = signed negative n := by
    cases negative <;> simp [signed]
  have distance : |signed negative ((num : ℚ) / den) -
      ((if negative then -(nearestQuotient num den : Int) else nearestQuotient num den : Int) : ℚ)| =
      quotientDistance num den (nearestQuotient num den) / den := by
    rw [cast, abs_signed_sub_signed, abs_sub_comm, cast_quotientDistance _ _ hd]
  obtain ⟨q, r, rfl, hr, nearest, -⟩ := quotient_neighbours hd num 0
  have next : (q + 1) * den = q * den + den := Nat.succ_mul q den
  have half : 2 * quotientDistance (q * den + r) den (nearestQuotient (q * den + r) den) ≤ den ∧
      (2 * quotientDistance (q * den + r) den (nearestQuotient (q * den + r) den) = den →
        nearestQuotient (q * den + r) den % 2 = 0) := by
    unfold quotientDistance
    rcases nearest with ⟨nearest, near⟩ | ⟨nearest, near⟩ <;> rw [nearest] <;> omega
  constructor
  · rw [distance, div_le_div_iff₀ pos two_pos, one_mul, mul_comm]
    exact_mod_cast half.1
  · intro tie
    rw [distance, div_eq_div_iff pos.ne' two_ne_zero, one_mul, mul_comm] at tie
    have even := half.2 (by exact_mod_cast tie)
    cases negative <;> simp <;> omega

end Binary32
end TensorConcat
