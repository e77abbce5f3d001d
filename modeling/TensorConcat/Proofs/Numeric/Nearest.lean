import Mathlib.Algebra.Group.Nat.Defs
import Mathlib.Order.Monotone.Basic
import TensorConcat.Proofs.Numeric.NearestDecimal

/-! Rounding to a format: no number of the format is nearer to the exact value, and of two that are
equally near the even one is taken. -/

namespace TensorConcat

def quotientDistance (num den n : Nat) : Nat :=
  (((n * den : Nat) : Int) - num).natAbs

theorem quotientDistance_mul (num den n s : Nat) :
    quotientDistance num den (n * s) = quotientDistance num (den * s) n := by
  rw [quotientDistance, quotientDistance, Nat.mul_assoc, Nat.mul_comm s den]

theorem quotient_neighbours {den : Nat} (h : 0 < den) (num n : Nat) :
    ∃ q r, num = q * den + r ∧ r < den ∧
      (nearestQuotient num den = q ∧ (2 * r < den ∨ 2 * r = den ∧ q % 2 = 0) ∨
        nearestQuotient num den = q + 1 ∧ (den < 2 * r ∨ 2 * r = den ∧ q % 2 = 1)) ∧
      (n * den + den ≤ q * den ∨ n = q ∨ n = q + 1 ∨ q * den + den + den ≤ n * den) := by
  refine ⟨num / den, num % den, (Nat.div_add_mod' num den).symm, Nat.mod_lt _ h, ?_, ?_⟩
  · simp only [nearestQuotient]
    split <;> omega
  have scaled {m k : Nat} (hm : m + 1 ≤ k) : m * den + den ≤ k * den := by
    rw [← Nat.succ_mul]
    exact Nat.mul_le_mul_right den hm
  rcases Nat.lt_trichotomy n (num / den) with below | rfl | above
  · exact .inl (scaled below)
  · exact .inr (.inl rfl)
  · by_cases next : n = num / den + 1
    · exact .inr (.inr (.inl next))
    · refine .inr (.inr (.inr ?_))
      rw [← Nat.succ_mul]
      exact scaled (by omega)

theorem quotientDistance_nearestQuotient_le {den : Nat} (h : 0 < den) (num n : Nat) :
    quotientDistance num den (nearestQuotient num den) ≤ quotientDistance num den n := by
  obtain ⟨q, r, rfl, hr, nearest, place⟩ := quotient_neighbours h num n
  have next : (q + 1) * den = q * den + den := Nat.succ_mul q den
  unfold quotientDistance
  rcases nearest with ⟨nearest, near⟩ | ⟨nearest, near⟩ <;> rw [nearest] <;>
    rcases place with below | rfl | rfl | above <;> omega

theorem nearestQuotient_even {den : Nat} (h : 0 < den) {num n : Nat}
    (tie : quotientDistance num den (nearestQuotient num den) = quotientDistance num den n) :
    n = nearestQuotient num den ∨ nearestQuotient num den % 2 = 0 := by
  obtain ⟨q, r, rfl, hr, nearest, place⟩ := quotient_neighbours h num n
  have next : (q + 1) * den = q * den + den := Nat.succ_mul q den
  unfold quotientDistance at tie
  rcases nearest with ⟨nearest, near⟩ | ⟨nearest, near⟩ <;> rw [nearest] at tie ⊢ <;>
    rcases place with below | rfl | rfl | above <;> omega

namespace BinaryFormat

variable (f : BinaryFormat)

theorem exists_scaled (p : Nat) :
    ∃ s m, p = s * f.fractions + m ∧ m < 2 * f.fractions ∧ (s = 0 ∨ f.fractions ≤ m) := by
  have split := Nat.div_add_mod' p f.fractions
  have rest := Nat.mod_lt p f.fractions_pos
  by_cases h : p / f.fractions = 0
  · refine ⟨0, p, by rw [Nat.zero_mul, Nat.zero_add], ?_, .inl rfl⟩
    rw [h, Nat.zero_mul, Nat.zero_add] at split
    omega
  · obtain ⟨s, hs⟩ := Nat.exists_eq_succ_of_ne_zero h
    refine ⟨s, f.fractions + p % f.fractions, ?_, by omega, .inr (Nat.le_add_right ..)⟩
    rw [← Nat.add_assoc, ← Nat.succ_mul, ← hs, split]

theorem units_scaled {s m : Nat} (high : m ≤ 2 * f.fractions) (low : s = 0 ∨ f.fractions ≤ m) :
    f.units (s * f.fractions + m) = m * 2 ^ s := by
  have hf := f.fractions_pos
  by_cases small : m < f.fractions
  · obtain rfl : s = 0 := low.resolve_right (Nat.not_le.2 small)
    simp [units, Nat.div_eq_of_lt small, Nat.mod_eq_of_lt small]
  · obtain ⟨r, rfl⟩ := Nat.exists_eq_add_of_le (Nat.not_lt.1 small)
    by_cases carry : r = f.fractions
    · have split : s * f.fractions + (f.fractions + r) = (s + 2) * f.fractions := by
        rw [carry, Nat.add_mul, Nat.two_mul]
      rw [units, split, Nat.mul_div_cancel _ hf, Nat.mul_mod_left, if_neg (by omega),
        Nat.add_zero, Nat.shiftLeft_eq, carry, ← Nat.two_mul, Nat.mul_comm 2, Nat.mul_assoc,
        ← Nat.pow_succ']
      rfl
    · have hr : r < f.fractions := by omega
      have split : s * f.fractions + (f.fractions + r) = r + (s + 1) * f.fractions := by
        rw [Nat.succ_mul]
        omega
      rw [units, split, Nat.add_mul_div_right _ _ hf, Nat.add_mul_mod_self_right,
        Nat.div_eq_of_lt hr, Nat.mod_eq_of_lt hr, if_neg (by omega), Nat.shiftLeft_eq]
      congr 2
      omega

theorem units_multiple_or_below (s p : Nat) :
    (∃ k, f.units p = k * 2 ^ s) ∨ (0 < s ∧ f.units p < f.fractions * 2 ^ s) := by
  obtain ⟨t, m, rfl, high, low⟩ := f.exists_scaled p
  rw [f.units_scaled (Nat.le_of_lt high) low]
  by_cases h : s ≤ t
  · obtain ⟨d, rfl⟩ := Nat.exists_eq_add_of_le h
    exact .inl ⟨m * 2 ^ d, by rw [Nat.pow_add, Nat.mul_assoc, Nat.mul_comm (2 ^ s)]⟩
  · obtain ⟨d, rfl⟩ := Nat.exists_eq_add_of_lt (Nat.not_le.1 h)
    refine .inr ⟨by omega, ?_⟩
    calc m * 2 ^ t < 2 * f.fractions * 2 ^ t := Nat.mul_lt_mul_of_pos_right high (Nat.two_pow_pos t)
      _ = f.fractions * 2 ^ (t + 1) := by rw [Nat.pow_succ', Nat.mul_comm 2, Nat.mul_assoc]
      _ ≤ f.fractions * 2 ^ (t + d + 1) :=
        Nat.mul_le_mul_left _ (Nat.pow_le_pow_right (by decide) (by omega))

/-- The pattern is nearest to `num / den` units, and even if another number is as near. -/
structure RoundsTo (num den pattern : Nat) : Prop where
  nearest : ∀ p, quotientDistance num den (f.units pattern) ≤ quotientDistance num den (f.units p)
  even : ∀ p, quotientDistance num den (f.units pattern) = quotientDistance num den (f.units p) →
    f.units p = f.units pattern ∨ pattern % 2 = 0

theorem lt_of_excess (n : Nat) : n < 2 * f.fractions * 2 ^ f.excess n := by
  rw [fractions, Nat.shiftLeft_eq, Nat.one_mul, ← Nat.pow_succ', ← Nat.pow_add]
  by_cases h : n = 0
  · exact h ▸ Nat.two_pow_pos _
  · apply (Nat.log2_lt h).1
    unfold excess
    omega

theorem le_of_excess {n : Nat} (h : 0 < f.excess n) : f.fractions * 2 ^ f.excess n ≤ n := by
  rw [fractions, Nat.shiftLeft_eq, Nat.one_mul, ← Nat.pow_add]
  have hn : n ≠ 0 := by
    rintro rfl
    simp [excess] at h
  apply (Nat.le_log2 hn).1
  unfold excess at *
  omega

theorem nearestQuotient_bounds {num den : Nat} (h : 0 < den) {low high : Nat}
    (lower : low * den ≤ num) (upper : num < high * den) :
    low ≤ nearestQuotient num den ∧ nearestQuotient num den ≤ high := by
  have hl := (Nat.le_div_iff_mul_le h).2 lower
  have hh := (Nat.div_lt_iff_lt_mul h).2 upper
  unfold nearestQuotient
  dsimp only
  split <;> omega

theorem nearestUnits_scaled (num : Nat) {den : Nat} (hd : 0 < den) :
    ∃ s, f.nearestUnits num den
        = min (s * f.fractions + nearestQuotient num (den * 2 ^ s)) f.infinity ∧
      nearestQuotient num (den * 2 ^ s) ≤ 2 * f.fractions ∧
      (s = 0 ∨ f.fractions * (den * 2 ^ s) ≤ num) ∧
      (s = 0 ∨ f.fractions ≤ nearestQuotient num (den * 2 ^ s)) ∧ s = f.excess (num / den) := by
  have hs : 0 < den * 2 ^ f.excess (num / den) := Nat.mul_pos hd (Nat.two_pow_pos _)
  have upper : num < 2 * f.fractions * (den * 2 ^ f.excess (num / den)) := by
    have := (Nat.div_lt_iff_lt_mul hd).1 (f.lt_of_excess (num / den))
    rwa [Nat.mul_assoc, Nat.mul_comm _ den] at this
  have lower : f.excess (num / den) = 0 ∨ f.fractions * (den * 2 ^ f.excess (num / den)) ≤ num := by
    refine (Nat.eq_zero_or_pos _).imp_right fun pos => ?_
    have := (Nat.le_div_iff_mul_le hd).1 (f.le_of_excess pos)
    rwa [Nat.mul_assoc, Nat.mul_comm _ den] at this
  refine ⟨_, by rw [nearestUnits, Nat.shiftLeft_eq],
    (nearestQuotient_bounds hs (Nat.zero_mul _ ▸ Nat.zero_le num) upper).2, lower,
    lower.imp_right fun h => (nearestQuotient_bounds hs h upper).1, rfl⟩

theorem units_strictMono : StrictMono f.units := by
  refine strictMono_nat_of_lt_succ fun p => ?_
  obtain ⟨s, m, rfl, high, low⟩ := f.exists_scaled p
  rw [Nat.add_assoc, f.units_scaled (Nat.le_of_lt high) low,
    f.units_scaled (Nat.succ_le_of_lt high) (low.imp_right Nat.le_succ_of_le)]
  exact Nat.mul_lt_mul_of_pos_right (Nat.lt_succ_self m) (Nat.two_pow_pos s)

theorem units_infinity (f : BinaryFormat) (h : f.top ≠ 0) :
    f.units f.infinity = f.fractions * 2 ^ (f.top - 1) := by
  rw [units, infinity, Nat.mul_div_cancel _ f.fractions_pos, Nat.mul_mod_left, if_neg h,
    Nat.shiftLeft_eq, Nat.add_zero]

theorem nearestUnits_roundsTo_or (paired : f.fractions % 2 = 0) (range : 2 ≤ f.top) (num : Nat)
    {den : Nat} (hd : 0 < den) : f.RoundsTo num den (f.nearestUnits num den) ∨
      f.nearestUnits num den = f.infinity ∧ f.units f.infinity * den ≤ num := by
  obtain ⟨s, result, high, low, leading, -⟩ := f.nearestUnits_scaled num hd
  generalize hq : nearestQuotient num (den * 2 ^ s) = q at *
  rcases Nat.lt_or_ge f.infinity (s * f.fractions + q) with beyond | within
  · refine .inr ⟨by omega, ?_⟩
    have scale : f.top < s + 2 := by
      refine Nat.lt_of_mul_lt_mul_right (a := f.fractions) ?_
      rw [Nat.add_mul]
      exact Nat.lt_of_lt_of_le beyond (Nat.add_le_add_left high _)
    calc f.units f.infinity * den
        = f.fractions * 2 ^ (f.top - 1) * den := by rw [f.units_infinity (by omega)]
      _ ≤ f.fractions * 2 ^ s * den :=
        Nat.mul_le_mul_right _ (Nat.mul_le_mul_left _ (Nat.pow_le_pow_right (by decide) (by omega)))
      _ = f.fractions * (den * 2 ^ s) := by rw [Nat.mul_assoc, Nat.mul_comm den]
      _ ≤ num := low.resolve_left (by omega)
  have hs : 0 < den * 2 ^ s := Nat.mul_pos hd (Nat.two_pow_pos s)
  have value : f.nearestUnits num den = s * f.fractions + q := by omega
  left
  rw [value]
  have units := f.units_scaled high leading
  have multiple (k : Nat) :
      quotientDistance num den (q * 2 ^ s) ≤ quotientDistance num den (k * 2 ^ s) := by
    rw [quotientDistance_mul, quotientDistance_mul, ← hq]
    exact quotientDistance_nearestQuotient_le hs num k
  -- A number below the scale is farther away than the least one of the scale with a leading bit.
  have below (n : Nat) (h : 0 < s ∧ n < f.fractions * 2 ^ s) :
      quotientDistance num den (q * 2 ^ s) < quotientDistance num den n := by
    refine Nat.lt_of_le_of_lt (multiple f.fractions) ?_
    have reach := low.resolve_left (Nat.ne_of_gt h.1)
    rw [Nat.mul_left_comm, Nat.mul_comm den] at reach
    have := Nat.mul_lt_mul_of_pos_right h.2 hd
    unfold quotientDistance
    omega
  rw [← units] at multiple below
  constructor
  · intro p
    rcases f.units_multiple_or_below s p with ⟨k, hk⟩ | h
    · exact hk ▸ multiple k
    · exact Nat.le_of_lt (below _ h)
  · intro p tie
    rcases f.units_multiple_or_below s p with ⟨k, hk⟩ | h
    · rw [hk, units, quotientDistance_mul, quotientDistance_mul, ← hq] at tie
      rcases nearestQuotient_even hs tie with rfl | even
      · exact .inl (by rw [hk, units, hq])
      · right
        rw [← hq, Nat.add_mod, Nat.mul_mod, paired, even, Nat.mul_zero]
    · exact absurd tie (Nat.ne_of_lt (below _ h))

theorem nearest_lt_infinity {n : Nat} (h : n ≤ 0x80000000) : single.nearest n 1 < single.infinity := by
  obtain ⟨s, result, high, -, -, scale⟩ := single.nearestUnits_scaled (n * single.one) Nat.one_pos
  rw [nearest, result]
  refine Nat.lt_of_le_of_lt (Nat.min_le_left ..) ?_
  have size : n * single.one < 2 ^ 181 := by
    calc n * single.one ≤ 0x80000000 * single.one := Nat.mul_le_mul_right _ h
      _ < 2 ^ 181 := by decide
  have bound : s ≤ 157 := by
    rw [scale, Nat.div_one, excess]
    by_cases zero : n * single.one = 0
    · rw [zero]
      decide
    · have := (Nat.log2_lt zero).2 size
      show Nat.log2 (n * single.one) - 23 ≤ 157
      omega
  calc s * single.fractions + nearestQuotient (n * single.one) (1 * 2 ^ s)
      ≤ 157 * single.fractions + 2 * single.fractions :=
        Nat.add_le_add (Nat.mul_le_mul_right _ bound) high
    _ < single.infinity := by decide

end BinaryFormat

namespace Binary32

theorem negative_ofPattern (negative : Bool) {p : Nat} (h : p < 0x80000000) :
    (ofPattern negative p).negative = negative := by
  cases negative <;> simp [ofPattern, Binary32.negative] <;> omega

theorem pattern_ofPattern (negative : Bool) {p : Nat} (h : p < 0x80000000) :
    (ofPattern negative p).pattern = p := by
  cases negative <;> simp [ofPattern, pattern] <;> omega

/-- No finite number is nearer to the integer, and if another one is as near, the number is even. It
has the sign of the integer. -/
structure IsNearest (x : Binary32) (n : Int) : Prop where
  finite : x.isFinite = true
  sign : x.negative = decide (n < 0)
  nearest : ∀ y : Binary32, y.isFinite = true →
    (x.units - n * BinaryFormat.single.one).natAbs ≤ (y.units - n * BinaryFormat.single.one).natAbs
  even : ∀ y : Binary32, y.isFinite = true →
    (x.units - n * BinaryFormat.single.one).natAbs = (y.units - n * BinaryFormat.single.one).natAbs →
      y.units = x.units ∨ x.pattern % 2 = 0

end Binary32
end TensorConcat
