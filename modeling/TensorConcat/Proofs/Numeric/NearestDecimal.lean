import TensorConcat.Numeric.Binary32

/-! Which decimals are read as the same number: those of one value, and the exact value of a
pattern as that pattern. -/

namespace TensorConcat

theorem nearestQuotient_mul_mul {c : Nat} (hc : 0 < c) (num den : Nat) :
    nearestQuotient (c * num) (c * den) = nearestQuotient num den := by
  have hr : 2 * (c * (num % den)) = c * (2 * (num % den)) := Nat.mul_left_comm ..
  simp only [nearestQuotient, Nat.mul_div_mul_left _ _ hc, Nat.mul_mod_mul_left, hr,
    Nat.mul_lt_mul_left hc, Nat.mul_right_inj (Nat.ne_of_gt hc)]

namespace BinaryFormat

variable (f : BinaryFormat)

theorem fractions_pos : 0 < f.fractions := by
  rw [fractions, Nat.one_shiftLeft]
  exact Nat.two_pow_pos _

theorem nearestUnits_mul_mul {c : Nat} (hc : 0 < c) (num den : Nat) :
    f.nearestUnits (c * num) (c * den) = f.nearestUnits num den := by
  have hs (s : Nat) : (c * den) <<< s = c * den <<< s := by
    simp only [Nat.shiftLeft_eq, Nat.mul_assoc]
  simp only [nearestUnits, Nat.mul_div_mul_left _ _ hc, hs, nearestQuotient_mul_mul hc]

theorem nearest_mul_mul {c : Nat} (hc : 0 < c) (num den : Nat) :
    f.nearest (c * num) (c * den) = f.nearest num den := by
  rw [nearest, Nat.mul_assoc, nearestUnits_mul_mul f hc, nearest]

theorem le_excess {n s : Nat} (low : f.fractions <<< s ≤ n) : s ≤ f.excess n := by
  rw [fractions, Nat.shiftLeft_eq, Nat.shiftLeft_eq, Nat.one_mul, ← Nat.pow_add] at low
  have hn : n ≠ 0 := Nat.ne_of_gt (Nat.lt_of_lt_of_le (Nat.two_pow_pos _) low)
  have hl := (Nat.le_log2 hn).2 low
  unfold excess
  omega

theorem excess_eq {n s : Nat} (low : f.fractions <<< s ≤ n) (high : n < f.fractions <<< (s + 1)) :
    f.excess n = s := by
  have hl := f.le_excess low
  rw [fractions, Nat.shiftLeft_eq, Nat.shiftLeft_eq, Nat.one_mul, ← Nat.pow_add] at low high
  have hn : n ≠ 0 := Nat.ne_of_gt (Nat.lt_of_lt_of_le (Nat.two_pow_pos _) low)
  have hh := (Nat.log2_lt hn).2 high
  rw [excess] at *
  omega

theorem excess_eq_zero {n : Nat} (h : n < f.fractions) : f.excess n = 0 := by
  rw [fractions, Nat.shiftLeft_eq, Nat.one_mul] at h
  by_cases hn : n = 0
  · subst hn
    exact Nat.zero_sub _
  · have := (Nat.log2_lt hn).2 h
    unfold excess
    omega

theorem nearestUnits_units {pattern : Nat} (h : pattern < f.infinity) :
    f.nearestUnits (f.units pattern) 1 = pattern := by
  have hf := f.fractions_pos
  have hp := Nat.div_add_mod pattern f.fractions
  have hm := Nat.mod_lt pattern hf
  simp only [units]
  split
  next h0 =>
    rw [h0, Nat.mul_zero, Nat.zero_add] at hp
    rw [nearestUnits, Nat.div_one, excess_eq_zero f hm, Nat.shiftLeft_zero, Nat.zero_mul,
      Nat.zero_add, ← Nat.mul_one (pattern % f.fractions), nearestQuotient_mul _ Nat.one_pos, hp]
    exact Nat.min_eq_left (Nat.le_of_lt h)
  next h0 =>
    obtain ⟨s, hs⟩ := Nat.exists_eq_succ_of_ne_zero h0
    rw [hs] at hp ⊢
    rw [Nat.succ_eq_add_one, Nat.add_sub_cancel]
    generalize pattern % f.fractions = r at hp hm ⊢
    -- The leading bit is the implicit one, so that the bits of the fraction are all that remain.
    have he : f.excess ((f.fractions + r) <<< s) = s := by
      apply excess_eq
      · simp only [Nat.shiftLeft_eq]
        exact Nat.mul_le_mul_right _ (Nat.le_add_right ..)
      · simp only [Nat.shiftLeft_eq, Nat.pow_succ, Nat.mul_comm _ 2, ← Nat.mul_assoc]
        exact Nat.mul_lt_mul_of_pos_right (by omega) (Nat.two_pow_pos s)
    have hq : nearestQuotient ((f.fractions + r) <<< s) (1 <<< s) = f.fractions + r := by
      rw [Nat.shiftLeft_eq, Nat.shiftLeft_eq, Nat.one_mul]
      exact nearestQuotient_mul _ (Nat.two_pow_pos s)
    rw [nearestUnits, Nat.div_one, he, hq]
    have : s * f.fractions + (f.fractions + r) = pattern := by
      rw [← hp, Nat.succ_eq_add_one, Nat.mul_add, Nat.mul_comm f.fractions s, Nat.mul_one,
        Nat.add_assoc]
    rw [this]
    exact Nat.min_eq_left (Nat.le_of_lt h)

end BinaryFormat

namespace Digits

theorem count_mul_ten {n : Nat} (h : 0 < n) : count (10 * n) = count n + 1 := by
  rw [count, if_neg (by omega), Nat.mul_div_cancel_left n (by decide)]

theorem count_pos (n : Nat) : 0 < count n := by
  unfold count
  split <;> omega

end Digits

namespace Decimal

theorem power_succ (n : Nat) : power (n + 1) = 10 * power n :=
  Nat.mul_comm ..

theorem power_pos (n : Nat) : 0 < power n :=
  Nat.pow_pos (by decide)

end Decimal

namespace BinaryFormat

theorem nearest_of_large {n : Nat} (h : 1 <<< 129 ≤ n) : single.nearest n 1 = single.infinity := by
  have hs : single.fractions <<< 255 ≤ n * single.one := by
    have : single.fractions <<< 255 = 1 <<< 129 * single.one := by decide
    rw [this]
    exact Nat.mul_le_mul_right _ h
  have he := single.le_excess hs
  rw [nearest, nearestUnits, Nat.div_one]
  apply Nat.min_eq_right
  calc single.infinity = 255 * single.fractions := rfl
    _ ≤ single.excess (n * single.one) * single.fractions := Nat.mul_le_mul_right _ he
    _ ≤ _ := Nat.le_add_right ..

theorem nearestDecimal_of_digits_pos {n : Nat} (hn : 0 < n) (e : Int) :
    single.nearestDecimal ⟨n, e⟩ =
      if (Digits.count n : Int) + e ≤ -149 then 0
      else if 255 ≤ e then single.infinity
      else if e < 0 then single.nearest n (Decimal.power e.natAbs)
      else single.nearest (n * Decimal.power e.natAbs) 1 := by
  simp only [nearestDecimal, Nat.ne_of_gt hn, false_or]
  rfl

theorem nearestDecimal_shift {k : Nat} (hk : 0 < k) (e : Int) :
    single.nearestDecimal ⟨10 * k, e⟩ = single.nearestDecimal ⟨k, e + 1⟩ := by
  have hten : 0 < 10 * k := Nat.mul_pos (by decide) hk
  have hc : ((Digits.count (10 * k) : Nat) : Int) + e = Digits.count k + (e + 1) := by
    rw [Digits.count_mul_ten hk]
    omega
  rw [nearestDecimal_of_digits_pos hten, nearestDecimal_of_digits_pos hk, hc]
  by_cases hlow : (Digits.count k : Int) + (e + 1) ≤ -149
  · rw [if_pos hlow, if_pos hlow]
  rw [if_neg hlow, if_neg hlow]
  -- The factor ten goes into the quotient or the product, except at the two ends of the exponents.
  by_cases hneg : e < 0
  · obtain ⟨m, rfl⟩ : ∃ m : Nat, e = -(m + 1 : Nat) := ⟨e.natAbs - 1, by omega⟩
    have ha : (-((m + 1 : Nat) : Int)).natAbs = m + 1 := by omega
    have hb : (-((m + 1 : Nat) : Int) + 1).natAbs = m := by omega
    rw [if_neg (by omega), if_pos hneg, if_neg (by omega), ha, hb, Decimal.power_succ,
      nearest_mul_mul _ (by decide)]
    by_cases hm : m = 0
    · subst hm
      rw [if_neg (by decide)]
      exact congrArg (single.nearest · 1) (Nat.mul_one k).symm
    · rw [if_pos (by omega)]
  · obtain ⟨m, rfl⟩ := Int.eq_ofNat_of_zero_le (Int.not_lt.1 hneg)
    have ha : ((m : Int) + 1).natAbs = m + 1 := by omega
    have hd : 10 * k * Decimal.power m = k * Decimal.power (m + 1) := by
      rw [Decimal.power_succ, Nat.mul_comm 10 k, Nat.mul_assoc]
    have hpos : ¬ (m : Int) + 1 < 0 := by omega
    rw [if_neg hneg, if_neg hpos, ha, Int.natAbs_natCast, hd]
    by_cases htop : (255 : Int) ≤ m
    · rw [if_pos htop, if_pos (by omega)]
    · rw [if_neg htop]
      split
      next h =>
        -- Only here does one side look at the exponent alone, and the other at the value.
        obtain rfl : m = 254 := by omega
        apply nearest_of_large
        exact Nat.le_trans (by decide) (Nat.le_mul_of_pos_left (Decimal.power 255) hk)
      next => rfl

theorem nearestDecimal_normalize (d : Decimal) :
    single.nearestDecimal d.normalize = single.nearestDecimal d := by
  induction d using Decimal.normalize.induct with
  | case1 d h ih =>
    rw [Decimal.normalize, if_pos h, ih, ← nearestDecimal_shift (by omega)]
    congr 2
    omega
  | case2 d h => rw [Decimal.normalize, if_neg h]

theorem nearestDecimal_expand (n e : Nat) :
    single.nearestDecimal ⟨n * Decimal.power e, 0⟩ = single.nearestDecimal ⟨n, e⟩ := by
  by_cases hn : n = 0
  · simp [hn, nearestDecimal]
  induction e generalizing n with
  | zero => exact congrArg (single.nearestDecimal ⟨·, 0⟩) (Nat.mul_one n)
  | succ e ih =>
    have hd : n * Decimal.power (e + 1) = 10 * n * Decimal.power e := by
      rw [Decimal.power_succ, Nat.mul_left_comm, Nat.mul_assoc]
    rw [hd, ih _ (by omega), nearestDecimal_shift (by omega)]
    rfl

theorem nearestDecimal_exact {pattern : Nat} (h : pattern < single.infinity)
    (hu : 0 < single.units pattern) :
    single.nearestDecimal ⟨single.units pattern * Nat.pow 5 single.unitBits, -single.unitBits⟩
      = pattern := by
  have hd : 0 < single.units pattern * Nat.pow 5 149 := Nat.mul_pos hu (by decide)
  have hc := Digits.count_pos (single.units pattern * Nat.pow 5 149)
  show single.nearestDecimal ⟨single.units pattern * Nat.pow 5 149, -149⟩ = pattern
  rw [nearestDecimal_of_digits_pos hd, if_neg (by omega), if_neg (by decide), if_pos (by decide),
    nearest]
  have hn : single.units pattern * Nat.pow 5 149 * single.one
      = Decimal.power 149 * single.units pattern := by
    rw [Nat.mul_assoc, Nat.mul_comm]
    rfl
  have hp : Decimal.power (-149 : Int).natAbs = Decimal.power 149 * 1 := (Nat.mul_one _).symm
  rw [hn, hp, nearestUnits_mul_mul _ (Decimal.power_pos 149), nearestUnits_units _ h]

end BinaryFormat
end TensorConcat
