import TensorConcat.Proofs.Numeric.DecimalText

/-! Reading back the texts of build options. A finite number and every integer are read as what was
written; an infinity is not read at all, since the mark of a float joins its name. -/

namespace TensorConcat
namespace Binary32

theorem ofPattern_pattern (x : Binary32) : ofPattern x.negative x.pattern = x := by
  obtain ⟨bits⟩ := x
  have hb := bits.toNat_lt
  have hn : bits.toNat % 0x80000000 + (if negative ⟨bits⟩ then 0x80000000 else 0) = bits.toNat := by
    simp only [negative, decide_eq_true_eq]
    split <;> omega
  rw [ofPattern, pattern, hn, UInt32.ofNat_toNat]

theorem units_pos {pattern : Nat} (h : pattern ≠ 0) : 0 < BinaryFormat.single.units pattern := by
  have hp := Nat.div_add_mod pattern BinaryFormat.single.fractions
  have hf := BinaryFormat.single.fractions_pos
  simp only [BinaryFormat.units]
  split
  next h0 =>
    rw [h0] at hp
    omega
  next =>
    rw [Nat.shiftLeft_eq]
    exact Nat.mul_pos (by omega) (Nat.two_pow_pos _)

theorem strip_marks {cs : List Char} (h : 'f' ∉ cs) :
    ofOptionText? cs = ofText? cs ∧ ofOptionText? (cs ++ ['f']) = ofText? cs := by
  have hstop : cs.reverse.dropWhile (· = 'f') = cs.reverse := by
    cases hr : cs.reverse with
    | nil => rfl
    | cons c rest =>
      have hc : c ≠ 'f' := by
        rintro rfl
        exact h (List.mem_reverse.1 (hr ▸ List.mem_cons_self ..))
      simp [hc]
  constructor
  · rw [ofOptionText?, hstop, List.reverse_reverse]
  · rw [ofOptionText?, List.reverse_append]
    simp [hstop]

theorem ofText?_signed (negative : Bool) {c : Char} (hc : Digits.isDigit c = true)
    (rest : List Char) :
    ofText? ((if negative then ['-'] else []) ++ c :: rest) = ofMagnitude? negative (c :: rest) := by
  cases negative with
  | true => rfl
  | false =>
    have hp : c ≠ '+' := Digits.ne_of_isDigit hc (by decide)
    have hm : c ≠ '-' := Digits.ne_of_isDigit hc (by decide)
    simp only [Bool.false_eq_true, if_false, List.nil_append]
    unfold ofText?
    split <;> simp_all

/-- One non-number stands for all: they have one text. -/
def canonical (x : Binary32) : Binary32 :=
  if x.isNaN then nan else x

theorem toText_of_finite {x : Binary32} (h : x.isFinite = true) :
    'f' ∉ x.toText ∧ ofText? x.toText = some x := by
  have hp : x.pattern < BinaryFormat.single.infinity := of_decide_eq_true h
  have hnan : x.isNaN = false := by simpa [isNaN] using Nat.le_of_lt hp
  have hinf : x.isInfinite = false := by simpa [isInfinite] using Nat.ne_of_lt hp
  have hsign : 'f' ∉ (if x.negative then ['-'] else []) := by split <;> decide
  by_cases h0 : x.pattern = 0
  · have ht : x.toText = (if x.negative then ['-'] else []) ++ '0' :: [] := by
      simp [toText, hnan, hinf, h0]
    refine ⟨by simp [ht], ?_⟩
    have hz : Decimal.ofText? ['0'] = some ⟨0, 0⟩ := by decide
    rw [ht, ofText?_signed _ (by decide), ofMagnitude?, hz]
    show some (ofPattern x.negative 0) = some x
    rw [← h0, ofPattern_pattern]
  · obtain ⟨chars, c, rest, hc, hd⟩ :=
      Decimal.positional_chars (Decimal.shortest .single .upper x.pattern)
    have ht : x.toText = (if x.negative then ['-'] else []) ++ c :: rest := by
      simp only [toText, hnan, hinf, h0, Bool.false_eq_true, if_false, hc]
    obtain ⟨r, hr, hv⟩ := Decimal.ofText?_positional (Decimal.shortest .single .upper x.pattern)
    rw [hc] at hr chars
    constructor
    · rw [ht, List.mem_append, not_or]
      refine ⟨hsign, ?_⟩
      intro hf
      rcases chars _ hf with hf | hf <;> exact absurd hf (by decide)
    · rw [ht, ofText?_signed _ hd, ofMagnitude?, hr]
      show some (ofPattern x.negative (BinaryFormat.single.nearestDecimal r)) = some x
      rw [hv, Decimal.nearestDecimal_shortest hp (units_pos h0), ofPattern_pattern]

theorem ofOptionText?_optionText (x : Binary32) :
    ofOptionText? x.optionText = if x.isInfinite then none else some x.canonical := by
  by_cases hn : x.isNaN = true
  · have hp : BinaryFormat.single.infinity < x.pattern := of_decide_eq_true hn
    have hinf : x.isInfinite = false := by simpa [isInfinite] using Nat.ne_of_gt hp
    have hfin : x.isFinite = false := by simpa [isFinite] using Nat.le_of_lt hp
    have ht : x.optionText = "NaNf".toList := by simp [optionText, isWhole, toText, hfin, hn]
    have hr : ofOptionText? "NaNf".toList = some nan := by decide
    rw [ht, hinf, hr]
    simp [canonical, hn]
  · by_cases hi : x.isInfinite = true
    · have hp : x.pattern = BinaryFormat.single.infinity := eq_of_beq hi
      have hfin : x.isFinite = false := by simp [isFinite, hp]
      have hr : ∀ negative : Bool, ofOptionText?
          ((if negative then ['-'] else []) ++ "inf".toList ++ ['f']) = none := by decide
      rw [if_pos hi]
      simpa [optionText, isWhole, toText, hfin, hn, hi] using hr x.negative
    · have hfin : x.isFinite = true := by
        simp only [isNaN, isInfinite, isFinite, decide_eq_true_eq, beq_iff_eq] at *
        omega
      obtain ⟨marks, value⟩ := toText_of_finite hfin
      rw [if_neg hi, canonical, if_neg hn, ← value, optionText]
      split
      · exact (strip_marks marks).1
      · exact (strip_marks marks).2

theorem ofOptionText?_ofInt (n : Int) : ofOptionText? (Digits.ofInt n) = some (ofInt n) := by
  obtain ⟨c, rest, hc⟩ := List.exists_cons_of_ne_nil (Digits.ofNat_ne_nil n.natAbs)
  have digits : ∀ d ∈ c :: rest, Digits.isDigit d = true := fun d hd =>
    Digits.isDigit_of_mem_ofNat (hc ▸ hd)
  have ht : Digits.ofInt n = (if decide (n < 0) then ['-'] else []) ++ c :: rest := by
    rw [Digits.ofInt, hc]
    by_cases hneg : n < 0 <;> simp [hneg]
  have marks : 'f' ∉ Digits.ofInt n := by
    rw [ht, List.mem_append, not_or]
    exact ⟨by split <;> decide, fun hf => absurd (digits _ hf) (by decide)⟩
  rw [(strip_marks marks).1, ht, ofText?_signed _ (digits c (List.mem_cons_self ..)), ofMagnitude?,
    Decimal.ofText?_digits (List.cons_ne_nil c rest) digits, ← hc, Digits.number_ofNat]
  have hv : BinaryFormat.single.nearestDecimal ⟨n.natAbs, 0⟩
      = BinaryFormat.single.nearest n.natAbs 1 := by
    by_cases h0 : n.natAbs = 0
    · rw [h0]
      decide
    · rw [BinaryFormat.nearestDecimal_of_digits_pos (Nat.pos_of_ne_zero h0), if_neg (by omega),
        if_neg (by decide), if_neg (by decide)]
      exact congrArg (BinaryFormat.single.nearest · 1) (Nat.mul_one _)
  show some (ofPattern _ (BinaryFormat.single.nearestDecimal ⟨n.natAbs, 0⟩)) = some (ofInt n)
  rw [hv, ofInt]

end Binary32
end TensorConcat
