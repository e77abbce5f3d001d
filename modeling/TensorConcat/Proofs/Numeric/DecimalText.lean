import TensorConcat.Numeric.Binary32Text
import TensorConcat.Proofs.Numeric.NearestDecimal

/-! Decimals written positionally are read as decimals of the same value. -/

namespace TensorConcat
namespace Digits

theorem ne_of_isDigit {c d : Char} (hc : isDigit c = true) (hd : isDigit d = false) : c ≠ d := by
  rintro rfl
  simp [hc] at hd

theorem continueFrom_zeros (start n : Nat) :
    continueFrom start (List.replicate n '0') = start * Decimal.power n := by
  induction n generalizing start with
  | zero => exact (Nat.mul_one start).symm
  | succ n ih =>
    have h0 : value? '0' = some 0 := by decide
    rw [List.replicate_succ, continueFrom, ih, h0, Decimal.power_succ]
    simp only [Option.getD_some, Nat.add_zero, Nat.mul_comm 10, Nat.mul_assoc]

theorem number_append_zeros (n e : Nat) :
    number (ofNat n ++ List.replicate e '0') = n * Decimal.power e := by
  rw [number, continueFrom_append, continueFrom_zeros]
  exact congrArg (· * _) (number_ofNat n)

theorem number_zeros_append (k n : Nat) : number (List.replicate k '0' ++ ofNat n) = n := by
  rw [number, continueFrom_append, continueFrom_zeros, Nat.zero_mul]
  exact number_ofNat n

theorem isDigit_of_mem_zeros {k : Nat} {c : Char} (h : c ∈ List.replicate k '0') :
    isDigit c = true := by
  rw [List.eq_of_mem_replicate h]
  decide

theorem isDigit_of_mem_ofNat {n : Nat} {c : Char} (h : c ∈ ofNat n) : isDigit c = true :=
  List.all_eq_true.1 (all_isDigit_ofNat n) c h

end Digits

namespace Decimal

theorem takeWhile_digits {ds : List Char} (hd : ∀ c ∈ ds, Digits.isDigit c = true)
    (rest : List Char) (hr : rest.takeWhile Digits.isDigit = []) :
    (ds ++ rest).takeWhile Digits.isDigit = ds := by
  rw [List.takeWhile_append_of_pos hd, hr, List.append_nil]

theorem dropWhile_digits {ds : List Char} (hd : ∀ c ∈ ds, Digits.isDigit c = true)
    (rest : List Char) (hr : rest.dropWhile Digits.isDigit = rest) :
    (ds ++ rest).dropWhile Digits.isDigit = rest := by
  rw [List.dropWhile_append_of_pos hd, hr]

theorem ofText?_digits {ds : List Char} (hne : ds ≠ [])
    (hd : ∀ c ∈ ds, Digits.isDigit c = true) : ofText? ds = some ⟨Digits.number ds, 0⟩ := by
  have ht : ds.takeWhile Digits.isDigit = ds := by
    simpa using takeWhile_digits hd [] rfl
  have hr : ds.dropWhile Digits.isDigit = [] := by
    simpa using dropWhile_digits hd [] rfl
  simp [ofText?, ht, hr, hne, exponent?]

theorem ofText?_point {whole places : List Char} (hne : whole ≠ [])
    (hw : ∀ c ∈ whole, Digits.isDigit c = true) (hp : ∀ c ∈ places, Digits.isDigit c = true) :
    ofText? (whole ++ '.' :: places)
      = some ⟨Digits.number (whole ++ places), -(places.length : Int)⟩ := by
  have hdot : Digits.isDigit '.' = false := by decide
  have ht := takeWhile_digits hw ('.' :: places) (by simp [hdot])
  have hr := dropWhile_digits hw ('.' :: places) (by simp [hdot])
  have ht' : places.takeWhile Digits.isDigit = places := by
    simpa using takeWhile_digits hp [] rfl
  have hr' : places.dropWhile Digits.isDigit = [] := by
    simpa using dropWhile_digits hp [] rfl
  simp [ofText?, ht, hr, ht', hr', hne, exponent?]

theorem positional_of_neg {d : Decimal} (h : d.exponent < 0) :
    ∃ whole places : List Char, d.positional = whole ++ '.' :: places ∧ whole ≠ [] ∧
      (∀ c ∈ whole ++ places, Digits.isDigit c = true) ∧
      Digits.number (whole ++ places) = d.digits ∧ (places.length : Int) = -d.exponent := by
  let text := Digits.ofNat d.digits
  let padded := List.replicate (d.exponent.natAbs + 1 - text.length) '0' ++ text
  -- The zeros in front leave at least one digit before the point.
  have hl : d.exponent.natAbs < padded.length := by
    simp only [padded, List.length_append, List.length_replicate]
    omega
  have hjoin (n : Nat) : padded.take n ++ padded.drop n = padded := List.take_append_drop ..
  refine ⟨_, _, if_neg (Int.not_le.2 h), ?_, ?_, ?_, ?_⟩
  · apply List.ne_nil_of_length_pos
    rw [List.length_take]
    exact Nat.lt_min.2 ⟨Nat.sub_pos_of_lt hl, Nat.zero_lt_of_lt hl⟩
  · rw [hjoin]
    intro c hc
    exact (List.mem_append.1 hc).elim Digits.isDigit_of_mem_zeros Digits.isDigit_of_mem_ofNat
  · rw [hjoin]
    exact Digits.number_zeros_append _ _
  · rw [List.length_drop]
    show ((padded.length - (padded.length - d.exponent.natAbs) : Nat) : Int) = -d.exponent
    omega

theorem positional_of_nonneg {d : Decimal} (h : 0 ≤ d.exponent) :
    d.positional = Digits.ofNat d.digits ++ List.replicate d.exponent.natAbs '0' :=
  if_pos h

theorem isDigit_of_mem_positional {d : Decimal} {c : Char}
    (hc : c ∈ Digits.ofNat d.digits ++ List.replicate d.exponent.natAbs '0') :
    Digits.isDigit c = true :=
  (List.mem_append.1 hc).elim Digits.isDigit_of_mem_ofNat Digits.isDigit_of_mem_zeros

theorem ofText?_positional (d : Decimal) :
    ∃ r, ofText? d.positional = some r ∧
      BinaryFormat.single.nearestDecimal r = BinaryFormat.single.nearestDecimal d := by
  by_cases h : d.exponent < 0
  · obtain ⟨whole, places, ht, hne, hd, hn, hl⟩ := positional_of_neg h
    rw [ht, ofText?_point hne (fun c hc => hd c (List.mem_append_left _ hc))
      (fun c hc => hd c (List.mem_append_right _ hc)), hn, hl, Int.neg_neg]
    exact ⟨d, rfl, rfl⟩
  · have h0 : 0 ≤ d.exponent := Int.not_lt.1 h
    have hne : Digits.ofNat d.digits ++ List.replicate d.exponent.natAbs '0' ≠ [] := by
      simp [Digits.ofNat_ne_nil]
    rw [positional_of_nonneg h0, ofText?_digits hne fun _ => isDigit_of_mem_positional,
      Digits.number_append_zeros]
    refine ⟨_, rfl, ?_⟩
    rw [BinaryFormat.nearestDecimal_expand, Int.natAbs_of_nonneg h0]

theorem positional_chars (d : Decimal) :
    (∀ c ∈ d.positional, Digits.isDigit c = true ∨ c = '.') ∧
      ∃ c rest, d.positional = c :: rest ∧ Digits.isDigit c = true := by
  by_cases h : d.exponent < 0
  · obtain ⟨whole, places, ht, hne, hd, -, -⟩ := positional_of_neg h
    rw [ht]
    constructor
    · intro c hc
      rcases List.mem_append.1 hc with hc | hc
      · exact Or.inl (hd c (List.mem_append_left _ hc))
      · rcases List.mem_cons.1 hc with rfl | hc
        · exact Or.inr rfl
        · exact Or.inl (hd c (List.mem_append_right _ hc))
    · obtain ⟨c, rest, rfl⟩ := List.exists_cons_of_ne_nil hne
      exact ⟨c, rest ++ '.' :: places, rfl, hd c (by simp)⟩
  · have h0 : 0 ≤ d.exponent := Int.not_lt.1 h
    rw [positional_of_nonneg h0]
    refine ⟨fun c hc => Or.inl (isDigit_of_mem_positional hc), ?_⟩
    obtain ⟨c, rest, hc⟩ := List.exists_cons_of_ne_nil (Digits.ofNat_ne_nil d.digits)
    refine ⟨c, rest ++ List.replicate d.exponent.natAbs '0', by rw [hc]; rfl, ?_⟩
    exact Digits.isDigit_of_mem_ofNat (n := d.digits) (by simp [hc])

theorem nearestDecimal_shortest {pattern : Nat} (h : pattern < BinaryFormat.single.infinity)
    (hu : 0 < BinaryFormat.single.units pattern) :
    BinaryFormat.single.nearestDecimal (shortest .single .upper pattern) = pattern := by
  simp only [shortest]
  rw [BinaryFormat.nearestDecimal_normalize]
  generalize hs : search _ _ _ _ _ _ = found
  cases found with
  | none => exact BinaryFormat.nearestDecimal_exact h hu
  | some d => exact eq_of_beq (search_reads hs)

end Decimal

end TensorConcat
