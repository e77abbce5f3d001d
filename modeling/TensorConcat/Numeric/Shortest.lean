import TensorConcat.Numeric.BinaryFormat

/-! The shortest decimal of a binary number: the fewest digits that read back as the same number,
and of those the nearest. The search tests a candidate by reading it back, so what it returns reads
back by construction. -/

namespace TensorConcat

/-- Which of two equally near decimals is taken. -/
inductive DecimalTie where
  | upper
  | even
deriving DecidableEq, Repr

namespace Decimal

def leadingExponent (num den : Nat) : Int :=
  if den ≤ num then Digits.count (num / den) - 1
  else -(Digits.count ((den + num - 1) / num - 1) : Int)

/-- How many times `10 ^ exponent` fits into `num / den`, and how twice the remainder compares with
the step to the next multiple. -/
def floorOnGrid (num den : Nat) (exponent : Int) : Nat × Ordering :=
  let step := power exponent.natAbs
  let n := if exponent < 0 then num * step else num
  let d := if exponent < 0 then den else den * step
  (n / d, compare (2 * (n % d)) d)

/-- The nearer of the two neighbours of `num / den` on one decimal grid among those that pass. -/
def candidate? (tie : DecimalTie) (reads : Decimal → Bool) (num den : Nat) (exponent : Int) :
    Option Decimal :=
  let (q, side) := floorOnGrid num den exponent
  let lower : Decimal := ⟨q, exponent⟩
  let upper : Decimal := ⟨q + 1, exponent⟩
  match reads lower, reads upper, side with
  | false, false, _ => none
  | true, false, _ => some lower
  | false, true, _ => some upper
  | true, true, .lt => some lower
  | true, true, .gt => some upper
  | true, true, .eq =>
    match tie with
    | .upper => some upper
    | .even => some (if q % 2 = 0 then lower else upper)

/-- Tries one grid after the other, each ten times finer, and gives up after `fuel` of them. -/
def search (tie : DecimalTie) (reads : Decimal → Bool) (num den : Nat) :
    (fuel : Nat) → (exponent : Int) → Option Decimal
  | 0, _ => none
  | fuel + 1, exponent =>
    match candidate? tie reads num den exponent with
    | some d => some d
    | none => search tie reads num den fuel (exponent - 1)

/-- The shortest decimal of the positive number with the given pattern. The grid of
`10 ^ (-unitBits)` holds the number itself, which serves when no coarser one does. -/
def shortest (f : BinaryFormat) (tie : DecimalTie) (pattern : Nat) : Decimal :=
  let num := f.units pattern
  let reads (d : Decimal) : Bool := f.nearestDecimal d == pattern
  let first := leadingExponent num f.one
  let found := search tie reads num f.one (first + f.unitBits).toNat first
  (found.getD ⟨num * Nat.pow 5 f.unitBits, -f.unitBits⟩).normalize

theorem candidate?_reads {tie : DecimalTie} {reads : Decimal → Bool} {num den : Nat}
    {exponent : Int} {d : Decimal} (h : candidate? tie reads num den exponent = some d) :
    reads d = true := by
  simp only [candidate?] at h
  split at h
  case h_1 => simp at h
  case h_6 _ _ _ lower upper _ =>
    split at h
    · simpa only [Option.some.inj h] using upper
    · split at h
      · simpa only [Option.some.inj h] using lower
      · simpa only [Option.some.inj h] using upper
  all_goals
    cases h
    assumption

theorem search_reads {tie : DecimalTie} {reads : Decimal → Bool} {num den : Nat} {fuel : Nat}
    {exponent : Int} {d : Decimal} (h : search tie reads num den fuel exponent = some d) :
    reads d = true := by
  induction fuel generalizing exponent with
  | zero => simp [search] at h
  | succ fuel ih =>
    rw [search] at h
    split at h
    next d' hd => exact candidate?_reads (hd.trans h)
    next => exact ih h

end Decimal
end TensorConcat
