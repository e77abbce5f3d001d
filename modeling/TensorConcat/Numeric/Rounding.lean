/-! Rounding of whole numbers: to multiples, to whole steps, and of quotients to the nearest
integer; and the signed reading of a 64-bit size. -/

namespace TensorConcat

def ceilMultiple (n unit : Nat) : Nat :=
  (n + unit - 1) / unit * unit

def floorMultiple (n unit : Nat) : Nat :=
  n / unit * unit

def stepsOver (distance step : Int) : Int :=
  (distance + step - 1) / step

def residue (n unit : Int) : Int :=
  n % unit

/-- The integer nearest to `num / den`; a half goes to the even neighbour. -/
def nearestQuotient (num den : Nat) : Nat :=
  let q := num / den
  let r := 2 * (num % den)
  if r < den ∨ (r = den ∧ q % 2 = 0) then q else q + 1

/-- A size of 64 bits read as a signed number: the representative modulo `2 ^ 64` in
`[-2 ^ 63, 2 ^ 63)`. -/
def signed64 (n : Nat) : Int :=
  (n : Int).bmod 0x10000000000000000

def clampSigned64 (n : Int) : Int :=
  max (-0x8000000000000000) (min n 0x7fffffffffffffff)

theorem dvd_ceilMultiple (n unit : Nat) : unit ∣ ceilMultiple n unit :=
  Nat.dvd_mul_left unit _

theorem nearestQuotient_mul (n : Nat) {den : Nat} (h : 0 < den) :
    nearestQuotient (n * den) den = n := by
  simp [nearestQuotient, Nat.mul_div_cancel n h, h]

theorem signed64_of_lt {n : Nat} (h : n < 0x8000000000000000) : signed64 n = n := by
  apply Int.bmod_eq_of_le <;> omega

end TensorConcat
