import TensorConcat.Numeric.Decimal
import TensorConcat.Numeric.Rounding

/-! Binary floating-point formats. A magnitude is a pattern: the exponent and fraction fields read
as one number. Patterns are ordered as the values they denote, so rounding a quotient means
finding a pattern, and a carry out of the fraction needs no case of its own. -/

namespace TensorConcat

/-- A format with `fractionBits` stored bits of precision, whose exponent field ends at `top`
(reserved for the infinity and the non-numbers) and whose least positive value, the unit, is
`2 ^ (-unitBits)`. -/
structure BinaryFormat where
  fractionBits : Nat
  top : Nat
  unitBits : Nat
deriving DecidableEq, Repr

namespace BinaryFormat

def single : BinaryFormat := ⟨23, 255, 149⟩

def double : BinaryFormat := ⟨52, 2047, 1074⟩

variable (f : BinaryFormat)

def one : Nat :=
  1 <<< f.unitBits

def fractions : Nat :=
  1 <<< f.fractionBits

/-- The pattern of the infinity, the first that is no number. -/
def infinity : Nat :=
  f.top * f.fractions

/-- The value of a pattern, in units. -/
def units (pattern : Nat) : Nat :=
  let field := pattern / f.fractions
  let fraction := pattern % f.fractions
  if field = 0 then fraction else (f.fractions + fraction) <<< (field - 1)

/-- The number of low bits that a value of `n` units has beyond the precision. -/
def excess (n : Nat) : Nat :=
  Nat.log2 n - f.fractionBits

/-- The pattern nearest to `num / den` units; a half goes to the even pattern, and what is too
large goes to the infinity. -/
def nearestUnits (num den : Nat) : Nat :=
  let s := f.excess (num / den)
  min (s * f.fractions + nearestQuotient num (den <<< s)) f.infinity

def nearest (num den : Nat) : Nat :=
  f.nearestUnits (num * f.one) den

/-- The pattern nearest to a decimal. Powers of ten beyond the reach of the format are not
computed. -/
def nearestDecimal (d : Decimal) : Nat :=
  if d.digits = 0 ∨ Digits.count d.digits + d.exponent ≤ -f.unitBits then 0
  else if f.top ≤ d.exponent then f.infinity
  else if d.exponent < 0 then f.nearest d.digits (Decimal.power d.exponent.natAbs)
  else f.nearest (d.digits * Decimal.power d.exponent.natAbs) 1

end BinaryFormat
end TensorConcat
