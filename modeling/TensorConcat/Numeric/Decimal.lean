import TensorConcat.Numeric.Digits

/-! Decimal numbers: whole digits times a power of ten. -/

namespace TensorConcat

/-- The number `digits * 10 ^ exponent`. -/
structure Decimal where
  digits : Nat
  exponent : Int
deriving DecidableEq, Repr

namespace Decimal

def power (exponent : Nat) : Nat :=
  Nat.pow 10 exponent

/-- Trailing zeros move into the exponent. -/
def normalize (d : Decimal) : Decimal :=
  if 0 < d.digits ∧ d.digits % 10 = 0 then normalize ⟨d.digits / 10, d.exponent + 1⟩ else d
termination_by d.digits
decreasing_by omega

/-- The number in positional notation: no exponent, no zero after the last place. -/
def positional (d : Decimal) : List Char :=
  let text := Digits.ofNat d.digits
  if 0 ≤ d.exponent then text ++ List.replicate d.exponent.natAbs '0'
  else
    let places := d.exponent.natAbs
    let padded := List.replicate (places + 1 - text.length) '0' ++ text
    padded.take (padded.length - places) ++ '.' :: padded.drop (padded.length - places)

def exponent? : List Char → Option Int
  | [] => some 0
  | e :: rest =>
    if e = 'e' ∨ e = 'E' then
      match rest with
      | '+' :: cs => (Digits.number? cs).map Int.ofNat
      | '-' :: cs => (Digits.number? cs).map fun n => -(n : Int)
      | cs => (Digits.number? cs).map Int.ofNat
    else none

/-- Reads digits with at most one point among them, then an optional exponent. At least one digit
has to stand before or after the point. -/
def ofText? (cs : List Char) : Option Decimal :=
  let whole := cs.takeWhile Digits.isDigit
  let rest := cs.dropWhile Digits.isDigit
  let (places, rest) := match rest with
    | '.' :: tail => (tail.takeWhile Digits.isDigit, tail.dropWhile Digits.isDigit)
    | _ => ([], rest)
  if whole.isEmpty && places.isEmpty then none
  else (exponent? rest).map fun e => ⟨Digits.number (whole ++ places), e - places.length⟩

end Decimal
end TensorConcat
