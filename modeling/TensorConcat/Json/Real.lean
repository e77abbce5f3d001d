import TensorConcat.Json.Value
import TensorConcat.Numeric.Binary32
import TensorConcat.Numeric.Shortest

/-! Numbers of JSON text as machine numbers. A literal is an integer of 64 bits, or else a double:
as much of its digits as 64 bits hold, times or over a power of ten. -/

namespace TensorConcat
namespace Json

/-- What a literal denotes before its reader chooses a type: a size, a negative integer, or the sign
and pattern of a double. -/
inductive Real where
  | size (n : Nat)
  | negative (n : Int)
  | double (sign : Bool) (pattern : Nat)
deriving DecidableEq, Repr

namespace Real

/-- Takes digits into a significand of 64 bits as long as they fit. -/
def absorb (significand : Nat) : List Char → Nat × List Char
  | [] => (significand, [])
  | c :: cs =>
    let next := 10 * significand + (Digits.value? c).getD 0
    if next < 0x10000000000000000 then absorb next cs else (significand, c :: cs)

/-- The significand and the exponent of ten that the digits of a literal leave it with: a dropped
digit before the point raises the exponent, a taken one after the point lowers it. -/
def significand (whole fraction : List Char) : Nat × Int :=
  let (n, dropped) := absorb 0 whole
  let (n, unused) := absorb n fraction
  (n, dropped.length - (fraction.length - unused.length : Nat))

abbrev doubles : BinaryFormat := .double

def power (exponent : Nat) : Nat :=
  doubles.nearest (Decimal.power exponent) 1

def product (x y : Nat) : Nat :=
  doubles.nearestUnits (doubles.units x * doubles.units y) doubles.one

def quotient (x y : Nat) : Nat :=
  doubles.nearestUnits (doubles.units x * doubles.one) (doubles.units y)

def lastPower : Nat := 308

/-- Divides by a power of ten, by the last one as long as the exponent is beyond it. -/
def divide (x : Nat) (exponent : Nat) : Nat :=
  if exponent ≤ lastPower then quotient x (power exponent)
  else if x = 0 then 0
  else divide (quotient x (power lastPower)) (exponent - lastPower)
termination_by exponent
decreasing_by simp only [lastPower] at *; omega

def scale? (n : Nat) (exponent : Int) : Option Nat :=
  let x := doubles.nearest n 1
  if exponent < 0 then some (divide x exponent.natAbs)
  else if lastPower < exponent.natAbs then
    if x = 0 then some 0 else none
  else
    let y := product x (power exponent.natAbs)
    if doubles.infinity ≤ y then none else some y

/-- An exponent of more than 31 bits makes a number zero or too large on its own. -/
def ofParts? (sign : Bool) (n : Nat) (shift written : Int) : Option Real :=
  if written.natAbs < 0x80000000 then (scale? n (shift + written)).map (.double sign)
  else if n ≠ 0 ∧ 0 < written then none
  else some (.double sign 0)

def ofNumber? (x : Number) : Option Real :=
  match x.fraction, x.exponent with
  | [], none =>
    let n := Digits.number x.whole
    if !x.negative && decide (n < 0x10000000000000000) then some (.size n)
    else if x.negative && decide (0 < n ∧ n ≤ 0x8000000000000000) then some (.negative (-n))
    else
      let (m, shift) := significand x.whole []
      ofParts? x.negative m shift 0
  | fraction, exponent =>
    let (m, shift) := significand x.whole fraction
    ofParts? x.negative m shift (exponent.getD 0)

def toBinary32 : Real → Binary32
  | .size n => .ofInt n
  | .negative n => .ofInt n
  | .double sign pattern =>
    .ofPattern sign (BinaryFormat.single.nearest (doubles.units pattern) doubles.one)

end Real

/-- The literal of a finite number: fewest digits, a half to the even one. The point is written out
for a leading digit up to thirteen places from it and five zeros below it; else there is an
exponent. -/
def Number.ofFinite (x : Binary32) : Number :=
  if x.pattern = 0 then ⟨x.negative, ['0'], ['0'], none⟩
  else
    let d := Decimal.shortest .single .even x.pattern
    let places := Digits.ofNat d.digits
    let point := places.length + d.exponent
    if 0 ≤ d.exponent ∧ point ≤ 13 then
      ⟨x.negative, places ++ List.replicate d.exponent.natAbs '0', ['0'], none⟩
    else if 0 < point ∧ point ≤ 13 then
      ⟨x.negative, places.take point.natAbs, places.drop point.natAbs, none⟩
    else if -6 < point ∧ point ≤ 0 then
      ⟨x.negative, ['0'], List.replicate point.natAbs '0' ++ places, none⟩
    else ⟨x.negative, places.take 1, places.drop 1, some (point - 1)⟩

/-- A number that is not finite has no literal. -/
def ofBinary32 (x : Binary32) : Json :=
  if x.isFinite then .number (.ofFinite x) else .null

end Json
end TensorConcat
