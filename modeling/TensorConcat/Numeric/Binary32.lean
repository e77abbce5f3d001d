import TensorConcat.Numeric.BinaryFormat

/-! Single-precision numbers as their bits. Every operation is its exact result rounded once, to
the nearest number, a half to the even pattern. -/

namespace TensorConcat

structure Binary32 where
  bits : UInt32
deriving DecidableEq, Repr

namespace Binary32

abbrev format : BinaryFormat := .single

def ofPattern (negative : Bool) (pattern : Nat) : Binary32 :=
  ⟨UInt32.ofNat (pattern + if negative then 0x80000000 else 0)⟩

def negative (x : Binary32) : Bool :=
  0x80000000 ≤ x.bits.toNat

def pattern (x : Binary32) : Nat :=
  x.bits.toNat % 0x80000000

def isNaN (x : Binary32) : Bool :=
  format.infinity < x.pattern

def isInfinite (x : Binary32) : Bool :=
  x.pattern == format.infinity

def isFinite (x : Binary32) : Bool :=
  x.pattern < format.infinity

def nan : Binary32 := ⟨0x7fc00000⟩

def zero : Binary32 := ⟨0⟩

def infinity (negative : Bool) : Binary32 :=
  ofPattern negative format.infinity

instance : Inhabited Binary32 := ⟨zero⟩

/-- The value of a finite number, in units. -/
def units (x : Binary32) : Int :=
  if x.negative then -(format.units x.pattern : Int) else format.units x.pattern

def isWhole (x : Binary32) : Bool :=
  x.isFinite && format.units x.pattern % format.one == 0

/-- Equality of values: a non-number equals nothing, and both zeros are equal. -/
def equals (x y : Binary32) : Bool :=
  !x.isNaN && !y.isNaN && (x.bits == y.bits || (x.pattern == 0 && y.pattern == 0))

def neg (x : Binary32) : Binary32 :=
  ofPattern (!x.negative) x.pattern

def add (x y : Binary32) : Binary32 :=
  if x.isNaN || y.isNaN then nan
  else if x.isInfinite then
    if y.isInfinite && x.negative != y.negative then nan else x
  else if y.isInfinite then y
  else
    let sum := x.units + y.units
    if sum = 0 then ofPattern (x.negative && y.negative) 0
    else ofPattern (decide (sum < 0)) (format.nearestUnits sum.natAbs 1)

def sub (x y : Binary32) : Binary32 :=
  add x y.neg

def mul (x y : Binary32) : Binary32 :=
  let sign := x.negative != y.negative
  if x.isNaN || y.isNaN then nan
  else if x.isInfinite || y.isInfinite then
    if x.pattern = 0 ∨ y.pattern = 0 then nan else infinity sign
  else
    ofPattern sign
      (format.nearestUnits (format.units x.pattern * format.units y.pattern) format.one)

def div (x y : Binary32) : Binary32 :=
  let sign := x.negative != y.negative
  if x.isNaN || y.isNaN then nan
  else if x.isInfinite then
    if y.isInfinite then nan else infinity sign
  else if y.isInfinite then ofPattern sign 0
  else if y.pattern = 0 then
    if x.pattern = 0 then nan else infinity sign
  else
    ofPattern sign
      (format.nearestUnits (format.units x.pattern * format.one) (format.units y.pattern))

instance : Add Binary32 := ⟨add⟩
instance : Sub Binary32 := ⟨sub⟩
instance : Mul Binary32 := ⟨mul⟩
instance : Div Binary32 := ⟨div⟩

def ofInt (n : Int) : Binary32 :=
  ofPattern (decide (n < 0)) (format.nearest n.natAbs 1)

/-- The nearest integer, a half to the even one, as far as 64 bits hold it; zero for a
non-number. -/
def toSigned64 (x : Binary32) : Int :=
  if x.isNaN then 0
  else
    let magnitude : Int := nearestQuotient (format.units x.pattern) format.one
    clampSigned64 (if x.negative then -magnitude else magnitude)

end Binary32
end TensorConcat
