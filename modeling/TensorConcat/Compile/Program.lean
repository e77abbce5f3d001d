import TensorConcat.Memory.Encoding
import TensorConcat.Compile.BuildOptions
import TensorConcat.Error

/-! Concatenation programs, compiled from build options. -/

namespace TensorConcat

structure Affine where
  offset : Binary32
  scale : Binary32
deriving DecidableEq, Repr

/-- Values of either input are rescaled to the output's parameters. -/
structure Requantization where
  first : Affine
  second : Affine
  output : Affine
deriving DecidableEq, Repr

structure Program where
  storage : Storage
  vectorSize : Nat
  depth : Nat
  firstWidth : Nat
  elementSize : Nat
  requantization? : Option Requantization
deriving DecidableEq, Repr

namespace Affine

/-- Single precision, rounded after every operation, to the nearest integer at the end. -/
def rescale (input output : Affine) (range : Int × Int) (value : Int) : Int :=
  let x := (Binary32.ofInt value - input.offset) * input.scale / output.scale + output.offset
  max range.1 (min range.2 x.toSigned64)

end Affine

namespace BuildOptions

def required (o : BuildOptions) (key : String) : Except Error String :=
  match o.get? key with
  | some value => .ok value
  | none => .error (.missingOption key)

def size (o : BuildOptions) (key : String) : Except Error Nat := do
  let value ← o.required key
  match Digits.size? value.toList with
  | some n => return n
  | none => throw (.optionNotInteger key value)

def number (o : BuildOptions) (key : String) : Except Error Binary32 := do
  let value ← o.required key
  match Binary32.ofOptionText? value.toList with
  | some x => return x
  | none => throw (.optionNotNumber key value)

/-- The options of a requantization, which come all together or not at all. -/
def requantizationKeys : List String :=
  ["OFFSET_IN1", "SCALE_IN1", "OFFSET_IN2", "SCALE_IN2", "OFFSET_OUT", "SCALE_OUT"]

def affine (o : BuildOptions) (offsetKey scaleKey : String) : Except Error Affine := do
  let offset ← o.number offsetKey
  let scale ← o.number scaleKey
  return ⟨offset, scale⟩

def requantization (o : BuildOptions) : Except Error (Option Requantization) := do
  if requantizationKeys.all (!o.contains ·) then return none
  else if requantizationKeys.all (o.contains ·) then
    let first ← o.affine "OFFSET_IN1" "SCALE_IN1"
    let second ← o.affine "OFFSET_IN2" "SCALE_IN2"
    let output ← o.affine "OFFSET_OUT" "SCALE_OUT"
    return some ⟨first, second, output⟩
  else throw (.partialRequantization requantizationKeys)

end BuildOptions

namespace Program

def kernelName : String := "concatenate_width_x2"

def read (o : BuildOptions) : Except Error Program := do
  let typeName ← o.required "DATA_TYPE"
  match Storage.named? typeName with
  | none => throw (.unsupportedStorage typeName)
  | some storage =>
    let vectorSize ← o.size "VEC_SIZE"
    let depth ← o.size "DEPTH"
    let firstWidth ← o.size "INPUT1_WIDTH"
    let elementSize ← o.size "ELEMENT_SIZE"
    let requantization? ← o.requantization
    return { storage, vectorSize, depth, firstWidth, elementSize, requantization? }

def check (p : Program) : Except Error Unit :=
  if p.vectorSize = 0 ∨ p.depth = 0 then .error .emptyVectorOrDepth
  else if p.elementSize ≠ p.storage.size then
    .error (.elementSizeMismatch p.elementSize p.storage.name)
  else if p.requantization?.isSome ∧ p.storage.range?.isNone then
    .error (.noRequantization p.storage.name)
  else .ok ()

def ofOptions (o : BuildOptions) : Except Error Program := do
  let p ← read o
  check p
  return p

end Program
end TensorConcat
