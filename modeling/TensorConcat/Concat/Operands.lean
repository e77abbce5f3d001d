import TensorConcat.Compile.Program
import TensorConcat.Tensor.Layout

/-! The operands of a concatenation along the x axis, and what a program needs to know of them. -/

namespace TensorConcat

structure Operands where
  first : Descriptor
  second : Descriptor
  output : Descriptor
deriving DecidableEq, Repr

structure Rescaling where
  first : Quantization
  second : Quantization
  output : Quantization
deriving DecidableEq, Repr

namespace Operands

/-- Affine values are rescaled unless all three tensors agree on their quantization. -/
def rescaling? (o : Operands) : Option Rescaling :=
  if o.first.type.isAffine && o.output.differsFrom [o.first, o.second] then
    some ⟨o.first.quantization, o.second.quantization, o.output.quantization⟩
  else none

def vectorWidth : Nat := 8

def rescalingOptions (b : BuildOptions) (r : Rescaling) : BuildOptions :=
  (((((b.defineInt "OFFSET_IN1" r.first.offset).defineFloat "SCALE_IN1" r.first.scale).defineInt
    "OFFSET_IN2" r.second.offset).defineFloat "SCALE_IN2" r.second.scale).defineInt
    "OFFSET_OUT" r.output.offset).defineFloat "SCALE_OUT" r.output.scale

def buildOptions (o : Operands) : Except Error BuildOptions :=
  match o.first.type.storage? with
  | none => .error (.noStorage o.first.type)
  | some storage =>
    let plain := ((((BuildOptions.empty.define "DATA_TYPE" storage.name).defineNat
      "VEC_SIZE" vectorWidth).defineNat "DEPTH" (o.first.extent 2)).defineNat
      "INPUT1_WIDTH" (o.first.extent 0)).defineNat "ELEMENT_SIZE" o.first.elementSize
    .ok (match o.rescaling? with
      | none => plain
      | some r => rescalingOptions plain r)

/-- The parts of the configuration id: the operation, the element type, and the widths and heights
of both inputs. -/
def configIdParts (o : Operands) : List (List Char) :=
  [Program.kernelName.toList, o.first.type.name.toList.map Char.toLower,
    Digits.ofNat (o.first.extent 0), Digits.ofNat (o.first.extent 1),
    Digits.ofNat (o.second.extent 0), Digits.ofNat (o.second.extent 1)]

def configId (o : Operands) : String :=
  String.ofList (['_'].intercalate o.configIdParts)

end Operands
end TensorConcat
