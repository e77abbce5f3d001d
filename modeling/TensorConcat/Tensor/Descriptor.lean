import TensorConcat.Numeric.Binary32
import TensorConcat.Tensor.ElementType
import TensorConcat.Tensor.Shape

/-! Descriptors of tensors: shape, element type, quantization, padding around each plane, and the
region that holds meaningful values. -/

namespace TensorConcat

/-- A stored value `v` stands for `scale * (v - offset)`. -/
structure Quantization where
  scale : Binary32
  offset : Int
deriving DecidableEq, Repr

namespace Quantization

def blank : Quantization := ⟨Binary32.zero, 0⟩

/-- Equal as numbers, so that a scale which is no number differs from itself. -/
def agrees : Option Quantization → Option Quantization → Bool
  | none, none => true
  | some p, some q => p.scale.equals q.scale && p.offset == q.offset
  | _, _ => false

end Quantization

/-- Elements around each plane of a tensor. -/
structure Padding where
  top : Nat
  right : Nat
  bottom : Nat
  left : Nat
deriving DecidableEq, Repr

namespace Padding

def none : Padding := ⟨0, 0, 0, 0⟩

def horizontal (left right : Nat) : Padding := ⟨0, right, 0, left⟩

def max (p q : Padding) : Padding :=
  ⟨Nat.max p.top q.top, Nat.max p.right q.right, Nat.max p.bottom q.bottom, Nat.max p.left q.left⟩

end Padding

/-- A box of coordinates: where it starts, and its extents. -/
structure ValidRegion where
  anchor : Vector Nat 6
  shape : Shape
deriving DecidableEq, Repr

namespace ValidRegion

def full (s : Shape) : ValidRegion :=
  ⟨Vector.replicate 6 0, s⟩

end ValidRegion

structure Descriptor where
  shape : Shape
  type : ElementType
  quantization? : Option Quantization
  padding : Padding
  /-- The tensor is not allocated yet, so its padding can grow. -/
  resizable : Bool
  valid : ValidRegion
deriving DecidableEq, Repr

namespace Descriptor

/-- No quantization, no padding, not allocated, and valid everywhere. -/
def ofShape (shape : Shape) (type : ElementType) : Descriptor :=
  ⟨shape, type, none, .none, true, .full shape⟩

def extent (d : Descriptor) (axis : Nat) : Nat :=
  d.shape.extent axis

def rank (d : Descriptor) : Nat :=
  d.shape.rank

def elementSize (d : Descriptor) : Nat :=
  d.type.size

def quantization (d : Descriptor) : Quantization :=
  d.quantization?.getD .blank

/-- Grows the padding to cover `p`, unless the tensor is allocated. -/
def extend (d : Descriptor) (p : Padding) : Descriptor :=
  if d.resizable then { d with padding := d.padding.max p } else d

def differsFrom (d : Descriptor) (others : List Descriptor) : Bool :=
  others.any fun o => !Quantization.agrees o.quantization? d.quantization?

end Descriptor
end TensorConcat
