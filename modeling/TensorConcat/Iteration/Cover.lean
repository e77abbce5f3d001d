import TensorConcat.Iteration.Window
import TensorConcat.Tensor.Descriptor

/-! The window that covers a region of a tensor. -/

namespace TensorConcat
namespace Window

/-- The step along an axis: one where no step is given, and at least one. -/
def stepAt (steps : List Nat) (axis : Nat) : Nat :=
  max 1 (steps.getD axis 1)

/-- The range over an extent from an anchor on. It is rounded up to whole steps on the axes x and y;
on the others it holds at least one point. -/
def coverSpan (region : ValidRegion) (steps : List Nat) (a : Axis) : Span :=
  let anchor := signed64 (region.anchor.get a)
  let step := stepAt steps a
  let extent := region.shape.extent a
  let length := if a ≤ Axis.y then ceilMultiple extent step else max extent 1
  let stop := anchor + signed64 length
  (Span.ofBounds? anchor stop (signed64 step)).getD (.between anchor stop)

def cover (region : ValidRegion) (steps : List Nat) : Window :=
  ofSpans (coverSpan region steps)

end Window
end TensorConcat
