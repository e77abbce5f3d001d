import TensorConcat.Concat.Operands

/-! The conditions on types and extents that operands have to meet before anything is planned. -/

namespace TensorConcat
namespace Operands

def ensure (condition : Bool) (e : Error) : Except Error Unit :=
  if condition then .ok () else .error e

def checkExtent (o : Operands) (axis : Nat) : Except Error Unit := do
  let output := o.output.extent axis
  ensure (o.first.extent axis = output)
    (.extentMismatch .first axis (o.first.extent axis) output)
  ensure (o.second.extent axis = output)
    (.extentMismatch .second axis (o.second.extent axis) output)

/-- All conditions, in the order in which they are reported. -/
def check (o : Operands) (half : Bool) : Except Error Unit := do
  ensure (o.first.type ≠ .half || half) .halfUnsupported
  ensure (o.first.type ≠ .unknown) .unknownType
  ensure (o.first.type = o.second.type ∧ o.first.type = o.output.type)
    (.mixedTypes o.first.type o.second.type o.output.type)
  ensure (o.first.extent 0 + o.second.extent 0 ≤ o.output.extent 0)
    (.widthsExceedOutput (o.first.extent 0) (o.second.extent 0) (o.output.extent 0))
  [1, 2, 3, 4, 5].forM o.checkExtent
  ensure (o.first.rank ≤ 4) (.inputRankTooLarge o.first.rank)

end Operands
end TensorConcat
