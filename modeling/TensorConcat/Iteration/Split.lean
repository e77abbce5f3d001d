import TensorConcat.Iteration.Window

/-! Splitting a window along an axis into parts of nearly equal size. -/

namespace TensorConcat
namespace Span

/-- The part with the given index out of `count`: the points are dealt in order, and the first parts
take one of the remaining points each. -/
def part (s : Span) (index count : Nat) : Span :=
  let count := signed64 count
  let index := signed64 index
  let each := s.iterations.tdiv count
  let remaining := s.iterations.tmod count
  let first := each * index + (if index < remaining then index else remaining)
  let points := if index < remaining then each + 1 else each
  let start := s.start + first * s.step
  ⟨start, max (min s.stop (start + points * s.step)) start, s.step, s.step_pos⟩

end Span

namespace Window

def part (w : Window) (a : Axis) (index count : Nat) : Window :=
  w.set a ((w.span a).part index count)

end Window
end TensorConcat
