import TensorConcat.Iteration.Window

/-! Ranges of work items in three directions. -/

namespace TensorConcat

structure LaunchRange where
  x : Nat
  y : Nat
  z : Nat
deriving DecidableEq, Repr

namespace LaunchRange

/-- One work item for each step of a window; its axes z and batch share the last direction. -/
def ofWindow (w : Window) : LaunchRange :=
  ⟨(w.span .x).wholeSteps, (w.span .y).wholeSteps,
    (w.span .z).wholeSteps * (w.span .batch).wholeSteps⟩

def isEmpty (r : LaunchRange) : Bool :=
  r.x == 0 || r.y == 0 || r.z == 0

def count (r : LaunchRange) : Nat :=
  r.x * r.y * r.z

/-- Groups of this size cover a range exactly. -/
def divides (r whole : LaunchRange) : Bool :=
  !r.isEmpty && whole.x % r.x == 0 && whole.y % r.y == 0 && whole.z % r.z == 0

end LaunchRange
end TensorConcat
