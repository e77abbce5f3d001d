/-! The axes of tensors and of iteration windows. -/

namespace TensorConcat

/-- The axes x, y, z, the batch, and two more around them. -/
abbrev Axis := Fin 6

namespace Axis

def x : Axis := 0
def y : Axis := 1
def z : Axis := 2
def batch : Axis := 3
def outer : Axis := 4
def outermost : Axis := 5

def inner : List Axis := [x, y, z, batch]

theorem outermost_ne_outer : outermost ≠ outer := by decide

end Axis
end TensorConcat
