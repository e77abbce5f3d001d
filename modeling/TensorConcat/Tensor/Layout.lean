import TensorConcat.Tensor.Descriptor

/-! The byte layout of a padded tensor: rows of elements, planes of rows, and so on outwards. Only
the two inner axes are padded. -/

namespace TensorConcat
namespace Descriptor

/-- The extent along an axis with the padding on both of its sides. -/
def paddedExtent (d : Descriptor) : (axis : Nat) → Nat
  | 0 => d.padding.left + d.extent 0 + d.padding.right
  | 1 => d.padding.top + d.extent 1 + d.padding.bottom
  | axis + 2 => d.extent (axis + 2)

/-- The distance in bytes between neighbours along an axis. -/
def stride (d : Descriptor) : (axis : Nat) → Nat
  | 0 => d.elementSize
  | axis + 1 => d.stride axis * d.paddedExtent axis

def strides (d : Descriptor) : List Nat :=
  (List.range 6).map d.stride

def firstOffset (d : Descriptor) : Nat :=
  d.padding.top * d.stride 1 + d.padding.left * d.stride 0

def totalSize (d : Descriptor) : Nat :=
  d.stride 6

/-- The sum of the products of two lists; surplus entries of one do not count. -/
def dot : List Nat → List Nat → Nat
  | x :: xs, y :: ys => x * y + dot xs ys
  | _, _ => 0

def offsetOf (d : Descriptor) (coordinates : List Nat) : Nat :=
  d.firstOffset + dot coordinates d.strides

/-- The offsets of a grid that starts at `base`, the last axis in the list fastest. -/
def gridOffsets (base : Nat) : (axes : List (Nat × Nat)) → List Nat
  | [] => [base]
  | (extent, stride) :: inner =>
    (List.range extent).flatMap fun i => gridOffsets (base + i * stride) inner

def outerAxes (d : Descriptor) : List (Nat × Nat) :=
  ((List.range 6).map fun axis => (d.extent axis, d.stride axis)).reverse

/-- The offsets of all elements, x fastest. -/
def elementOffsets (d : Descriptor) : List Nat :=
  if d.outerAxes.any (·.1 = 0) then [] else gridOffsets d.firstOffset d.outerAxes

def gridSize (axes : List (Nat × Nat)) : Nat :=
  axes.foldr (fun axis size => axis.1 * size) 1

def elementCount (d : Descriptor) : Nat :=
  gridSize d.outerAxes

/-- The offsets of all elements, if a list of them, with eight bytes for each, takes up less than
half of the addresses. -/
def listOffsets (d : Descriptor) : Except Error (List Nat) :=
  if d.elementCount < 0x1000000000000000 then .ok d.elementOffsets
  else .error (.fault .addressTooLarge)

theorem length_gridOffsets (base : Nat) (axes : List (Nat × Nat)) :
    (gridOffsets base axes).length = gridSize axes := by
  induction axes generalizing base with
  | nil => rfl
  | cons axis inner ih =>
    obtain ⟨extent, stride⟩ := axis
    have rows (n : Nat) : ((List.range n).flatMap fun i =>
        gridOffsets (base + i * stride) inner).length = n * gridSize inner := by
      induction n with
      | zero => simp
      | succ n ihn => simp [List.range_succ, ihn, ih, Nat.succ_mul]
    exact rows extent

theorem gridSize_eq_zero {axes : List (Nat × Nat)} (h : axes.any (·.1 = 0)) :
    gridSize axes = 0 := by
  induction axes with
  | nil => simp at h
  | cons axis inner ih =>
    show axis.1 * gridSize inner = 0
    by_cases h0 : axis.1 = 0
    · rw [h0, Nat.zero_mul]
    · rw [ih (by simpa [h0] using h), Nat.mul_zero]

theorem length_elementOffsets (d : Descriptor) : d.elementOffsets.length = d.elementCount := by
  by_cases h : d.outerAxes.any (·.1 = 0)
  · simp [elementOffsets, elementCount, h, gridSize_eq_zero h]
  · simp [elementOffsets, elementCount, h, length_gridOffsets]

theorem stride_succ (d : Descriptor) (axis : Nat) :
    d.stride (axis + 1) = d.stride axis * d.paddedExtent axis :=
  rfl

theorem extent_le_paddedExtent (d : Descriptor) (axis : Nat) :
    d.extent axis ≤ d.paddedExtent axis := by
  match axis with
  | 0 => simp only [paddedExtent]; omega
  | 1 => simp only [paddedExtent]; omega
  | _ + 2 => exact Nat.le_refl _

end Descriptor
end TensorConcat
