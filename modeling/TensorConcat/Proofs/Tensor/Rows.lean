import TensorConcat.Tensor.Layout

/-! Rows of a padded tensor: where the columns of a row stand, and that vectors which stay in their
rows meet only where they should. -/

namespace TensorConcat
namespace Descriptor

def planes (d : Descriptor) : Nat :=
  d.extent 2 * d.extent 3

/-- The address of the element at a column of a row, in a plane counted through all batches. -/
def address (d : Descriptor) (x y plane : Int) : Int :=
  d.firstOffset + x * d.stride 0 + y * d.stride 1 + plane * d.stride 2

def position (d : Descriptor) (column row plane : Nat) : Nat :=
  d.stride 0 * column + d.stride 1 * row + d.stride 2 * plane

def HasElements (d : Descriptor) : Prop :=
  ∀ axis, 0 < d.extent axis

def HasRows (d : Descriptor) : Prop :=
  ∀ axis, 1 ≤ axis → 0 < d.extent axis

theorem HasElements.hasRows {d : Descriptor} (h : d.HasElements) : d.HasRows :=
  fun axis _ => h axis

variable (d : Descriptor)

theorem address_eq_position (column row plane : Nat) :
    d.address (column - d.padding.left) (row - d.padding.top) plane
      = d.position column row plane := by
  simp only [address, position, firstOffset, Int.natCast_add, Int.natCast_mul, Int.sub_mul]
  have h0 := Int.mul_comm column (d.stride 0)
  have h1 := Int.mul_comm row (d.stride 1)
  have h2 := Int.mul_comm plane (d.stride 2)
  omega

theorem position_eq (column row plane : Nat) :
    d.position column row plane =
      d.stride 0 * (column + d.paddedExtent 0 * row) + d.stride 2 * plane := by
  have rows : d.stride 1 * row = d.stride 0 * (d.paddedExtent 0 * row) := Nat.mul_assoc ..
  rw [position, rows, Nat.mul_add]

theorem address_add (x y plane : Int) (n : Nat) :
    d.address (x + n) y plane = d.address x y plane + n * d.stride 0 := by
  simp only [address, Int.add_mul]
  omega

theorem offsetOf_eq_address (x y z b : Nat) :
    (d.offsetOf [x, y, z, b] : Int) = d.address x y (z + d.extent 2 * b : Nat) := by
  have h3 : d.stride 3 = d.stride 2 * d.extent 2 := rfl
  have hb : b * (d.stride 2 * d.extent 2) = d.extent 2 * b * d.stride 2 := by
    rw [Nat.mul_comm, Nat.mul_comm (d.extent 2 * b), Nat.mul_assoc]
  have hs : d.strides = [d.stride 0, d.stride 1, d.stride 2, d.stride 3, d.stride 4, d.stride 5] :=
    rfl
  simp only [offsetOf, hs, dot, address, h3, hb]
  simp only [Int.natCast_add, Int.natCast_mul, Int.add_mul]
  omega

theorem left_add_lt {x : Nat} (h : x < d.extent 0) : d.padding.left + x < d.paddedExtent 0 := by
  simp only [paddedExtent]
  omega

theorem top_add_lt {y : Nat} (h : y < d.extent 1) : d.padding.top + y < d.paddedExtent 1 := by
  simp only [paddedExtent]
  omega

theorem digits_unique {u a b m n : Nat} (ha : a < u) (hb : b < u) (h : a + u * m = b + u * n) :
    a = b ∧ m = n := by
  have hm := congrArg (· % u) h
  simp only [Nat.add_mul_mod_self_left, Nat.mod_eq_of_lt ha, Nat.mod_eq_of_lt hb] at hm
  refine ⟨hm, ?_⟩
  subst hm
  exact Nat.eq_of_mul_eq_mul_left (by omega) (Nat.add_left_cancel h)

theorem add_mul_lt {unit a m count : Nat} (ha : a < unit) (hm : m < count) :
    a + unit * m < unit * count := by
  have h : unit * (m + 1) ≤ unit * count := Nat.mul_le_mul_left _ hm
  rw [Nat.mul_succ] at h
  omega

variable {d}

theorem stride_zero_mul_lt {column n : Nat} (hn : n < d.stride 0) (hc : column < d.paddedExtent 0) :
    n + d.stride 0 * column < d.stride 1 :=
  add_mul_lt hn hc

theorem position_unique {column row plane n column' row' plane' n' : Nat}
    (hn : n < d.stride 0) (hn' : n' < d.stride 0) (hc : column < d.paddedExtent 0)
    (hc' : column' < d.paddedExtent 0) (hr : row < d.paddedExtent 1)
    (hr' : row' < d.paddedExtent 1)
    (h : d.position column row plane + n = d.position column' row' plane' + n') :
    column = column' ∧ row = row' ∧ plane = plane' ∧ n = n' := by
  have hx := stride_zero_mul_lt hn hc
  have hx' := stride_zero_mul_lt hn' hc'
  have hy := add_mul_lt hx hr
  have hy' := add_mul_lt hx' hr'
  simp only [position] at h
  obtain ⟨h2, rfl⟩ := digits_unique (u := d.stride 2) hy hy'
    (m := plane) (n := plane') (by omega)
  obtain ⟨h1, rfl⟩ := digits_unique hx hx' h2
  obtain ⟨rfl, rfl⟩ := digits_unique hn hn' h1
  exact ⟨rfl, rfl, rfl, rfl⟩

theorem position_add_column (column n row plane : Nat) :
    d.position (column + n) row plane = d.position column row plane + n * d.stride 0 := by
  have h := Nat.mul_comm n (d.stride 0)
  simp only [position, Nat.mul_add]
  omega

theorem mem_vector_iff {column row count column' row' n : Nat} (plane plane' : Nat)
    (hc : column + count ≤ d.paddedExtent 0) (hr : row < d.paddedExtent 1)
    (hc' : column' < d.paddedExtent 0) (hr' : row' < d.paddedExtent 1) (hn : n < d.stride 0) :
    (d.position column row plane ≤ d.position column' row' plane' + n ∧
        d.position column' row' plane' + n < d.position column row plane + count * d.stride 0) ↔
      column ≤ column' ∧ column' < column + count ∧ row = row' ∧ plane = plane' := by
  constructor
  · rintro ⟨lower, upper⟩
    obtain ⟨skip, hs⟩ := Nat.exists_eq_add_of_le lower
    have split := Nat.div_add_mod' skip (d.stride 0)
    have below : skip % d.stride 0 < d.stride 0 := Nat.mod_lt _ (by omega)
    have lane : skip / d.stride 0 < count := Nat.div_lt_of_lt_mul (by
      rw [Nat.mul_comm]
      omega)
    generalize skip / d.stride 0 = q, skip % d.stride 0 = r at split below lane
    have same : d.position (column + q) row plane + r = d.position column' row' plane' + n := by
      rw [position_add_column]
      omega
    obtain ⟨rfl, rfl, rfl, -⟩ := position_unique below hn (by omega) hc' hr hr' same
    exact ⟨by omega, by omega, rfl, rfl⟩
  · rintro ⟨lower, upper, rfl, rfl⟩
    obtain ⟨lane, rfl⟩ := Nat.exists_eq_add_of_le lower
    have room : (lane + 1) * d.stride 0 ≤ count * d.stride 0 := Nat.mul_le_mul_right _ (by omega)
    rw [Nat.succ_mul] at room
    rw [position_add_column]
    omega

theorem totalSize_eq (outer : ∀ axis, 4 ≤ axis → d.extent axis = 1) :
    d.totalSize = d.stride 2 * d.planes := by
  have h4 : d.paddedExtent 4 = 1 := outer 4 (Nat.le_refl 4)
  have h5 : d.paddedExtent 5 = 1 := outer 5 (by decide)
  rw [totalSize, stride_succ, stride_succ, h4, h5, Nat.mul_one, Nat.mul_one, planes,
    ← Nat.mul_assoc]
  rfl

theorem stride_mul_planes_le (h : d.HasRows) : d.stride 2 * d.planes ≤ d.totalSize := by
  have h4 : d.stride 2 * d.planes = d.stride 4 := (Nat.mul_assoc ..).symm
  have h5 : d.stride 4 ≤ d.stride 5 := Nat.le_mul_of_pos_right _ (h 4 (by decide))
  have h6 : d.stride 5 ≤ d.totalSize := Nat.le_mul_of_pos_right _ (h 5 (by decide))
  omega

theorem position_add_le (h : d.HasRows) {column row plane count : Nat}
    (hc : column + count ≤ d.paddedExtent 0) (hr : row < d.paddedExtent 1)
    (hp : plane < d.planes) :
    d.position column row plane + count * d.stride 0 ≤ d.totalSize := by
  have hx : d.stride 0 * (column + count) ≤ d.stride 1 := Nat.mul_le_mul_left _ hc
  have hy : d.stride 1 * (row + 1) ≤ d.stride 2 := Nat.mul_le_mul_left _ hr
  have hz : d.stride 2 * (plane + 1) ≤ d.stride 2 * d.planes := Nat.mul_le_mul_left _ hp
  have ht := stride_mul_planes_le h
  have hm := Nat.mul_comm count (d.stride 0)
  simp only [position, Nat.mul_add, Nat.mul_one] at *
  omega

theorem stride_le_totalSize (h : d.HasRows) {axis : Nat} (h1 : 1 ≤ axis) (ha : axis ≤ 6) :
    d.stride axis ≤ d.totalSize := by
  have grow (n : Nat) : d.stride axis ≤ d.stride (axis + n) := by
    induction n with
    | zero => exact Nat.le_refl _
    | succ n ih =>
      refine Nat.le_trans ih (Nat.le_mul_of_pos_right _ ?_)
      exact Nat.lt_of_lt_of_le (h (axis + n) (by omega)) (d.extent_le_paddedExtent (axis + n))
  have last := grow (6 - axis)
  rwa [Nat.add_sub_cancel' ha] at last

theorem firstOffset_le_totalSize (h : d.HasRows) : d.firstOffset ≤ d.totalSize := by
  -- The offset does not leave the first row, with its padding, behind the padding above it.
  have left : d.padding.left * d.stride 0 ≤ d.stride 1 := by
    rw [stride_succ, Nat.mul_comm]
    exact Nat.mul_le_mul_left _ (by simp only [paddedExtent]; omega)
  have rows : (d.padding.top + 1) * d.stride 1 ≤ d.stride 2 := by
    have height := h 1 (Nat.le_refl 1)
    rw [stride_succ d 1, Nat.mul_comm]
    exact Nat.mul_le_mul_left _ (by simp only [paddedExtent]; omega)
  have total := stride_le_totalSize h (show 1 ≤ 2 by decide) (by decide)
  rw [Nat.succ_mul] at rows
  rw [firstOffset]
  omega

theorem stride_pos (h : d.HasElements) (hs : 0 < d.stride 0) (axis : Nat) : 0 < d.stride axis := by
  induction axis with
  | zero => exact hs
  | succ axis ih =>
    exact Nat.mul_pos ih (Nat.lt_of_lt_of_le (h axis) (d.extent_le_paddedExtent axis))

theorem paddedExtent_le_totalSize (h : d.HasElements) (hs : 0 < d.stride 0) {axis : Nat}
    (ha : axis < 6) : d.paddedExtent axis ≤ d.totalSize :=
  Nat.le_trans (Nat.le_mul_of_pos_left _ (stride_pos h hs axis))
    (stride_le_totalSize h.hasRows (Nat.succ_pos axis) (Nat.succ_le_of_lt ha))

theorem planes_le_totalSize (h : d.HasElements) (hs : 0 < d.stride 0) : d.planes ≤ d.totalSize :=
  Nat.le_trans (Nat.le_mul_of_pos_left _ (stride_pos h hs 2)) (stride_mul_planes_le h.hasRows)

end Descriptor
end TensorConcat
