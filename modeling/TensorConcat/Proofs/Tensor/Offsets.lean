import TensorConcat.Proofs.Pieces
import TensorConcat.Proofs.Tensor.Rows

/-! The elements of a tensor in the order of their list. The place of an element in the list is the
number that has its coordinates for digits, and the elements follow one another in memory without
overlapping, inside of the allocation. -/

namespace TensorConcat

namespace MixedRadix

def count (radices : List Nat) : Nat :=
  radices.foldr (· * ·) 1

def digits : (radices : List Nat) → Nat → List Nat
  | [], _ => []
  | r :: rs, n => n % r :: digits rs (n / r)

def number : (radices digits : List Nat) → Nat
  | r :: rs, c :: cs => c + r * number rs cs
  | _, _ => 0

def Within : (radices digits : List Nat) → Prop
  | [], [] => True
  | r :: rs, c :: cs => c < r ∧ Within rs cs
  | _, _ => False

theorem count_cons (r : Nat) (rs : List Nat) : count (r :: rs) = r * count rs :=
  rfl

theorem count_append (rs rs' : List Nat) : count (rs ++ rs') = count rs * count rs' := by
  induction rs with
  | nil => exact (Nat.one_mul _).symm
  | cons r rs ih => rw [List.cons_append, count_cons, count_cons, ih, Nat.mul_assoc]

theorem count_pos {rs : List Nat} (h : ∀ r ∈ rs, 0 < r) : 0 < count rs := by
  induction rs with
  | nil => exact Nat.one_pos
  | cons r rs ih =>
    rw [List.forall_mem_cons] at h
    exact Nat.mul_pos h.1 (ih h.2)

theorem count_take_le {rs : List Nat} (h : ∀ r ∈ rs, 0 < r) (n : Nat) :
    count (rs.take n) ≤ count rs := by
  have rest : 0 < count (rs.drop n) := count_pos fun r hr => h r (List.drop_subset n rs hr)
  calc count (rs.take n) ≤ count (rs.take n) * count (rs.drop n) := Nat.le_mul_of_pos_right _ rest
    _ = count rs := by rw [← count_append, List.take_append_drop]

theorem length_digits (rs : List Nat) (n : Nat) : (digits rs n).length = rs.length := by
  induction rs generalizing n with
  | nil => rfl
  | cons r rs ih => rw [digits, List.length_cons, ih, List.length_cons]

theorem digits_append (rs rs' : List Nat) (n : Nat) :
    digits (rs ++ rs') n = digits rs n ++ digits rs' (n / count rs) := by
  induction rs generalizing n with
  | nil => rw [List.nil_append, digits, List.nil_append, count, List.foldr_nil, Nat.div_one]
  | cons r rs ih =>
    rw [List.cons_append, digits, ih, digits, List.cons_append, count_cons, Nat.div_div_eq_div_mul]

theorem digits_add_count_mul (rs : List Nat) (n m : Nat) :
    digits rs (n + count rs * m) = digits rs n := by
  induction rs generalizing n m with
  | nil => rfl
  | cons r rs ih =>
    rw [count_cons, Nat.mul_assoc, digits, digits, Nat.add_mul_mod_self_left]
    rcases Nat.eq_zero_or_pos r with rfl | hr
    · simp only [Nat.zero_mul, Nat.add_zero]
    · rw [Nat.add_mul_div_left _ _ hr, ih]

theorem within_digits {rs : List Nat} {n : Nat} (h : n < count rs) : Within rs (digits rs n) := by
  induction rs generalizing n with
  | nil => exact trivial
  | cons r rs ih =>
    have hr : 0 < r := Nat.pos_of_mul_pos_right (Nat.lt_of_le_of_lt (Nat.zero_le n) h)
    exact ⟨Nat.mod_lt _ hr, ih (Nat.div_lt_of_lt_mul h)⟩

theorem number_digits {rs : List Nat} {n : Nat} (h : n < count rs) : number rs (digits rs n) = n := by
  induction rs generalizing n with
  | nil => exact (Nat.lt_one_iff.1 h).symm
  | cons r rs ih => rw [digits, number, ih (Nat.div_lt_of_lt_mul h), Nat.mod_add_div]

theorem number_lt {rs cs : List Nat} (h : Within rs cs) : number rs cs < count rs := by
  induction rs generalizing cs with
  | nil => exact Nat.one_pos
  | cons r rs ih =>
    cases cs with
    | nil => exact h.elim
    | cons c cs => exact Descriptor.add_mul_lt h.1 (ih h.2)

theorem digits_number {rs cs : List Nat} (h : Within rs cs) : digits rs (number rs cs) = cs := by
  induction rs generalizing cs with
  | nil =>
    cases cs with
    | nil => rfl
    | cons => exact h.elim
  | cons r rs ih =>
    cases cs with
    | nil => exact h.elim
    | cons c cs =>
      obtain ⟨hc, hcs⟩ := h
      have hr : 0 < r := Nat.lt_of_le_of_lt (Nat.zero_le c) hc
      rw [number, digits, Nat.add_mul_mod_self_left, Nat.mod_eq_of_lt hc, Nat.add_mul_div_left _ _ hr,
        Nat.div_eq_of_lt hc, Nat.zero_add, ih hcs]

end MixedRadix

namespace Descriptor

/-- The bytes from the first element of a grid to behind its last one. -/
def gridReach (size : Nat) : (axes : List (Nat × Nat)) → Nat
  | [] => size
  | (extent, stride) :: inner => (extent - 1) * stride + gridReach size inner

def Nests (size : Nat) : (axes : List (Nat × Nat)) → Prop
  | [] => True
  | (_, stride) :: inner => gridReach size inner ≤ stride ∧ Nests size inner

section Grid

variable {size base : Nat} {axes : List (Nat × Nat)}

theorem gridSize_eq_count (axes : List (Nat × Nat)) :
    gridSize axes = MixedRadix.count (axes.reverse.map (·.1)) := by
  induction axes with
  | nil => rfl
  | cons axis inner ih =>
    rw [List.reverse_cons, List.map_append, MixedRadix.count_append, ← ih, Nat.mul_comm]
    exact congrArg (· * gridSize inner) (Nat.mul_one axis.1).symm

theorem dot_append {xs ys : List Nat} (h : xs.length = ys.length) (x y : Nat) :
    dot (xs ++ [x]) (ys ++ [y]) = dot xs ys + x * y := by
  induction xs generalizing ys with
  | nil =>
    cases ys with
    | nil => simp [dot]
    | cons => cases h
  | cons a xs ih =>
    cases ys with
    | nil => cases h
    | cons b ys =>
      simp only [List.cons_append, dot, ih (Nat.succ.inj h), Nat.add_assoc]

theorem getElem?_gridOffsets {k : Nat} (hk : k < gridSize axes) :
    (gridOffsets base axes)[k]? =
      some (base + dot (MixedRadix.digits (axes.reverse.map (·.1)) k) (axes.reverse.map (·.2))) := by
  induction axes generalizing base k with
  | nil =>
    obtain rfl : k = 0 := Nat.lt_one_iff.1 hk
    rfl
  | cons axis inner ih =>
    obtain ⟨extent, stride⟩ := axis
    have pos : 0 < gridSize inner :=
      Nat.pos_of_mul_pos_left (Nat.lt_of_le_of_lt (Nat.zero_le k) hk)
    have row : k / gridSize inner < extent := (Nat.div_lt_iff_lt_mul pos).2 hk
    have rest : k % gridSize inner < gridSize inner := Nat.mod_lt _ pos
    have split : k / gridSize inner * gridSize inner + k % gridSize inner = k :=
      Nat.div_add_mod' k (gridSize inner)
    have lengths (i : Nat) (_ : i < extent) :
        (gridOffsets (base + i * stride) inner).length = gridSize inner := length_gridOffsets ..
    have here := getElem?_flatMap_range lengths row rest
    rw [split, ih rest] at here
    have low : MixedRadix.digits (inner.reverse.map (·.1)) (k % gridSize inner) =
        MixedRadix.digits (inner.reverse.map (·.1)) k := by
      conv => rhs; rw [← Nat.mod_add_div k (gridSize inner)]
      rw [gridSize_eq_count, MixedRadix.digits_add_count_mul]
    rw [gridOffsets, here, low, List.reverse_cons, List.map_append, List.map_append,
      MixedRadix.digits_append, ← gridSize_eq_count, List.map_singleton, List.map_singleton,
      MixedRadix.digits, MixedRadix.digits, Nat.mod_eq_of_lt row,
      dot_append (by rw [MixedRadix.length_digits, List.length_map, List.length_map])]
    show some _ = some (base + (_ + k / gridSize inner * stride))
    congr 1
    omega

theorem mem_gridOffsets_bounds (size : Nat) {offset : Nat} (h : offset ∈ gridOffsets base axes) :
    base ≤ offset ∧ offset + size ≤ base + gridReach size axes := by
  induction axes generalizing base with
  | nil =>
    obtain rfl := List.mem_singleton.1 h
    exact ⟨Nat.le_refl _, Nat.le_refl _⟩
  | cons axis inner ih =>
    obtain ⟨i, hi, h⟩ := List.mem_flatMap.1 h
    obtain ⟨lower, upper⟩ := ih h
    have room : i * axis.2 ≤ (axis.1 - 1) * axis.2 :=
      Nat.mul_le_mul_right _ (Nat.le_sub_one_of_lt (List.mem_range.1 hi))
    simp only [gridReach]
    omega

theorem pairwise_gridOffsets (h : Nests size axes) :
    (gridOffsets base axes).Pairwise fun p q => p + size ≤ q := by
  induction axes generalizing base with
  | nil => exact List.pairwise_singleton ..
  | cons axis inner ih =>
    obtain ⟨extent, stride⟩ := axis
    obtain ⟨room, nests⟩ := h
    refine List.pairwise_flatMap.2 ⟨fun i _ => ih nests, ?_⟩
    refine List.pairwise_lt_range.imp fun {i j} hij p hp q hq => ?_
    have upper := (mem_gridOffsets_bounds size hp).2
    have lower := (mem_gridOffsets_bounds size hq).1
    have step : (i + 1) * stride ≤ j * stride := Nat.mul_le_mul_right _ hij
    rw [Nat.succ_mul] at step
    omega

end Grid

variable {d : Descriptor}

def extents (d : Descriptor) : List Nat :=
  (List.range 6).map d.extent

def axesBelow (d : Descriptor) (n : Nat) : List (Nat × Nat) :=
  ((List.range n).map fun axis => (d.extent axis, d.stride axis)).reverse

def padBefore (d : Descriptor) : (axis : Nat) → Nat
  | 0 => d.padding.left
  | 1 => d.padding.top
  | _ + 2 => 0

def skipBelow (d : Descriptor) : (n : Nat) → Nat
  | 0 => 0
  | n + 1 => d.padBefore n * d.stride n + d.skipBelow n

theorem padBefore_add_extent_le (d : Descriptor) (axis : Nat) :
    d.padBefore axis + d.extent axis ≤ d.paddedExtent axis := by
  match axis with
  | 0 => simp only [padBefore, paddedExtent]; omega
  | 1 => simp only [padBefore, paddedExtent]; omega
  | _ + 2 => simp only [padBefore, paddedExtent]; omega

theorem skipBelow_six (d : Descriptor) : d.skipBelow 6 = d.firstOffset := by
  simp only [skipBelow, padBefore, firstOffset, Nat.zero_mul, Nat.zero_add, Nat.add_zero]

theorem axesBelow_succ (d : Descriptor) (n : Nat) :
    d.axesBelow (n + 1) = (d.extent n, d.stride n) :: d.axesBelow n := by
  simp [axesBelow, List.range_succ]

theorem skipBelow_add_gridReach_le (h : d.HasElements) (n : Nat) :
    d.skipBelow n + gridReach d.elementSize (d.axesBelow n) ≤ d.stride n := by
  -- By induction over the axes: the padding and the elements along one fit into a step of the next.
  induction n with
  | zero => exact Nat.le_of_eq (Nat.zero_add _)
  | succ n ih =>
    have room := Nat.mul_le_mul_right (d.stride n) (d.padBefore_add_extent_le n)
    obtain ⟨last, hl⟩ := Nat.exists_eq_succ_of_ne_zero (Nat.pos_iff_ne_zero.1 (h n))
    rw [Nat.add_mul, hl, Nat.succ_mul, Nat.mul_comm (d.paddedExtent n)] at room
    rw [axesBelow_succ, skipBelow, gridReach, stride_succ, hl, Nat.succ_sub_one]
    omega

theorem nests_axesBelow (h : d.HasElements) (n : Nat) : Nests d.elementSize (d.axesBelow n) := by
  induction n with
  | zero => exact trivial
  | succ n ih =>
    have room := skipBelow_add_gridReach_le h n
    rw [axesBelow_succ]
    exact ⟨by omega, ih⟩

theorem outerAxes_extents (d : Descriptor) : d.outerAxes.reverse.map (·.1) = d.extents := by
  rw [outerAxes, List.reverse_reverse, List.map_map]
  rfl

theorem outerAxes_strides (d : Descriptor) : d.outerAxes.reverse.map (·.2) = d.strides := by
  rw [outerAxes, List.reverse_reverse, List.map_map]
  rfl

theorem elementCount_eq (d : Descriptor) : d.elementCount = MixedRadix.count d.extents := by
  rw [elementCount, gridSize_eq_count, outerAxes_extents]

theorem any_outerAxes_iff : d.outerAxes.any (·.1 = 0) ↔ ∃ axis < 6, d.extent axis = 0 := by
  simp [outerAxes]

theorem hasElements_iff : d.HasElements ↔ ∀ axis < 6, 0 < d.extent axis := by
  refine ⟨fun h axis _ => h axis, fun h axis => ?_⟩
  by_cases ha : axis < 6
  · exact h axis ha
  · rw [extent, Shape.extent_of_rank_le (Nat.le_trans d.shape.rank_le (Nat.le_of_not_lt ha))]
    exact Nat.one_pos

theorem elementOffsets_of_hasElements (h : d.HasElements) :
    d.elementOffsets = gridOffsets d.firstOffset (d.axesBelow 6) := by
  refine if_neg fun none => ?_
  obtain ⟨axis, -, zero⟩ := any_outerAxes_iff.1 none
  exact absurd (h axis) (by omega)

theorem elementOffsets_eq_nil_or (d : Descriptor) : d.elementOffsets = [] ∨ d.HasElements := by
  by_cases h : ∃ axis < 6, d.extent axis = 0
  · exact .inl (if_pos (any_outerAxes_iff.2 h))
  · exact .inr (hasElements_iff.2 fun axis ha => Nat.pos_iff_ne_zero.2 fun h0 => h ⟨axis, ha, h0⟩)

theorem getElem?_elementOffsets {k : Nat} (hk : k < d.elementCount) :
    d.elementOffsets[k]? = some (d.offsetOf (MixedRadix.digits d.extents k)) := by
  have some : d.elementOffsets ≠ [] := by
    rw [← List.length_pos_iff, length_elementOffsets]
    omega
  have all := (d.elementOffsets_eq_nil_or).resolve_left some
  rw [elementOffsets_of_hasElements all, show d.axesBelow 6 = d.outerAxes from rfl,
    getElem?_gridOffsets hk, outerAxes_extents, outerAxes_strides, offsetOf]

theorem pairwise_elementOffsets (d : Descriptor) :
    d.elementOffsets.Pairwise fun p q => p + d.elementSize ≤ q := by
  rcases d.elementOffsets_eq_nil_or with none | all
  · rw [none]
    exact .nil
  · rw [elementOffsets_of_hasElements all]
    exact pairwise_gridOffsets (nests_axesBelow all 6)

theorem mem_elementOffsets_bounds {offset : Nat} (h : offset ∈ d.elementOffsets) :
    d.firstOffset ≤ offset ∧ offset + d.elementSize ≤ d.totalSize := by
  have all := (d.elementOffsets_eq_nil_or).resolve_left (List.ne_nil_of_mem h)
  rw [elementOffsets_of_hasElements all] at h
  have bounds := mem_gridOffsets_bounds d.elementSize h
  have room := skipBelow_add_gridReach_le all 6
  rw [skipBelow_six] at room
  rw [totalSize]
  omega

theorem dot_digits_zero (rs ys : List Nat) : dot (MixedRadix.digits rs 0) ys = 0 := by
  induction rs generalizing ys with
  | nil => rfl
  | cons r rs ih =>
    cases ys with
    | nil => rfl
    | cons y ys => rw [MixedRadix.digits, dot, Nat.zero_mod, Nat.zero_div, ih, Nat.zero_mul]

/-- The offsets are those of all elements, x fastest. No two elements overlap, and all of them are in
the allocation. -/
structure Enumerates (d : Descriptor) (offsets : List Nat) : Prop where
  length : offsets.length =
    d.extent 0 * d.extent 1 * d.extent 2 * d.extent 3 * d.extent 4 * d.extent 5
  offset : ∀ k < offsets.length, offsets[k]? = some (d.offsetOf (MixedRadix.digits d.extents k))
  within : ∀ k < offsets.length, MixedRadix.Within d.extents (MixedRadix.digits d.extents k)
  unique : ∀ coordinates, MixedRadix.Within d.extents coordinates →
    ∃ k < offsets.length, MixedRadix.digits d.extents k = coordinates ∧
      ∀ j < offsets.length, MixedRadix.digits d.extents j = coordinates → j = k
  apart : offsets.Pairwise fun p q => p + d.elementSize ≤ q
  first : ∀ offset, offsets.head? = some offset → offset = d.firstOffset
  last : ∀ offset, offsets.getLast? = some offset → offset + d.elementSize ≤ d.totalSize
  none : (∃ axis < 6, d.extent axis = 0) → offsets = []

theorem enumerates_elementOffsets (d : Descriptor) : d.Enumerates d.elementOffsets := by
  have length : d.elementOffsets.length = MixedRadix.count d.extents := by
    rw [length_elementOffsets, elementCount_eq]
  have offset (k : Nat) (hk : k < d.elementOffsets.length) :
      d.elementOffsets[k]? = some (d.offsetOf (MixedRadix.digits d.extents k)) :=
    getElem?_elementOffsets (by rwa [← length_elementOffsets])
  refine
    { length := ?_
      offset
      within := fun k hk => MixedRadix.within_digits (length ▸ hk)
      unique := fun coordinates within => ?_
      apart := pairwise_elementOffsets d
      first := fun first h => ?_
      last := fun last h => (mem_elementOffsets_bounds (List.mem_of_getLast? h)).2
      none := fun zero => if_pos (any_outerAxes_iff.2 zero) }
  · have extents : d.extents =
        [d.extent 0, d.extent 1, d.extent 2, d.extent 3, d.extent 4, d.extent 5] := rfl
    rw [length, extents]
    simp only [MixedRadix.count, List.foldr_cons, List.foldr_nil, Nat.mul_one, Nat.mul_assoc]
  · have below := MixedRadix.number_lt within
    refine ⟨_, length ▸ below, MixedRadix.digits_number within, fun j hj same => ?_⟩
    rw [← same, MixedRadix.number_digits (length ▸ hj)]
  · rw [List.head?_eq_getElem?] at h
    have here := offset 0 (List.getElem?_eq_some_iff.1 h).1
    rw [h, offsetOf, dot_digits_zero, Nat.add_zero] at here
    exact Option.some.inj here

/-- Sizes of 64 bits hold what the offsets of a tensor are computed from: the extents multiplied one
after the other and, if there are elements, the padded extents and the strides. The list of the offsets,
with eight bytes for each, takes up less than half of the addresses. -/
structure IsAddressable (d : Descriptor) : Prop where
  few : d.elementCount < 0x1000000000000000
  counts : ∀ n ≤ 6, MixedRadix.count (d.extents.take n) < 0x10000000000000000
  padded : d.HasElements → ∀ axis < 6, d.paddedExtent axis < 0x10000000000000000
  strides : d.HasElements → ∀ axis ≤ 6, d.stride axis < 0x10000000000000000

theorem isAddressable_of_totalSize_lt (elements : d.HasElements) (known : 0 < d.stride 0)
    (size : d.totalSize < 0x10000000000000000) (few : d.elementCount < 0x1000000000000000) :
    d.IsAddressable where
  few := few
  counts n _ := by
    have positive : ∀ r ∈ d.extents, 0 < r := by
      intro r hr
      obtain ⟨axis, -, rfl⟩ := List.mem_map.1 hr
      exact elements axis
    have le := MixedRadix.count_take_le positive n
    rw [← elementCount_eq] at le
    omega
  padded _ axis ha := Nat.lt_of_le_of_lt (paddedExtent_le_totalSize elements known ha) size
  strides _ axis ha := by
    refine Nat.lt_of_le_of_lt ?_ size
    cases axis with
    | zero =>
      have row : 0 < d.paddedExtent 0 := Nat.lt_of_lt_of_le (elements 0) (d.extent_le_paddedExtent 0)
      exact Nat.le_trans (Nat.le_mul_of_pos_right _ row)
        (stride_le_totalSize elements.hasRows (show 1 ≤ 1 by decide) (by decide))
    | succ axis => exact stride_le_totalSize elements.hasRows (Nat.succ_pos axis) ha

/-- The offsets of a tensor that can be addressed are listed. -/
theorem listOffsets_enumerates (d : Descriptor) (h : d.IsAddressable) :
    ∃ offsets, d.listOffsets = .ok offsets ∧ d.Enumerates offsets :=
  ⟨d.elementOffsets, if_pos h.few, enumerates_elementOffsets d⟩

def padded : Descriptor :=
  { ofShape ⟨[3, 2, 2], by decide⟩ .unsigned16 with padding := ⟨1, 2, 0, 3⟩ }

theorem padded_isAddressable : padded.IsAddressable :=
  isAddressable_of_totalSize_lt (hasElements_iff.2 (by decide)) (by decide) (by decide) (by decide)

theorem listOffsets_enumerates_padded :
    padded.IsAddressable ∧ ∃ offsets, padded.listOffsets = .ok offsets ∧ padded.Enumerates offsets :=
  ⟨padded_isAddressable, listOffsets_enumerates padded padded_isAddressable⟩

example : padded.elementOffsets = [22, 24, 26, 38, 40, 42, 70, 72, 74, 86, 88, 90] := by decide

def vast : Descriptor :=
  ofShape ⟨[0x1000000000000000], by decide⟩ .unsigned8

/-- The list of the offsets of all these bytes would take up half of the addresses. -/
theorem listOffsets_of_vast :
    vast.type ≠ .unknown ∧ vast.totalSize < 0x8000000000000000 ∧
      ¬ ∃ offsets, vast.listOffsets = .ok offsets := by
  refine ⟨by decide, by decide, ?_⟩
  rintro ⟨offsets, h⟩
  have fault : vast.listOffsets = .error (.fault .addressTooLarge) := if_neg (by decide)
  exact nomatch fault.symm.trans h

end Descriptor
end TensorConcat
