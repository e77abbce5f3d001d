import TensorConcat.Proofs.Launch.Arguments

/-! The numbers that a launch is told of a tensor, before they are cut to 32 bits, and slots that
hold such a number in full. -/

namespace TensorConcat

namespace Descriptor

structure SignedLayout (d : Descriptor) : Prop where
  stride_lt : ∀ a ∈ Axis.inner, d.stride a < 0x8000000000000000
  firstOffset_lt : d.firstOffset < 0x8000000000000000

def offsetAt (d : Descriptor) (w : Window) : Int :=
  d.firstOffset + (Axis.inner.map fun a => (w.span a).start * d.stride a).foldr (· + ·) 0

def numbers (d : Descriptor) (w : Window) : List Int :=
  Axis.inner.flatMap (fun a : Axis => [(d.stride a : Int), d.stride a * (w.span a).step]) ++
    [d.offsetAt w]

variable {d : Descriptor}

theorem SignedLayout.signed64_stride (h : d.SignedLayout) {a : Axis} (ha : a ∈ Axis.inner) :
    signed64 (d.stride a) = d.stride a :=
  signed64_of_lt (h.stride_lt a ha)

theorem SignedLayout.startOffset_eq (h : d.SignedLayout) (w : Window) :
    Cursor.startOffset d w = d.offsetAt w := by
  rw [Cursor.startOffset_eq, h.signed64_stride (a := .x) (by decide),
    h.signed64_stride (a := .y) (by decide), h.signed64_stride (a := .z) (by decide),
    h.signed64_stride (a := .batch) (by decide), signed64_of_lt h.firstOffset_lt, offsetAt]
  simp only [Axis.inner, List.map_cons, List.map_nil, List.foldr_cons, List.foldr_nil, Int.add_zero]
  simp only [Int.add_assoc, Int.add_comm, Int.add_left_comm]

theorem numbers_congr (d : Descriptor) {v w : Window}
    (same : ∀ a ∈ Axis.inner, v.span a = w.span a) : d.numbers v = d.numbers w := by
  simp only [numbers, offsetAt, Axis.inner, List.flatMap_cons, List.flatMap_nil, List.map_cons,
    List.map_nil, same .x (by decide), same .y (by decide), same .z (by decide),
    same .batch (by decide)]

end Descriptor

namespace Cursor

variable {t : DeviceTensor}

theorem slots_eq (h : t.descriptor.SignedLayout) (w : Window) :
    slots t w = .buffer t.buffer :: (t.descriptor.numbers w).map .ofInt := by
  have axis (a : Axis) (ha : a ∈ Axis.inner) : axisSlots t.descriptor w a =
      [Argument.ofInt (t.descriptor.stride a),
        .ofInt (t.descriptor.stride a * (w.span a).step)] := by
    rw [axisSlots, h.signed64_stride ha]
  simp only [slots, Descriptor.numbers, h.startOffset_eq, Axis.inner, List.flatMap_cons,
    List.flatMap_nil, axis .x (by decide), axis .y (by decide), axis .z (by decide),
    axis .batch (by decide), List.map_cons, List.map_nil, List.cons_append, List.nil_append]

theorem fits_iff (h : t.descriptor.SignedLayout) (w : Window) :
    Fits t w ↔ ∀ n ∈ t.descriptor.numbers w, IsWord n := by
  have axis : (∀ a ∈ Axis.inner, IsWord (signed64 (t.descriptor.stride a)) ∧
        IsWord (signed64 (t.descriptor.stride a) * (w.span a).step)) ↔
      ∀ a ∈ Axis.inner, IsWord (t.descriptor.stride a) ∧
        IsWord (t.descriptor.stride a * (w.span a).step) :=
    forall₂_congr fun a ha => by rw [h.signed64_stride ha]
  rw [Fits, axis, h.startOffset_eq, Descriptor.numbers, List.forall_mem_append,
    List.forall_mem_singleton, List.forall_mem_flatMap]
  simp only [List.forall_mem_cons, List.not_mem_nil, false_implies, implies_true, and_true]

end Cursor

namespace Handle

def HoldsNumber (h : Handle) (index : Nat) (n : Int) : Prop :=
  ∃ word : UInt32, h.argument? index = some (.word word) ∧ word.toNat = n

/-- The slots from one on hold the buffer of a tensor and its numbers for a window. -/
structure HoldsTensor (h : Handle) (first : Nat) (t : DeviceTensor) (w : Window) : Prop where
  buffer : h.argument? first = some (.buffer t.buffer)
  numbers : ∀ i n, (t.descriptor.numbers w)[i]? = some n → h.HoldsNumber (first + 1 + i) n

variable {h : Handle} {first index : Nat} {t : DeviceTensor} {w : Window}

theorem holdsNumber_of_isWord {n : Int} (hn : IsWord n)
    (bound : h.argument? index = some (.ofInt n)) : h.HoldsNumber index n := by
  refine ⟨_, bound, ?_⟩
  rw [hn.toNat_ofNat, Int.toNat_of_nonneg hn.1]

theorem holdsTensor_of_slots (layout : t.descriptor.SignedLayout) (fits : Cursor.Fits t w)
    (bound : ∀ n < Cursor.slotsPerTensor, h.argument? (first + n) = (Cursor.slots t w)[n]?) :
    h.HoldsTensor first t w := by
  rw [Cursor.slots_eq layout] at bound
  refine ⟨bound 0 (by decide), fun i n hn => ?_⟩
  have length : (t.descriptor.numbers w).length = 9 := rfl
  have hi : i < 9 := length ▸ (List.getElem?_eq_some_iff.1 hn).1
  have isWord := (Cursor.fits_iff layout w).1 fits n (List.mem_of_getElem? hn)
  refine holdsNumber_of_isWord isWord ?_
  rw [Nat.add_assoc, Nat.add_comm 1 i, bound (i + 1) (Nat.succ_lt_succ hi), List.getElem?_cons_succ,
    List.getElem?_map, hn, Option.map_some]

end Handle
end TensorConcat
