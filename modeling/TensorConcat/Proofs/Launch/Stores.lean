import TensorConcat.Proofs.Launch.Items

/-! What work items do to one cell of the output: the item whose vector holds the cell stores one
byte to it, and the others leave it alone. -/

namespace TensorConcat

namespace Memory

/-- All buffers but one are as they were before, and that one has kept its size. -/
structure Beside (before : Memory) (id : BufferId) (m : Memory) : Prop where
  others : ∀ other, other ≠ id → m.buffer other = before.buffer other
  size : (m.buffer id).size = (before.buffer id).size

variable {before m : Memory} {id : BufferId}

theorem Beside.refl (before : Memory) (id : BufferId) : before.Beside id before :=
  ⟨fun _ _ => rfl, rfl⟩

theorem Beside.size_eq (h : before.Beside id m) (other : BufferId) :
    (m.buffer other).size = (before.buffer other).size := by
  by_cases ho : other = id
  · rw [ho, h.size]
  · rw [h.others other ho]

theorem Beside.addressable (h : before.Beside id m) (hb : before.Addressable) : m.Addressable :=
  fun other => h.size_eq other ▸ hb other

theorem Beside.set (h : before.Beside id m) (hs : 0 < (before.buffer id).size) {b : Buffer}
    (hb : b.size = (before.buffer id).size) : before.Beside id (m.set id b) where
  others other ho := by rw [buffer_set (h.size ▸ hs), if_neg ho, h.others other ho]
  size := by rw [buffer_set (h.size ▸ hs), if_pos rfl, hb]

end Memory

namespace Descriptor

theorem address_natCast (d : Descriptor) (x y plane : Nat) :
    d.address x y plane = d.position (d.padding.left + x) (d.padding.top + y) plane := by
  rw [← address_eq_position]
  congr 1 <;> omega

end Descriptor

structure Submission.Tensors.HasRoom (t : Submission.Tensors) (m : Memory) : Prop where
  first_ne : t.first.buffer ≠ t.output.buffer
  second_ne : t.second.buffer ≠ t.output.buffer
  elements : t.output.descriptor.HasElements
  size_le : t.output.descriptor.totalSize ≤ (m.buffer t.output.buffer).size
  vectors : Operands.vectorEnd (t.output.descriptor.extent 0)
    ≤ t.output.descriptor.extent 0 + t.output.descriptor.padding.right

namespace Operands

/-- The element that a launch from column `start` on stores at a column: that of the first input as
long as the column is less than the first input's width away from the start. -/
def joined (o : Operands) (s : Storage) (t : Submission.Tensors) (m : Memory)
    (start x y plane : Nat) : List UInt8 :=
  if x < start + o.first.extent 0 then
    (o.program s).convert Requantization.first (t.first.element m x y plane)
  else (o.program s).convert Requantization.second (t.second.element m (x - o.first.extent 0) y plane)

variable {o : Operands} {s : Storage} {t : Submission.Tensors} {f : Frame} {x y plane : Nat}
  {m m' : Memory}

theorem pick_eq_joined (suit : t.Suit o s) {row : Nat} {i n : Nat} (hn : n < vectorWidth)
    (h1 : t.first.HasVector m (x + o.firstColumn i) row plane)
    (h2 : t.second.HasVector m (x + o.secondColumn i) row plane) :
    (o.program s).pick (i * vectorWidth) (t.first.vector m (x + o.firstColumn i) row plane)
        (t.second.vector m (x + o.secondColumn i) row plane) n
      = o.joined s t m x (x + i * vectorWidth + n) row plane := by
  have width : signed64 (o.program s).firstWidth = o.first.extent 0 := signed64_of_lt suit.width_lt
  have first := h1.lane_eq hn
  have second := h2.lane_eq hn
  rw [suit.size t.first (by simp)] at first
  rw [suit.size t.second (by simp)] at second
  have lanes : n < 8 := hn
  have whole : (i : Int) * (vectorWidth : Nat) = i * 8 := rfl
  have whole' : i * vectorWidth = i * 8 := rfl
  rw [Program.pick, width, joined, Program.lane, Program.lane]
  -- An input is only picked where its load has not been clamped.
  by_cases h : i * 8 + n < o.first.extent 0
  · have clamped : o.firstColumn i = i * 8 := by
      simp only [firstColumn, vectorEnd_eq, vectorWidth]
      omega
    have column : (x + o.firstColumn i + n : Int) = (x + i * vectorWidth + n : Nat) := by omega
    rw [if_pos (by omega), if_pos (by omega), ← column]
    exact congrArg _ first
  · have clamped : o.secondColumn i = i * 8 - o.first.extent 0 := by
      simp only [secondColumn, vectorWidth]
      omega
    have column : (x + o.secondColumn i + n : Int)
        = (x + i * vectorWidth + n : Nat) - o.first.extent 0 := by omega
    rw [if_neg (by omega), if_neg (by omega), ← column]
    exact congrArg _ second

theorem getElem?_itemVector (suit : t.Suit o s) {row i n b : Nat} (hn : n < vectorWidth)
    (hb : b < s.size) (h1 : t.first.HasVector m (x + o.firstColumn i) row plane)
    (h2 : t.second.HasVector m (x + o.secondColumn i) row plane) :
    (o.itemVector s t m x row plane i)[n * s.size + b]?
      = (o.joined s t m x (x + i * vectorWidth + n) row plane)[b]? := by
  have l1 := h1.length_vector
  have l2 := h2.length_vector
  rw [suit.size t.first (by simp)] at l1
  rw [suit.size t.second (by simp)] at l2
  rw [itemVector, ← pick_eq_joined suit hn h1 h2]
  exact Program.getElem?_select (p := o.program s) rfl l1 l2 _ hn hb

theorem length_itemVector (suit : t.Suit o s) {row i : Nat}
    (h1 : t.first.HasVector m (x + o.firstColumn i) row plane)
    (h2 : t.second.HasVector m (x + o.secondColumn i) row plane) :
    (o.itemVector s t m x row plane i).length = vectorWidth * s.size := by
  have l1 := h1.length_vector
  have l2 := h2.length_vector
  rw [suit.size t.first (by simp)] at l1
  rw [suit.size t.second (by simp)] at l2
  exact Program.length_select (p := o.program s) rfl l1 l2 _

theorem length_joined (suit : t.Suit o s) {row i n : Nat} (hn : n < vectorWidth)
    (h1 : t.first.HasVector m (x + o.firstColumn i) row plane)
    (h2 : t.second.HasVector m (x + o.secondColumn i) row plane) :
    (o.joined s t m x (x + i * vectorWidth + n) row plane).length = s.size := by
  have l1 := h1.length_vector
  have l2 := h2.length_vector
  rw [suit.size t.first (by simp)] at l1
  rw [suit.size t.second (by simp)] at l2
  rw [← pick_eq_joined suit hn h1 h2]
  exact Program.length_pick (p := o.program s) rfl l1 l2 _ hn

end Operands

def Submission.Tensors.outputCell (t : Submission.Tensors) (column row plane n : Nat) (m : Memory) :
    Cell :=
  (m.buffer t.output.buffer).cell ((t.output.descriptor.address column row plane).toNat + n)

section StoreVector

variable {t : Submission.Tensors} {before m : Memory} {start y plane column row level n : Nat}
  {bytes : List UInt8}

theorem DeviceTensor.HasVector.size_pos {u : DeviceTensor} {x : Int} (h : u.HasVector m x y plane)
    (hs : 0 < u.descriptor.stride 0) : 0 < (m.buffer u.buffer).size := by
  obtain ⟨lower, upper⟩ := h
  have vector : 0 < Operands.vectorWidth * u.descriptor.stride 0 := Nat.mul_pos (by decide) hs
  omega

theorem Memory.Beside.storeVector (h : before.Beside t.output.buffer m) {x : Int}
    (has : t.output.HasVector m x y plane) (hs : 0 < t.output.descriptor.stride 0) :
    before.Beside t.output.buffer (t.output.storeVector m x y plane bytes) := by
  refine h.set (h.size ▸ has.size_pos hs) ?_
  rw [Buffer.size, Buffer.size_update]
  exact h.size

theorem outputCell_storeVector_inside {lane : Nat} {byte : UInt8}
    (has : t.output.HasVector m start y plane) (hl : lane < Operands.vectorWidth)
    (hn : n < t.output.descriptor.stride 0)
    (hb : bytes[lane * t.output.descriptor.stride 0 + n]? = some byte) :
    t.outputCell (start + lane) y plane n (t.output.storeVector m start y plane bytes) =
      (t.outputCell (start + lane) y plane n m).store byte := by
  have size := has.size_pos (Nat.lt_of_le_of_lt (Nat.zero_le n) hn)
  have room : (lane + 1) * t.output.descriptor.stride 0
      ≤ Operands.vectorWidth * t.output.descriptor.stride 0 := Nat.mul_le_mul_right _ hl
  obtain ⟨-, upper⟩ := has
  have place : (t.output.descriptor.address (start + lane : Nat) y plane).toNat =
      (t.output.descriptor.address start y plane).toNat + lane * t.output.descriptor.stride 0 := by
    rw [Descriptor.address_natCast, Descriptor.address_natCast, Int.toNat_natCast, Int.toNat_natCast,
      ← Nat.add_assoc, Descriptor.position_add_column]
  rw [Nat.succ_mul] at room
  rw [Descriptor.address_natCast] at upper
  unfold Submission.Tensors.outputCell DeviceTensor.storeVector
  rw [Memory.buffer_set size, if_pos rfl, place, Nat.add_assoc]
  apply Buffer.cell_update_inside _ hb
  rw [Descriptor.address_natCast, Int.toNat_natCast]
  have cells : (m.buffer t.output.buffer).cells.size = (m.buffer t.output.buffer).size := rfl
  omega

theorem outputCell_storeVector_outside (has : t.output.HasVector m start y plane)
    (length : bytes.length = Operands.vectorWidth * t.output.descriptor.stride 0)
    (fits : start + Operands.vectorWidth
      ≤ t.output.descriptor.extent 0 + t.output.descriptor.padding.right)
    (hy : y < t.output.descriptor.extent 1) (hc : column < t.output.descriptor.extent 0)
    (hr : row < t.output.descriptor.extent 1) (hn : n < t.output.descriptor.stride 0)
    (outside : ¬ (start ≤ column ∧ column < start + Operands.vectorWidth ∧ y = row ∧ plane = level)) :
    t.outputCell column row level n (t.output.storeVector m start y plane bytes) =
      t.outputCell column row level n m := by
  -- Both the stored range and the cell are counted from the edge of the padding.
  have wide : t.output.descriptor.padding.left + start + Operands.vectorWidth
      ≤ t.output.descriptor.paddedExtent 0 := by
    simp only [Descriptor.paddedExtent]
    omega
  have apart := Descriptor.mem_vector_iff plane level wide (t.output.descriptor.top_add_lt hy)
    (t.output.descriptor.left_add_lt hc) (t.output.descriptor.top_add_lt hr) hn
  unfold Submission.Tensors.outputCell DeviceTensor.storeVector
  rw [Memory.buffer_set (has.size_pos (Nat.lt_of_le_of_lt (Nat.zero_le n) hn)), if_pos rfl]
  apply Buffer.cell_update_frame
  rw [length, Descriptor.address_natCast, Descriptor.address_natCast, Int.toNat_natCast,
    Int.toNat_natCast]
  omega

end StoreVector

namespace Operands

variable {o : Operands} {s : Storage} {t : Submission.Tensors} {f : Frame} {x y plane : Nat}
  {before m : Memory} {column row level n i j k : Nat}

theorem hasVector_beside (h : before.Beside t.output.buffer m) {u : DeviceTensor} {a : Int}
    {b c : Nat} : u.HasVector m a b c ↔ u.HasVector before a b c := by
  rw [DeviceTensor.HasVector, DeviceTensor.HasVector, h.size_eq]

theorem itemVector_beside (h : before.Beside t.output.buffer m) (room : t.HasRoom before) :
    o.itemVector s t m x row plane i = o.itemVector s t before x row plane i := by
  rw [itemVector, itemVector, DeviceTensor.vector, DeviceTensor.vector, DeviceTensor.vector,
    DeviceTensor.vector, h.others _ room.first_ne, h.others _ room.second_ne]

theorem output_hasVector (room : t.HasRoom before)
    (hx : x + i * vectorWidth + vectorWidth ≤ vectorEnd (t.output.descriptor.extent 0))
    (hy : y < t.output.descriptor.extent 1) (hz : plane < t.output.descriptor.planes) :
    t.output.HasVector before (x + i * vectorWidth) y plane := by
  have vectors := room.vectors
  exact DeviceTensor.InRow.hasVector ⟨by omega, by omega, hy, hz⟩ room.elements.hasRows room.size_le

theorem runItem_actsWhen (suit : t.Suit o s) (stands : f.StandsAt o t x y plane)
    (addressable : before.Addressable) (room : t.HasRoom before)
    (first : t.first.HasVector before (x + o.firstColumn i) (y + j) (plane + k))
    (second : t.second.HasVector before (x + o.secondColumn i) (y + j) (plane + k)) (level : Nat)
    (hx : x + i * vectorWidth + vectorWidth ≤ vectorEnd (t.output.descriptor.extent 0))
    (hy : y + j < t.output.descriptor.extent 1) (hz : plane + k < t.output.descriptor.planes)
    (hc : column < t.output.descriptor.extent 0) (hr : row < t.output.descriptor.extent 1)
    (hn : n < s.size) :
    Action.ActsWhen (before.Beside t.output.buffer) (t.outputCell column row level n)
      ((o.program s).runItem f i j k)
      (x + i * vectorWidth ≤ column ∧ column < x + i * vectorWidth + vectorWidth ∧ y + j = row ∧
        plane + k = level)
      (·.store ((o.joined s t before x column row level).getD n 0)) := by
  intro m hm
  have size := suit.size t.output (by simp)
  have output := (hasVector_beside hm).2 (output_hasVector room hx hy hz)
  have vectors := room.vectors
  have run := (runItem_eq_ok_iff suit stands (hm.addressable addressable) i j k).2
    ⟨(hasVector_beside hm).2 first, (hasVector_beside hm).2 second, output, rfl⟩
  have column_eq : (x + i * vectorWidth : Int) = (x + i * vectorWidth : Nat) := by omega
  rw [itemVector_beside hm room, column_eq] at run
  rw [column_eq] at output
  refine ⟨_, run, hm.storeVector output (by omega), ?_, ?_⟩
  · rintro ⟨lower, upper, rfl, rfl⟩
    obtain ⟨lane, rfl⟩ := Nat.exists_eq_add_of_le lower
    have hl : lane < vectorWidth := by omega
    -- The byte of the cell is one of the joined element, which is stored as a whole.
    have inRange : n < (o.joined s t before x (x + i * vectorWidth + lane) (y + j)
        (plane + k)).length := by
      rw [length_joined suit hl first second]
      exact hn
    have byte := getElem?_itemVector suit hl hn first second
    rw [List.getElem?_eq_getElem inRange, ← size] at byte
    rw [outputCell_storeVector_inside output hl (size ▸ hn) byte, List.getD_eq_getElem?_getD,
      List.getElem?_eq_getElem inRange, Option.getD_some]
  · intro outside
    exact outputCell_storeVector_outside output
      ((length_itemVector suit first second).trans (by rw [size])) (by omega) hy hc hr (size ▸ hn)
      outside

theorem runItem_requires (suit : t.Suit o s) (stands : f.StandsAt o t x y plane)
    (addressable : before.Addressable) :
    Action.Requires (before.Beside t.output.buffer) ((o.program s).runItem f i j k)
      (t.first.HasVector before (x + o.firstColumn i) (y + j) (plane + k) ∧
        t.second.HasVector before (x + o.secondColumn i) (y + j) (plane + k) ∧
        t.output.HasVector before (x + i * vectorWidth) (y + j) (plane + k)) := by
  intro m m' hm hok
  obtain ⟨first, second, output, rfl⟩ :=
    (runItem_eq_ok_iff suit stands (hm.addressable addressable) i j k).1 hok
  refine ⟨⟨(hasVector_beside hm).1 first, (hasVector_beside hm).1 second,
    (hasVector_beside hm).1 output⟩, hm.storeVector output ?_⟩
  rw [suit.size t.output (by simp)]
  exact s.size_pos

end Operands
end TensorConcat
