import TensorConcat.Concat.Kernel
import TensorConcat.Proofs.Compile.Compilation
import TensorConcat.Proofs.Effect
import TensorConcat.Proofs.Launch.Vector
import TensorConcat.Proofs.Plan.Needs
import TensorConcat.Proofs.Tensor.Rows

/-! Work items of a concatenation: where they load from and store to, and when they succeed. -/

namespace TensorConcat

namespace TensorView

/-- The view shows a tensor from one of its elements on. -/
structure StandsAt (v : TensorView) (t : DeviceTensor) (x y plane : Nat) : Prop where
  buffer : v.buffer = t.buffer
  strideX : v.strideX = t.descriptor.stride 0
  strideY : v.strideY = t.descriptor.stride 1
  strideZ : v.strideZ = t.descriptor.stride 2
  strideBatch : v.strideBatch = t.descriptor.stride 3
  offset : (v.offset : Int) = t.descriptor.address x y plane

theorem StandsAt.address_eq {v : TensorView} {t : DeviceTensor} {x y plane depth : Nat}
    (h : v.StandsAt t x y plane) (hd : t.descriptor.extent 2 = depth) (column : Int) (j k : Nat) :
    v.address column j ((k : Int).tmod depth) ((k : Int).tdiv depth)
      = t.descriptor.address (x + column) (y + j : Nat) (plane + k : Nat) := by
  have batch : v.strideBatch = t.descriptor.stride 2 * depth := by rw [h.strideBatch, ← hd]; rfl
  -- A plane is addressed by its quotient and remainder by the depth, which add up to it again.
  have planes : k / depth * (t.descriptor.stride 2 * depth) + k % depth * t.descriptor.stride 2
      = k * t.descriptor.stride 2 := by
    rw [Nat.mul_comm (t.descriptor.stride 2), ← Nat.mul_assoc, ← Nat.add_mul, Nat.div_add_mod']
  have planes' := congrArg (Nat.cast : Nat → Int) planes
  rw [address, h.offset, h.strideX, h.strideY, h.strideZ, batch, ← Int.ofNat_tmod, ← Int.ofNat_tdiv]
  simp only [Descriptor.address, Int.natCast_add, Int.natCast_mul, Int.add_mul] at *
  omega

end TensorView

namespace DeviceTensor

def HasVector (t : DeviceTensor) (m : Memory) (x : Int) (y plane : Nat) : Prop :=
  0 ≤ t.descriptor.address x y plane ∧
    t.descriptor.address x y plane + (Operands.vectorWidth * t.descriptor.stride 0 : Nat)
      ≤ (m.buffer t.buffer).size

instance (t : DeviceTensor) (m : Memory) (x : Int) (y plane : Nat) :
    Decidable (t.HasVector m x y plane) :=
  inferInstanceAs (Decidable (_ ∧ _))

structure InRow (t : DeviceTensor) (x : Int) (y plane : Nat) : Prop where
  left : -t.descriptor.padding.left ≤ x
  right : x + Operands.vectorWidth ≤ t.descriptor.extent 0 + t.descriptor.padding.right
  row : y < t.descriptor.extent 1
  plane : plane < t.descriptor.planes

def vector (t : DeviceTensor) (m : Memory) (x : Int) (y plane : Nat) : List UInt8 :=
  (m.buffer t.buffer).bytes (t.descriptor.address x y plane).toNat
    (Operands.vectorWidth * t.descriptor.stride 0)

def storeVector (t : DeviceTensor) (m : Memory) (x : Int) (y plane : Nat) (bytes : List UInt8) :
    Memory :=
  m.set t.buffer ⟨Buffer.update Cell.store (m.buffer t.buffer).cells
    (t.descriptor.address x y plane).toNat bytes⟩

def element (t : DeviceTensor) (m : Memory) (x : Int) (y plane : Nat) : List UInt8 :=
  (m.buffer t.buffer).bytes (t.descriptor.address x y plane).toNat (t.descriptor.stride 0)

variable {t : DeviceTensor} {m : Memory} {x : Int} {y plane : Nat}

theorem HasVector.length_vector (h : t.HasVector m x y plane) :
    (t.vector m x y plane).length = Operands.vectorWidth * t.descriptor.stride 0 :=
  Buffer.length_bytes (by
    have := h.1
    have := h.2
    omega)

theorem InRow.hasVector (h : t.InRow x y plane) (rows : t.descriptor.HasRows)
    (size : t.descriptor.totalSize ≤ (m.buffer t.buffer).size) : t.HasVector m x y plane := by
  obtain ⟨left, right, row, level⟩ := h
  obtain ⟨column, hc⟩ := Int.eq_ofNat_of_zero_le (show 0 ≤ x + t.descriptor.padding.left by omega)
  have columns : column + Operands.vectorWidth ≤ t.descriptor.paddedExtent 0 := by
    simp only [Descriptor.paddedExtent]
    omega
  have height : t.descriptor.padding.top + y < t.descriptor.paddedExtent 1 := by
    simp only [Descriptor.paddedExtent]
    omega
  have fits := Descriptor.position_add_le rows columns height level
  have place := t.descriptor.address_eq_position column (t.descriptor.padding.top + y) plane
  have cx : (column : Int) - t.descriptor.padding.left = x := by omega
  have cy : ((t.descriptor.padding.top + y : Nat) : Int) - t.descriptor.padding.top = y := by omega
  rw [cx, cy] at place
  rw [HasVector, place]
  omega

theorem read_eq_ok_iff (hm : m.Addressable) {length : Nat}
    (hl : length = Operands.vectorWidth * t.descriptor.stride 0) {bytes : List UInt8} :
    (m.buffer t.buffer).read (t.descriptor.address x y plane) length = .ok bytes ↔
      t.HasVector m x y plane ∧ bytes = t.vector m x y plane := by
  rw [Buffer.read_eq_ok_iff (hm _), hl, and_assoc.symm]
  exact Iff.rfl

theorem write_eq_ok_iff (hm : m.Addressable) {bytes : List UInt8}
    (hl : bytes.length = Operands.vectorWidth * t.descriptor.stride 0) {b : Buffer} :
    (m.buffer t.buffer).write (t.descriptor.address x y plane) bytes = .ok b ↔
      t.HasVector m x y plane ∧
        b = ⟨Buffer.update Cell.store (m.buffer t.buffer).cells
          (t.descriptor.address x y plane).toNat bytes⟩ := by
  rw [Buffer.write_eq_ok_iff (hm _), hl, and_assoc.symm]
  exact Iff.rfl

theorem HasVector.lane_eq (h : t.HasVector m x y plane) {n : Nat} (hn : n < Operands.vectorWidth) :
    ((t.vector m x y plane).drop (n * t.descriptor.stride 0)).take (t.descriptor.stride 0)
      = t.element m (x + n) y plane := by
  obtain ⟨lower, upper⟩ := h
  have room : (n + 1) * t.descriptor.stride 0 ≤ Operands.vectorWidth * t.descriptor.stride 0 :=
    Nat.mul_le_mul_right _ hn
  have move := t.descriptor.address_add x y plane n
  rw [Nat.succ_mul] at room
  rw [vector, Buffer.take_drop_bytes (by omega) room, element, move]
  congr 1
  have := Int.natCast_mul n (t.descriptor.stride 0)
  omega

end DeviceTensor

structure Frame.StandsAt (f : Frame) (o : Operands) (t : Submission.Tensors) (x y plane : Nat) :
    Prop where
  first : f.first.StandsAt t.first x y plane
  second : f.second.StandsAt t.second x y plane
  output : f.output.StandsAt t.output x y plane
  rightPadding : f.rightPadding = firstRightPadding (o.first.extent 0)
  leftPadding : f.leftPadding = secondLeftPadding (o.first.extent 0)

structure Submission.Tensors.Suit (t : Submission.Tensors) (o : Operands) (s : Storage) : Prop where
  size : ∀ u ∈ [t.first, t.second, t.output], u.descriptor.stride 0 = s.size
  depth : ∀ u ∈ [t.first, t.second, t.output], u.descriptor.extent 2 = o.first.extent 2
  depth_lt : o.first.extent 2 < 0x8000000000000000
  width_lt : o.first.extent 0 < 0x8000000000000000

theorem Storage.size_pos (s : Storage) : 0 < s.size := by
  cases s <;> decide

theorem Submission.Tensors.Suit.stride_pos {t : Submission.Tensors} {o : Operands} {s : Storage}
    (suit : t.Suit o s) : ∀ u ∈ [t.first, t.second, t.output], 0 < u.descriptor.stride 0 := by
  intro u hu
  rw [suit.size u hu]
  exact s.size_pos

namespace Operands

def firstColumn (o : Operands) (i : Nat) : Int :=
  min (i * vectorWidth) (vectorEnd (o.first.extent 0) - vectorWidth)

def secondColumn (o : Operands) (i : Nat) : Int :=
  max (i * vectorWidth - o.first.extent 0) (-(o.first.extent 0 % vectorWidth : Nat))

variable {o : Operands} {s : Storage} {t : Submission.Tensors} {f : Frame} {x y plane : Nat}
  {m m' : Memory}

theorem addresses_eq (suit : t.Suit o s) (stands : f.StandsAt o t x y plane) (i j k : Nat) :
    (o.program s).addresses f i j k =
      ⟨t.first.descriptor.address (x + o.firstColumn i) (y + j : Nat) (plane + k : Nat),
        t.second.descriptor.address (x + o.secondColumn i) (y + j : Nat) (plane + k : Nat),
        t.output.descriptor.address (x + i * vectorWidth) (y + j : Nat) (plane + k : Nat)⟩ := by
  have width : signed64 (o.program s).firstWidth = o.first.extent 0 := signed64_of_lt suit.width_lt
  have depth : signed64 (o.program s).depth = o.first.extent 2 := signed64_of_lt suit.depth_lt
  have vector : signed64 (o.program s).vectorSize = vectorWidth :=
    signed64_of_lt (show vectorWidth < _ by decide)
  have column : (o.program s).column i = i * vectorWidth := by rw [Program.column, vector]
  have right : (o.first.extent 0 : Int) + f.rightPadding - vectorWidth
      = vectorEnd (o.first.extent 0) - vectorWidth := by
    have := le_vectorEnd (o.first.extent 0)
    rw [stands.rightPadding, firstRightPadding, ← vectorEnd]
    omega
  have left : (-f.leftPadding : Int) = -(o.first.extent 0 % vectorWidth : Nat) := by
    rw [stands.leftPadding, secondLeftPadding]
  simp only [Program.addresses, width, depth, vector, column, right, left]
  rw [stands.first.address_eq (suit.depth _ (by simp)),
    stands.second.address_eq (suit.depth _ (by simp)),
    stands.output.address_eq (suit.depth _ (by simp))]
  rfl

def itemVector (o : Operands) (s : Storage) (t : Submission.Tensors) (m : Memory)
    (x y plane i : Nat) : List UInt8 :=
  (o.program s).select (i * vectorWidth : Int) (t.first.vector m (x + o.firstColumn i) y plane)
    (t.second.vector m (x + o.secondColumn i) y plane)

theorem runItem_eq_ok_iff (suit : t.Suit o s) (stands : f.StandsAt o t x y plane)
    (hm : m.Addressable) (i j k : Nat) :
    ((o.program s).runItem f i j k).perform m = (.ok (), m') ↔
      t.first.HasVector m (x + o.firstColumn i) (y + j) (plane + k) ∧
      t.second.HasVector m (x + o.secondColumn i) (y + j) (plane + k) ∧
      t.output.HasVector m (x + i * vectorWidth) (y + j) (plane + k) ∧
      m' = t.output.storeVector m (x + i * vectorWidth) (y + j) (plane + k)
        (o.itemVector s t m x (y + j) (plane + k) i) := by
  have vector : signed64 (o.program s).vectorSize = vectorWidth :=
    signed64_of_lt (show vectorWidth < _ by decide)
  have column : (o.program s).column i = i * vectorWidth := by rw [Program.column, vector]
  have bytes (u : DeviceTensor) (hu : u ∈ [t.first, t.second, t.output]) :
      (o.program s).vectorBytes = vectorWidth * u.descriptor.stride 0 := by
    rw [suit.size u hu]
    rfl
  have first := bytes t.first (by simp)
  have second := bytes t.second (by simp)
  have output := bytes t.output (by simp)
  simp only [Program.runItem, Action.perform_bind_eq_ok_iff, Action.perform_get,
    Action.perform_ofExcept, Action.perform_set, Prod.mk.injEq, Except.ok.injEq,
    addresses_eq suit stands, stands.first.buffer, stands.second.buffer, stands.output.buffer,
    column]
  constructor
  · rintro ⟨_, _, ⟨rfl, rfl⟩, _, _, ⟨h1, rfl⟩, _, _, ⟨h2, rfl⟩, _, _, ⟨h3, rfl⟩, -, rfl⟩
    obtain ⟨a1, rfl⟩ := (DeviceTensor.read_eq_ok_iff hm first).1 h1
    obtain ⟨a2, rfl⟩ := (DeviceTensor.read_eq_ok_iff hm second).1 h2
    have length := Program.length_select (p := o.program s) rfl (a1.length_vector.trans first.symm)
      (a2.length_vector.trans second.symm) (i * vectorWidth)
    obtain ⟨a3, rfl⟩ := (DeviceTensor.write_eq_ok_iff hm (length.trans output)).1 h3
    exact ⟨a1, a2, a3, rfl⟩
  · rintro ⟨h1, h2, h3, rfl⟩
    have length := Program.length_select (p := o.program s) rfl (h1.length_vector.trans first.symm)
      (h2.length_vector.trans second.symm) (i * vectorWidth)
    exact ⟨m, m, ⟨rfl, rfl⟩, _, m, ⟨(DeviceTensor.read_eq_ok_iff hm first).2 ⟨h1, rfl⟩, rfl⟩, _, m,
      ⟨(DeviceTensor.read_eq_ok_iff hm second).2 ⟨h2, rfl⟩, rfl⟩, _, m,
      ⟨(DeviceTensor.write_eq_ok_iff hm (length.trans output)).2 ⟨h3, rfl⟩, rfl⟩, trivial, rfl⟩

end Operands
end TensorConcat
