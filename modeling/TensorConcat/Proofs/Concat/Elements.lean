import TensorConcat.Proofs.Concat.Coverage

/-! The elements that runs over parts of the planned window leave in the output. -/

namespace TensorConcat

namespace DeviceTensor

def elementAt (t : DeviceTensor) (m : Memory) (coordinates : List Nat) : List UInt8 :=
  (m.buffer t.buffer).bytes (t.descriptor.offsetOf coordinates) t.descriptor.elementSize

def storesAt (t : DeviceTensor) (m : Memory) (coordinates : List Nat) : List Nat :=
  ((m.buffer t.buffer).range (t.descriptor.offsetOf coordinates)
    t.descriptor.elementSize).map (·.stores)

theorem storesAt_lt {t : DeviceTensor} {m m' : Memory} {coordinates : List Nat} {room n : Nat}
    (held : (m.buffer t.buffer).HasRoom room) (le : n ≤ room)
    (stores : t.storesAt m' coordinates = (t.storesAt m coordinates).map (· + n)) :
    ∀ count ∈ t.storesAt m' coordinates, count < 0x100000000 := by
  intro total mem
  rw [stores] at mem
  obtain ⟨before, earlier, rfl⟩ := List.mem_map.1 mem
  obtain ⟨cell, inRange, rfl⟩ := List.mem_map.1 earlier
  exact Nat.lt_of_le_of_lt (Nat.add_le_add_left le _) (held cell (Buffer.mem_cells_of_mem_range inRange))

theorem elementAt_eq_element (t : DeviceTensor) (m : Memory) (x y z b : Nat) :
    t.elementAt m [x, y, z, b] = t.element m x y (z + t.descriptor.extent 2 * b) := by
  rw [elementAt, element, ← Descriptor.offsetOf_eq_address, Int.toNat_natCast]
  rfl

variable {t : DeviceTensor} {m : Memory} {x y z b : Nat}

theorem cells_at (elements : t.descriptor.HasElements)
    (size : t.descriptor.totalSize ≤ (m.buffer t.buffer).size) (hx : x < t.descriptor.extent 0)
    (hy : y < t.descriptor.extent 1) (hz : z < t.descriptor.extent 2)
    (hb : b < t.descriptor.extent 3) :
    (m.buffer t.buffer).range (t.descriptor.offsetOf [x, y, z, b]) t.descriptor.elementSize =
      (List.range t.descriptor.elementSize).map fun n =>
        (m.buffer t.buffer).cell ((t.descriptor.address x y (z + t.descriptor.extent 2 * b : Nat)).toNat
          + n) := by
  have level : z + t.descriptor.extent 2 * b < t.descriptor.planes := Descriptor.add_mul_lt hz hb
  have column : t.descriptor.padding.left + x + 1 ≤ t.descriptor.paddedExtent 0 :=
    t.descriptor.left_add_lt hx
  have fits := Descriptor.position_add_le elements.hasRows column (t.descriptor.top_add_lt hy) level
  have place := t.descriptor.offsetOf_eq_address x y z b
  rw [← place, Int.toNat_natCast]
  rw [Descriptor.address_natCast, Int.natCast_inj] at place
  apply Buffer.range_eq_map
  rw [place]
  have stride : t.descriptor.elementSize = t.descriptor.stride 0 := rfl
  omega

end DeviceTensor

namespace Operands

/-- An element of an input as it belongs in the output: as it is, unless values are rescaled. -/
def carried (o : Operands) (s : Storage) (side : Rescaling → Quantization) (bytes : List UInt8) :
    List UInt8 :=
  match o.rescaling?, s.range? with
  | some r, some range =>
    s.encode ((BuildOptions.affineOf (side r)).rescale (BuildOptions.affineOf r.output) range
      (s.decode bytes))
  | _, _ => bytes

theorem convert_program_first (o : Operands) (s : Storage) (bytes : List UInt8) :
    (o.program s).convert Requantization.first bytes = o.carried s Rescaling.first bytes := by
  rw [Program.convert, carried, program]
  cases o.rescaling? <;> cases s.range? <;> rfl

theorem convert_program_second (o : Operands) (s : Storage) (bytes : List UInt8) :
    (o.program s).convert Requantization.second bytes = o.carried s Rescaling.second bytes := by
  rw [Program.convert, carried, program]
  cases o.rescaling? <;> cases s.range? <;> rfl

end Operands

namespace Operands

/-- The element that a run from column `start` on joins at a column: it belongs to the first input
as long as the column is less than the first input's width away from the start. -/
def joinedElement (o : Operands) (s : Storage) (t : Submission.Tensors) (m : Memory)
    (start x y z b : Nat) : List UInt8 :=
  if x < start + o.first.extent 0 then o.carried s Rescaling.first (t.first.elementAt m [x, y, z, b])
  else o.carried s Rescaling.second (t.second.elementAt m [x - o.first.extent 0, y, z, b])

/-- Between two memories, the elements in the rows of a window have been stored to once, and are
what the inputs hold side by side. No other element of the output has been stored to. -/
def RowsJoined (o : Operands) (s : Storage) (t : Submission.Tensors) (m m' : Memory) (w : Window) :
    Prop :=
  ∀ x y z b, x < o.output.extent 0 → y < o.output.extent 1 → z < o.output.extent 2 →
    b < o.output.extent 3 →
    t.output.storesAt m' [x, y, z, b] = (t.output.storesAt m [x, y, z, b]).map
      (· + if w.HasRow y (z + o.output.extent 2 * b) then 1 else 0) ∧
    (w.HasRow y (z + o.output.extent 2 * b) →
      t.output.elementAt m' [x, y, z, b] = o.joinedElement s t m 0 x y z b)

variable {o : Operands} {s : Storage} {k : Kernel} {t : Submission.Tensors} {m m' : Memory}
  {ws : List Window} {ls : List Launch} {w : Window}

theorem Provided.joined_eq_joinedElement (p : o.Provided s t m) (start x y z b : Nat) :
    o.joined s t m start x y (z + o.output.extent 2 * b) = o.joinedElement s t m start x y z b := by
  obtain ⟨depth, depth'⟩ := p.extent_eq 2 (by decide)
  unfold joined joinedElement
  by_cases hx : x < start + o.first.extent 0
  · rw [if_pos hx, if_pos hx, convert_program_first, DeviceTensor.elementAt_eq_element, depth]
  · rw [if_neg hx, if_neg hx, convert_program_second, DeviceTensor.elementAt_eq_element, depth',
      Int.natCast_sub (by omega)]

theorem Provided.length_joined (p : o.Provided s t m) (loads : o.WindowLoads t m w)
    {x y plane : Nat} (covers : w.Covers x y plane) :
    (o.joined s t m (w.startAt .x) x y plane).length = s.size := by
  obtain ⟨⟨hx, hx'⟩, ⟨hy, hy'⟩, hz, hz'⟩ := covers
  obtain ⟨lane, rfl⟩ := Nat.exists_eq_add_of_le hx
  rw [vectorWidth] at hx'
  have fits := loads (lane / 8) (y - w.startAt .y) (plane - w.startAt .z) (by omega) (by omega)
    (by omega)
  rw [Nat.add_sub_cancel' hy, Nat.add_sub_cancel' hz] at fits
  have length := Operands.length_joined p.suit (Nat.mod_lt lane (by decide)) fits.1 fits.2
  rwa [vectorWidth, Nat.add_assoc, Nat.div_add_mod'] at length

theorem Provided.elements_of_cells (p : o.Provided s t m) (beside : m.Beside t.output.buffer m')
    {x y z b count : Nat} {byte : Nat → UInt8} (hx : x < o.output.extent 0)
    (hy : y < o.output.extent 1) (hz : z < o.output.extent 2) (hb : b < o.output.extent 3)
    (cells : ∀ n < s.size, t.outputCell x y (z + o.output.extent 2 * b) n m' =
      (t.outputCell x y (z + o.output.extent 2 * b) n m).storeTimes (byte n) count) :
    t.output.storesAt m' [x, y, z, b] = (t.output.storesAt m [x, y, z, b]).map (· + count) ∧
      (0 < count → t.output.elementAt m' [x, y, z, b] = (List.range s.size).map byte) := by
  rw [← p.output_extent] at hx hy hz hb
  have size : t.output.descriptor.totalSize ≤ (m'.buffer t.output.buffer).size := by
    rw [beside.size]
    exact p.room.size_le
  have es : t.output.descriptor.elementSize = s.size := p.suit.size t.output (by simp)
  have old := DeviceTensor.cells_at p.room.elements p.room.size_le hx hy hz hb
  have new := DeviceTensor.cells_at p.room.elements size hx hy hz hb
  rw [p.output_extent 2, es] at old new
  rw [DeviceTensor.storesAt, DeviceTensor.storesAt, DeviceTensor.elementAt, Buffer.bytes, es, old, new]
  simp only [List.map_map]
  constructor
  · apply List.map_congr_left
    intro n hn
    exact congrArg Cell.stores (cells n (List.mem_range.1 hn))
  · intro hcount
    apply List.map_congr_left
    intro n hn
    refine (congrArg Cell.value (cells n (List.mem_range.1 hn))).trans ?_
    exact if_neg (Nat.pos_iff_ne_zero.1 hcount)

theorem map_getD_range {bytes : List UInt8} {size : Nat} (h : bytes.length = size) :
    (List.range size).map (bytes.getD · 0) = bytes := by
  apply List.ext_getElem
  · simp [h]
  · intro n _ hn
    simp [hn]

theorem Prepared.served_of_runAll (p : o.Prepared s k t m) {k' : Kernel} {pack : TensorPack}
    {q q' : Queue} (bound : Submission.Tensors.ofPack pack = .ok t)
    (outer : ∀ w ∈ ws, ∀ a, .z < a → w.span a = o.plannedWindow.span a) (idle : q.pending = [])
    (runs : k.runAll pack ws q = (.ok (), k', q')) :
    Served o s t ws q'.pending ∧ ∀ w ∈ ws, w.IsPart o.plannedWindow ∧
      ∀ u ∈ [t.first, t.second, t.output], Cursor.Fits u w := by
  have isPart (w : Window) (hw : w ∈ ws) (within : w.IsWithin o.plannedWindow) :
      w.IsPart o.plannedWindow :=
    ⟨within, outer w hw _ (by decide), outer w hw _ (by decide), outer w hw _ (by decide)⟩
  obtain ⟨ls, pending, -, served, accepted⟩ := Kernel.runAll_eq_ok p.runs bound p.addressed
    (fun w hw within => flat_of_isPart (isPart w hw within)) runs
  rw [idle, List.nil_append] at pending
  exact ⟨pending ▸ served, fun w hw => ⟨isPart w hw (accepted w hw).1, (accepted w hw).2⟩⟩

theorem Provided.elements_of_runAll (p : o.Provided s t m) (addressable : m.Addressable)
    (served : Served o s t ws ls) (parts : ∀ w ∈ ws, w.IsPart o.plannedWindow)
    (loads : ∀ w ∈ ws, (LaunchRange.ofWindow w).isEmpty = false → o.WindowLoads t m w) :
    ∃ m', Queue.runAll ls m = (ls, .ok (), m') ∧
      ∀ x y z b start, x < o.output.extent 0 → y < o.output.extent 1 → z < o.output.extent 2 →
        b < o.output.extent 3 →
        (∀ w ∈ ws, w.Covers x y (z + o.output.extent 2 * b) → w.startAt .x = start) →
        t.output.storesAt m' [x, y, z, b] = (t.output.storesAt m [x, y, z, b]).map
          (· + ws.countP (·.Covers x y (z + o.output.extent 2 * b))) ∧
        ((∃ w ∈ ws, w.Covers x y (z + o.output.extent 2 * b)) →
          t.output.elementAt m' [x, y, z, b] = o.joinedElement s t m start x y z b) := by
  have filled (plane : Nat) {x y n : Nat} (hx : x < o.output.extent 0) (hy : y < o.output.extent 1)
      (hn : n < s.size) :=
    runAll_served p.suit addressable p.room served loads
      (fun w hw some => p.windowStores (parts w hw) some) plane (by rw [p.output_extent]; exact hx)
      (by rw [p.output_extent]; exact hy) hn (.refl m _)
  obtain ⟨m', run, beside, -⟩ := filled 0 (p.extent_pos 0) (p.extent_pos 1) s.size_pos
  refine ⟨m', run, ?_⟩
  intro x y z b start hx hy hz hb same
  -- The launches leave one memory, whichever of its cells is looked at.
  obtain ⟨stores, values⟩ := p.elements_of_cells beside hx hy hz hb fun n hn => by
    obtain ⟨m'', run', -, cell⟩ := filled (z + o.output.extent 2 * b) hx hy hn
    obtain rfl : m'' = m' := by simpa [run] using run'.symm
    rw [cell, Cell.foldl_store]
    intro w hw covers
    rw [windowByte, same w hw covers]
  refine ⟨stores, ?_⟩
  rintro ⟨w, hw, covers⟩
  have some : (LaunchRange.ofWindow w).isEmpty = false :=
    Bool.eq_false_iff.2 fun e => Window.not_covers_of_isEmpty e _ _ _ covers
  have length := p.length_joined (loads w hw some) covers
  rw [same w hw covers] at length
  rw [values (List.countP_pos_iff.2 ⟨w, hw, decide_eq_true covers⟩), map_getD_range length,
    p.joined_eq_joinedElement]

theorem Provided.rows_elements (p : o.Provided s t m) (addressable : m.Addressable)
    (part : w.IsPart o.plannedWindow) (wide : w.span .x = o.plannedWindow.span .x) {q : Queue}
    (served : Served o s t [w] q.pending)
    (loads : (LaunchRange.ofWindow w).isEmpty = false → o.WindowLoads t m w) :
    ∃ m', q.finish m = (.ok q.pending.length, ⟨[], q.completed ++ q.pending⟩, m') ∧
      o.RowsJoined s t m m' w := by
  obtain ⟨m', run, elements⟩ := p.elements_of_runAll addressable served
    (List.forall_mem_singleton.2 part) (List.forall_mem_singleton.2 loads)
  refine ⟨m', Queue.finish_of_runAll run, ?_⟩
  intro x y z b hx hy hz hb
  have covers : w.Covers x y (z + o.output.extent 2 * b) ↔ w.HasRow y (z + o.output.extent 2 * b) :=
    covers_iff_hasRow wide part hx
  obtain ⟨stores, value⟩ := elements x y z b 0 hx hy hz hb
    (List.forall_mem_singleton.2 fun _ => startAt_x wide)
  refine ⟨?_, fun row => value ⟨w, List.mem_singleton_self _, covers.2 row⟩⟩
  simp only [List.countP_singleton, decide_eq_true_eq, covers] at stores
  exact stores

end Operands
end TensorConcat
