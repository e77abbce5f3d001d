import TensorConcat.Memory.Buffer
import TensorConcat.Proofs.Answer

/-! The cells of a buffer one by one: which of them a store changes, and when an access is in
bounds. -/

namespace TensorConcat

def Cell.storeTimes (c : Cell) (b : UInt8) (count : Nat) : Cell :=
  ⟨if count = 0 then c.value else b, c.stores + count⟩

theorem Cell.foldl_store {α : Type} {p : α → Prop} [DecidablePred p] {byte : α → UInt8} {b : UInt8}
    {as : List α} (h : ∀ a ∈ as, p a → byte a = b) (c : Cell) :
    as.foldl (fun c a => if p a then c.store (byte a) else c) c =
      c.storeTimes b (as.countP (p ·)) := by
  induction as generalizing c with
  | nil => simp [storeTimes]
  | cons a as ih =>
    rw [List.foldl_cons, ih fun a ha => h a (List.mem_cons_of_mem _ ha)]
    by_cases hp : p a
    · rw [if_pos hp, h a (List.mem_cons_self ..) hp, List.countP_cons_of_pos (by simpa using hp)]
      simp only [storeTimes, store, Cell.mk.injEq]
      refine ⟨?_, by omega⟩
      split <;> rfl
    · rw [if_neg hp, List.countP_cons_of_neg (by simpa using hp)]

namespace Buffer

def cell (b : Buffer) (position : Nat) : Cell :=
  b.cells.getD position .blank

/-- Counters of 32 bits have room for so many more stores to every byte. -/
def HasRoom (b : Buffer) (stores : Nat) : Prop :=
  ∀ cell ∈ b.cells, cell.stores + stores < 0x100000000

instance (b : Buffer) (stores : Nat) : Decidable (b.HasRoom stores) :=
  inferInstanceAs (Decidable (∀ cell ∈ b.cells, _))

theorem mem_cells_of_mem_range {b : Buffer} {c : Cell} {position length : Nat}
    (h : c ∈ b.range position length) : c ∈ b.cells := by
  obtain ⟨n, hn, rfl⟩ := List.getElem_of_mem h
  simp [range]

theorem range_eq_map {b : Buffer} {position length : Nat} (h : position + length ≤ b.size) :
    b.range position length = (List.range length).map fun n => b.cell (position + n) := by
  rw [size] at h
  apply List.ext_getElem
  · simp [range]
    omega
  · intro n h1 h2
    have hn : position + n < b.cells.size := by
      simp [range] at h1
      omega
    simp [range, cell, hn]

section Update

variable {f : Cell → UInt8 → Cell} {cells : Array Cell} {position : Nat} {bytes : List UInt8}

theorem update_frame {n : Nat} (outside : n < position ∨ position + bytes.length ≤ n) :
    (update f cells position bytes)[n]? = cells[n]? := by
  induction bytes generalizing cells position with
  | nil => rfl
  | cons byte bytes ih =>
    rw [List.length_cons] at outside
    rw [update, ih (by omega), Array.getElem?_modify, if_neg (by omega)]

theorem update_inside {n : Nat} {byte : UInt8} (inside : bytes[n]? = some byte) :
    (update f cells position bytes)[position + n]? = cells[position + n]?.map (f · byte) := by
  induction bytes generalizing cells position n with
  | nil => simp at inside
  | cons first bytes ih =>
    cases n with
    | zero =>
      obtain rfl := Option.some.inj inside
      rw [update, update_frame (Or.inl (by omega)), Array.getElem?_modify,
        if_pos (Nat.add_zero _).symm]
    | succ n =>
      rw [List.getElem?_cons_succ] at inside
      rw [update, show position + (n + 1) = position + 1 + n by omega, ih inside,
        Array.getElem?_modify, if_neg (by omega)]

theorem cell_update_frame {n : Nat} (outside : n < position ∨ position + bytes.length ≤ n) :
    cell ⟨update f cells position bytes⟩ n = cell ⟨cells⟩ n := by
  simp only [cell, Array.getD_eq_getD_getElem?, update_frame outside]

theorem cell_update_inside {n : Nat} {byte : UInt8} (hn : position + n < cells.size)
    (inside : bytes[n]? = some byte) :
    cell ⟨update f cells position bytes⟩ (position + n) = f (cell ⟨cells⟩ (position + n)) byte := by
  simp only [cell, Array.getD_eq_getD_getElem?, update_inside inside,
    Array.getElem?_eq_getElem hn, Option.map_some, Option.getD_some]

end Update

theorem start_eq_ok_iff {b : Buffer} (hb : b.size < 0x2000000000000000) {action : ByteAction}
    {offset : Int} {length n : Nat} :
    b.start action offset length = .ok n ↔
      0 ≤ offset ∧ offset + length ≤ b.size ∧ n = offset.toNat := by
  unfold start
  by_cases h0 : offset < 0
  · rw [if_pos h0]
    exact ⟨fun h => (nomatch h), fun h => by omega⟩
  · rw [if_neg h0]
    by_cases hl : (b.size : Int) < offset + length
    · refine ⟨?_, fun h => by omega⟩
      intro h
      split at h
      · exact nomatch h
      · exact nomatch h
    · rw [if_neg (by omega), if_neg hl]
      simp only [Except.ok.injEq]
      omega

def bytes (b : Buffer) (position length : Nat) : List UInt8 :=
  (b.range position length).map (·.value)

theorem read_eq_ok_iff {b : Buffer} (hb : b.size < 0x2000000000000000) {offset : Int} {length : Nat}
    {bs : List UInt8} :
    b.read offset length = .ok bs ↔
      0 ≤ offset ∧ offset + length ≤ b.size ∧ bs = b.bytes offset.toNat length := by
  simp only [read, Answer.bind_eq_ok_iff, start_eq_ok_iff hb, pure, Except.pure, Except.ok.injEq]
  constructor
  · rintro ⟨n, ⟨h0, hl, rfl⟩, rfl⟩
    exact ⟨h0, hl, rfl⟩
  · rintro ⟨h0, hl, rfl⟩
    exact ⟨_, ⟨h0, hl, rfl⟩, rfl⟩

theorem write_eq_ok_iff {b b' : Buffer} (hb : b.size < 0x2000000000000000) {offset : Int}
    {bs : List UInt8} :
    b.write offset bs = .ok b' ↔
      0 ≤ offset ∧ offset + bs.length ≤ b.size ∧
        b' = ⟨update Cell.store b.cells offset.toNat bs⟩ := by
  simp only [write, Answer.bind_eq_ok_iff, start_eq_ok_iff hb, pure, Except.pure, Except.ok.injEq]
  constructor
  · rintro ⟨n, ⟨h0, hl, rfl⟩, rfl⟩
    exact ⟨h0, hl, rfl⟩
  · rintro ⟨h0, hl, rfl⟩
    exact ⟨_, ⟨h0, hl, rfl⟩, rfl⟩

theorem length_bytes {b : Buffer} {position length : Nat} (h : position + length ≤ b.size) :
    (b.bytes position length).length = length := by
  simp [bytes, range_eq_map h]

theorem getElem?_bytes {b : Buffer} {position length n : Nat} (h : position + length ≤ b.size)
    (hn : n < length) : (b.bytes position length)[n]? = some (b.cell (position + n)).value := by
  simp [bytes, range_eq_map h, hn]

theorem take_drop_bytes {b : Buffer} {position length skip count : Nat}
    (h : position + length ≤ b.size) (hc : skip + count ≤ length) :
    ((b.bytes position length).drop skip).take count = b.bytes (position + skip) count := by
  apply List.ext_getElem?
  intro n
  by_cases hn : n < count
  · rw [List.getElem?_take_of_lt hn, List.getElem?_drop, getElem?_bytes h (by omega),
      getElem?_bytes (by omega) hn, Nat.add_assoc]
  · rw [List.getElem?_eq_none (by rw [List.length_take]; omega),
      List.getElem?_eq_none (by rw [length_bytes (by omega)]; omega)]

end Buffer

namespace Memory

/-- Every buffer keeps a counter of four bytes for each of its bytes, so that none takes up an
eighth of the addresses. -/
def Addressable (m : Memory) : Prop :=
  ∀ id, (m.buffer id).size < 0x2000000000000000

theorem buffer_set {m : Memory} {id : BufferId} (h : 0 < (m.buffer id).size) (b : Buffer)
    (other : BufferId) :
    (m.set id b).buffer other = if other = id then b else m.buffer other := by
  have hid : id < m.buffers.size := by
    refine Nat.lt_of_not_le fun hle => Nat.lt_irrefl 0 ?_
    simp [buffer, Array.getElem?_eq_none hle, Buffer.zeroed, Buffer.size] at h
  simp only [buffer, set, Array.getD_eq_getD_getElem?, Array.getElem?_setIfInBounds]
  by_cases ho : other = id
  · simp [ho, hid]
  · rw [if_neg (Ne.symm ho), if_neg ho]

theorem buffer_set_of_ne {m : Memory} {id other : BufferId} {b : Buffer} (h : other ≠ id) :
    (m.set id b).buffer other = m.buffer other := by
  simp only [buffer, set, Array.getD_eq_getD_getElem?, Array.getElem?_setIfInBounds,
    if_neg (Ne.symm h)]

end Memory
end TensorConcat
