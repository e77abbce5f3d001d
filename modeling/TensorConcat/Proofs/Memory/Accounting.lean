import TensorConcat.Proofs.Memory.Values

/-! Histories of buffers. Through all calls on a memory, by whichever of its aliases a buffer is
called, a byte is what has been stored to it last and has been counted once for each store by a
kernel. -/

namespace TensorConcat

namespace Memory

variable {m : Memory} {id other : BufferId} {b : Buffer}

theorem set_buffer_self (m : Memory) (id : BufferId) : m.set id (m.buffer id) = m := by
  obtain ⟨buffers⟩ := m
  simp only [set, buffer, mk.injEq, Array.getD_eq_getD_getElem?]
  apply Array.ext_getElem?
  intro i
  rw [Array.getElem?_setIfInBounds]
  split
  next same =>
    subst same
    split
    next inside => rw [Array.getElem?_eq_getElem inside, Option.getD_some]
    next outside => rw [Array.getElem?_eq_none (Nat.le_of_not_lt outside)]
  next => rfl

theorem buffer_set_of_size_eq (size : b.size = (m.buffer id).size) :
    (m.set id b).buffer other = if other = id then b else m.buffer other := by
  rcases Nat.eq_zero_or_pos (m.buffer id).size with zero | pos
  · -- A buffer without bytes is the buffer that is there already.
    have same : b = m.buffer id := by
      obtain ⟨cells⟩ := b
      have empty : cells = #[] := Array.eq_empty_of_size_eq_zero (size.trans zero)
      have empty' : (m.buffer id).cells = #[] := Array.eq_empty_of_size_eq_zero zero
      rw [empty, ← empty']
    rw [same, set_buffer_self]
    split
    next h => rw [h]
    next => rfl
  · exact buffer_set pos b other

end Memory

namespace Buffer

def HasRange (b : Buffer) (offset : Int) (length : Nat) : Prop :=
  0 ≤ offset ∧ offset + length ≤ b.size

instance (b : Buffer) (offset : Int) (length : Nat) : Decidable (b.HasRange offset length) :=
  inferInstanceAs (Decidable (_ ∧ _))

variable {b : Buffer} {action : ByteAction} {offset : Int} {length : Nat}

theorem size_zeroed (size : Nat) : (zeroed size).size = size :=
  Array.size_replicate ..

theorem cell_zeroed (size p : Nat) : (zeroed size).cell p = .blank := by
  rw [cell, zeroed, Array.getD_eq_getD_getElem?, Array.getElem?_replicate]
  split <;> rfl

theorem start_of_hasRange (h : b.HasRange offset length)
    (regular : 0 ≤ offset → offset + length < 0x10000000000000000) :
    b.start action offset length = .ok offset.toNat := by
  obtain ⟨lower, upper⟩ := h
  have within := regular lower
  rw [start, if_neg (by omega), if_neg (by omega), if_neg (by omega)]

theorem start_of_not_hasRange (action : ByteAction) (h : ¬ b.HasRange offset length) :
    ∃ e, b.start action offset length = .error e ∧
      (e.kind = .device ↔ (0 ≤ offset → offset + length < 0x10000000000000000)) := by
  rw [start]
  by_cases negative : offset < 0
  · rw [if_pos negative]
    exact ⟨_, rfl, iff_of_true rfl fun nonneg => absurd nonneg (Int.not_le.2 negative)⟩
  · rw [if_neg negative]
    by_cases vast : 0x10000000000000000 ≤ offset + length
    · rw [if_pos vast]
      refine ⟨_, rfl, iff_of_false nofun fun regular => ?_⟩
      exact Int.not_lt.2 vast (regular (Int.not_lt.1 negative))
    · have past : (b.size : Int) < offset + length := by
        rw [HasRange] at h
        omega
      rw [if_neg vast, if_pos past]
      exact ⟨_, rfl, iff_of_true rfl fun _ => Int.not_le.1 vast⟩

end Buffer

inductive BufferCall where
  | read (offset : Int) (length : Nat)
  | write (offset : Int) (bytes : List UInt8)
  | upload (d : Descriptor) (s : Storage) (values : List Int)
  | download (d : Descriptor) (s : Storage)

namespace BufferCall

def perform (b : Buffer) : BufferCall → Except Error Unit × Buffer
  | .read offset length => ((b.read offset length).map fun _ => (), b)
  | .write offset bytes =>
    match b.write offset bytes with
    | .ok b' => (.ok (), b')
    | .error e => (.error e, b)
  | .upload d s values => (Buffer.upload d s values).perform b
  | .download d s => ((b.download d s).map fun _ => (), b)

/-- The end of a range is an address, and so are the offsets of a tensor. Without values of the right
size, no offsets are asked for. -/
def Regular : BufferCall → Prop
  | .read offset length => 0 ≤ offset → offset + length < 0x10000000000000000
  | .write offset bytes => 0 ≤ offset → offset + bytes.length < 0x10000000000000000
  | .upload d s _ | .download d s => d.elementSize = s.size → d.IsAddressable

def range? : BufferCall → Option (Int × Nat)
  | .read offset length => some (offset, length)
  | .write offset bytes => some (offset, bytes.length)
  | _ => none

def counts (p : Nat) : BufferCall → Except Error Unit → Bool
  | .write offset bytes, .ok () => offset ≤ p && p < offset + bytes.length
  | _, _ => false

/-- The values that an upload stores, in a buffer of some size: those before the first that does not
fit, or none at all if they are not the values of the tensor. -/
def accepted (size : Nat) (d : Descriptor) (s : Storage) (values : List Int) : List (Nat × Int) :=
  if d.elementSize = s.size ∧ values.length = d.elementCount then
    (Buffer.entries d values).takeWhile fun e => e.1 + s.size ≤ size
  else []

def stored? (size p : Nat) : BufferCall → Except Error Unit → Option UInt8
  | .write offset bytes, .ok () => if offset ≤ p then bytes[p - offset.toNat]? else none
  | .upload d s values, _ => Buffer.placedByte? s (accepted size d s values) p
  | _, _ => none

end BufferCall

namespace Buffer

variable {b : Buffer} {d : Descriptor} {s : Storage} {values : List Int}

theorem upload_snd (few : d.elementSize = s.size → d.elementCount < 0x1000000000000000) :
    ((upload d s values).perform b).2 =
      ⟨placed s (BufferCall.accepted b.size d s values) b.cells⟩ := by
  by_cases size : d.elementSize = s.size
  · by_cases count : values.length = d.elementCount
    · rw [BufferCall.accepted, if_pos ⟨size, count⟩]
      by_cases fits : b.Contains d
      · have all : ∀ e ∈ entries d values, decide (e.1 + s.size ≤ b.size) = true := fun e he =>
          decide_eq_true ((contains_iff_entries size count).1 fits e he)
        have whole : (entries d values).takeWhile (fun e => e.1 + s.size ≤ b.size) =
            entries d values := by
          rw [← List.append_nil (entries d values), List.takeWhile_append_of_pos (by simpa using all),
            List.takeWhile_nil]
        rw [upload_of_contains size (few size) count fits, whole]
      · obtain ⟨front, entry, rest, split, before, past, failed⟩ :=
          upload_of_not_contains size (few size) count fits
        have part : (entries d values).takeWhile (fun e => e.1 + s.size ≤ b.size) = front := by
          rw [split, List.takeWhile_append_of_pos fun e he => decide_eq_true (before e he),
            List.takeWhile_cons_of_neg (by simpa using past), List.append_nil]
        rw [failed, part]
    · rw [perform_upload size (few size), if_neg count, BufferCall.accepted, if_neg fun h => count h.2]
      rfl
  · rw [upload_of_size_ne size, BufferCall.accepted, if_neg fun h => size h.1]
    rfl

theorem accepted_apart (size : Nat) :
    (BufferCall.accepted size d s values).Pairwise fun e e' => e.1 + s.size ≤ e'.1 := by
  rw [BufferCall.accepted]
  split
  next h => exact (entries_apart h.1 h.2).sublist (List.takeWhile_sublist _)
  next => exact .nil

end Buffer

namespace BufferCall

variable {b : Buffer} {offset : Int} {length : Nat} {bytes : List UInt8}

theorem perform_write_of_hasRange (inside : b.HasRange offset bytes.length)
    (regular : (write offset bytes).Regular) :
    (write offset bytes).perform b =
      (.ok (), ⟨Buffer.update Cell.store b.cells offset.toNat bytes⟩) := by
  rw [perform, Buffer.write, Buffer.start_of_hasRange inside regular]
  rfl

section Range

variable {call : BufferCall} (range : call.range? = some (offset, length))
include range

theorem regular_of_hasRange (inside : b.HasRange offset length)
    (small : b.size < 0x10000000000000000) : call.Regular := by
  obtain ⟨lower, upper⟩ := inside
  cases call with
  | read o n =>
    obtain ⟨rfl, rfl⟩ := Prod.mk.inj (Option.some.inj range)
    exact fun _ => by omega
  | write o bytes =>
    obtain ⟨rfl, rfl⟩ := Prod.mk.inj (Option.some.inj range)
    exact fun _ => by omega
  | upload => cases range
  | download => cases range

theorem perform_of_hasRange (inside : b.HasRange offset length) (regular : call.Regular) :
    (call.perform b).1 = .ok () := by
  cases call with
  | read o n =>
    obtain ⟨rfl, rfl⟩ := Prod.mk.inj (Option.some.inj range)
    rw [perform, Buffer.read, Buffer.start_of_hasRange inside regular]
    rfl
  | write o bytes =>
    obtain ⟨rfl, rfl⟩ := Prod.mk.inj (Option.some.inj range)
    rw [perform_write_of_hasRange inside regular]
  | upload => cases range
  | download => cases range

theorem perform_of_not_hasRange (outside : ¬ b.HasRange offset length) :
    ∃ e, call.perform b = (.error e, b) ∧ (e.kind = .device ↔ call.Regular) := by
  cases call with
  | read o n =>
    obtain ⟨rfl, rfl⟩ := Prod.mk.inj (Option.some.inj range)
    obtain ⟨e, refused, kind⟩ := b.start_of_not_hasRange .read outside
    exact ⟨e, by rw [perform, Buffer.read, refused]; rfl, kind⟩
  | write o bytes =>
    obtain ⟨rfl, rfl⟩ := Prod.mk.inj (Option.some.inj range)
    obtain ⟨e, refused, kind⟩ := b.start_of_not_hasRange .write outside
    exact ⟨e, by rw [perform, Buffer.write, refused]; rfl, kind⟩
  | upload => cases range
  | download => cases range

end Range

theorem cell_update_store (inside : b.HasRange offset bytes.length) {p : Nat} (hp : p < b.size) :
    (⟨Buffer.update Cell.store b.cells offset.toNat bytes⟩ : Buffer).cell p =
      ⟨((write offset bytes).stored? b.size p (.ok ())).getD (b.cell p).value,
        (b.cell p).stores + if (write offset bytes).counts p (.ok ()) then 1 else 0⟩ := by
  obtain ⟨lower, upper⟩ := inside
  simp only [stored?, counts, Bool.and_eq_true, decide_eq_true_eq]
  by_cases covered : offset ≤ p ∧ (p : Int) < offset + bytes.length
  · obtain ⟨n, rfl⟩ := Nat.exists_eq_add_of_le (show offset.toNat ≤ p by omega)
    have hn : n < bytes.length := by omega
    rw [if_pos covered, if_pos covered.1, Nat.add_sub_cancel_left, List.getElem?_eq_getElem hn,
      Buffer.cell_update_inside hp (List.getElem?_eq_getElem hn)]
    rfl
  · have none : (if offset ≤ p then bytes[p - offset.toNat]? else none) = none := by
      split
      · rw [List.getElem?_eq_none (by omega)]
      · rfl
    rw [if_neg covered, none, Buffer.cell_update_frame (by omega)]
    rfl

theorem cell_perform {call : BufferCall} (regular : call.Regular) (b : Buffer) :
    (call.perform b).2.size = b.size ∧ ∀ p < b.size, (call.perform b).2.cell p =
      ⟨(call.stored? b.size p (call.perform b).1).getD (b.cell p).value,
        (b.cell p).stores + if call.counts p (call.perform b).1 then 1 else 0⟩ := by
  cases call with
  | read offset length => exact ⟨rfl, fun _ _ => rfl⟩
  | download d s => exact ⟨rfl, fun _ _ => rfl⟩
  | upload d s values =>
    have left : ((Buffer.upload d s values).perform b).2 = _ :=
      Buffer.upload_snd fun size => (regular size).few
    rw [perform, left]
    exact ⟨Buffer.size_placed .., fun p hp => Buffer.cell_placed (Buffer.accepted_apart b.size) hp⟩
  | write offset bytes =>
    by_cases inside : b.HasRange offset bytes.length
    · rw [perform_write_of_hasRange inside regular]
      exact ⟨Buffer.size_update .., fun p hp => cell_update_store inside hp⟩
    · obtain ⟨e, refused, -⟩ := perform_of_not_hasRange (rfl : (write offset bytes).range? = _) inside
      rw [refused]
      exact ⟨rfl, fun _ _ => rfl⟩

end BufferCall

structure BufferEvent where
  handle : Nat
  call : BufferCall
  answer : Except Error Unit

def eventsOf (buffers : Nat → BufferId) (log : List BufferEvent) (id : BufferId) :
    List BufferEvent :=
  log.filter (buffers ·.handle = id)

def lastStored? (buffers : Nat → BufferId) (log : List BufferEvent) (id : BufferId)
    (size p : Nat) : Option UInt8 :=
  ((eventsOf buffers log id).filterMap fun e => e.call.stored? size p e.answer).getLast?

def storeCount (buffers : Nat → BufferId) (log : List BufferEvent) (id : BufferId) (p : Nat) :
    Nat :=
  (eventsOf buffers log id).countP fun e => e.call.counts p e.answer

section Log

variable {buffers : Nat → BufferId} {log : List BufferEvent} {e : BufferEvent} {id : BufferId}
  {size p : Nat}

theorem eventsOf_append_of_eq (h : buffers e.handle = id) :
    eventsOf buffers (log ++ [e]) id = eventsOf buffers log id ++ [e] := by
  simp [eventsOf, h]

theorem eventsOf_append_of_ne (h : buffers e.handle ≠ id) :
    eventsOf buffers (log ++ [e]) id = eventsOf buffers log id := by
  simp [eventsOf, h]

theorem lastStored?_append (h : buffers e.handle = id) (value : UInt8) :
    (lastStored? buffers (log ++ [e]) id size p).getD value =
      (e.call.stored? size p e.answer).getD ((lastStored? buffers log id size p).getD value) := by
  rw [lastStored?, eventsOf_append_of_eq h, List.filterMap_append, List.getLast?_append, lastStored?]
  cases stored : e.call.stored? size p e.answer <;> simp [stored]

theorem storeCount_append (h : buffers e.handle = id) :
    storeCount buffers (log ++ [e]) id p =
      storeCount buffers log id p + if e.call.counts p e.answer then 1 else 0 := by
  rw [storeCount, eventsOf_append_of_eq h, List.countP_append, List.countP_singleton, storeCount]

end Log

structure MemoryUse where
  memory : Memory
  log : List BufferEvent

namespace MemoryUse

def perform (buffers : Nat → BufferId) (u : MemoryUse) (c : Nat × BufferCall) : MemoryUse :=
  let left := c.2.perform (u.memory.buffer (buffers c.1))
  ⟨u.memory.set (buffers c.1) left.2, u.log ++ [⟨c.1, c.2, left.1⟩]⟩

def after (buffers : Nat → BufferId) (m : Memory) (calls : List (Nat × BufferCall)) : MemoryUse :=
  calls.foldl (perform buffers) ⟨m, []⟩

/-- The log accounts for all that has become of the buffers. -/
structure Accounts (buffers : Nat → BufferId) (m : Memory) (u : MemoryUse) : Prop where
  size : ∀ id, (u.memory.buffer id).size = (m.buffer id).size
  cell : ∀ id p, p < (m.buffer id).size → (u.memory.buffer id).cell p =
    ⟨(lastStored? buffers u.log id (m.buffer id).size p).getD ((m.buffer id).cell p).value,
      ((m.buffer id).cell p).stores + storeCount buffers u.log id p⟩

variable {buffers : Nat → BufferId} {m : Memory} {u : MemoryUse}

theorem Accounts.perform (h : Accounts buffers m u) {handle : Nat} {call : BufferCall}
    (regular : call.Regular) : Accounts buffers m (u.perform buffers (handle, call)) := by
  obtain ⟨kept, called⟩ := BufferCall.cell_perform regular (u.memory.buffer (buffers handle))
  have left (id : BufferId) : (u.perform buffers (handle, call)).memory.buffer id = _ :=
    Memory.buffer_set_of_size_eq kept
  have log : (u.perform buffers (handle, call)).log = u.log ++ [⟨handle, call, _⟩] := rfl
  refine ⟨fun id => ?_, fun id p hp => ?_⟩
  · rw [left]
    split
    next same => rw [kept, same, h.size]
    next => exact h.size id
  · rw [left, log]
    by_cases same : buffers handle = id
    · subst same
      have size := h.size (buffers handle)
      rw [if_pos rfl, called p (by rwa [size]), h.cell _ p hp, size, lastStored?_append rfl,
        storeCount_append rfl, Nat.add_assoc]
    · rw [if_neg (Ne.symm same), h.cell id p hp, lastStored?, storeCount, lastStored?, storeCount,
        eventsOf_append_of_ne same]

theorem accounts_after (buffers : Nat → BufferId) (m : Memory) {calls : List (Nat × BufferCall)}
    (regular : ∀ c ∈ calls, c.2.Regular) : Accounts buffers m (after buffers m calls) := by
  have run (u : MemoryUse) (h : Accounts buffers m u) :
      Accounts buffers m (calls.foldl (MemoryUse.perform buffers) u) := by
    induction calls generalizing u with
    | nil => exact h
    | cons c calls ih =>
      rw [List.forall_mem_cons] at regular
      exact ih regular.2 _ (Accounts.perform h regular.1)
  exact run ⟨m, []⟩ ⟨fun _ => rfl, fun _ _ _ => rfl⟩

end MemoryUse

theorem ElementType.size_pos {t : ElementType} (h : t ≠ .unknown) : 0 < t.size := by
  cases t with
  | unknown => exact absurd rfl h
  | _ => decide

namespace Buffer

/-- The least number of stores that any byte of an element has seen. -/
def IsLeastCount (b : Buffer) (offset size n : Nat) : Prop :=
  (∃ i < size, (b.cell (offset + i)).stores = n) ∧ ∀ i < size, n ≤ (b.cell (offset + i)).stores

theorem exists_isLeastCount {b : Buffer} {offset size : Nat} (pos : 0 < size)
    (inside : offset + size ≤ b.size) :
    ∃ n, ((b.range offset size).map (·.stores)).min? = some n ∧ b.IsLeastCount offset size n := by
  rw [range_eq_map inside, List.map_map]
  have some : ((List.range size).map ((·.stores) ∘ fun i => b.cell (offset + i))).min?.isSome := by
    rw [List.isSome_min?_iff, ne_eq, List.map_eq_nil_iff, List.range_eq_nil]
    omega
  obtain ⟨n, least⟩ := Option.isSome_iff_exists.1 some
  refine ⟨n, least, ?_⟩
  rw [List.min?_eq_some_iff, List.forall_mem_map, List.mem_map] at least
  simpa only [IsLeastCount, List.mem_range, Function.comp] using least

section Counts

variable {b : Buffer} {d : Descriptor}

theorem storeCounts_eq (few : d.elementCount < 0x1000000000000000) (b : Buffer) :
    b.storeCounts d = d.elementOffsets.mapM (fun offset => do
      b.checkElement .count offset d.elementSize
      match ((b.range offset d.elementSize).map (·.stores)).min? with
      | some n => return n
      | none => throw (.outOfBounds .count d.elementSize (signed64 offset) b.size)) := by
  have listed : d.listOffsets = .ok d.elementOffsets := if_pos few
  rw [storeCounts, listed]
  rfl

theorem storeCounts_of_contains (few : d.elementCount < 0x1000000000000000)
    (known : d.type ≠ .unknown) (fits : b.Contains d) :
    ∃ counts : List Nat, b.storeCounts d = .ok counts ∧ counts.length = d.elementCount ∧
      ∀ k offset : Nat, d.elementOffsets[k]? = some offset →
        ∃ n, counts[k]? = some n ∧ b.IsLeastCount offset d.elementSize n := by
  have pos : 0 < d.elementSize := ElementType.size_pos known
  let count (offset : Nat) : Nat := ((b.range offset d.elementSize).map (·.stores)).min?.getD 0
  refine ⟨d.elementOffsets.map count, ?_, ?_, fun k offset hk => ?_⟩
  · rw [storeCounts_eq few]
    refine Answer.mapM_eq_ok fun offset ho => ?_
    obtain ⟨n, least, -⟩ := exists_isLeastCount pos (fits offset ho)
    rw [checkElement, if_pos (fits offset ho), Answer.ok_bind]
    simp only [count, least]
    rfl
  · rw [List.length_map, Descriptor.length_elementOffsets]
  · obtain ⟨n, least, isLeast⟩ := exists_isLeastCount pos (fits offset (List.mem_of_getElem? hk))
    refine ⟨n, ?_, isLeast⟩
    rw [List.getElem?_map, hk, Option.map_some]
    simp only [count, least, Option.getD_some]

theorem storeCounts_of_not_contains (few : d.elementCount < 0x1000000000000000)
    (short : ¬ b.Contains d) : ∃ e, b.storeCounts d = .error e ∧ e.kind = .device := by
  rw [storeCounts_eq few]
  refine mapM_of_not_contains short fun offset => ?_
  split
  · exact Answer.failsAs_ok _ _
  · exact Answer.failsAs_error (.outOfBounds ..)

end Counts

end Buffer

namespace MemoryUse

theorem length_log_after (buffers : Nat → BufferId) (m : Memory) (calls : List (Nat × BufferCall)) :
    (after buffers m calls).log.length = calls.length := by
  have run (u : MemoryUse) :
      (calls.foldl (perform buffers) u).log.length = u.log.length + calls.length := by
    induction calls generalizing u with
    | nil => rfl
    | cons c calls ih =>
      rw [List.foldl_cons, ih, perform, List.length_append, List.length_singleton, List.length_cons,
        Nat.add_assoc, Nat.add_comm 1]
  exact (run ⟨m, []⟩).trans (Nat.zero_add _)

theorem storeCount_le (buffers : Nat → BufferId) (log : List BufferEvent) (id : BufferId) (p : Nat) :
    storeCount buffers log id p ≤ log.length :=
  Nat.le_trans List.countP_le_length (List.length_filter_le _ _)

/-- Calls on a memory, none of which asks for more than addresses of 64 bits, and after which counters
of 32 bits hold the stores to every byte. -/
structure Accountable (buffers : Nat → BufferId) (m : Memory) (calls : List (Nat × BufferCall)) :
    Prop where
  addressable : m.Addressable
  regular : ∀ c ∈ calls, c.2.Regular
  counted : ∀ id p, (((after buffers m calls).memory.buffer id).cell p).stores < 0x100000000

theorem accountable_of_room {calls : List (Nat × BufferCall)} (addressable : m.Addressable)
    (regular : ∀ c ∈ calls, c.2.Regular)
    (room : ∀ id p, ((m.buffer id).cell p).stores + calls.length < 0x100000000) :
    Accountable buffers m calls where
  addressable := addressable
  regular := regular
  counted id p := by
    have accounts : Accounts buffers m (after buffers m calls) := accounts_after buffers m regular
    rcases Nat.lt_or_ge p (m.buffer id).size with inside | outside
    · have most := storeCount_le buffers (after buffers m calls).log id p
      rw [length_log_after] at most
      rw [accounts.cell id p inside]
      exact Nat.lt_of_le_of_lt (Nat.add_le_add_left most _) (room id p)
    · rw [Buffer.cell_of_size_le (by rwa [accounts.size])]
      decide

/-- After any calls through any aliases, a buffer that was blank at first holds what the calls have
stored last, and its counters tell the stores by kernels. Reads and writes succeed in their range. Out
of it they are refused and change nothing, exactly if the range has an end. The counts of a tensor are
the least ones of the bytes of its elements. -/
theorem history_accounts (buffers : Nat → BufferId) (m : Memory) (calls : List (Nat × BufferCall))
    (h : Accountable buffers m calls) :
    let u := after buffers m calls
    (∀ id size, m.buffer id = .zeroed size → (u.memory.buffer id).size = size ∧
      ∀ p < size, (u.memory.buffer id).cell p =
        ⟨(lastStored? buffers u.log id size p).getD 0, storeCount buffers u.log id p⟩) ∧
      (∀ handle call offset length, call.range? = some (offset, length) →
        ((u.memory.buffer (buffers handle)).HasRange offset length →
          (call.perform (u.memory.buffer (buffers handle))).1 = .ok ()) ∧
        (¬ (u.memory.buffer (buffers handle)).HasRange offset length →
          ((∃ e, (call.perform (u.memory.buffer (buffers handle))).1 = .error e ∧
            e.kind = .device ∧ (u.perform buffers (handle, call)).memory = u.memory) ↔
              call.Regular))) ∧
      ∀ id d, d.type ≠ .unknown → d.IsAddressable →
        ((u.memory.buffer id).Contains d →
          ∃ counts : List Nat, (u.memory.buffer id).storeCounts d = .ok counts ∧
            counts.length = d.elementCount ∧
            ∀ k offset : Nat, d.elementOffsets[k]? = some offset →
              ∃ n, counts[k]? = some n ∧
                (u.memory.buffer id).IsLeastCount offset d.elementSize n) ∧
        (¬ (u.memory.buffer id).Contains d →
          ∃ e, (u.memory.buffer id).storeCounts d = .error e ∧ e.kind = .device) := by
  intro u
  have accounts : Accounts buffers m u := accounts_after buffers m h.regular
  refine ⟨fun id size fresh => ?_, fun handle call offset length range => ⟨fun inside => ?_, ?_⟩,
    fun id d known addressable => ⟨Buffer.storeCounts_of_contains addressable.few known,
      Buffer.storeCounts_of_not_contains addressable.few⟩⟩
  · have whole : (m.buffer id).size = size := by rw [fresh, Buffer.size_zeroed]
    refine ⟨(accounts.size id).trans whole, fun p hp => ?_⟩
    rw [accounts.cell id p (whole ▸ hp), whole, fresh, Buffer.cell_zeroed]
    simp only [Cell.blank, Nat.zero_add]
  · apply BufferCall.perform_of_hasRange range inside
    apply BufferCall.regular_of_hasRange range inside
    rw [accounts.size]
    exact Nat.lt_trans (h.addressable _) (by decide)
  · intro outside
    obtain ⟨e, refused, kind⟩ := BufferCall.perform_of_not_hasRange range outside
    rw [← kind]
    constructor
    · rintro ⟨e', refused', device, -⟩
      rw [refused] at refused'
      obtain rfl := Except.error.inj refused'
      exact device
    · intro device
      refine ⟨e, by rw [refused], device, ?_⟩
      rw [perform, refused, Memory.set_buffer_self]

def threeNumbers : Descriptor :=
  { Descriptor.ofShape ⟨[3], by decide⟩ .unsigned16 with padding := .horizontal 1 0 }

theorem threeNumbers_isAddressable : threeNumbers.IsAddressable :=
  Descriptor.isAddressable_of_totalSize_lt (Descriptor.hasElements_iff.2 (by decide)) (by decide)
    (by decide) (by decide)

def sharedCalls : List (Nat × BufferCall) :=
  [(0, .write 0 [1, 2, 3]), (1, .write 2 [7, 8]), (1, .write 5 [9, 9]), (0, .write (-1) [4]),
    (1, .upload threeNumbers .i16 [-2, 5, 9]), (0, .read 1 4)]

theorem sharedCalls_regular : ∀ c ∈ sharedCalls, c.2.Regular := by
  simp [sharedCalls, BufferCall.Regular, threeNumbers_isAddressable]

theorem sharedCalls_accountable :
    Accountable (fun _ => 0) ⟨#[.zeroed 6]⟩ sharedCalls := by
  have buffers : ∀ id, ∃ size ≤ 6, (⟨#[.zeroed 6]⟩ : Memory).buffer id = .zeroed size
    | 0 => ⟨6, Nat.le_refl 6, rfl⟩
    | _ + 1 => ⟨0, Nat.zero_le 6, rfl⟩
  refine accountable_of_room (fun id => ?_) sharedCalls_regular fun id p => ?_
  · obtain ⟨size, small, is⟩ := buffers id
    rw [is, Buffer.size_zeroed]
    exact Nat.lt_of_le_of_lt small (by decide)
  · obtain ⟨size, -, is⟩ := buffers id
    rw [is, Buffer.cell_zeroed]
    decide

theorem history_accounts_shared :
    let m : Memory := ⟨#[.zeroed 6]⟩
    let u := after (fun _ => 0) m sharedCalls
    let pair := Descriptor.ofShape ⟨[2], by decide⟩ .unsigned16
    Accountable (fun _ => 0) m sharedCalls ∧ m.buffer 0 = .zeroed 6 ∧
      (u.memory.buffer 0).size = 6 ∧
      (∀ p < 6, (u.memory.buffer 0).cell p =
        ⟨(lastStored? (fun _ => 0) u.log 0 6 p).getD 0, storeCount (fun _ => 0) u.log 0 p⟩) ∧
      ((BufferCall.read 2 4).perform (u.memory.buffer 0)).1 = .ok () ∧
      (u.perform (fun _ => 0) (1, .write 4 [1, 1, 1])).memory = u.memory ∧
      (¬ ∃ e, ((BufferCall.read 1 0xffffffffffffffff).perform (u.memory.buffer 0)).1 = .error e ∧
        e.kind = .device ∧
        (u.perform (fun _ => 0) (0, .read 1 0xffffffffffffffff)).memory = u.memory) ∧
      (∃ counts, (u.memory.buffer 0).storeCounts pair = .ok counts) ∧
      ∃ e, (u.memory.buffer 0).storeCounts threeNumbers = .error e ∧ e.kind = .device := by
  intro m u pair
  have fresh : m.buffer 0 = .zeroed 6 := by decide
  obtain ⟨bytes, ranges, counts⟩ := history_accounts (fun _ => 0) m sharedCalls sharedCalls_accountable
  obtain ⟨size, cells⟩ := bytes 0 6 fresh
  have inside := (ranges 0 (.read 2 4) 2 4 rfl).1 (by rw [Buffer.HasRange, size]; decide)
  have outside := (ranges 1 (.write 4 [1, 1, 1]) 4 3 rfl).2 (by rw [Buffer.HasRange, size]; decide)
  have endless := (ranges 0 (.read 1 0xffffffffffffffff) 1 0xffffffffffffffff rfl).2
    (by rw [Buffer.HasRange, size]; decide)
  obtain ⟨e, -, -, kept⟩ := outside.2 (by decide : (0 : Int) ≤ 4 → _)
  have fits : (u.memory.buffer 0).Contains pair := by rw [Buffer.Contains, size]; decide
  have short : ¬ (u.memory.buffer 0).Contains threeNumbers := by rw [Buffer.Contains, size]; decide
  have pair_isAddressable : pair.IsAddressable := Descriptor.isAddressable_of_totalSize_lt
    (Descriptor.hasElements_iff.2 (by decide)) (by decide) (by decide) (by decide)
  obtain ⟨ns, counted, -⟩ := (counts 0 pair (by decide) pair_isAddressable).1 fits
  refine ⟨sharedCalls_accountable, fresh, size, cells, inside, kept, fun refused => ?_, ⟨ns, counted⟩,
    (counts 0 threeNumbers (by decide) threeNumbers_isAddressable).2 short⟩
  exact absurd (endless.1 refused) (by decide : ¬ ((0 : Int) ≤ 1 → _))

example : (after (fun _ => 0) ⟨#[.zeroed 6]⟩ sharedCalls).memory =
    ⟨#[⟨#[⟨1, 1⟩, ⟨2, 1⟩, ⟨254, 2⟩, ⟨255, 1⟩, ⟨5, 0⟩, ⟨0, 0⟩]⟩]⟩ := by decide

end MemoryUse

namespace Buffer

/-- A range that ends at `2 ^ 64` is not in a buffer of eight bytes, but what fails is the sum. -/
theorem read_past_addresses :
    ¬ (zeroed 8).HasRange 1 0xffffffffffffffff ∧
      ¬ ∃ e, (zeroed 8).read 1 0xffffffffffffffff = .error e ∧ e.kind = .device := by
  have bytes : (zeroed 8).read 1 0xffffffffffffffff = .error (.fault .addressTooLarge) := by
    rw [read, start, if_neg (by decide), if_pos (by decide), Answer.error_bind]
  exact ⟨by decide, Answer.not_device_of_fault bytes⟩

end Buffer
end TensorConcat
