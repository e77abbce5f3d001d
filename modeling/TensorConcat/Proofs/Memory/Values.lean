import TensorConcat.Proofs.Effect
import TensorConcat.Proofs.Memory.Cells
import TensorConcat.Proofs.Tensor.Offsets

/-! Values of tensors in buffers: what is placed is read back, nothing else is touched, and a buffer
that is too short holds the elements before the first that does not fit. -/

namespace TensorConcat

namespace Storage

def Holds (s : Storage) (value : Int) : Prop :=
  if s.isSigned then -s.modulus ≤ 2 * value ∧ 2 * value < s.modulus
  else 0 ≤ value ∧ value < s.modulus

instance (s : Storage) (value : Int) : Decidable (s.Holds value) :=
  inferInstanceAs (Decidable (if s.isSigned then -s.modulus ≤ 2 * value ∧ 2 * value < s.modulus
    else 0 ≤ value ∧ value < s.modulus))

theorem modulus_pos (s : Storage) : 0 < s.modulus := by
  cases s <;> decide

theorem ofLittleEndian_encode (s : Storage) (value : Int) :
    (ofLittleEndian (s.encode value) : Int) = value % s.modulus := by
  have pos : (0 : Int) < s.modulus := Int.natCast_pos.2 s.modulus_pos
  have below := Int.emod_lt_of_pos value pos
  have nonneg := Int.emod_nonneg value (Int.ne_of_gt pos)
  rw [encode, ofLittleEndian_littleEndian, show Nat.pow 256 s.size = s.modulus from rfl,
    Nat.mod_eq_of_lt (by omega)]
  omega

theorem decode_encode {s : Storage} {value : Int} (h : s.Holds value) :
    s.decode (s.encode value) = value := by
  have number := s.ofLittleEndian_encode value
  have pos := s.modulus_pos
  unfold decode
  generalize ofLittleEndian (s.encode value) = n at number ⊢
  simp only [Bool.and_eq_true, decide_eq_true_eq]
  unfold Holds at h
  split at h
  next signed =>
    rcases Int.lt_or_le value 0 with neg | nonneg
    · -- A negative value is represented by what it is congruent to.
      rw [← Int.add_emod_right, Int.emod_eq_of_lt (by omega) (by omega)] at number
      rw [if_pos ⟨signed, by omega⟩, number, Int.add_sub_cancel]
    · rw [Int.emod_eq_of_lt nonneg (by omega)] at number
      rw [if_neg (by omega), number]
  next unsigned =>
    rw [Int.emod_eq_of_lt h.1 h.2] at number
    rw [if_neg fun signed => unsigned signed.1, number]

end Storage

namespace Answer

variable {α β : Type} {f : α → Except Error β} {as : List α}

theorem mapM_eq_ok {g : α → β} (h : ∀ a ∈ as, f a = .ok (g a)) : as.mapM f = .ok (as.map g) := by
  induction as with
  | nil => rfl
  | cons a as ih =>
    rw [List.mapM_cons, h a (List.mem_cons_self ..), ih fun a ha => h a (List.mem_cons_of_mem _ ha)]
    rfl

theorem exists_mapM_error {kind : ErrorKind} (fails : ∀ a ∈ as, FailsAs kind (f a))
    (some : ∃ a ∈ as, ∃ e, f a = .error e) : ∃ e, as.mapM f = .error e ∧ e.kind = kind := by
  induction as with
  | nil =>
    obtain ⟨a, ha, -⟩ := some
    exact absurd ha List.not_mem_nil
  | cons a as ih =>
    rw [List.forall_mem_cons] at fails
    rw [List.mapM_cons]
    cases ha : f a with
    | error e => exact ⟨e, rfl, fails.1 e ha⟩
    | ok b =>
      obtain ⟨a', ha', e, he⟩ := some
      have later : a' ∈ as := (List.mem_cons.1 ha').resolve_left fun same => by
        rw [same, ha] at he
        cases he
      obtain ⟨e', he', kind⟩ := ih fails.2 ⟨a', later, e, he⟩
      rw [ok_bind, he']
      exact ⟨e', rfl, kind⟩

theorem not_device_of_fault {a : Except Error α} {cause : Fault} (h : a = .error (.fault cause)) :
    ¬ ∃ e, a = .error e ∧ e.kind = .device := by
  rintro ⟨e, he, kind⟩
  obtain rfl := Except.error.inj (h.symm.trans he)
  cases kind

end Answer

namespace Buffer

/-- All elements of the tensor have their bytes in the buffer. -/
def Contains (b : Buffer) (d : Descriptor) : Prop :=
  ∀ offset ∈ d.elementOffsets, offset + d.elementSize ≤ b.size

/-- Between two buffers, nothing has changed but that values have been placed at their offsets. -/
structure HasPlaced (b' b : Buffer) (s : Storage) (entries : List (Nat × Int)) : Prop where
  size : b'.size = b.size
  stores : ∀ p, (b'.cell p).stores = (b.cell p).stores
  values : ∀ entry ∈ entries, b'.bytes entry.1 s.size = s.encode entry.2
  others : ∀ p, (∀ entry ∈ entries, p < entry.1 ∨ entry.1 + s.size ≤ p) → b'.cell p = b.cell p

def placed (s : Storage) (entries : List (Nat × Int)) (cells : Array Cell) : Array Cell :=
  entries.foldl (fun cells entry => update Cell.place cells entry.1 (s.encode entry.2)) cells

def placedByte? (s : Storage) (entries : List (Nat × Int)) (p : Nat) : Option UInt8 :=
  entries.findSome? fun entry => if entry.1 ≤ p then (s.encode entry.2)[p - entry.1]? else none

section Placed

variable {s : Storage} {entries : List (Nat × Int)} {b : Buffer} {cells : Array Cell} {p : Nat}

theorem size_placed (s : Storage) (entries : List (Nat × Int)) (cells : Array Cell) :
    (placed s entries cells).size = cells.size := by
  induction entries generalizing cells with
  | nil => rfl
  | cons entry entries ih => rw [placed, List.foldl_cons, ← placed, ih, size_update]

theorem placedByte?_eq_none_iff :
    placedByte? s entries p = none ↔
      ∀ entry ∈ entries, p < entry.1 ∨ entry.1 + s.size ≤ p := by
  rw [placedByte?, List.findSome?_eq_none_iff]
  refine forall₂_congr fun entry _ => ?_
  split
  · rw [List.getElem?_eq_none_iff, s.length_encode]
    omega
  · exact iff_of_true rfl (by omega)

theorem placedByte?_cons_inside {entry : Nat × Int} {n : Nat} (hn : n < s.size) :
    placedByte? s (entry :: entries) (entry.1 + n) = (s.encode entry.2)[n]? := by
  rw [placedByte?, List.findSome?_cons, if_pos (Nat.le_add_right _ _), Nat.add_sub_cancel_left,
    List.getElem?_eq_getElem (by rwa [s.length_encode])]

theorem placedByte?_cons_outside {entry : Nat × Int} (h : p < entry.1 ∨ entry.1 + s.size ≤ p) :
    placedByte? s (entry :: entries) p = placedByte? s entries p := by
  have none := placedByte?_eq_none_iff.2 (List.forall_mem_singleton.2 h)
  rw [placedByte?, List.findSome?_singleton] at none
  rw [placedByte?, List.findSome?_cons, none, placedByte?]

theorem placedByte?_of_mem (apart : entries.Pairwise fun e e' => e.1 + s.size ≤ e'.1)
    {entry : Nat × Int} (h : entry ∈ entries) {n : Nat} (hn : n < s.size) :
    placedByte? s entries (entry.1 + n) = (s.encode entry.2)[n]? := by
  induction entries with
  | nil => exact absurd h List.not_mem_nil
  | cons first entries ih =>
    obtain ⟨behind, apart⟩ := List.pairwise_cons.1 apart
    rcases List.mem_cons.1 h with rfl | h
    · exact placedByte?_cons_inside hn
    · have := behind entry h
      rw [placedByte?_cons_outside (by omega), ih apart h]

theorem cell_of_size_le (h : b.size ≤ p) : b.cell p = .blank := by
  rw [cell, Array.getD_eq_getD_getElem?, Array.getElem?_eq_none h, Option.getD_none]

theorem cell_placed (apart : entries.Pairwise fun e e' => e.1 + s.size ≤ e'.1)
    (hp : p < cells.size) :
    cell ⟨placed s entries cells⟩ p =
      ⟨(placedByte? s entries p).getD (cell ⟨cells⟩ p).value, (cell ⟨cells⟩ p).stores⟩ := by
  -- The entries are apart, so that no later one covers what an earlier one has placed.
  induction entries generalizing cells with
  | nil => rfl
  | cons entry entries ih =>
    obtain ⟨behind, apart⟩ := List.pairwise_cons.1 apart
    have length := s.length_encode entry.2
    rw [placed, List.foldl_cons, ← placed, ih apart (by rwa [size_update])]
    by_cases inside : entry.1 ≤ p ∧ p < entry.1 + s.size
    · obtain ⟨n, rfl⟩ := Nat.exists_eq_add_of_le inside.1
      obtain ⟨value, byte⟩ : ∃ value, (s.encode entry.2)[n]? = some value :=
        ⟨_, List.getElem?_eq_getElem (by omega)⟩
      have later : placedByte? s entries (entry.1 + n) = none :=
        placedByte?_eq_none_iff.2 fun e he => .inl (by have := behind e he; omega)
      rw [later, placedByte?_cons_inside (by omega), byte, cell_update_inside hp byte]
      rfl
    · rw [placedByte?_cons_outside (by omega), cell_update_frame (by omega)]

theorem cell_placed_of_fit (apart : entries.Pairwise fun e e' => e.1 + s.size ≤ e'.1)
    (fit : ∀ entry ∈ entries, entry.1 + s.size ≤ b.size) (p : Nat) :
    cell ⟨placed s entries b.cells⟩ p =
      ⟨(placedByte? s entries p).getD (b.cell p).value, (b.cell p).stores⟩ := by
  rcases Nat.lt_or_ge p b.size with hp | hp
  · exact cell_placed apart hp
  · have none := placedByte?_eq_none_iff.2 fun e he => .inr (Nat.le_trans (fit e he) hp)
    have size : (⟨placed s entries b.cells⟩ : Buffer).size = b.size := size_placed ..
    rw [none, cell_of_size_le (size ▸ hp), cell_of_size_le hp]
    rfl

theorem hasPlaced_placed (apart : entries.Pairwise fun e e' => e.1 + s.size ≤ e'.1)
    (fit : ∀ entry ∈ entries, entry.1 + s.size ≤ b.size) :
    HasPlaced ⟨placed s entries b.cells⟩ b s entries := by
  have size : (⟨placed s entries b.cells⟩ : Buffer).size = b.size := size_placed ..
  have cells := cell_placed_of_fit apart fit
  refine ⟨size, fun p => by rw [cells], fun entry he => ?_, fun p outside => ?_⟩
  · have inside := fit entry he
    apply List.ext_getElem?
    intro n
    rcases Nat.lt_or_ge n s.size with hn | hn
    · obtain ⟨value, byte⟩ : ∃ value, (s.encode entry.2)[n]? = some value :=
        ⟨_, List.getElem?_eq_getElem (by rwa [s.length_encode])⟩
      rw [getElem?_bytes (by rwa [size]) hn, cells, placedByte?_of_mem apart he hn, byte,
        Option.getD_some]
    · rw [List.getElem?_eq_none (by rwa [length_bytes (by rwa [size])]),
        List.getElem?_eq_none (by rwa [s.length_encode])]
  · rw [cells, placedByte?_eq_none_iff.2 outside, Option.getD_none]

theorem perform_placeAll_append (rest : List (Nat × Int))
    (fit : ∀ entry ∈ entries, entry.1 + s.size ≤ b.size) :
    (placeAll s (entries ++ rest)).perform b = (placeAll s rest).perform ⟨placed s entries b.cells⟩ := by
  induction entries generalizing b with
  | nil => rfl
  | cons entry entries ih =>
    obtain ⟨here, later⟩ := List.forall_mem_cons.1 fit
    have passes : (Action.ofExcept (b.checkElement .upload entry.1 s.size)).perform b = (.ok (), b) :=
      by rw [Action.perform_ofExcept, checkElement, if_pos here]
    rw [List.cons_append, placeAll, Action.perform_bind_of_ok (Action.perform_get b),
      Action.perform_bind_of_ok passes, Action.perform_bind_of_ok (Action.perform_set _ b), ih, placed,
      placed, List.foldl_cons]
    intro e he
    rw [size, size_update]
    exact later e he

theorem perform_placeAll_of_not_fit {entry : Nat × Int} (rest : List (Nat × Int))
    (short : b.size < entry.1 + s.size) :
    (placeAll s (entry :: rest)).perform b =
      (.error (.outOfBounds .upload s.size (signed64 entry.1) b.size), b) := by
  rw [placeAll, Action.perform_bind_of_ok (Action.perform_get b), Action.perform_bind,
    Action.perform_ofExcept, checkElement, if_neg (Nat.not_le_of_lt short)]

end Placed

section Elements

variable {d : Descriptor} {s : Storage} {values : List Int} {b : Buffer}

def entries (d : Descriptor) (values : List Int) : List (Nat × Int) :=
  d.elementOffsets.zip values

theorem contains_of_totalSize_le (h : d.totalSize ≤ b.size) : b.Contains d :=
  fun _ ho => Nat.le_trans (Descriptor.mem_elementOffsets_bounds ho).2 h

theorem entries_fst (count : values.length = d.elementCount) :
    (entries d values).map (·.1) = d.elementOffsets :=
  List.map_fst_zip (Nat.le_of_eq (by rw [Descriptor.length_elementOffsets, count]))

theorem entries_snd (count : values.length = d.elementCount) :
    (entries d values).map (·.2) = values :=
  List.map_snd_zip (Nat.le_of_eq (by rw [Descriptor.length_elementOffsets, count]))

theorem entries_apart (size : d.elementSize = s.size) (count : values.length = d.elementCount) :
    (entries d values).Pairwise fun e e' => e.1 + s.size ≤ e'.1 := by
  have apart := d.pairwise_elementOffsets
  rwa [← entries_fst count, List.pairwise_map, size] at apart

theorem contains_iff_entries (size : d.elementSize = s.size)
    (count : values.length = d.elementCount) :
    b.Contains d ↔ ∀ entry ∈ entries d values, entry.1 + s.size ≤ b.size := by
  rw [Contains, ← entries_fst count, List.forall_mem_map, size]

theorem mapM_of_not_contains {α : Type} {action : ByteAction} {f : Nat → Except Error α}
    (short : ¬ b.Contains d) (fails : ∀ offset, Answer.FailsAs .device (f offset)) :
    ∃ e, (d.elementOffsets.mapM fun offset => do
      b.checkElement action offset d.elementSize
      f offset) = .error e ∧ e.kind = .device := by
  refine Answer.exists_mapM_error (fun offset _ => ?_) ?_
  · refine Answer.FailsAs.bind ?_ fun _ => fails offset
    rw [checkElement]
    split
    · exact Answer.failsAs_ok _ _
    · exact Answer.failsAs_error (.outOfBounds ..)
  · simp only [Contains, Classical.not_forall, Nat.not_le] at short
    obtain ⟨offset, ho, past⟩ := short
    refine ⟨offset, ho, .outOfBounds action d.elementSize (signed64 offset) b.size, ?_⟩
    rw [checkElement, if_neg (Nat.not_le_of_lt past), Answer.error_bind]

theorem upload_of_size_ne (size : d.elementSize ≠ s.size) (values : List Int) (b : Buffer) :
    (upload d s values).perform b = (.error (.valueSize s.size d.type), b) := by
  rw [upload, Action.perform_bind, Action.perform_ofExcept, checkSize, if_neg size]

theorem download_of_size_ne (size : d.elementSize ≠ s.size) (b : Buffer) :
    b.download d s = .error (.valueSize s.size d.type) := by
  rw [download, checkSize, if_neg size, Answer.error_bind]

section Listed

variable (size : d.elementSize = s.size) (few : d.elementCount < 0x1000000000000000)
include size few

theorem perform_upload (values : List Int) (b : Buffer) :
    (upload d s values).perform b =
      if values.length = d.elementCount then (placeAll s (entries d values)).perform b
      else (.error (.valueCount d.elementCount values.length), b) := by
  have sized : (Action.ofExcept (checkSize s d)).perform b = (.ok (), b) := by
    rw [Action.perform_ofExcept, checkSize, if_pos size]
  have listed : (Action.ofExcept d.listOffsets).perform b = (.ok d.elementOffsets, b) := by
    rw [Action.perform_ofExcept, Descriptor.listOffsets, if_pos few]
  rw [upload, Action.perform_bind_of_ok sized, Action.perform_bind_of_ok listed,
    Descriptor.length_elementOffsets]
  by_cases count : values.length = d.elementCount
  · rw [if_pos count, if_pos count.symm, entries]
  · rw [if_neg count, if_neg (Ne.symm count)]
    rfl

theorem upload_of_contains (count : values.length = d.elementCount) (fits : b.Contains d) :
    (upload d s values).perform b = (.ok (), ⟨placed s (entries d values) b.cells⟩) := by
  have all := perform_placeAll_append [] ((contains_iff_entries size count).1 fits)
  rw [List.append_nil] at all
  rw [perform_upload size few, if_pos count, all]
  rfl

theorem upload_of_not_contains (count : values.length = d.elementCount) (short : ¬ b.Contains d) :
    ∃ front entry rest, entries d values = front ++ entry :: rest ∧
      (∀ e ∈ front, e.1 + s.size ≤ b.size) ∧ b.size < entry.1 + s.size ∧
      (upload d s values).perform b =
        (.error (.outOfBounds .upload s.size (signed64 entry.1) b.size),
          ⟨placed s front b.cells⟩) := by
  have some : ((entries d values).find? fun e => decide (b.size < e.1 + s.size)).isSome := by
    rw [List.find?_isSome]
    rw [contains_iff_entries size count] at short
    simpa using short
  obtain ⟨entry, found⟩ := Option.isSome_iff_exists.1 some
  obtain ⟨past, front, rest, split, before⟩ := List.find?_eq_some_iff_append.1 found
  have past : b.size < entry.1 + s.size := by simpa using past
  have before : ∀ e ∈ front, e.1 + s.size ≤ b.size := by simpa using before
  refine ⟨front, entry, rest, split, before, past, ?_⟩
  have capacity : (⟨placed s front b.cells⟩ : Buffer).size = b.size := size_placed ..
  rw [perform_upload size few, if_pos count, split, perform_placeAll_append _ before,
    perform_placeAll_of_not_fit _ (by rwa [capacity]), capacity]

theorem download_eq (b : Buffer) :
    b.download d s = d.elementOffsets.mapM fun offset => do
      b.checkElement .download offset s.size
      return s.decode (b.bytes offset s.size) := by
  have listed : d.listOffsets = .ok d.elementOffsets := if_pos few
  rw [download, checkSize, if_pos size, Answer.ok_bind, listed, Answer.ok_bind]
  rfl

theorem download_of_contains (fits : b.Contains d) :
    b.download d s = .ok (d.elementOffsets.map fun offset => s.decode (b.bytes offset s.size)) := by
  rw [download_eq size few]
  refine Answer.mapM_eq_ok fun offset ho => ?_
  rw [checkElement, if_pos (size ▸ fits offset ho), Answer.ok_bind]
  rfl

theorem download_of_not_contains (short : ¬ b.Contains d) :
    ∃ e, b.download d s = .error e ∧ e.kind = .device := by
  rw [download_eq size few, ← size]
  exact mapM_of_not_contains short fun _ => Answer.failsAs_ok _ _

end Listed

theorem download_of_hasPlaced {b' : Buffer} (size : d.elementSize = s.size)
    (few : d.elementCount < 0x1000000000000000) (count : values.length = d.elementCount)
    (held : ∀ v ∈ values, s.Holds v) (fits : b'.Contains d)
    (placed : b'.HasPlaced b s (entries d values)) : b'.download d s = .ok values := by
  rw [download_of_contains size few fits, Except.ok.injEq]
  calc d.elementOffsets.map (fun offset => s.decode (b'.bytes offset s.size))
      = (entries d values).map fun entry => s.decode (b'.bytes entry.1 s.size) := by
        rw [← entries_fst count, List.map_map]
        rfl
    _ = (entries d values).map (·.2) := by
        refine List.map_congr_left fun entry he => ?_
        rw [placed.values entry he, Storage.decode_encode (held _ (List.of_mem_zip he).2)]
    _ = values := entries_snd count

/-- Values of another size than the elements are refused. Otherwise an upload places all values of a
tensor, and a download reads them back. In a buffer that is too short for an element, both fail, and
the upload has placed what comes before the first such element. If there are not as many values as
elements, the upload refuses them. -/
theorem upload_download (d : Descriptor) (s : Storage) (values : List Int) (b : Buffer) :
    (d.elementSize ≠ s.size → ∃ e, (upload d s values).perform b = (.error e, b) ∧
      b.download d s = .error e ∧ e.kind = .invalidArgument) ∧
    (d.IsAddressable → (d.totalSize ≤ b.size → b.Contains d) ∧ (d.elementSize = s.size →
      (values.length = d.elementCount →
        (b.Contains d → ∃ b', (upload d s values).perform b = (.ok (), b') ∧
          b'.HasPlaced b s (entries d values) ∧
          ((∀ v ∈ values, s.Holds v) → b'.download d s = .ok values)) ∧
        (¬ b.Contains d → ∃ e b' front entry rest,
          (upload d s values).perform b = (.error e, b') ∧ e.kind = .device ∧
          entries d values = front ++ entry :: rest ∧ (∀ e ∈ front, e.1 + s.size ≤ b.size) ∧
          b.size < entry.1 + s.size ∧ b'.HasPlaced b s front)) ∧
      (values.length ≠ d.elementCount →
        ∃ e, (upload d s values).perform b = (.error e, b) ∧ e.kind = .invalidArgument) ∧
      (b.Contains d → ∃ read, b.download d s = .ok read) ∧
      (¬ b.Contains d → ∃ e, b.download d s = .error e ∧ e.kind = .device))) := by
  refine ⟨fun size => ⟨_, upload_of_size_ne size values b, download_of_size_ne size b, rfl⟩,
    fun addressable => ⟨contains_of_totalSize_le, fun size => ?_⟩⟩
  have few := addressable.few
  refine ⟨fun count => ⟨fun fits => ?_, fun short => ?_⟩,
    fun count => ⟨_, (perform_upload size few values b).trans (if_neg count), rfl⟩,
    fun fits => ⟨_, download_of_contains size few fits⟩, download_of_not_contains size few⟩
  · have placed := hasPlaced_placed (entries_apart size count)
      ((contains_iff_entries size count).1 fits)
    refine ⟨_, upload_of_contains size few count fits, placed, fun held => ?_⟩
    refine download_of_hasPlaced size few count held (fun offset ho => ?_) placed
    rw [placed.size]
    exact fits offset ho
  · obtain ⟨front, entry, rest, split, before, past, failed⟩ :=
      upload_of_not_contains size few count short
    have apart := entries_apart size count
    rw [split] at apart
    exact ⟨_, _, front, entry, rest, failed, rfl, split, before, past,
      hasPlaced_placed (List.pairwise_append.1 apart).1 before⟩

def paddedValues : List Int :=
  [-1, 1, -32768, 32767, 256, -256, 0, 5, -5, 128, -129, 255]

theorem upload_download_padded :
    Descriptor.padded.IsAddressable ∧ (∀ v ∈ paddedValues, Storage.i16.Holds v) ∧
      (∃ b', (upload .padded .i16 paddedValues).perform (zeroed 96) = (.ok (), b') ∧
        b'.HasPlaced (zeroed 96) .i16 (entries .padded paddedValues) ∧
        b'.download .padded .i16 = .ok paddedValues) ∧
      ∃ e b' front entry rest,
        (upload .padded .i16 paddedValues).perform (zeroed 60) = (.error e, b') ∧
        e.kind = .device ∧ entries .padded paddedValues = front ++ entry :: rest ∧
        (∀ e ∈ front, e.1 + Storage.i16.size ≤ (zeroed 60).size) ∧
        (zeroed 60).size < entry.1 + Storage.i16.size ∧ b'.HasPlaced (zeroed 60) .i16 front := by
  have held : ∀ v ∈ paddedValues, Storage.i16.Holds v := by decide
  have addressable := Descriptor.padded_isAddressable
  have size : Descriptor.padded.elementSize = Storage.i16.size := by decide
  have count : paddedValues.length = Descriptor.padded.elementCount := by decide
  obtain ⟨room, wide⟩ := (upload_download .padded .i16 paddedValues (zeroed 96)).2 addressable
  obtain ⟨-, narrow⟩ := (upload_download .padded .i16 paddedValues (zeroed 60)).2 addressable
  obtain ⟨b', run, placed, read⟩ := ((wide size).1 count).1 (room (by decide))
  have short : ¬ (zeroed 60).Contains .padded := fun fits =>
    absurd (fits 70 (by decide)) (by decide)
  exact ⟨addressable, held, ⟨b', run, placed, read held⟩, ((narrow size).1 count).2 short⟩

theorem not_contains_vast : ¬ (zeroed 8).Contains .vast := by
  have ninth : Descriptor.vast.elementOffsets[8]? = some 8 :=
    Descriptor.getElem?_elementOffsets (by decide)
  exact fun fits => absurd (fits 8 (List.mem_of_getElem? ninth)) (by decide)

/-- A buffer of eight bytes does not hold a row of `2 ^ 60` bytes, but what fails is the list of the
offsets. -/
theorem download_of_vast :
    ¬ (zeroed 8).Contains .vast ∧ Descriptor.vast.elementSize = Storage.u8.size ∧
      ¬ ∃ e, (zeroed 8).download .vast .u8 = .error e ∧ e.kind = .device := by
  have fault : (zeroed 8).download .vast .u8 = .error (.fault .addressTooLarge) := by
    rw [download, checkSize, if_pos (by decide), Answer.ok_bind, Descriptor.listOffsets,
      if_neg (by decide), Answer.error_bind]
  exact ⟨not_contains_vast, by decide, Answer.not_device_of_fault fault⟩

end Elements

end Buffer
end TensorConcat
