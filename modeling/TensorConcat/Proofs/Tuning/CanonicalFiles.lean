import TensorConcat.Proofs.Tuning.Histories

/-! The files of stores that began without one. Such a file is settled by the sizes that its store
knows, whatever calls led there: its ids ascend, and each comes once, with the size recorded last. -/

namespace TensorConcat
namespace TuningTable

/-! ### The file of a table -/

theorem insert_ne_nil (id : String) (size : LaunchRange) (entries : List (String × LaunchRange)) :
    insert id size entries ≠ [] := by
  cases entries with
  | nil => exact List.cons_ne_nil _ _
  | cons e rest =>
    rw [insert]
    split <;> exact List.cons_ne_nil _ _

def file? (t : TuningTable) : Option Node :=
  if t.entries = [] then none else some (.file t.text.toUTF8)

variable {a b : TuningTable}

theorem file?_congr (same : a.entries = b.entries) : a.file? = b.file? := by
  rw [file?, file?, text, text, sorted, sorted, same]

theorem file?_put (t : TuningTable) (id : String) (size : LaunchRange) :
    (t.put id size).file? = some (.file (t.put id size).text.toUTF8) :=
  if_neg (insert_ne_nil id size t.entries)

theorem file?_of_get? {id : String} {size : LaunchRange} (h : a.get? id = some size) :
    a.file? = some (.file a.text.toUTF8) := by
  refine if_neg fun empty => ?_
  rw [get?, empty] at h
  cases h

theorem Storable.sorted_of_text (h : a.Storable) (h' : b.Storable) (same : a.text = b.text) :
    a.sorted = b.sorted := by
  have read := ofText?_text h
  rw [same, ofText?_text h'] at read
  exact (TuningTable.mk.inj (Option.some.inj read)).1.symm

theorem sorted_of_empty (empty : a.entries = []) : a.sorted = [] :=
  List.perm_nil.1 (empty ▸ a.perm_sorted)

theorem Storable.sorted_of_file? (h : a.Storable) (h' : b.Storable) (same : a.file? = b.file?) :
    a.sorted = b.sorted := by
  unfold file? at same
  split at same
  next empty =>
    split at same
    next empty' => rw [sorted_of_empty empty, sorted_of_empty empty']
    next => cases same
  next =>
    split at same
    next => cases same
    next =>
      have bytes : a.text.toUTF8 = b.text.toUTF8 := Node.file.inj (Option.some.inj same)
      exact h.sorted_of_text h' (String.toByteArray_inj.1 bytes)

theorem Storable.file?_eq_iff (h : a.Storable) (h' : b.Storable) :
    a.file? = b.file? ↔ ∀ id, a.get? id = b.get? id := by
  constructor
  · intro same id
    rw [← h.lookup_sorted, h.sorted_of_file? h' same, h'.lookup_sorted]
  · intro same
    have perm : a.entries.Perm b.entries := (perm_iff_lookup h.nodup h'.nodup).2 same
    have order : a.sorted = b.sorted := h.ascending_sorted.eq_of_perm h'.ascending_sorted
      (a.perm_sorted.trans (perm.trans b.perm_sorted.symm))
    have none : a.entries = [] ↔ b.entries = [] := by
      rw [← List.length_eq_zero_iff, perm.length_eq, List.length_eq_zero_iff]
    rw [file?, file?, text, text, order]
    simp only [none]

/-! ### What a file says -/

/-- A text that says the sizes of ids: an array of entries whose ids strictly ascend by their bytes, one
for each id that has a size. -/
def SaysInOrder (text : String) (sizes : String → Option LaunchRange) : Prop :=
  ∃ items entries, Json.parse? text = some (.array items) ∧
    items.mapM entryOfJson? = some entries ∧ Ascending entries ∧ (entries.map Prod.fst).Nodup ∧
      ∀ id size, (id, size) ∈ entries ↔ sizes id = some size

theorem parse?_text (t : TuningTable) :
    Json.parse? t.text = some (.array (t.sorted.map entryToJson)) :=
  Json.parse?_indentedText (wellFormed_entries t.sorted)

theorem Storable.saysInOrder (h : a.Storable) : SaysInOrder a.text a.get? := by
  have nodup := h.ascending_sorted.nodup_ids
  refine ⟨_, a.sorted, a.parse?_text, mapM_entryToJson h.words_sorted, h.ascending_sorted, nodup, ?_⟩
  intro id size
  rw [mem_iff_lookup nodup, h.lookup_sorted]

end TuningTable

namespace TuningStore

/-! ### Histories -/

variable {p q : Path} {s s' s₀ r : TuningStore} {t t' t₀ u : FileTree} {log others : List Attempt}

theorem openAt_of_absent (absent : t.find? p = none) : openAt t p = .ok ⟨.empty, some p⟩ := by
  rw [openAt, absent]

theorem find?_record (path : s.path? = some p) (before : t.find? p = s.table.file?) {id : String}
    {size : LaunchRange} (called : s.record t id size = (.ok (), s', t')) :
    t'.find? p = s'.table.file? := by
  obtain ⟨-, -, rfl, rfl⟩ | ⟨-, rfl, ⟨-, found⟩ | failed⟩ := record_cases path called
  · exact before
  · rw [found, TuningTable.file?_put]
  · cases failed

theorem Reaches.find?_eq (absent : t₀.find? p = none) (h : Reaches p ⟨.empty, some p⟩ t₀ s t log)
    (words : ∀ a ∈ log, a.size.IsWord) (succeeded : ∀ a ∈ log, a.succeeded = true) :
    t.find? p = s.table.file? := by
  induction h with
  | start => exact absent
  | record h called ih =>
    have words' := fun a ha => words a (List.mem_cons_of_mem _ ha)
    have path := (h.accounts (openAt_of_absent absent) words').path
    exact find?_record path (ih words' fun a ha => succeeded a (List.mem_cons_of_mem _ ha)) called
  | fail => cases succeeded _ List.mem_cons_self
  | lookup _ id ih =>
    exact (ih words succeeded).trans (TuningTable.file?_congr (lookup_snd _ id).2).symm
  | elsewhere _ kept ih => exact kept.trans (ih words succeeded)

theorem Reaches.recorded {id : String} {size : LaunchRange} (h : Reaches p s₀ t₀ s t log)
    (succeeded : (s.record t id size).1 = .ok ()) :
    Reaches p s₀ t₀ (s.record t id size).2.1 (s.record t id size).2.2 (⟨id, size, true⟩ :: log) :=
  .record h (Prod.ext succeeded rfl)

/-- The store at a path and the tree, after a history that began without a file and in which every
call recorded a size of 64 bits. -/
structure Grows (p : Path) (s : TuningStore) (t : FileTree) (log : List Attempt) : Prop where
  begins : ∃ s₀ t₀, t₀.find? p = none ∧ openAt t₀ p = .ok s₀ ∧ Reaches p s₀ t₀ s t log
  words : ∀ a ∈ log, a.size.IsWord
  succeeded : ∀ a ∈ log, a.succeeded = true

namespace Grows

theorem reaches (h : Grows p s t log) :
    ∃ t₀, t₀.find? p = none ∧ Reaches p ⟨.empty, some p⟩ t₀ s t log := by
  obtain ⟨s₀, t₀, absent, opened, reached⟩ := h.begins
  rw [openAt_of_absent absent] at opened
  obtain rfl := Except.ok.inj opened
  exact ⟨t₀, absent, reached⟩

theorem find?_eq (h : Grows p s t log) : t.find? p = s.table.file? := by
  obtain ⟨t₀, absent, reached⟩ := h.reaches
  exact reached.find?_eq absent h.words h.succeeded

theorem accounts (h : Grows p s t log) : s.Accounts t p (fun _ => none) log := by
  obtain ⟨t₀, absent, reached⟩ := h.reaches
  exact reached.accounts (openAt_of_absent absent) h.words

end Grows

/-- Two files are the same exactly if their stores know the same sizes, in whatever order these were
recorded. From the first call on, a file says in order what was recorded last. -/
theorem file_canonical (h : Grows p s t log) (h' : Grows q r u others) :
    (t.find? p = u.find? q ↔ ∀ id, (s.lookup id).1 = (r.lookup id).1) ∧
      (log ≠ [] → ∃ text : String, t.find? p = some (.file text.toUTF8) ∧
        TuningTable.SaysInOrder text (Attempt.known (fun _ => none) log)) := by
  have storable := h.accounts.storable
  have memory : s.table.get? = Attempt.known (fun _ => none) log := funext h.accounts.memory
  refine ⟨?_, fun called => ?_⟩
  · simp only [lookup_fst]
    rw [h.find?_eq, h'.find?_eq]
    exact storable.file?_eq_iff h'.accounts.storable
  · obtain ⟨a, earlier, rfl⟩ := List.exists_cons_of_ne_nil called
    have last : s.table.get? a.id = some a.size := by rw [memory, Attempt.known, if_pos rfl]
    refine ⟨s.table.text, h.find?_eq.trans (TuningTable.file?_of_get? last), ?_⟩
    rw [← memory]
    exact storable.saysInOrder

def oneOrder : List Attempt :=
  [⟨"b", ⟨3, 1, 1⟩, true⟩, ⟨"é", ⟨2, 2, 1⟩, true⟩, ⟨"b", ⟨1, 1, 1⟩, true⟩]

def otherOrder : List Attempt :=
  [⟨"é", ⟨2, 2, 1⟩, true⟩, ⟨"b", ⟨3, 1, 1⟩, true⟩, ⟨"é", ⟨2, 2, 1⟩, true⟩]

def otherPath : Path := ⟨"s.json"⟩

theorem file_canonical_reordered :
    ∃ s t r u, Grows storePath s t oneOrder ∧ Grows otherPath r u otherOrder ∧
      (∀ id, (s.lookup id).1 = (r.lookup id).1) ∧ t.find? storePath = u.find? otherPath ∧
        ∃ text : String, t.find? storePath = some (.file text.toUTF8) ∧
          TuningTable.SaysInOrder text (Attempt.known (fun _ => none) oneOrder) := by
  have one : Grows storePath _ _ oneOrder :=
    ⟨⟨_, .empty, rfl, rfl, .recorded (.recorded (.recorded .start rfl) rfl) rfl⟩,
      by decide, by decide⟩
  have other : Grows otherPath _ _ otherOrder :=
    ⟨⟨_, .empty, rfl, rfl, .recorded (.recorded (.recorded .start rfl) rfl) rfl⟩,
      by decide, by decide⟩
  obtain ⟨canonical, inOrder⟩ := file_canonical one other
  refine ⟨_, _, _, _, one, other, ?same, canonical.2 ?same, inOrder (List.cons_ne_nil _ _)⟩
  intro id
  rw [lookup_fst, lookup_fst, one.accounts.memory, other.accounts.memory]
  by_cases b : id = "b"
  · rw [b]
    rfl
  · by_cases e : id = "é"
    · rw [e]
      rfl
    · simp only [oneOrder, otherOrder, Attempt.known, if_neg b, if_neg e]

end TuningStore
end TensorConcat
