import Mathlib.Data.List.Sort
import TensorConcat.Proofs.Json.Readers
import TensorConcat.Tuning.Table

/-! Tables of tuned sizes as maps: each id comes once, so that the entries are settled by the look-ups
but for their order. The text of a table, where the ids ascend, is read back as the table. -/

namespace TensorConcat
namespace TuningTable

variable {entries others : List (String × LaunchRange)}

/-! ### Entries as maps -/

theorem lookup_insert (id : String) (size : LaunchRange) (entries : List (String × LaunchRange))
    (k : String) :
    (insert id size entries).lookup k = if k = id then some size else entries.lookup k := by
  induction entries with
  | nil => by_cases h : k = id <;> simp [insert, List.lookup_cons, h, beq_false_of_ne]
  | cons e rest ih =>
    obtain ⟨j, v⟩ := e
    rw [insert]
    by_cases same : j = id
    · rw [if_pos same]
      by_cases h : k = id <;> simp [List.lookup_cons, h, same, beq_false_of_ne]
    · rw [if_neg same]
      by_cases h : k = j
      · simp [h, same]
      · simp [List.lookup_cons, beq_false_of_ne h, ih]

theorem mem_of_mem_insert {id : String} {size : LaunchRange} {e : String × LaunchRange}
    (h : e ∈ insert id size entries) : e = (id, size) ∨ e ∈ entries := by
  induction entries with
  | nil => exact .inl (List.mem_singleton.1 h)
  | cons f rest ih =>
    obtain ⟨j, v⟩ := f
    rw [insert] at h
    split at h
    · exact (List.mem_cons.1 h).imp_right (List.mem_cons_of_mem _)
    · rcases List.mem_cons.1 h with rfl | h
      · exact .inr List.mem_cons_self
      · exact (ih h).imp_right (List.mem_cons_of_mem _)

theorem nodup_ids_insert (h : (entries.map Prod.fst).Nodup) (id : String) (size : LaunchRange) :
    ((insert id size entries).map Prod.fst).Nodup := by
  induction entries with
  | nil => exact List.nodup_singleton id
  | cons e rest ih =>
    obtain ⟨j, v⟩ := e
    obtain ⟨first, distinct⟩ := List.nodup_cons.1 h
    rw [insert]
    split
    next same => exact same ▸ h
    next different =>
      refine List.nodup_cons.2 ⟨fun again => ?_, ih distinct⟩
      obtain ⟨e, he, rfl⟩ := List.mem_map.1 again
      rcases mem_of_mem_insert he with rfl | he
      · exact different rfl
      · exact first (List.mem_map.2 ⟨e, he, rfl⟩)

theorem insert_of_new {id : String} (new : id ∉ entries.map Prod.fst) (size : LaunchRange) :
    insert id size entries = entries ++ [(id, size)] := by
  induction entries with
  | nil => rfl
  | cons e rest ih =>
    obtain ⟨j, v⟩ := e
    obtain ⟨other, later⟩ := not_or.1 (mt List.mem_cons.2 new)
    rw [insert, if_neg (Ne.symm other), ih later, List.cons_append]

theorem mem_iff_lookup (h : (entries.map Prod.fst).Nodup) (e : String × LaunchRange) :
    e ∈ entries ↔ entries.lookup e.1 = some e.2 := by
  rw [List.lookup_eq_some_iff]
  constructor
  · intro mem
    obtain ⟨front, back, rfl⟩ := List.append_of_mem mem
    refine ⟨front, back, rfl, fun p hp => ?_⟩
    rw [List.map_append] at h
    have apart := (List.nodup_append.1 h).2.2 p.1 (List.mem_map_of_mem hp) e.1 List.mem_cons_self
    exact bne_iff_ne.2 apart.symm
  · rintro ⟨front, back, rfl, -⟩
    exact List.mem_append_right _ List.mem_cons_self

theorem perm_iff_lookup (h : (entries.map Prod.fst).Nodup) (h' : (others.map Prod.fst).Nodup) :
    entries.Perm others ↔ ∀ id, entries.lookup id = others.lookup id := by
  rw [List.perm_ext_iff_of_nodup h.of_map h'.of_map]
  constructor
  · intro same id
    apply Option.ext
    intro size
    exact (mem_iff_lookup h (id, size)).symm.trans ((same (id, size)).trans (mem_iff_lookup h' _))
  · intro same e
    rw [mem_iff_lookup h, mem_iff_lookup h', same]

/-! ### The order of ids -/

theorem before_irrefl (a : String) : before a a = false :=
  decide_eq_false (List.lt_irrefl _)

theorem before_trans {a b c : String} (hab : before a b = true) (hbc : before b c = true) :
    before a c = true :=
  decide_eq_true (List.lt_trans (of_decide_eq_true hab) (of_decide_eq_true hbc))

theorem before_or_before {a b : String} (ne : a ≠ b) : before a b = true ∨ before b a = true := by
  by_contra neither
  obtain ⟨hab, hba⟩ := not_or.1 neither
  have bytes : a.toUTF8.data.toList = b.toUTF8.data.toList :=
    List.le_antisymm (fun h => hba (decide_eq_true h)) fun h => hab (decide_eq_true h)
  exact ne (String.toByteArray_inj.1 (ByteArray.ext (Array.toList_inj.1 bytes)))

theorem ne_of_before {a b : String} (h : before a b = true) : a ≠ b := by
  rintro rfl
  rw [before_irrefl] at h
  cases h

def Ascending (entries : List (String × LaunchRange)) : Prop :=
  entries.Pairwise fun a b => before a.1 b.1 = true

theorem Ascending.nodup_ids (h : Ascending entries) : (entries.map Prod.fst).Nodup :=
  List.pairwise_map.2 (h.imp fun earlier => ne_of_before earlier)

theorem Ascending.eq_of_perm (h : Ascending entries) (h' : Ascending others)
    (perm : entries.Perm others) : entries = others := by
  have : Std.Irrefl fun a b : String × LaunchRange => before a.1 b.1 = true :=
    ⟨fun a ha => ne_of_before ha rfl⟩
  have : Std.Antisymm fun a b : String × LaunchRange => before a.1 b.1 = true :=
    ⟨fun a b hab hba => (ne_of_before (before_trans hab hba) rfl).elim⟩
  exact List.Pairwise.eq_of_mem_iff h h' fun e => perm.mem_iff

theorem perm_sorted (t : TuningTable) : t.sorted.Perm t.entries :=
  List.mergeSort_perm _ _

theorem ascending_sorted {t : TuningTable} (h : (t.entries.map Prod.fst).Nodup) :
    Ascending t.sorted := by
  have keeps : t.sorted.Pairwise fun a b => (!before b.1 a.1) = true := by
    apply List.pairwise_mergeSort
    · intro a b c hab hbc
      rw [Bool.not_eq_true'] at *
      apply Bool.eq_false_of_not_eq_true
      intro hca
      by_cases same : a.1 = b.1
      · rw [same, hbc] at hca
        cases hca
      · have earlier := (before_or_before same).resolve_right (Bool.not_eq_true _ ▸ hab)
        rw [before_trans hca earlier] at hbc
        cases hbc
    · intro a b
      by_cases earlier : before b.1 a.1 = true
      · have later : before a.1 b.1 ≠ true := fun h => ne_of_before (before_trans earlier h) rfl
        simp [later]
      · simp [earlier]
  have apart : t.sorted.Pairwise fun a b => a.1 ≠ b.1 :=
    List.pairwise_map.1 ((t.perm_sorted.map Prod.fst).nodup_iff.2 h)
  refine (keeps.and apart).imp ?_
  rintro a b ⟨later, ne⟩
  exact (before_or_before ne).resolve_right (by simpa using later)

end TuningTable

/-! ### Reading what was written -/

def LaunchRange.IsWord (r : LaunchRange) : Prop :=
  r.x < 0x10000000000000000 ∧ r.y < 0x10000000000000000 ∧ r.z < 0x10000000000000000

namespace LaunchRange

instance : DecidablePred IsWord := fun _ => inferInstanceAs (Decidable (_ ∧ _ ∧ _))

theorem ofJson?_toJson {r : LaunchRange} (h : r.IsWord) : ofJson? r.toJson = some r := by
  simp only [toJson, ofJson?, Json.asSize?_ofNat h.1, Json.asSize?_ofNat h.2.1,
    Json.asSize?_ofNat h.2.2, Option.bind_eq_bind, Option.bind_some, Option.pure_def]

theorem isWord_of_ofJson? {v : Json} {r : LaunchRange} (h : ofJson? v = some r) : r.IsWord := by
  unfold ofJson? at h
  split at h
  · simp only [Option.bind_eq_bind, Option.bind_eq_some_iff, Option.pure_def] at h
    obtain ⟨x, hx, y, hy, z, hz, same⟩ := h
    obtain rfl := Option.some.inj same
    exact ⟨Json.asSize?_lt hx, Json.asSize?_lt hy, Json.asSize?_lt hz⟩
  · cases h

theorem wellFormed_toJson (r : LaunchRange) : r.toJson.WellFormed :=
  .array fun v hv => by
    simp only [List.mem_cons, List.not_mem_nil, or_false] at hv
    obtain rfl | rfl | rfl := hv <;> exact Json.wellFormed_ofNat _

end LaunchRange

namespace TuningTable

theorem entryOfJson?_entryToJson {e : String × LaunchRange} (h : e.2.IsWord) :
    entryOfJson? (entryToJson e) = some e := by
  simp only [entryToJson, entryOfJson?, Json.asString?_ofString, LaunchRange.ofJson?_toJson h,
    Option.bind_eq_bind, Option.bind_some, Option.pure_def]

theorem isWord_of_entryOfJson? {v : Json} {e : String × LaunchRange} (h : entryOfJson? v = some e) :
    e.2.IsWord := by
  unfold entryOfJson? at h
  split at h
  · simp only [Option.bind_eq_bind, Option.bind_eq_some_iff, Option.pure_def] at h
    obtain ⟨id, -, size, read, same⟩ := h
    obtain rfl := Option.some.inj same
    exact LaunchRange.isWord_of_ofJson? read
  · cases h

theorem wellFormed_entryToJson (e : String × LaunchRange) : (entryToJson e).WellFormed :=
  .array fun v hv => by
    simp only [List.mem_cons, List.not_mem_nil, or_false] at hv
    obtain rfl | rfl := hv
    · exact Json.wellFormed_ofString e.1
    · exact e.2.wellFormed_toJson

theorem wellFormed_entries (es : List (String × LaunchRange)) :
    (Json.array (es.map entryToJson)).WellFormed :=
  .array fun v hv => by
    obtain ⟨e, -, rfl⟩ := List.mem_map.1 hv
    exact wellFormed_entryToJson e

/-- A table as stores keep it: with each id once, and with sizes that can be read back. -/
structure Storable (t : TuningTable) : Prop where
  nodup : (t.entries.map Prod.fst).Nodup
  words : ∀ e ∈ t.entries, e.2.IsWord

theorem storable_empty : empty.Storable where
  nodup := .nil
  words := nofun

theorem Storable.put {t : TuningTable} (h : t.Storable) (id : String) {size : LaunchRange}
    (word : size.IsWord) : (t.put id size).Storable where
  nodup := nodup_ids_insert h.nodup id size
  words e he := by
    rcases mem_of_mem_insert he with rfl | he
    · exact word
    · exact h.words e he

theorem get?_put (t : TuningTable) (id : String) (size : LaunchRange) (k : String) :
    (t.put id size).get? k = if k = id then some size else t.get? k :=
  lookup_insert id size t.entries k

theorem Storable.foldl_put {t : TuningTable} (h : t.Storable) {es : List (String × LaunchRange)}
    (words : ∀ e ∈ es, e.2.IsWord) : (es.foldl (fun t (id, size) => t.put id size) t).Storable := by
  induction es generalizing t with
  | nil => exact h
  | cons e es ih =>
    exact ih (h.put e.1 (words e List.mem_cons_self)) fun e he => words e (List.mem_cons_of_mem _ he)

theorem foldl_put_of_nodup {es : List (String × LaunchRange)} {t : TuningTable}
    (h : ((t.entries ++ es).map Prod.fst).Nodup) :
    es.foldl (fun t (id, size) => t.put id size) t = { t with entries := t.entries ++ es } := by
  induction es generalizing t with
  | nil => rw [List.append_nil]; rfl
  | cons e es ih =>
    obtain ⟨id, size⟩ := e
    have apart := h
    rw [List.map_append, List.nodup_append] at apart
    have new : id ∉ t.entries.map Prod.fst := fun old => apart.2.2 id old id List.mem_cons_self rfl
    have put : t.put id size = { t with entries := t.entries ++ [(id, size)] } := by
      rw [TuningTable.put, insert_of_new new]
    rw [List.foldl_cons]
    show es.foldl _ (t.put id size) = _
    rw [put, ih, List.append_assoc, List.singleton_append]
    rwa [List.append_assoc, List.singleton_append]

theorem foldl_put_empty {es : List (String × LaunchRange)} (h : (es.map Prod.fst).Nodup) :
    es.foldl (fun t (id, size) => t.put id size) empty = ⟨es, 0, 0⟩ :=
  foldl_put_of_nodup (t := empty) h

theorem mapM_entryToJson {es : List (String × LaunchRange)} (h : ∀ e ∈ es, e.2.IsWord) :
    (es.map entryToJson).mapM entryOfJson? = some es := by
  induction es with
  | nil => rfl
  | cons e es ih =>
    rw [List.map_cons, List.mapM_cons, entryOfJson?_entryToJson (h e List.mem_cons_self),
      ih fun f hf => h f (List.mem_cons_of_mem e hf)]
    rfl

theorem isWord_of_mapM {items : List Json} {es : List (String × LaunchRange)}
    (h : items.mapM entryOfJson? = some es) : ∀ e ∈ es, e.2.IsWord := by
  induction items generalizing es with
  | nil =>
    obtain rfl := Option.some.inj h
    exact nofun
  | cons v items ih =>
    simp only [List.mapM_cons, Option.bind_eq_bind, Option.bind_eq_some_iff, Option.pure_def] at h
    obtain ⟨e, read, others, rest, same⟩ := h
    obtain rfl := Option.some.inj same
    intro f hf
    rcases List.mem_cons.1 hf with rfl | hf
    · exact isWord_of_entryOfJson? read
    · exact ih rest f hf

theorem ofText?_eq_some {s : String} {t : TuningTable} (h : ofText? s = some t) :
    ∃ items es, Json.parse? s = some (.array items) ∧ items.mapM entryOfJson? = some es ∧
      t = es.foldl (fun t (id, size) => t.put id size) empty := by
  simp only [ofText?, Option.bind_eq_bind, Option.bind_eq_some_iff, Option.pure_def] at h
  obtain ⟨v, parsed, items, array, es, read, same⟩ := h
  cases v with
  | array vs =>
    obtain rfl := Option.some.inj array
    exact ⟨vs, es, parsed, read, (Option.some.inj same).symm⟩
  | _ => cases array

theorem storable_of_ofText? {s : String} {t : TuningTable} (h : ofText? s = some t) :
    t.Storable := by
  obtain ⟨items, es, -, read, rfl⟩ := ofText?_eq_some h
  exact storable_empty.foldl_put (isWord_of_mapM read)

theorem ofText?_indentedText {es : List (String × LaunchRange)} (h : ∀ e ∈ es, e.2.IsWord) :
    ofText? (Json.array (es.map entryToJson)).indentedText =
      some (es.foldl (fun t (id, size) => t.put id size) empty) := by
  simp only [ofText?, Json.parse?_indentedText (wellFormed_entries es), Json.asArray?, mapM_entryToJson h,
    Option.bind_eq_bind, Option.bind_some, Option.pure_def]

theorem Storable.ascending_sorted {t : TuningTable} (h : t.Storable) : Ascending t.sorted :=
  TuningTable.ascending_sorted h.nodup

theorem Storable.words_sorted {t : TuningTable} (h : t.Storable) : ∀ e ∈ t.sorted, e.2.IsWord :=
  fun e he => h.words e (t.perm_sorted.mem_iff.1 he)

theorem Storable.lookup_sorted {t : TuningTable} (h : t.Storable) (id : String) :
    t.sorted.lookup id = t.get? id :=
  (perm_iff_lookup h.ascending_sorted.nodup_ids h.nodup).1 t.perm_sorted id

theorem ofText?_text {t : TuningTable} (h : t.Storable) : ofText? t.text = some ⟨t.sorted, 0, 0⟩ :=
  (ofText?_indentedText h.words_sorted).trans
    (congrArg some (foldl_put_empty h.ascending_sorted.nodup_ids))

end TuningTable
end TensorConcat
