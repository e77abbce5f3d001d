import TensorConcat.Proofs.Tuning.Entries
import TensorConcat.Proofs.Tuning.Files
import TensorConcat.Tuning.Store

/-! Stores of files over time: what a store knows and what its file says after any calls, of which some
may have failed. The two agree as long as no call fails. -/

namespace TensorConcat

structure Attempt where
  id : String
  size : LaunchRange
  succeeded : Bool

namespace Attempt

/-- The sizes that a store knows after some attempts, the latest first: those attempted last, and
else those known at the start. -/
def known (start : String → Option LaunchRange) : List Attempt → String → Option LaunchRange
  | [], id => start id
  | a :: earlier, id => if id = a.id then some a.size else known start earlier id

/-- The sizes that the file says. A call writes all that the store knows, if it succeeds and its size
was not known before. -/
def written (start : String → Option LaunchRange) : List Attempt → String → Option LaunchRange
  | [], id => start id
  | a :: earlier, id =>
    if a.succeeded ∧ known start earlier a.id ≠ some a.size then known start (a :: earlier) id
    else written start earlier id

theorem known_of_known {start : String → Option LaunchRange} {earlier : List Attempt} {a : Attempt}
    (h : known start earlier a.id = some a.size) : known start (a :: earlier) = known start earlier := by
  funext id
  rw [known]
  split
  next same => rw [same, h]
  next => rfl

theorem written_of_known {start : String → Option LaunchRange} {earlier : List Attempt} {a : Attempt}
    (h : known start earlier a.id = some a.size) :
    written start (a :: earlier) = written start earlier :=
  funext fun _ => if_neg fun both => both.2 h

theorem written_of_failed {start : String → Option LaunchRange} {earlier : List Attempt} {a : Attempt}
    (h : a.succeeded = false) : written start (a :: earlier) = written start earlier :=
  funext fun _ => if_neg fun both => Bool.false_ne_true (h.symm.trans both.1)

theorem written_of_new {start : String → Option LaunchRange} {earlier : List Attempt} {a : Attempt}
    (h : a.succeeded = true) (new : known start earlier a.id ≠ some a.size) :
    written start (a :: earlier) = known start (a :: earlier) :=
  funext fun _ => if_pos ⟨h, new⟩

theorem written_eq_known {start : String → Option LaunchRange} {log : List Attempt}
    (h : ∀ a ∈ log, a.succeeded = true) : written start log = known start log := by
  induction log with
  | nil => rfl
  | cons a earlier ih =>
    have succeeded := h a List.mem_cons_self
    have same := ih fun b hb => h b (List.mem_cons_of_mem a hb)
    by_cases new : known start earlier a.id = some a.size
    · rw [written_of_known new, same, known_of_known new]
    · exact written_of_new succeeded new

end Attempt

namespace TuningStore

/-- The store at a path and the tree, after some time: sizes are recorded and looked up, and the rest
of the tree changes as it may. A call that fails leaves the file as it was. -/
inductive Reaches (p : Path) (s₀ : TuningStore) (t₀ : FileTree) :
    TuningStore → FileTree → List Attempt → Prop where
  | start : Reaches p s₀ t₀ s₀ t₀ []
  | record {s s' : TuningStore} {t t' : FileTree} {log : List Attempt} {id : String}
      {size : LaunchRange} (h : Reaches p s₀ t₀ s t log)
      (succeeded : s.record t id size = (.ok (), s', t')) :
      Reaches p s₀ t₀ s' t' (⟨id, size, true⟩ :: log)
  | fail {s s' : TuningStore} {t t' : FileTree} {log : List Attempt} {id : String}
      {size : LaunchRange} {e : Error} (h : Reaches p s₀ t₀ s t log)
      (failed : s.record t id size = (.error e, s', t')) (kept : t'.find? p = t.find? p) :
      Reaches p s₀ t₀ s' t' (⟨id, size, false⟩ :: log)
  | lookup {s : TuningStore} {t : FileTree} {log : List Attempt} (h : Reaches p s₀ t₀ s t log)
      (id : String) : Reaches p s₀ t₀ (s.lookup id).2 t log
  | elsewhere {s : TuningStore} {t t' : FileTree} {log : List Attempt}
      (h : Reaches p s₀ t₀ s t log) (kept : t'.find? p = t.find? p) : Reaches p s₀ t₀ s t' log

variable {p : Path} {s s' s₀ : TuningStore} {t t' t₀ : FileTree} {log : List Attempt}

theorem lookup_fst (s : TuningStore) (id : String) : (s.lookup id).1 = s.table.get? id := by
  rw [lookup, TuningTable.lookup]
  cases s.table.get? id <;> rfl

theorem lookup_snd (s : TuningStore) (id : String) :
    (s.lookup id).2.path? = s.path? ∧ (s.lookup id).2.table.entries = s.table.entries := by
  rw [lookup, TuningTable.lookup]
  cases s.table.get? id <;> exact ⟨rfl, rfl⟩

/-! ### Opening -/

theorem openAt_congr (h : t'.find? p = t.find? p) : openAt t' p = openAt t p := by
  rw [openAt, openAt, FileTree.readText?, FileTree.readText?, FileTree.read?, FileTree.read?, h]

theorem openAt_eq_ok (h : openAt t p = .ok s) : s.path? = some p ∧ s.table.Storable := by
  unfold openAt at h
  split at h
  · cases h
    exact ⟨rfl, TuningTable.storable_empty⟩
  · split at h
    · cases h
    · split at h
      · cases h
      next read =>
        cases h
        exact ⟨rfl, TuningTable.storable_of_ofText? read⟩

theorem openAt_of_entries {es : List (String × LaunchRange)} (words : ∀ e ∈ es, e.2.IsWord)
    (found : t.find? p =
      some (.file (Json.array (es.map TuningTable.entryToJson)).indentedText.toUTF8)) :
    openAt t p = .ok ⟨es.foldl (fun t (id, size) => t.put id size) .empty, some p⟩ := by
  unfold openAt
  rw [found, FileTree.readText?_of_find? found]
  simp only [TuningTable.ofText?_indentedText words]

theorem openAt_of_text {table : TuningTable} (storable : table.Storable)
    (found : t.find? p = some (.file table.text.toUTF8)) :
    openAt t p = .ok ⟨⟨table.sorted, 0, 0⟩, some p⟩ := by
  rw [openAt_of_entries storable.words_sorted found,
    TuningTable.foldl_put_empty storable.ascending_sorted.nodup_ids]

/-! ### Recording -/

theorem record_cases (path : s.path? = some p) {id : String} {size : LaunchRange}
    {answer : Except Error Unit} (h : s.record t id size = (answer, s', t')) :
    (s.table.get? id = some size ∧ answer = .ok () ∧ s' = s ∧ t' = t) ∨
      (s.table.get? id ≠ some size ∧ s' = { s with table := s.table.put id size } ∧
        ((answer = .ok () ∧ t'.find? p = some (.file s'.table.text.toUTF8)) ∨
          answer = .error .fileSystem)) := by
  obtain ⟨table, path?⟩ := s
  obtain rfl : path? = some p := path
  unfold record at h
  split at h
  next known =>
    cases h
    exact .inl ⟨known, rfl, rfl, rfl⟩
  next new =>
    simp only at h
    split at h
    next saved =>
      cases h
      exact .inr ⟨new, rfl, .inl ⟨rfl, FileTree.find?_of_save saved⟩⟩
    next =>
      cases h
      exact .inr ⟨new, rfl, .inr rfl⟩

structure Accounts (s : TuningStore) (t : FileTree) (p : Path)
    (start : String → Option LaunchRange) (log : List Attempt) : Prop where
  path : s.path? = some p
  storable : s.table.Storable
  memory : ∀ id, s.table.get? id = Attempt.known start log id
  file : ∃ r, openAt t p = .ok r ∧ ∀ id, r.table.get? id = Attempt.written start log id

variable {start : String → Option LaunchRange}

theorem Accounts.record (h : s.Accounts t p start log) {a : Attempt} (word : a.size.IsWord)
    {answer : Except Error Unit} (called : s.record t a.id a.size = (answer, s', t'))
    (succeeded : a.succeeded = true ↔ answer = .ok ())
    (kept : a.succeeded = false → t'.find? p = t.find? p) :
    s'.Accounts t' p start (a :: log) := by
  obtain ⟨known, -, rfl, rfl⟩ | ⟨new, rfl, outcome⟩ := record_cases h.path called
  · rw [h.memory] at known
    obtain ⟨r, opened, file⟩ := h.file
    exact
      { path := h.path
        storable := h.storable
        memory := fun id => by rw [Attempt.known_of_known known, h.memory]
        file := ⟨r, opened, fun id => by rw [Attempt.written_of_known known, file]⟩ }
  · have memory (id : String) :
        (s.table.put a.id a.size).get? id = Attempt.known start (a :: log) id := by
      rw [TuningTable.get?_put, h.memory, Attempt.known]
    have storable := h.storable.put a.id word
    refine ⟨h.path, storable, memory, ?_⟩
    rw [h.memory] at new
    obtain ⟨rfl, found⟩ | rfl := outcome
    · refine ⟨_, openAt_of_text storable found, fun id => ?_⟩
      rw [Attempt.written_of_new (succeeded.2 rfl) new, ← memory]
      exact storable.lookup_sorted id
    · have failed : a.succeeded = false := Bool.eq_false_iff.2 fun h => nomatch succeeded.1 h
      obtain ⟨r, opened, file⟩ := h.file
      refine ⟨r, (openAt_congr (kept failed)).trans opened, fun id => ?_⟩
      rw [Attempt.written_of_failed failed, file]

theorem Reaches.accounts (opened : openAt t₀ p = .ok s₀) (h : Reaches p s₀ t₀ s t log)
    (words : ∀ a ∈ log, a.size.IsWord) : s.Accounts t p (fun id => (s₀.lookup id).1) log := by
  induction h with
  | start =>
    obtain ⟨path, storable⟩ := openAt_eq_ok opened
    exact ⟨path, storable, fun id => (lookup_fst s₀ id).symm, s₀, opened,
      fun id => (lookup_fst s₀ id).symm⟩
  | record _ called ih =>
    have before := ih fun a ha => words a (List.mem_cons_of_mem _ ha)
    exact before.record (words _ List.mem_cons_self) called ⟨fun _ => rfl, fun _ => rfl⟩ nofun
  | fail _ called kept ih =>
    have before := ih fun a ha => words a (List.mem_cons_of_mem _ ha)
    exact before.record (words _ List.mem_cons_self) called ⟨nofun, nofun⟩ fun _ => kept
  | lookup _ id ih =>
    obtain ⟨path, storable, memory, file⟩ := ih words
    obtain ⟨samePath, sameEntries⟩ := lookup_snd _ id
    refine ⟨samePath.trans path, ⟨?_, ?_⟩, fun k => ?_, file⟩
    · rw [sameEntries]
      exact storable.nodup
    · rw [sameEntries]
      exact storable.words
    · rw [← memory, TuningTable.get?, sameEntries, TuningTable.get?]
  | elsewhere _ kept ih =>
    obtain ⟨path, storable, memory, r, opened, file⟩ := ih words
    exact ⟨path, storable, memory, r, (openAt_congr kept).trans opened, file⟩

/-- Where every call succeeded, the file opens again with as many entries. It finds for every id what
the store itself finds, and that is the size that was recorded last. -/
theorem reopen_agrees (opened : openAt t₀ p = .ok s₀) (h : Reaches p s₀ t₀ s t log)
    (words : ∀ a ∈ log, a.size.IsWord) (succeeded : ∀ a ∈ log, a.succeeded = true) :
    ∃ r, openAt t p = .ok r ∧ r.size = s.size ∧
      ∀ id, (r.lookup id).1 = (s.lookup id).1 ∧
        (s.lookup id).1 = Attempt.known (fun id => (s₀.lookup id).1) log id := by
  obtain ⟨-, storable, memory, r, reopened, file⟩ := h.accounts opened words
  rw [Attempt.written_eq_known succeeded] at file
  have same (id : String) : r.table.get? id = s.table.get? id := by rw [file, memory]
  have entries : r.table.entries.Perm s.table.entries :=
    (TuningTable.perm_iff_lookup (openAt_eq_ok reopened).2.nodup storable.nodup).2 same
  refine ⟨r, reopened, entries.length_eq, fun id => ⟨?_, ?_⟩⟩
  · rw [lookup_fst, lookup_fst, same]
  · rw [lookup_fst, memory]

def storePath : Path := ⟨"d/s.json"⟩

def repeatedIds : List (String × LaunchRange) :=
  [("a", ⟨1, 1, 1⟩), ("b", ⟨2, 2, 2⟩), ("a", ⟨3, 3, 3⟩)]

def repeatedTree : FileTree :=
  ⟨[([['d']], .directory), ([['d'], "s.json".toList],
    .file (Json.array (repeatedIds.map TuningTable.entryToJson)).indentedText.toUTF8)]⟩

def laterAttempts : List Attempt :=
  [⟨"\"é\n", ⟨0, 1, 0xFFFFFFFFFFFFFFFF⟩, true⟩, ⟨"a", ⟨3, 3, 3⟩, true⟩]

theorem reopen_agrees_repeated :
    ∃ s₀ s t, openAt repeatedTree storePath = .ok s₀ ∧
      Reaches storePath s₀ repeatedTree s t laterAttempts ∧
        (∀ a ∈ laterAttempts, a.size.IsWord) ∧ (∀ a ∈ laterAttempts, a.succeeded = true) ∧
          ∃ r, openAt t storePath = .ok r ∧ r.size = s.size ∧
            (r.lookup "a").1 = some ⟨3, 3, 3⟩ ∧
            (r.lookup "\"é\n").1 = some ⟨0, 1, 0xFFFFFFFFFFFFFFFF⟩ := by
  let s₀ : TuningStore :=
    ⟨repeatedIds.foldl (fun t (id, size) => t.put id size) .empty, some storePath⟩
  have opened : openAt repeatedTree storePath = .ok s₀ := openAt_of_entries (by decide) rfl
  let same := s₀.record repeatedTree "a" ⟨3, 3, 3⟩
  let new := same.2.1.record same.2.2 "\"é\n" ⟨0, 1, 0xFFFFFFFFFFFFFFFF⟩
  have first : same = (.ok (), same.2) := Prod.ext rfl rfl
  have second : new = (.ok (), new.2) := Prod.ext rfl rfl
  have reached : Reaches storePath s₀ repeatedTree new.2.1 new.2.2 laterAttempts :=
    .record (.record .start first) second
  obtain ⟨r, reopened, size, finds⟩ := reopen_agrees opened reached (by decide) (by decide)
  refine ⟨s₀, _, _, opened, reached, by decide, by decide, r, reopened, size, ?_, ?_⟩
  · rw [(finds "a").1, (finds "a").2]
    rfl
  · rw [(finds "\"é\n").1, (finds "\"é\n").2]
    rfl

/-- After any calls, a size that is recorded is found in the file exactly if the file has it already or
the store did not know it: a size that is known is not written, though its own call may have failed. -/
theorem record_durable_iff (opened : openAt t₀ p = .ok s₀) (h : Reaches p s₀ t₀ s t log)
    (words : ∀ a ∈ log, a.size.IsWord) {id : String} {size : LaunchRange} (word : size.IsWord)
    (recorded : s.record t id size = (.ok (), s', t')) :
    ∃ r, openAt t' p = .ok r ∧
      ((r.lookup id).1 = some size ↔
        (Attempt.known (fun id => (s₀.lookup id).1) log id = some size →
          Attempt.written (fun id => (s₀.lookup id).1) log id = some size)) := by
  have after := (h.record recorded).accounts opened (List.forall_mem_cons.2 ⟨word, words⟩)
  obtain ⟨r, reopened, file⟩ := after.file
  refine ⟨r, reopened, ?_⟩
  rw [lookup_fst, file]
  by_cases known : Attempt.known (fun id => (s₀.lookup id).1) log id = some size
  · rw [Attempt.written_of_known known]
    exact ⟨fun written _ => written, fun written => written known⟩
  · rw [Attempt.written_of_new rfl known, Attempt.known, if_pos rfl]
    exact ⟨fun _ h => absurd h known, fun _ => rfl⟩

def blockedTree : FileTree := ⟨[([['d']], .file .empty)]⟩

theorem blocked_reaches :
    openAt blockedTree storePath = .ok ⟨.empty, some storePath⟩ ∧
      Reaches storePath ⟨.empty, some storePath⟩ blockedTree
        ⟨TuningTable.empty.put "k" ⟨1, 1, 1⟩, some storePath⟩ .empty [⟨"k", ⟨1, 1, 1⟩, false⟩] :=
  ⟨rfl, .elsewhere (.fail .start rfl rfl) rfl⟩

theorem record_durable_unblocked :
    ∃ s' t', TuningStore.record ⟨TuningTable.empty.put "k" ⟨1, 1, 1⟩, some storePath⟩ .empty "k"
        ⟨2, 1, 1⟩ = (.ok (), s', t') ∧
      ∃ r, openAt t' storePath = .ok r ∧ (r.lookup "k").1 = some ⟨2, 1, 1⟩ := by
  obtain ⟨opened, reached⟩ := blocked_reaches
  let recorded := TuningStore.record ⟨TuningTable.empty.put "k" ⟨1, 1, 1⟩, some storePath⟩ .empty "k"
    ⟨2, 1, 1⟩
  have succeeded : recorded = (.ok (), recorded.2) := Prod.ext rfl rfl
  obtain ⟨r, reopened, durable⟩ := record_durable_iff opened reached
    (by decide) (by decide) succeeded
  exact ⟨_, _, succeeded, r, reopened, durable.2 fun known => nomatch known⟩

/-- A failed call is made again and succeeds, since the store knows the size; the file does not. -/
theorem retried_record_lost :
    ∃ s t log s' t' r, openAt blockedTree storePath = .ok ⟨.empty, some storePath⟩ ∧
      Reaches storePath ⟨.empty, some storePath⟩ blockedTree s t log ∧
        (∃ a ∈ log, a.succeeded = false) ∧ s.record t "k" ⟨1, 1, 1⟩ = (.ok (), s', t') ∧
          openAt t' storePath = .ok r ∧ (r.lookup "k").1 = none := by
  obtain ⟨opened, reached⟩ := blocked_reaches
  exact ⟨_, _, _, _, _, ⟨.empty, some storePath⟩, opened, reached, ⟨_, List.mem_cons_self, rfl⟩,
    rfl, rfl, rfl⟩

end TuningStore
end TensorConcat
