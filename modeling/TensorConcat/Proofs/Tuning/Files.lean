import TensorConcat.Tuning.FileTree

/-! A file that was saved is found at its path with its content. Writing it does not change where any
path leads, since a file takes no directory's place. -/

namespace TensorConcat
namespace FileTree

variable {t t' : FileTree} {p : Path} {place : Place} {content : ByteArray}

theorem lookup_filter_ne {place q : Place} (ne : q ≠ place) (nodes : List (Place × Node)) :
    (nodes.filter (·.1 ≠ place)).lookup q = nodes.lookup q := by
  induction nodes with
  | nil => rfl
  | cons e rest ih =>
    obtain ⟨r, n⟩ := e
    by_cases same : r = place
    · subst same
      rw [List.filter_cons_of_neg (by simp), ih, List.lookup_cons, beq_false_of_ne ne]
    · rw [List.filter_cons_of_pos (by simpa using same), List.lookup_cons, List.lookup_cons, ih]

theorem node?_insert_of_ne {q : Place} (ne : q ≠ place) (n : Node) :
    (t.insert place n).node? q = t.node? q := by
  unfold node? insert
  rw [List.lookup_cons, beq_false_of_ne ne, lookup_filter_ne ne]

theorem node?_insert_self (root : place ≠ []) (n : Node) :
    (t.insert place n).node? place = some n := by
  rw [node?, if_neg root, insert, List.lookup_cons_self]

theorem ne_root (h : t.isDirectory place = false) : place ≠ [] := by
  rintro rfl
  cases h

theorem isDirectory_insert (h : t.isDirectory place = false) (content : ByteArray) (q : Place) :
    (t.insert place (.file content)).isDirectory q = t.isDirectory q := by
  by_cases same : q = place
  · rw [same, h, isDirectory, node?_insert_self (ne_root h)]
  · rw [isDirectory, isDirectory, node?_insert_of_ne same]

theorem follow_insert (h : t.isDirectory place = false) (content : ByteArray) (origin : Place)
    (steps : List PathStep) :
    (t.insert place (.file content)).follow origin steps = t.follow origin steps := by
  induction steps generalizing origin with
  | nil => rfl
  | cons step rest ih =>
    cases step with
    | up => rw [follow, follow, isDirectory_insert h, ih]
    | down name => rw [follow, follow, isDirectory_insert h, ih]

theorem resolve_insert (h : t.isDirectory place = false) (content : ByteArray) (p : Path) :
    (t.insert place (.file content)).resolve p = t.resolve p := by
  rw [resolve, resolve, follow_insert h]

theorem find?_of_write? (h : t.write? p content = some t') : t'.find? p = some (.file content) := by
  obtain ⟨place, resolved, h⟩ := Option.bind_eq_some_iff.1 h
  split at h
  · cases h
  next plain =>
    obtain ⟨file, free⟩ := Bool.or_eq_false_iff.1 (Bool.eq_false_iff.2 plain)
    obtain rfl := Option.some.inj h
    simp only [find?, resolve_insert free, resolved, node?_insert_self (ne_root free), file,
      Option.bind_eq_bind, Option.bind_some, Bool.false_eq_true, if_false]

theorem find?_of_save (h : t.save p content = (true, t')) : t'.find? p = some (.file content) := by
  unfold save at h
  split at h
  · cases h
  · split at h
    next written =>
      obtain rfl := (Prod.mk.inj h).2
      exact find?_of_write? written
    next => cases h

theorem readText?_of_find? {text : String} (h : t.find? p = some (.file text.toUTF8)) :
    t.readText? p = some text := by
  rw [readText?, read?, h]
  exact dif_pos text.isValidUTF8

end FileTree
end TensorConcat
