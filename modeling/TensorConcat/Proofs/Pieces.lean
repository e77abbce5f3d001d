/-! Lists that are put together from pieces of one length: where an entry of a piece stands. -/

namespace TensorConcat

variable {α : Type} {piece : Nat → List α} {size count : Nat}

theorem length_flatMap_range (h : ∀ n < count, (piece n).length = size) :
    ((List.range count).flatMap piece).length = count * size := by
  induction count with
  | zero => simp
  | succ count ih =>
    have last := h count (Nat.lt_succ_self _)
    simp [List.range_succ, ih fun n hn => h n (by omega), last, Nat.succ_mul]

theorem getElem?_flatMap_range {n i : Nat} (h : ∀ n < count, (piece n).length = size)
    (hn : n < count) (hi : i < size) :
    ((List.range count).flatMap piece)[n * size + i]? = (piece n)[i]? := by
  induction count with
  | zero => omega
  | succ count ih =>
    have before : ∀ m < count, (piece m).length = size := fun m hm => h m (by omega)
    have total := length_flatMap_range before
    simp only [List.range_succ, List.flatMap_append, List.flatMap_cons, List.flatMap_nil,
      List.append_nil]
    by_cases hl : n < count
    · have room : (n + 1) * size ≤ count * size := Nat.mul_le_mul_right _ hl
      rw [Nat.succ_mul] at room
      rw [List.getElem?_append_left (by omega), ih before hl]
    · obtain rfl : n = count := by omega
      rw [List.getElem?_append_right (by omega), total, Nat.add_sub_cancel_left]

end TensorConcat
