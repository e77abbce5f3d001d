import TensorConcat.Launch.Execution
import TensorConcat.Proofs.Memory.Cells
import TensorConcat.Proofs.Pieces

/-! Vectors of columns: which bytes of the loads end up where in the vector that is stored. -/

namespace TensorConcat

namespace Program

variable {p : Program} {first second vector bytes : List UInt8}

theorem length_convert (hs : p.elementSize = p.storage.size) (side : Requantization → Affine)
    (h : bytes.length = p.elementSize) : (p.convert side bytes).length = p.elementSize := by
  unfold convert
  split
  · rw [Storage.length_encode, hs]
  · exact h

theorem length_lane {n : Nat} (hn : n < p.vectorSize) (h : vector.length = p.vectorBytes) :
    (p.lane n vector).length = p.elementSize := by
  have room : (n + 1) * p.elementSize ≤ p.vectorSize * p.elementSize :=
    Nat.mul_le_mul_right _ hn
  rw [Nat.succ_mul] at room
  rw [vectorBytes] at h
  rw [lane, List.length_take, List.length_drop]
  omega

def pick (p : Program) (x : Int) (first second : List UInt8) (n : Nat) : List UInt8 :=
  if x + n < signed64 p.firstWidth then p.convert Requantization.first (p.lane n first)
  else p.convert Requantization.second (p.lane n second)

theorem length_pick (hs : p.elementSize = p.storage.size) (h1 : first.length = p.vectorBytes)
    (h2 : second.length = p.vectorBytes) (x : Int) {n : Nat} (hn : n < p.vectorSize) :
    (p.pick x first second n).length = p.elementSize := by
  unfold pick
  split
  · exact length_convert hs _ (length_lane hn h1)
  · exact length_convert hs _ (length_lane hn h2)

theorem length_select (hs : p.elementSize = p.storage.size) (h1 : first.length = p.vectorBytes)
    (h2 : second.length = p.vectorBytes) (x : Int) :
    (p.select x first second).length = p.vectorBytes :=
  length_flatMap_range fun _ hn => length_pick hs h1 h2 x hn

theorem getElem?_select (hs : p.elementSize = p.storage.size) (h1 : first.length = p.vectorBytes)
    (h2 : second.length = p.vectorBytes) (x : Int) {n i : Nat} (hn : n < p.vectorSize)
    (hi : i < p.elementSize) :
    (p.select x first second)[n * p.elementSize + i]? = (p.pick x first second n)[i]? := by
  have pieces : ∀ m < p.vectorSize, (p.pick x first second m).length = p.elementSize :=
    fun _ hm => length_pick hs h1 h2 x hm
  exact getElem?_flatMap_range pieces hn hi

end Program
end TensorConcat
