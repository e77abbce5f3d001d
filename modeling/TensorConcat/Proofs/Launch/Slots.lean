import TensorConcat.Launch.Handle
import TensorConcat.Proofs.Answer

/-! Argument slots: binding one leaves the program and all other slots as they are. -/

namespace TensorConcat
namespace Handle

variable {h h' : Handle} {index : Nat} {a : Argument}

theorem bind_of_lt (hi : index < 32) (a : Argument) :
    h.bind index a = .ok { h with arguments := h.arguments.set index (some a) } := by
  rw [bind, dif_pos hi]

theorem bind_eq_ok (hb : h.bind index a = .ok h') :
    h'.program = h.program ∧
      ∀ j, h'.argument? j = if j = index then some a else h.argument? j := by
  rw [bind] at hb
  split at hb
  next hi =>
    obtain rfl := Except.ok.inj hb
    refine ⟨rfl, ?_⟩
    intro j
    simp only [argument?, Vector.getElem?_set]
    by_cases hj : j = index
    · simp [hj]
    · rw [if_neg (Ne.symm hj), if_neg hj]
  next => exact nomatch hb

theorem buffer_of_argument? {id : BufferId} (h : Handle) (hs : h.argument? index = some (.buffer id)) :
    h.buffer index = .ok id := by
  rw [buffer, hs]

theorem word_of_argument? {value : UInt32} (h : Handle)
    (hs : h.argument? index = some (.word value)) : h.word index = .ok value.toNat := by
  rw [word, hs]

end Handle
end TensorConcat
