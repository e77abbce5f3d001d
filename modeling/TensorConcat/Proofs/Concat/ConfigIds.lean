import Mathlib.Data.List.Induction
import Mathlib.Data.List.Nodup
import TensorConcat.Concat.Operands
import TensorConcat.Proofs.Numeric.DecimalText

/-! Configuration ids tell apart the element types and the planes of the inputs. A name may hold the
mark that stands between the parts of an id, so an id is read from its end, where the numbers are. -/

namespace TensorConcat

/-! ### Parts between marks -/

section Marks

variable {α : Type} {mark : α} {front front' : List (List α)}

theorem intercalate_concat (h : front ≠ []) (part : List α) :
    [mark].intercalate (front ++ [part]) = [mark].intercalate front ++ mark :: part := by
  induction front with
  | nil => exact absurd rfl h
  | cons first rest ih =>
    cases rest with
    | nil => simp
    | cons next rest => simpa using ih (List.cons_ne_nil next rest)

theorem eq_nil_of_append_mark {between xs ys : List α} (h : mark ∉ xs)
    (same : mark :: xs = between ++ mark :: ys) : between = [] ∧ xs = ys := by
  cases between with
  | nil => exact ⟨rfl, (List.cons.inj same).2⟩
  | cons c rest =>
    obtain ⟨-, rfl⟩ := List.cons.inj same
    exact absurd (List.mem_append_right rest List.mem_cons_self) h

theorem append_mark_inj {xs xs' ys ys' : List α} (h : mark ∉ ys) (h' : mark ∉ ys')
    (same : xs ++ mark :: ys = xs' ++ mark :: ys') : xs = xs' ∧ ys = ys' := by
  obtain ⟨between, rfl, rest⟩ | ⟨between, rfl, rest⟩ := List.append_eq_append_iff.1 same
  · obtain ⟨rfl, rfl⟩ := eq_nil_of_append_mark h rest
    exact ⟨(List.append_nil xs).symm, rfl⟩
  · obtain ⟨rfl, rfl⟩ := eq_nil_of_append_mark h' rest
    exact ⟨List.append_nil xs', rfl⟩

theorem intercalate_append_inj (hf : front ≠ []) (hf' : front' ≠ []) {back back' : List (List α)}
    (count : back.length = back'.length) (hb : ∀ part ∈ back, mark ∉ part)
    (hb' : ∀ part ∈ back', mark ∉ part)
    (same : [mark].intercalate (front ++ back) = [mark].intercalate (front' ++ back')) :
    [mark].intercalate front = [mark].intercalate front' ∧ back = back' := by
  -- the induction is from the end, where a part is cut off at the last mark
  induction back using List.reverseRecOn generalizing back' with
  | nil =>
    obtain rfl := List.eq_nil_of_length_eq_zero count.symm
    simpa only [List.append_nil, and_true] using same
  | append_singleton back part ih =>
    obtain rfl | ⟨back', part', rfl⟩ := List.eq_nil_or_concat' back'
    · simp at count
    · simp only [List.forall_mem_append, List.forall_mem_singleton] at hb hb'
      rw [← List.append_assoc, ← List.append_assoc,
        intercalate_concat (List.append_ne_nil_of_left_ne_nil hf back),
        intercalate_concat (List.append_ne_nil_of_left_ne_nil hf' back')] at same
      obtain ⟨before, rfl⟩ := append_mark_inj hb.2 hb'.2 same
      obtain ⟨fronts, rfl⟩ := ih (by simpa using count) hb.1 hb'.1 before
      exact ⟨fronts, rfl⟩

end Marks

/-! ### The parts of an id -/

namespace Digits

theorem ofNat_injective : Function.Injective ofNat :=
  Function.LeftInverse.injective number_ofNat

theorem mark_notMem_ofNat (n : Nat) : '_' ∉ ofNat n := fun h =>
  ne_of_isDigit (isDigit_of_mem_ofNat h) (by decide) rfl

end Digits

namespace ElementType

def lowerName (t : ElementType) : List Char :=
  t.name.toList.map Char.toLower

theorem lowerName_injective : Function.Injective lowerName := fun t u =>
  have distinct : (all.map lowerName).Nodup := by decide
  List.inj_on_of_nodup_map distinct t.mem_all u.mem_all

end ElementType

namespace Operands

def inputPlanes (o : Operands) : List Nat :=
  [o.first.extent 0, o.first.extent 1, o.second.extent 0, o.second.extent 1]

theorem configIdParts_eq (o : Operands) :
    o.configIdParts =
      [Program.kernelName.toList, o.first.type.lowerName] ++ o.inputPlanes.map Digits.ofNat :=
  rfl

/-- Ids are equal exactly if the element types of the first inputs are, and the widths and heights of
both inputs. -/
theorem configId_eq_iff (a b : Operands) :
    a.configId = b.configId ↔
      a.first.type = b.first.type ∧
        a.first.extent 0 = b.first.extent 0 ∧ a.first.extent 1 = b.first.extent 1 ∧
        a.second.extent 0 = b.second.extent 0 ∧ a.second.extent 1 = b.second.extent 1 := by
  constructor
  · intro same
    have chars : ['_'].intercalate a.configIdParts = ['_'].intercalate b.configIdParts :=
      String.ofList_injective same
    have unmarked (o : Operands) : ∀ part ∈ o.inputPlanes.map Digits.ofNat, '_' ∉ part :=
      List.forall_mem_map.2 fun n _ => Digits.mark_notMem_ofNat n
    rw [configIdParts_eq, configIdParts_eq] at chars
    have count : (a.inputPlanes.map Digits.ofNat).length = (b.inputPlanes.map Digits.ofNat).length :=
      rfl
    obtain ⟨names, numbers⟩ := intercalate_append_inj (List.cons_ne_nil _ _) (List.cons_ne_nil _ _)
      count (unmarked a) (unmarked b) chars
    have types : a.first.type.lowerName = b.first.type.lowerName := by simpa using names
    have planes : a.inputPlanes = b.inputPlanes :=
      List.map_injective_iff.2 Digits.ofNat_injective numbers
    refine ⟨ElementType.lowerName_injective types, ?_⟩
    simpa only [inputPlanes, List.cons.injEq, and_true] using planes
  · rintro ⟨type, width, height, width', height'⟩
    simp only [configId, configIdParts, type, width, height, width', height']

-- The name of this element type holds the mark.
example : configId ⟨.ofShape ⟨[8, 2], by decide⟩ .signedAffine8,
    .ofShape ⟨[3, 2], by decide⟩ .signedAffine8, .ofShape ⟨[11, 2], by decide⟩ .signedAffine8⟩ =
      "concatenate_width_x2_qasymm8_signed_8_2_3_2" := by cbv

end Operands
end TensorConcat
