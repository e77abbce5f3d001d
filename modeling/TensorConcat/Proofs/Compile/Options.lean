import TensorConcat.Concat.Operands
import TensorConcat.Proofs.Answer
import TensorConcat.Proofs.Numeric.OptionText

/-! The program that is compiled from the options of a concatenation, and when there is none. -/

namespace TensorConcat

theorem Digits.size?_ofNat {n : Nat} (h : n < 0x10000000000000000) : size? (ofNat n) = some n := by
  obtain ⟨c, rest, hc⟩ := List.exists_cons_of_ne_nil (ofNat_ne_nil n)
  have hp : c ≠ '+' := ne_of_isDigit (isDigit_of_mem_ofNat (n := n) (by simp [hc])) (by decide)
  have hn := number?_ofNat n
  rw [hc] at hn ⊢
  simp [size?, hp, hn, h]

namespace BuildOptions

variable {b : BuildOptions} {key : String}

theorem size_eq_ok_iff {n m : Nat} (h : b.get? key = some (String.ofList (Digits.ofNat n)))
    (hn : n < 0x10000000000000000) : b.size key = .ok m ↔ m = n := by
  simp [size, required, h, Digits.size?_ofNat hn, bind, Except.bind, pure, Except.pure, eq_comm]

theorem number_eq_ok_iff_of_int {n : Int} {x : Binary32}
    (h : b.get? key = some (String.ofList (Digits.ofInt n))) :
    b.number key = .ok x ↔ x = .ofInt n := by
  simp [number, required, h, Binary32.ofOptionText?_ofInt, bind, Except.bind, pure, Except.pure,
    eq_comm]

theorem number_eq_ok_iff_of_float {x y : Binary32}
    (h : b.get? key = some (String.ofList x.optionText)) :
    b.number key = .ok y ↔ x.isInfinite = false ∧ y = x.canonical := by
  simp only [number, required, h, Answer.ok_bind, String.toList_ofList,
    Binary32.ofOptionText?_optionText]
  cases x.isInfinite <;> simp [pure, Except.pure, throw, throwThe, MonadExceptOf.throw, eq_comm]

def affineOf (q : Quantization) : Affine :=
  ⟨.ofInt q.offset, q.scale.canonical⟩

theorem affine_eq_ok_iff {offsetKey scaleKey : String} {q : Quantization} {a : Affine}
    (ho : b.get? offsetKey = some (String.ofList (Digits.ofInt q.offset)))
    (hs : b.get? scaleKey = some (String.ofList q.scale.optionText)) :
    b.affine offsetKey scaleKey = .ok a ↔ q.scale.isInfinite = false ∧ a = affineOf q := by
  simp only [affine, Answer.bind_eq_ok_iff, number_eq_ok_iff_of_int ho,
    number_eq_ok_iff_of_float hs, pure, Except.pure, Except.ok.injEq, affineOf]
  constructor
  · rintro ⟨_, rfl, _, ⟨h, rfl⟩, rfl⟩
    exact ⟨h, rfl⟩
  · rintro ⟨h, rfl⟩
    exact ⟨_, rfl, _, ⟨h, rfl⟩, rfl⟩

theorem required_failsAs (b : BuildOptions) (key : String) :
    Answer.FailsAs .device (b.required key) := by
  unfold required
  split
  · exact Answer.failsAs_ok _ _
  · exact Answer.failsAs_error _

theorem size_failsAs (b : BuildOptions) (key : String) : Answer.FailsAs .device (b.size key) := by
  apply (required_failsAs b key).bind
  intro value
  split
  · exact Answer.failsAs_ok _ _
  · exact Answer.failsAs_error _

theorem number_failsAs (b : BuildOptions) (key : String) :
    Answer.FailsAs .device (b.number key) := by
  apply (required_failsAs b key).bind
  intro value
  split
  · exact Answer.failsAs_ok _ _
  · exact Answer.failsAs_error _

theorem affine_failsAs (b : BuildOptions) (offsetKey scaleKey : String) :
    Answer.FailsAs .device (b.affine offsetKey scaleKey) :=
  (number_failsAs b offsetKey).bind fun _ =>
    (number_failsAs b scaleKey).bind fun _ => Answer.failsAs_ok _ _

theorem requantization_failsAs (b : BuildOptions) : Answer.FailsAs .device b.requantization := by
  unfold requantization
  split
  · exact Answer.failsAs_ok _ _
  · split
    · exact (affine_failsAs _ _ _).bind fun _ => (affine_failsAs _ _ _).bind fun _ =>
        (affine_failsAs _ _ _).bind fun _ => Answer.failsAs_ok _ _
    · exact Answer.failsAs_error _

theorem get?_empty (key : String) : empty.get? key = none :=
  rfl

end BuildOptions

namespace Program

theorem read_failsAs (b : BuildOptions) : Answer.FailsAs .device (read b) := by
  apply (BuildOptions.required_failsAs _ _).bind
  intro typeName
  split
  · exact Answer.failsAs_error _
  · exact (BuildOptions.size_failsAs _ _).bind fun _ => (BuildOptions.size_failsAs _ _).bind fun _ =>
      (BuildOptions.size_failsAs _ _).bind fun _ => (BuildOptions.size_failsAs _ _).bind fun _ =>
        (BuildOptions.requantization_failsAs _).bind fun _ => Answer.failsAs_ok _ _

theorem check_failsAs (p : Program) : Answer.FailsAs .device p.check := by
  unfold check
  split
  · exact Answer.failsAs_error _
  split
  · exact Answer.failsAs_error _
  split
  · exact Answer.failsAs_error _
  · exact Answer.failsAs_ok _ _

theorem ofOptions_failsAs (b : BuildOptions) : Answer.FailsAs .device (ofOptions b) :=
  (read_failsAs b).bind fun p => (check_failsAs p).bind fun _ => Answer.failsAs_ok _ _

end Program

namespace Rescaling

def Readable (r : Rescaling) : Prop :=
  r.first.scale.isInfinite = false ∧ r.second.scale.isInfinite = false ∧
    r.output.scale.isInfinite = false

instance (r : Rescaling) : Decidable r.Readable :=
  inferInstanceAs (Decidable (_ ∧ _ ∧ _))

def requantization (r : Rescaling) : Requantization :=
  ⟨BuildOptions.affineOf r.first, BuildOptions.affineOf r.second, BuildOptions.affineOf r.output⟩

end Rescaling

namespace Operands

def plainOptions (o : Operands) (s : Storage) : BuildOptions :=
  ((((BuildOptions.empty.define "DATA_TYPE" s.name).defineNat
    "VEC_SIZE" vectorWidth).defineNat "DEPTH" (o.first.extent 2)).defineNat
    "INPUT1_WIDTH" (o.first.extent 0)).defineNat "ELEMENT_SIZE" o.first.elementSize

def options (o : Operands) (s : Storage) : BuildOptions :=
  match o.rescaling? with
  | none => o.plainOptions s
  | some r => rescalingOptions (o.plainOptions s) r

variable {o : Operands} {s : Storage}

theorem buildOptions_eq (h : o.first.type.storage? = some s) :
    o.buildOptions = .ok (o.options s) := by
  rw [buildOptions, h, options]
  cases o.rescaling? <;> rfl

theorem get?_options (o : Operands) (s : Storage) :
    (o.options s).get? "DATA_TYPE" = some s.name ∧
    (o.options s).get? "VEC_SIZE" = some (String.ofList (Digits.ofNat vectorWidth)) ∧
    (o.options s).get? "DEPTH" = some (String.ofList (Digits.ofNat (o.first.extent 2))) ∧
    (o.options s).get? "INPUT1_WIDTH" = some (String.ofList (Digits.ofNat (o.first.extent 0))) ∧
    (o.options s).get? "ELEMENT_SIZE" = some (String.ofList (Digits.ofNat o.first.elementSize)) := by
  unfold options
  split <;>
    simp [rescalingOptions, plainOptions, BuildOptions.defineNat, BuildOptions.defineInt,
      BuildOptions.defineFloat, BuildOptions.get?_define]

theorem requantization_options_of_none (h : o.rescaling? = none) :
    (o.options s).requantization = .ok none := by
  have absent : BuildOptions.requantizationKeys.all (!(o.options s).contains ·) = true := by
    simp [BuildOptions.requantizationKeys, BuildOptions.contains, options, h, plainOptions,
      BuildOptions.defineNat, BuildOptions.get?_define, BuildOptions.get?_empty]
  rw [BuildOptions.requantization, if_pos absent]
  rfl

theorem requantization_options_of_some {r : Rescaling} (h : o.rescaling? = some r)
    {q : Option Requantization} :
    (o.options s).requantization = .ok q ↔ r.Readable ∧ q = some r.requantization := by
  have get (key : String) := congrArg (BuildOptions.get? · key)
    (show o.options s = rescalingOptions (o.plainOptions s) r by simp only [options, h])
  -- All six keys or none may be there; all six are.
  have present : BuildOptions.requantizationKeys.all ((o.options s).contains ·) = true := by
    simp [BuildOptions.requantizationKeys, BuildOptions.contains, get, rescalingOptions,
      BuildOptions.defineInt, BuildOptions.defineFloat, BuildOptions.get?_define]
  have some_present : ¬ BuildOptions.requantizationKeys.all (!(o.options s).contains ·) = true := by
    simp [BuildOptions.requantizationKeys, BuildOptions.contains, get, rescalingOptions,
      BuildOptions.defineInt, BuildOptions.defineFloat, BuildOptions.get?_define]
  have first (a : Affine) : (o.options s).affine "OFFSET_IN1" "SCALE_IN1" = .ok a ↔
      r.first.scale.isInfinite = false ∧ a = BuildOptions.affineOf r.first := by
    apply BuildOptions.affine_eq_ok_iff <;>
      simp [get, rescalingOptions, BuildOptions.defineInt, BuildOptions.defineFloat,
        BuildOptions.get?_define]
  have second (a : Affine) : (o.options s).affine "OFFSET_IN2" "SCALE_IN2" = .ok a ↔
      r.second.scale.isInfinite = false ∧ a = BuildOptions.affineOf r.second := by
    apply BuildOptions.affine_eq_ok_iff <;>
      simp [get, rescalingOptions, BuildOptions.defineInt, BuildOptions.defineFloat,
        BuildOptions.get?_define]
  have output (a : Affine) : (o.options s).affine "OFFSET_OUT" "SCALE_OUT" = .ok a ↔
      r.output.scale.isInfinite = false ∧ a = BuildOptions.affineOf r.output := by
    apply BuildOptions.affine_eq_ok_iff <;>
      simp [get, rescalingOptions, BuildOptions.defineInt, BuildOptions.defineFloat,
        BuildOptions.get?_define]
  rw [BuildOptions.requantization, if_neg some_present, if_pos present]
  simp only [Answer.bind_eq_ok_iff, first, second, output, pure, Except.pure, Except.ok.injEq,
    Rescaling.Readable, Rescaling.requantization]
  constructor
  · rintro ⟨_, ⟨h1, rfl⟩, _, ⟨h2, rfl⟩, _, ⟨h3, rfl⟩, rfl⟩
    exact ⟨⟨h1, h2, h3⟩, rfl⟩
  · rintro ⟨⟨h1, h2, h3⟩, rfl⟩
    exact ⟨_, ⟨h1, rfl⟩, _, ⟨h2, rfl⟩, _, ⟨h3, rfl⟩, rfl⟩

end Operands
end TensorConcat
