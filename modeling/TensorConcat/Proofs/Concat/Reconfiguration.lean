import TensorConcat.Proofs.Concat.Prepared
import TensorConcat.Proofs.Plan.Commitment

/-! A second configuration, for the operands that the first has written. It plans for the whole
output, because all of the output has been marked as valid, and is the same as the first if that has
covered the whole output too. -/

namespace TensorConcat

namespace Descriptor

/-- A tensor of the same elements that is new: without padding, and not allocated. -/
def renewed (d : Descriptor) : Descriptor :=
  { ofShape d.shape d.type with quantization? := d.quantization? }

theorem renewed_extend (d : Descriptor) (p : Padding) : (d.extend p).renewed = d.renewed := by
  rw [extend]
  split <;> rfl

theorem extend_valid (d : Descriptor) (p : Padding) (r : ValidRegion) :
    { d with valid := r }.extend p = { d.extend p with valid := r } := by
  simp only [extend]
  split <;> rfl

end Descriptor

theorem AccessPattern.Settled.revalidate {p : AccessPattern} {w : Window} {d : Descriptor}
    (h : p.Settled w d) (r : ValidRegion) : p.Settled w { d with valid := r } where
  narrow := h.narrow
  extend := by
    rw [AccessPattern.extend, Descriptor.extend_valid]
    exact congrArg (fun d : Descriptor => { d with valid := r }) h.extend

namespace Operands

structure Marks where
  first : Bool
  second : Bool
  output : Bool
deriving DecidableEq, Repr

def commit (o : Operands) (m : Marks) : Operands :=
  ⟨o.first.commit m.first, o.second.commit m.second, o.output.commit m.output⟩

structure SignedCommits (o : Operands) (m : Marks) : Prop where
  first : m.first = true → o.first.resizable = true → o.first.SignedPadding
  second : m.second = true → o.second.resizable = true → o.second.SignedPadding
  output : m.output = true → o.output.resizable = true → o.output.SignedPadding

def renewed (o : Operands) : Operands :=
  ⟨o.first.renewed, o.second.renewed, o.output.renewed⟩

def firstPattern (o : Operands) : AccessPattern :=
  .fixed ⟨0, signed64 (ceilMultiple (o.first.extent 0) vectorWidth), 0, signed64 (o.first.extent 1)⟩

def secondPattern (o : Operands) : AccessPattern :=
  .fixed ⟨-secondLeftPadding (o.first.extent 0), signed64 o.secondLimit, 0,
    signed64 (o.second.extent 1)⟩

def outputPattern : AccessPattern :=
  .horizontal 0 vectorWidth

def wholeCover (o : Operands) : Window :=
  .cover (.full o.output.shape) [vectorWidth]

def wholeWindow (o : Operands) : Window :=
  merged o.wholeCover

def wholeRows (o : Operands) : Box :=
  outputPattern.box o.wholeCover

/-- The output can have padding up to whole vectors of all its rows. -/
def TakesWholeRows (o : Operands) : Prop :=
  o.output.resizable = true ∨ o.wholeRows.IsWithin o.output.paddedPlane

instance (o : Operands) : Decidable o.TakesWholeRows :=
  inferInstanceAs (Decidable (_ ∨ _))

structure InputsSettled (o : Operands) : Prop where
  valid : o.output.valid = .full o.output.shape
  reaches : ¬ signed64 o.secondLimit < o.secondReach
  first : o.firstPattern.Settled o.wholeCover o.first
  second : o.secondPattern.Settled o.wholeCover o.second

def extendFor (o : Operands) (w : Window) : Operands :=
  ⟨o.firstPattern.extend w o.first, o.secondPattern.extend w o.second,
    outputPattern.extend w o.output⟩

def extendWhole (o : Operands) : Operands :=
  { o with output := outputPattern.extend o.wholeCover o.output }

variable {o p : Operands} {half : Bool} {v w : Window}

theorem plan_eq_ok_iff_fits :
    o.plan.1 = .ok w ↔ ¬ signed64 o.secondLimit < o.secondReach ∧
      (o.firstPattern.narrow? (.cover o.output.valid [vectorWidth]) o.first = none ∧
        o.secondPattern.narrow? (.cover o.output.valid [vectorWidth]) o.second = none ∧
        outputPattern.narrow? (.cover o.output.valid [vectorWidth]) o.output = none) ∧
      merged (.cover o.output.valid [vectorWidth]) = w := by
  rw [plan_eq_ok_iff, accesses]
  simp only [List.forall_mem_cons, List.not_mem_nil, false_implies, implies_true, and_true]
  exact Iff.rfl

theorem plan_snd_eq_extendFor (h : o.plan.1 = .ok w) :
    o.plan.2 = o.extendFor (.cover o.output.valid [vectorWidth]) :=
  plan_snd_of_ok h

theorem outputPattern_box_of_merged (same : merged v = merged w) :
    outputPattern.box v = outputPattern.box w := by
  have inner {a : Axis} (ha : a < .z) : v.span a = w.span a := by
    rw [← span_merged_inner v ha, same, span_merged_inner w ha]
  rw [outputPattern, AccessPattern.box, AccessPattern.box, inner (by decide), inner (by decide)]

theorem renewed_extendFor (o : Operands) (w : Window) : (o.extendFor w).renewed = o.renewed := by
  simp only [renewed, extendFor, AccessPattern.extend, Descriptor.renewed_extend]

theorem eq_of_renewed {α : Type} {f : Operands → α} (elements : ∀ o, f o.renewed = f o)
    (same : p.renewed = o.renewed) : f p = f o := by
  rw [← elements p, same, elements]

section Renewed

variable (same : p.renewed = o.renewed)
include same

theorem compatible_of_renewed : p.Compatible half ↔ o.Compatible half := by
  rw [← check_eq_ok_iff, ← check_eq_ok_iff,
    eq_of_renewed (f := (check · half)) (fun _ => rfl) same]

theorem compilable_of_renewed : p.Compilable ↔ o.Compilable := by
  have depth : p.first.extent 2 = o.first.extent 2 :=
    eq_of_renewed (f := (·.first.extent 2)) (fun _ => rfl) same
  have rescaling : p.rescaling? = o.rescaling? := eq_of_renewed (fun _ => rfl) same
  exact ⟨fun h => ⟨depth ▸ h.depth_ne_zero, rescaling ▸ h.readable⟩,
    fun h => ⟨depth ▸ h.depth_ne_zero, rescaling ▸ h.readable⟩⟩

end Renewed

theorem InputsSettled.plan_eq_ok_iff (h : o.InputsSettled) :
    o.plan.1 = .ok w ↔ o.TakesWholeRows ∧ o.wholeWindow = w := by
  rw [plan_eq_ok_iff_fits, and_iff_right h.reaches, h.valid, ← wholeCover,
    and_iff_right h.first.narrow, and_iff_right h.second.narrow, AccessPattern.narrow?_eq_none_iff]
  exact Iff.rfl

theorem InputsSettled.validate_eq_ok_iff (h : o.InputsSettled) (compatible : o.Compatible half) :
    o.validate half = .ok () ↔ o.TakesWholeRows := by
  simp only [Operands.validate_eq_ok_iff, and_iff_right compatible, h.plan_eq_ok_iff,
    exists_and_left, exists_eq', and_true]

theorem extendWhole_of_settled (h : outputPattern.Settled o.wholeCover o.output) :
    o.extendWhole = o := by
  rw [extendWhole, h.extend]

theorem InputsSettled.written_plan (h : o.InputsSettled) (planned : o.plan.1 = .ok w) :
    Kernel.written o.plan.2 = o.extendWhole := by
  have shape : (outputPattern.extend o.wholeCover o.output).shape = o.output.shape :=
    (Descriptor.extend_hosts _ _).shape
  have whole : (outputPattern.extend o.wholeCover o.output).valid = .full o.output.shape := by
    rw [AccessPattern.extend, Descriptor.extend]
    split <;> exact h.valid
  rw [plan_snd_eq_extendFor planned, h.valid, ← wholeCover, extendFor, h.first.extend,
    h.second.extend, Kernel.written, extendWhole, shape, ← whole]

end Operands

namespace Kernel

open Operands

variable {o p planned : Operands} {c : Configuration} {m : Marks} {half : Bool}

theorem configure_of_renewed {cache cache' : ProgramCache} (sound : cache.Sound)
    (sound' : cache'.Sound) (device : cache'.device.half = cache.device.half)
    (configured : (configure cache o).1 = .ok (⟨some c⟩, planned)) (same : p.renewed = o.renewed)
    (result : Kernel × Operands) :
    (configure cache' p).1 = .ok result ↔
      ∃ w, p.plan.1 = .ok w ∧ result = (⟨some { c with window := w }⟩, written p.plan.2) := by
  obtain ⟨compatible, compilable, -, s, w, h, hs, -, bound, made⟩ :=
    (configure_eq_ok_iff sound).1 configured
  obtain rfl : c = _ := Option.some.inj (congrArg configuration? made)
  obtain ⟨k, planned'⟩ := result
  have storage : p.first.type.storage? = o.first.type.storage? :=
    eq_of_renewed (f := (·.first.type.storage?)) (fun _ => rfl) same
  have program (s : Storage) : p.program s = o.program s :=
    eq_of_renewed (f := (program · s)) (fun _ => rfl) same
  have width : p.first.extent 0 = o.first.extent 0 :=
    eq_of_renewed (f := (·.first.extent 0)) (fun _ => rfl) same
  have options (s : Storage) : p.options s = o.options s :=
    eq_of_renewed (f := (options · s)) (fun _ => rfl) same
  have configId : p.configId = o.configId := eq_of_renewed (fun _ => rfl) same
  rw [configure_eq_ok_iff sound', device, compatible_of_renewed same, and_iff_right compatible,
    compilable_of_renewed same, and_iff_right compilable, storage, width, configId]
  simp only [program, options, Prod.mk.injEq]
  constructor
  · rintro ⟨rfl, s', w', h', hs', hw', bound', rfl⟩
    obtain rfl := Option.some.inj (hs.symm.trans hs')
    obtain rfl := Except.ok.inj (bound.symm.trans bound')
    exact ⟨w', hw', rfl, rfl⟩
  · rintro ⟨w', hw', rfl, rfl⟩
    exact ⟨rfl, s, w', h, hs, hw', bound, rfl⟩

theorem configure_of_inputsSettled {cache cache' : ProgramCache} (sound : cache.Sound)
    (sound' : cache'.Sound) (device : cache'.device.half = cache.device.half)
    (configured : (configure cache o).1 = .ok (⟨some c⟩, planned)) (same : p.renewed = o.renewed)
    (inputs : p.InputsSettled) (result : Kernel × Operands) :
    (configure cache' p).1 = .ok result ↔ p.TakesWholeRows ∧
      result = (⟨some { c with window := p.wholeWindow }⟩, p.extendWhole) := by
  refine (configure_of_renewed sound sound' device configured same result).trans ?_
  constructor
  · rintro ⟨w, hw, rfl⟩
    obtain ⟨takes, rfl⟩ := inputs.plan_eq_ok_iff.1 hw
    exact ⟨takes, by rw [inputs.written_plan hw]⟩
  · rintro ⟨takes, rfl⟩
    have hw := inputs.plan_eq_ok_iff.2 ⟨takes, rfl⟩
    exact ⟨_, hw, by rw [inputs.written_plan hw]⟩

theorem unchanged_iff
    (settled : c.window = p.wholeWindow → outputPattern.Settled p.wholeCover p.output) :
    p.TakesWholeRows ∧
        (Kernel.mk (some c), p) = (⟨some { c with window := p.wholeWindow }⟩, p.extendWhole) ↔
      c.window = p.wholeWindow := by
  constructor
  · rintro ⟨-, unchanged⟩
    have kernel := congrArg configuration? (Prod.mk.inj unchanged).1
    exact (Configuration.mk.inj (Option.some.inj kernel)).2.1
  · intro whole
    have output := settled whole
    refine ⟨(AccessPattern.narrow?_eq_none_iff ..).1 output.narrow, ?_⟩
    rw [extendWhole_of_settled output, ← whole]

theorem settled_of_configure {cache : ProgramCache} (sound : cache.Sound)
    (configured : (configure cache o).1 = .ok (⟨some c⟩, planned))
    (signed : planned.SignedCommits m) :
    let again := planned.commit m
    again.renewed = o.renewed ∧ again.InputsSettled ∧
      (c.window = again.wholeWindow → outputPattern.Settled again.wholeCover again.output) ∧
      c.window = merged (.cover o.output.valid [vectorWidth]) := by
  obtain ⟨-, -, rfl, _, w, _, -, hw, -, made⟩ := (configure_eq_ok_iff sound).1 configured
  obtain rfl : c = _ := Option.some.inj (congrArg configuration? made)
  obtain ⟨reaches, ⟨first, second, output⟩, window⟩ := plan_eq_ok_iff_fits.1 hw
  rw [plan_snd_eq_extendFor hw] at signed ⊢
  generalize Window.cover o.output.valid [vectorWidth] = v at *
  have same : ((written (o.extendFor v)).commit m).renewed = o.renewed := renewed_extendFor o v
  have firstPattern := eq_of_renewed (f := Operands.firstPattern) (fun _ => rfl) same
  have secondPattern := eq_of_renewed (f := Operands.secondPattern) (fun _ => rfl) same
  have limit := eq_of_renewed (f := secondLimit) (fun _ => rfl) same
  have reach := eq_of_renewed (f := secondReach) (fun _ => rfl) same
  refine ⟨same, ⟨rfl, ?_, ?_, ?_⟩, fun whole => ?_, window.symm⟩
  · rw [limit, reach]
    exact reaches
  · rw [firstPattern]
    exact AccessPattern.settled_fixed.1 (AccessPattern.settled_commit first signed.first)
  · rw [secondPattern]
    exact AccessPattern.settled_fixed.1 (AccessPattern.settled_commit second signed.second)
  · exact (AccessPattern.settled_congr (outputPattern_box_of_merged (window.trans whole))).1
      ((AccessPattern.settled_commit output signed.output).revalidate _)

def row (right : Nat) (valid : ValidRegion) : Operands where
  first := { Descriptor.ofShape ⟨[16], by decide⟩ .unsigned8 with padding := .horizontal 0 right }
  second := .ofShape ⟨[4], by decide⟩ .unsigned8
  output := { Descriptor.ofShape ⟨[20], by decide⟩ .unsigned8 with valid }

def firstVectors : ValidRegion :=
  ⟨Vector.replicate 6 0, ⟨[16], by decide⟩⟩

theorem row_configured (right : Nat) (valid : ValidRegion) :
    ∃ c, (configure (.after (.host false) []) (row right valid)).1 =
      .ok (⟨some c⟩, written (row right valid).plan.2) := by
  have compatible : (row right valid).Compatible false := (check_eq_ok_iff _ _).1 rfl
  have compilable : (row right valid).Compilable := by
    have depth : (row right valid).first.extent 2 = 1 := rfl
    refine ⟨by rw [depth]; decide, fun r hr => absurd hr ?_⟩
    simp [rescaling?, row, Descriptor.ofShape, ElementType.isAffine]
  have reaches : ¬ signed64 (row right valid).secondLimit < (row right valid).secondReach :=
    show ¬ signed64 (row 0 firstVectors).secondLimit < (row 0 firstVectors).secondReach by decide
  have plan := plan_eq_ok_iff_fits.2 ⟨reaches, ⟨AccessPattern.narrow?_eq_none_of_resizable _ _ rfl,
    AccessPattern.narrow?_eq_none_of_resizable _ _ rfl,
    AccessPattern.narrow?_eq_none_of_resizable _ _ rfl⟩, rfl⟩
  obtain ⟨⟨_ | c⟩, configured, window, -⟩ :=
    configure_of_plan (s := .u8) [] compatible compilable rfl plan
  · cases window
  · exact ⟨c, configured⟩

end Kernel
end TensorConcat
