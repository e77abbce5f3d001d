import TensorConcat.Proofs.Plan.Cover
import TensorConcat.Proofs.Plan.Narrowing

/-! What a plan over the whole output accepts, the window it gives and the padding it leaves. -/

namespace TensorConcat
namespace Operands

variable {o : Operands} {half : Bool}

section Needs

variable (h : o.Compatible half) (hr : o.InRange)
include h hr

theorem first_narrow?_eq_none_iff (w : Window) :
    (AccessPattern.fixed ⟨0, signed64 (ceilMultiple (o.first.extent 0) vectorWidth), 0,
        signed64 (o.first.extent 1)⟩).narrow? w o.first = none ↔ o.first.Admits o.firstNeed := by
  have hw := h.width_le
  have hv := hr.vectors
  have hx := hr.first.extent_lt 0
  rw [AccessPattern.narrow?_eq_none_iff, hr.first.paddedPlane_eq, ← vectorEnd,
    signed64_of_lt (hr.first.extent_lt 1), signed64_of_lt (by
      simp only [vectorEnd_eq, joinedWidth] at *
      omega)]
  have := le_vectorEnd (o.first.extent 0)
  simp only [AccessPattern.box, Box.IsWithin, Descriptor.Admits, firstNeed, Padding.horizontal]
  apply or_congr Iff.rfl
  omega

theorem second_narrow?_eq_none_iff (w : Window) :
    (AccessPattern.fixed ⟨-secondLeftPadding (o.first.extent 0), signed64 o.secondLimit, 0,
        signed64 (o.second.extent 1)⟩).narrow? w o.second = none ↔ o.second.Admits o.secondNeed := by
  have hw := h.width_le
  have hv := hr.vectors
  have hj := le_vectorEnd o.joinedWidth
  rw [AccessPattern.narrow?_eq_none_iff, hr.second.paddedPlane_eq,
    signed64_of_lt (hr.second.extent_lt 1), signed64_of_lt (secondLimit_lt h hr.vectors),
    secondLimit_eq h hr.vectors]
  simp only [AccessPattern.box, Box.IsWithin, Descriptor.Admits, secondNeed, Padding.horizontal,
    secondLeftPadding, joinedWidth] at *
  apply or_congr Iff.rfl
  omega

theorem first_requiredPadding (w : Window) :
    (AccessPattern.fixed ⟨0, signed64 (ceilMultiple (o.first.extent 0) vectorWidth), 0,
        signed64 (o.first.extent 1)⟩).requiredPadding w o.first = o.firstNeed := by
  have hw := h.width_le
  have hv := hr.vectors
  rw [AccessPattern.requiredPadding, ← vectorEnd, signed64_of_lt (hr.first.extent_lt 0),
    signed64_of_lt (hr.first.extent_lt 1), signed64_of_lt (by
      simp only [vectorEnd_eq, joinedWidth] at *
      omega)]
  simp only [AccessPattern.box, firstNeed, Padding.horizontal, Padding.mk.injEq]
  omega

theorem second_requiredPadding (w : Window) :
    (AccessPattern.fixed ⟨-secondLeftPadding (o.first.extent 0), signed64 o.secondLimit, 0,
        signed64 (o.second.extent 1)⟩).requiredPadding w o.second = o.secondNeed := by
  have hw := h.width_le
  have hj := le_vectorEnd o.joinedWidth
  rw [AccessPattern.requiredPadding, signed64_of_lt (hr.second.extent_lt 0),
    signed64_of_lt (hr.second.extent_lt 1), signed64_of_lt (secondLimit_lt h hr.vectors),
    secondLimit_eq h hr.vectors]
  simp only [AccessPattern.box, secondNeed, Padding.horizontal, Padding.mk.injEq,
    secondLeftPadding, joinedWidth] at *
  omega

end Needs

theorem output_narrow?_eq_none_iff (hr : o.InRange) (hv : o.output.valid = .full o.output.shape) :
    (AccessPattern.horizontal 0 vectorWidth).narrow? (.cover o.output.valid [vectorWidth]) o.output
      = none ↔ o.output.Admits o.outputNeed := by
  have hx := cover_output hr.output hr.vectors hv .x
  have hy := cover_output hr.output hr.vectors hv .y
  rw [if_pos rfl] at hx
  rw [if_neg (by decide), if_pos rfl] at hy
  have := le_vectorEnd (o.output.extent 0)
  rw [AccessPattern.narrow?_eq_none_iff, hr.output.paddedPlane_eq]
  simp only [AccessPattern.box, hx, hy, Box.IsWithin, Descriptor.Admits, outputNeed,
    Padding.horizontal, Span.between]
  apply or_congr Iff.rfl
  omega

theorem output_requiredPadding (hr : o.InRange) (hv : o.output.valid = .full o.output.shape) :
    (AccessPattern.horizontal 0 vectorWidth).requiredPadding (.cover o.output.valid [vectorWidth])
      o.output = o.outputNeed := by
  have hx := cover_output hr.output hr.vectors hv .x
  have hy := cover_output hr.output hr.vectors hv .y
  rw [if_pos rfl] at hx
  rw [if_neg (by decide), if_pos rfl] at hy
  have := le_vectorEnd (o.output.extent 0)
  rw [AccessPattern.requiredPadding, signed64_of_lt (hr.output.extent_lt 0),
    signed64_of_lt (hr.output.extent_lt 1)]
  simp only [AccessPattern.box, hx, hy, outputNeed, Padding.horizontal, Span.between,
    Padding.mk.injEq]
  omega

/-- The last vectors of inputs and output end together, and all three tensors can have the padding
they need. -/
def Plannable (o : Operands) : Prop :=
  vectorEnd (o.output.extent 0) = vectorEnd o.joinedWidth ∧ o.first.Admits o.firstNeed ∧
    o.second.Admits o.secondNeed ∧ o.output.Admits o.outputNeed

instance (o : Operands) : Decidable o.Plannable :=
  inferInstanceAs (Decidable (_ ∧ _ ∧ _ ∧ _))

def padded (o : Operands) : Operands :=
  ⟨o.first.grown o.firstNeed, o.second.grown o.secondNeed, o.output.grown o.outputNeed⟩

def narrowed (o : Operands) : Window × Bool :=
  Access.narrowAll (.cover o.output.valid [vectorWidth]) o.accesses

theorem narrowed_eq_false_iff (h : o.Compatible half) (hr : o.InRange)
    (hv : o.output.valid = .full o.output.shape) :
    o.narrowed.2 = false ↔
      o.first.Admits o.firstNeed ∧ o.second.Admits o.secondNeed ∧
        o.output.Admits o.outputNeed := by
  let w := Window.cover o.output.valid [vectorWidth]
  rw [narrowed, Access.narrowAll_unchanged_iff, ← first_narrow?_eq_none_iff h hr w,
    ← second_narrow?_eq_none_iff h hr w, ← output_narrow?_eq_none_iff hr hv]
  simp only [accesses, List.forall_mem_cons, List.not_mem_nil, false_implies, implies_true, and_true]
  exact Iff.rfl

theorem plan_fst (o : Operands) :
    o.plan.1 =
      if signed64 o.secondLimit < o.secondReach then
        .error (.reachesPastPadding (o.output.extent 0) o.secondReach o.secondLimit)
      else if o.narrowed.2 then .error .insufficientPadding else .ok (merged o.narrowed.1) := by
  unfold plan
  split
  · rfl
  · by_cases hn : o.narrowed.2 = true
    · rw [if_pos hn]
      rw [narrowed] at hn
      simp only [Access.merge, hn, if_true]
    · rw [if_neg hn]
      rw [narrowed, Bool.not_eq_true] at hn
      simp only [Access.merge, hn, Bool.false_eq_true, if_false, narrowed]

theorem plan_snd (o : Operands) :
    o.plan.2 =
      if signed64 o.secondLimit < o.secondReach then o
      else o.withDescriptors
        (o.accesses.map fun a => a.pattern.extend o.narrowed.1 a.descriptor) := by
  unfold plan
  split
  · rfl
  · by_cases hn : o.narrowed.2 = true
    · rw [narrowed] at hn
      simp only [Access.merge, hn, if_true, narrowed]
    · rw [narrowed, Bool.not_eq_true] at hn
      simp only [Access.merge, hn, Bool.false_eq_true, if_false, narrowed]

theorem plan_eq_ok_iff {w : Window} :
    o.plan.1 = .ok w ↔
      ¬ signed64 o.secondLimit < o.secondReach ∧
        (∀ a ∈ o.accesses, a.pattern.narrow? (.cover o.output.valid [vectorWidth]) a.descriptor =
          none) ∧
        merged (.cover o.output.valid [vectorWidth]) = w := by
  rw [plan_fst, narrowed]
  by_cases late : signed64 o.secondLimit < o.secondReach
  · simp [late]
  · rw [if_neg late, ← Access.narrowAll_unchanged_iff]
    cases h : (Access.narrowAll (.cover o.output.valid [vectorWidth]) o.accesses).2 with
    | true => simp
    | false =>
      have unchanged := Access.narrowAll_of_all_none ((Access.narrowAll_unchanged_iff _ _).1 h)
      simp [late, unchanged]

theorem plan_snd_of_ok {w : Window} (h : o.plan.1 = .ok w) :
    o.plan.2 = o.withDescriptors (o.accesses.map fun a =>
      a.pattern.extend (.cover o.output.valid [vectorWidth]) a.descriptor) := by
  obtain ⟨reaches, none, -⟩ := plan_eq_ok_iff.1 h
  rw [plan_snd, if_neg reaches, narrowed, Access.narrowAll_of_all_none none]

theorem plan_of_plannable (h : o.Compatible half) (hr : o.InRange)
    (hv : o.output.valid = .full o.output.shape) (hp : o.Plannable) :
    o.plan = (.ok o.plannedWindow, o.padded) := by
  have hn := (narrowed_eq_false_iff h hr hv).2 hp.2
  have hw := Access.narrowAll_of_all_none ((Access.narrowAll_unchanged_iff _ _).1 hn)
  rw [plan, if_neg ((reach_le_limit_iff h hr.vectors).2 hp.1)]
  simp only [Access.merge, hw, Bool.false_eq_true, if_false, merged_cover h hr.output hr.vectors hv]
  simp only [accesses, List.map_cons, List.map_nil, withDescriptors, AccessPattern.extend,
    first_requiredPadding h hr, second_requiredPadding h hr, output_requiredPadding hr hv,
    Descriptor.extend_eq_grown, padded]

theorem plannable_of_plan (h : o.Compatible half) (hr : o.InRange)
    (hv : o.output.valid = .full o.output.shape) {w : Window} (hp : o.plan.1 = .ok w) :
    o.Plannable := by
  rw [plan_fst] at hp
  split at hp
  · exact absurd hp (by simp)
  · next hl =>
    refine ⟨(reach_le_limit_iff h hr.vectors).1 hl, (narrowed_eq_false_iff h hr hv).1 ?_⟩
    split at hp
    · exact absurd hp (by simp)
    · next hn => exact Bool.eq_false_iff.2 hn

theorem plan_error_kind {o : Operands} {e : Error} (h : o.plan.1 = .error e) :
    e.kind = .runtime := by
  rw [plan_fst] at h
  split at h
  · cases h
    rfl
  · split at h
    · cases h
      rfl
    · cases h

theorem step_merged {w : Window} (unit : ∀ a, .z < a → (w.span a).step = 1) (a : Axis) :
    ((merged w).span a).step = (w.span a).step := by
  by_cases h : w.Collapsible w .z
  · rw [span_merged h]
    split
    next => rfl
    next notBefore =>
      split
      next => rfl
      next other =>
        have behind : .z < a := Std.lt_of_le_of_ne (Fin.not_lt.1 notBefore) (Ne.symm other)
        rw [unit a behind]
        rfl
  · rw [merged_of_not_collapsible h]

theorem plan_step {o : Operands} {w : Window} (h : o.plan.1 = .ok w) (a : Axis) :
    (w.span a).step = if a = .x then (vectorWidth : Int) else 1 := by
  obtain ⟨-, -, rfl⟩ := plan_eq_ok_iff.1 h
  rw [step_merged _ a, step_cover]
  intro b hb
  rw [step_cover, if_neg (Fin.ne_of_gt (Fin.lt_trans (by decide) hb))]

/-- A plan over the whole output succeeds exactly on plannable operands. It then covers the output
in whole vectors, and only padding has grown, by no more than is needed. -/
theorem plan_exact (o : Operands) (half : Bool) (hc : o.check half = .ok ())
    (hv : o.output.valid = .full o.output.shape) (hr : o.InRange) :
    ((∃ w, o.plan.1 = .ok w) ↔ o.Plannable) ∧
      (∀ e, o.plan.1 = .error e → e.kind = .runtime) ∧
      ∀ w, o.plan.1 = .ok w → w = o.plannedWindow ∧ o.plan.2 = o.padded := by
  have h := (check_eq_ok_iff o half).1 hc
  refine ⟨⟨fun ⟨w, hw⟩ => plannable_of_plan h hr hv hw, fun hp => ?_⟩, fun e => plan_error_kind,
    fun w hw => ?_⟩
  · exact ⟨_, congrArg Prod.fst (plan_of_plannable h hr hv hp)⟩
  · have hp := plan_of_plannable h hr hv (plannable_of_plan h hr hv hw)
    rw [hp] at hw
    exact ⟨(Except.ok.inj hw).symm, congrArg Prod.snd hp⟩

def uneven : Operands where
  first := { Descriptor.ofShape ⟨[13, 3, 2, 2], by decide⟩ .signed16 with padding := ⟨1, 0, 0, 2⟩ }
  second :=
    { Descriptor.ofShape ⟨[7, 3, 2, 2], by decide⟩ .signed16 with
      padding := ⟨0, 4, 0, 5⟩, resizable := false }
  output :=
    { Descriptor.ofShape ⟨[20, 3, 2, 2], by decide⟩ .signed16 with
      padding := ⟨0, 4, 2, 0⟩, resizable := false }

theorem uneven_inRange : uneven.InRange where
  first := ⟨by decide, by decide, by decide⟩
  second := ⟨by decide, by decide, by decide⟩
  output := ⟨by decide, by decide, by decide⟩
  vectors := by decide

theorem plan_uneven :
    uneven.check false = .ok () ∧ uneven.output.valid = .full uneven.output.shape ∧
      uneven.InRange ∧ uneven.plan.1 = .ok uneven.plannedWindow ∧
      uneven.plan.2.first.padding = ⟨1, 3, 0, 2⟩ := by
  obtain ⟨accepted, -, window⟩ := plan_exact uneven false rfl rfl uneven_inRange
  obtain ⟨w, hw⟩ := accepted.2 (by decide)
  obtain ⟨rfl, padded⟩ := window w hw
  exact ⟨rfl, rfl, uneven_inRange, hw, by rw [padded]; rfl⟩

end Operands
end TensorConcat
