import TensorConcat.Concat.Operation
import TensorConcat.Proofs.Concat.Configured

/-! Whether a check without effects foretells a configuration: it does for all operands that have a
program, and it does not see that a device refuses the others. -/

namespace TensorConcat

def Answer.Agree {α β : Type} : Except Error α → Except Error β → Prop
  | .ok _, .ok _ => True
  | .error e, .error e' => e.kind = e'.kind
  | _, _ => False

namespace Operation

def configureNamed (name : String) (c : ProgramCache) (inputs : List Descriptor)
    (output : Descriptor) : Except Error (Kernel × Operands) := do
  let op ← named name
  (op.configure c inputs output).1

/-- The inputs, if there are two, have a program with the output. -/
def HasProgram (inputs : List Descriptor) (output : Descriptor) : Prop :=
  ∀ first second, inputs = [first, second] → (Operands.mk first second output).Compilable

variable {name : String} {inputs : List Descriptor} {output : Descriptor} {half : Bool}
  {c : ProgramCache}

theorem eq_concatenateWidth (op : Operation) : op = .concatenateWidth := by
  cases op
  rfl

theorem operands_eq_ok_iff {op : Operation} {o : Operands} :
    op.operands inputs output = .ok o ↔ inputs = [o.first, o.second] ∧ o.output = output := by
  obtain ⟨first, second, out⟩ := o
  unfold operands
  split
  next => simp [and_assoc, eq_comm]
  next h => exact ⟨fun e => (nomatch e), fun e => absurd e.1 (h _ _)⟩

theorem configureNamed_of_validate_eq_error {e : Error}
    (h : validate name inputs output c.device.half = .error e) :
    configureNamed name c inputs output = .error e := by
  rw [validate] at h
  unfold configureNamed
  cases hn : named name with
  | error e' =>
    rw [hn] at h
    exact congrArg Except.error (Except.error.inj h)
  | ok op =>
    rw [hn, Answer.ok_bind] at h
    rw [Answer.ok_bind, configure]
    cases ho : op.operands inputs output with
    | error e' =>
      rw [ho] at h
      exact congrArg Except.error (Except.error.inj h)
    | ok o =>
      rw [ho, Answer.ok_bind] at h
      exact Kernel.configure_of_validate_eq_error h

theorem validate_eq_ok_iff :
    validate name inputs output half = .ok () ↔
      ∃ o : Operands, named name = .ok .concatenateWidth ∧ inputs = [o.first, o.second] ∧
        o.output = output ∧ o.validate half = .ok () := by
  simp only [validate, Answer.bind_eq_ok_iff, operands_eq_ok_iff]
  constructor
  · rintro ⟨op, hn, o, ⟨hi, ho⟩, hv⟩
    exact ⟨o, eq_concatenateWidth op ▸ hn, hi, ho, hv⟩
  · rintro ⟨o, hn, hi, ho, hv⟩
    exact ⟨_, hn, o, ⟨hi, ho⟩, hv⟩

theorem configureNamed_of_validate_eq_ok (hc : c.Sound)
    (h : validate name inputs output c.device.half = .ok ()) :
    (HasProgram inputs output → ∃ result, configureNamed name c inputs output = .ok result) ∧
      (¬ HasProgram inputs output →
        ∃ e, configureNamed name c inputs output = .error e ∧ e.kind = .device) := by
  obtain ⟨o, hn, rfl, rfl, hv⟩ := validate_eq_ok_iff.1 h
  have same : configureNamed name c [o.first, o.second] o.output = (Kernel.configure c o).1 := by
    rw [configureNamed, hn]
    rfl
  have program : HasProgram [o.first, o.second] o.output ↔ o.Compilable := by
    constructor
    · intro hp
      exact hp _ _ rfl
    · intro ho first second heq
      obtain ⟨hf, heq⟩ := List.cons.inj heq
      obtain ⟨hs, -⟩ := List.cons.inj heq
      rw [← hf, ← hs]
      exact ho
  obtain ⟨compatible, w, hw⟩ := Operands.validate_eq_ok_iff.1 hv
  obtain ⟨s, hs⟩ := compatible.storage?_eq_some
  rw [same, program, Kernel.configure_of_validate_eq_ok hc compatible hs hw]
  constructor
  · intro ho
    obtain ⟨handle, hb, -⟩ := Kernel.bindPaddings_eq_ok (.fresh Program.kernelName (o.program s))
      (o.first.extent 0)
    rw [o.compile_options _ hs ho, Answer.ok_bind, hb]
    exact ⟨_, rfl⟩
  · intro ho
    obtain ⟨e, he, kind⟩ := o.compile_options_of_not_compilable c.device hs ho
    rw [he]
    exact ⟨e, rfl, kind⟩

/-- The check agrees with a configuration on any device and cache unless it accepts operands that
have no program. What the check refuses is refused for the very same reason, and what only the
configuration refuses is a failure of the device. -/
theorem validate_agrees_iff (half : Bool) (requests : List (String × BuildOptions)) (name : String)
    (inputs : List Descriptor) (output : Descriptor) :
    (Answer.Agree (validate name inputs output half)
        (configureNamed name (.after (.host half) requests) inputs output) ↔
      (validate name inputs output half = .ok () → HasProgram inputs output)) ∧
    (∀ e, validate name inputs output half = .error e →
      configureNamed name (.after (.host half) requests) inputs output = .error e) ∧
    (validate name inputs output half = .ok () →
      Answer.FailsAs .device
        (configureNamed name (.after (.host half) requests) inputs output)) := by
  obtain ⟨sound, device⟩ := ProgramCache.after_sound (.host half) requests
  generalize ProgramCache.after (.host half) requests = c at sound device ⊢
  have hh : c.device.half = half := by rw [device, Device.host]
  rw [← hh]
  cases hv : validate name inputs output c.device.half with
  | error e =>
    have hc := configureNamed_of_validate_eq_error hv
    rw [hc]
    refine ⟨⟨fun _ h => (nomatch h), fun _ => rfl⟩, ?_, fun h => (nomatch h)⟩
    intro e' h
    rw [Except.error.inj h]
  | ok =>
    obtain ⟨accepts, refuses⟩ := configureNamed_of_validate_eq_ok sound hv
    by_cases hp : HasProgram inputs output
    · obtain ⟨result, hc⟩ := accepts hp
      rw [hc]
      exact ⟨⟨fun _ _ => hp, fun _ => trivial⟩, fun _ h => (nomatch h), fun _ _ h => (nomatch h)⟩
    · obtain ⟨e, hc, kind⟩ := refuses hp
      rw [hc]
      refine ⟨⟨fun h => h.elim, fun h => absurd (h rfl) hp⟩, fun _ h => (nomatch h), ?_⟩
      intro _ e' h
      rw [← Except.error.inj h, kind]

def unstacked (width : UInt64) : Descriptor :=
  .ofShape ⟨[width, 1, 0], Nat.le_of_ble_eq_true rfl⟩ .single

def scaled (width : UInt64) (bits : UInt32) : Descriptor :=
  { Descriptor.ofShape ⟨[width], Nat.le_of_ble_eq_true rfl⟩ .affine8 with
    quantization? := some ⟨⟨bits⟩, 0⟩ }

theorem validate_refused_by_device :
    (validate "concatenate_width_x2" [unstacked 8, unstacked 8] (unstacked 16) true = .ok () ∧
      ∃ e, configureNamed "concatenate_width_x2" (.after (.host true) [])
        [unstacked 8, unstacked 8] (unstacked 16) = .error e ∧ e.kind = .device) ∧
    (validate "concatenate_width_x2" [scaled 8 0x7F800000, scaled 8 0x3F800000]
        (scaled 16 0x3F800000) true = .ok () ∧
      ∃ e, configureNamed "concatenate_width_x2" (.after (.host true) [])
        [scaled 8 0x7F800000, scaled 8 0x3F800000] (scaled 16 0x3F800000) = .error e ∧
          e.kind = .device) := by
  obtain ⟨sound, -⟩ := ProgramCache.after_sound (.host true) []
  refine ⟨⟨rfl, (configureNamed_of_validate_eq_ok sound rfl).2 fun h => ?_⟩,
    rfl, (configureNamed_of_validate_eq_ok sound rfl).2 fun h => ?_⟩
  · exact (h _ _ rfl).depth_ne_zero rfl
  · exact absurd ((h _ _ rfl).readable _ rfl).1 (by decide)

end Operation
end TensorConcat
