import TensorConcat.Proofs.Concat.Agreement
import TensorConcat.Proofs.Launch.Confinement
import TensorConcat.Proofs.Plan.Exact

/-! What becomes of a configuration. It fails with an error of one of three kinds, and no program is
kept; or it leaves a handle with the program of its operands and both paddings. -/

namespace TensorConcat

/-- The handle runs the program for the operands, and has the paddings in its last two slots. -/
structure Handle.Serves (h : Handle) (o : Operands) : Prop where
  program : ∃ s, o.first.type.storage? = some s ∧ h.program = o.program s
  right : h.argument? Frame.paddingSlot =
    some (.word (.ofNat (firstRightPadding (o.first.extent 0))))
  left : h.argument? (Frame.paddingSlot + 1) =
    some (.word (.ofNat (secondLeftPadding (o.first.extent 0))))

theorem Handle.Serves.of_keepsFrom {h h' : Handle} {o : Operands} (serves : h.Serves o)
    (kept : h'.KeepsFrom h Frame.paddingSlot) : h'.Serves o where
  program := by
    obtain ⟨s, hs, program⟩ := serves.program
    exact ⟨s, hs, kept.program.trans program⟩
  right := (kept.slots _ (Nat.le_refl _)).trans serves.right
  left := (kept.slots _ (Nat.le_succ _)).trans serves.left

structure Configuration.Of (c : Configuration) (o : Operands) : Prop where
  window : o.plan.1 = .ok c.window
  options : o.buildOptions = .ok c.options
  configId : c.configId = o.configId
  handle : c.handle.Serves o

theorem ProgramCache.request_failsAs (c : ProgramCache) (b : BuildOptions) :
    Answer.FailsAs .device (c.request Program.kernelName b).1 := by
  intro e he
  rw [request_eq] at he
  split at he
  next => cases he
  next =>
    split at he
    next => cases he
    next refused =>
      obtain rfl := Except.error.inj he
      rw [Device.compile, if_pos rfl] at refused
      cases compiled : Program.ofOptions b with
      | ok p => rw [compiled] at refused; cases refused
      | error e' =>
        rw [compiled] at refused
        obtain rfl := Except.error.inj refused
        exact Program.ofOptions_failsAs b _ compiled

theorem ProgramCache.size_request_of_error {c : ProgramCache} {name : String} {b : BuildOptions}
    {e : Error} (h : (c.request name b).1 = .error e) : (c.request name b).2.size = c.size := by
  rw [request_eq] at h ⊢
  split at h
  next => cases h
  next =>
    split at h
    next => cases h
    next => rfl

namespace Operands

theorem ensure_failsAs (condition : Bool) (e : Error) :
    Answer.FailsAs e.kind (ensure condition e) := by
  unfold ensure
  split
  · exact Answer.failsAs_ok _ _
  · exact Answer.failsAs_error _

theorem check_failsAs (o : Operands) (half : Bool) :
    Answer.FailsAs .invalidArgument (o.check half) := by
  have ensured {e : Error} (condition : Bool) (kind : e.kind = .invalidArgument) :
      Answer.FailsAs .invalidArgument (ensure condition e) := kind ▸ ensure_failsAs condition e
  have extents (axis : Nat) : Answer.FailsAs .invalidArgument (o.checkExtent axis) :=
    (ensured _ rfl).bind fun _ => ensured _ rfl
  have all (axes : List Nat) : Answer.FailsAs .invalidArgument (axes.forM o.checkExtent) := by
    induction axes with
    | nil => exact Answer.failsAs_ok _ _
    | cons axis rest ih =>
      rw [List.forM]
      exact (extents axis).bind fun _ => ih
  exact (ensured _ rfl).bind fun _ => (ensured _ rfl).bind fun _ => (ensured _ rfl).bind fun _ =>
    (ensured _ rfl).bind fun _ => (all _).bind fun _ => ensured _ rfl

theorem buildOptions_failsAs (o : Operands) : Answer.FailsAs .invalidArgument o.buildOptions := by
  unfold buildOptions
  split
  · exact Answer.failsAs_error _
  · exact Answer.failsAs_ok _ _

end Operands

namespace Kernel

variable {c : ProgramCache} {o : Operands}

theorem configure_sound (hc : c.Sound) : (configure c o).2.Sound := by
  simp only [configure]
  split
  · exact hc
  · exact hc.request_snd _ _

theorem configure_eq_error {e : Error} (failed : (configure c o).1 = .error e) :
    e.kind ∈ [.invalidArgument, .runtime, .device] ∧ (configure c o).2.size = c.size := by
  cases checked : o.check c.device.half with
  | error e' =>
    have refused : configure c o = (.error e', c) := by
      simp only [configure, checked, Answer.error_bind]
    rw [refused] at failed ⊢
    obtain rfl := Except.error.inj failed
    exact ⟨by simp [Operands.check_failsAs o _ e' checked], rfl⟩
  | ok =>
    cases defined : o.buildOptions with
    | error e' =>
      have refused : configure c o = (.error e', c) := by
        simp only [configure, checked, defined, Answer.ok_bind, Answer.error_bind]
      rw [refused] at failed ⊢
      obtain rfl := Except.error.inj failed
      exact ⟨by simp [o.buildOptions_failsAs e' defined], rfl⟩
    | ok options =>
      cases planned : o.plan.1 with
      | error e' =>
        have refused : configure c o = (.error e', c) := by
          simp only [configure, checked, defined, planned, Answer.ok_bind, Answer.error_bind]
        rw [refused] at failed ⊢
        obtain rfl := Except.error.inj failed
        exact ⟨by simp [Operands.plan_error_kind planned], rfl⟩
      | ok w =>
        simp only [configure, checked, defined, planned, Answer.ok_bind, pure, Except.pure]
          at failed ⊢
        cases compiled : (c.request Program.kernelName options).1 with
        | error e' =>
          rw [compiled] at failed
          obtain rfl := Except.error.inj failed
          exact ⟨by simp [c.request_failsAs options e' compiled],
            ProgramCache.size_request_of_error compiled⟩
        | ok h =>
          -- The slots of the paddings are there, so that nothing fails after the compilation.
          obtain ⟨h', hb, -⟩ := bindPaddings_eq_ok h (o.first.extent 0)
          rw [compiled, Answer.ok_bind, hb] at failed
          cases failed

end Kernel

namespace Operation

inductive ConfigureOutcome (cache : ProgramCache) (inputs : List Descriptor) (output : Descriptor) :
    Except Error (Kernel × Operands) × ProgramCache → Prop
  | failed {e : Error} {cache' : ProgramCache}
      (kind : e.kind ∈ [ErrorKind.invalidArgument, .runtime, .device])
      (size : cache'.size = cache.size) : ConfigureOutcome cache inputs output (.error e, cache')
  | configured {o : Operands} {c : Configuration} {cache' : ProgramCache}
      (inputs_eq : inputs = [o.first, o.second]) (output_eq : o.output = output) (of : c.Of o)
      (hint : c.hint? = none) :
      ConfigureOutcome cache inputs output (.ok (⟨some c⟩, Kernel.written o.plan.2), cache')

variable {cache : ProgramCache}

theorem configure_outcome (hc : cache.Sound) (op : Operation) (inputs : List Descriptor)
    (output : Descriptor) :
    ConfigureOutcome cache inputs output (op.configure cache inputs output) := by
  rw [configure]
  cases operands : op.operands inputs output with
  | error e =>
    refine .failed ?_ rfl
    unfold Operation.operands at operands
    split at operands
    · cases operands
    · obtain rfl := Except.error.inj operands
      simp [Error.kind]
  | ok o =>
    obtain ⟨inputs_eq, output_eq⟩ := operands_eq_ok_iff.1 operands
    show ConfigureOutcome cache inputs output (Kernel.configure cache o)
    rcases outcome : Kernel.configure cache o with ⟨_ | ⟨k, planned⟩, cache'⟩
    · obtain ⟨kind, size⟩ := Kernel.configure_eq_error (congrArg Prod.fst outcome)
      rw [outcome] at size
      exact .failed kind size
    · obtain ⟨compatible, -, rfl, s, w, h, hs, hw, bound, rfl⟩ :=
        (Kernel.configure_eq_ok_iff hc).1 (congrArg Prod.fst outcome)
      obtain ⟨h', bound', program, right, left⟩ :=
        Kernel.bindPaddings_eq_ok (.fresh Program.kernelName (o.program s)) (o.first.extent 0)
      obtain rfl := Except.ok.inj (bound.symm.trans bound')
      exact .configured inputs_eq output_eq
        ⟨hw, Operands.buildOptions_eq hs, rfl, ⟨s, hs, program⟩, right, left⟩ rfl

theorem configure_sound (hc : cache.Sound) (op : Operation) (inputs : List Descriptor)
    (output : Descriptor) : (op.configure cache inputs output).2.Sound := by
  unfold configure
  split
  · exact Kernel.configure_sound hc
  · exact hc

end Operation
end TensorConcat
