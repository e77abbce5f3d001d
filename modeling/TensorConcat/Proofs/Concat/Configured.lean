import TensorConcat.Concat.Kernel
import TensorConcat.Proofs.Compile.Compilation
import TensorConcat.Proofs.Launch.Slots
import TensorConcat.Proofs.Plan.Compatible

/-! What a configuration leaves, and when there is one. -/

namespace TensorConcat

namespace Kernel

theorem bindPaddings_eq_ok (h : Handle) (width : Nat) :
    ∃ h', bindPaddings h width = .ok h' ∧ h'.program = h.program ∧
      h'.argument? Frame.paddingSlot = some (.word (.ofNat (firstRightPadding width))) ∧
      h'.argument? (Frame.paddingSlot + 1) = some (.word (.ofNat (secondLeftPadding width))) := by
  have right := Handle.bind_of_lt (h := h) (show Frame.paddingSlot < 32 by decide)
    (.word (.ofNat (firstRightPadding width)))
  obtain ⟨h1, h2⟩ := Handle.bind_eq_ok right
  generalize Handle.mk _ _ _ = g at right h1 h2
  have left := Handle.bind_of_lt (h := g) (show Frame.paddingSlot + 1 < 32 by decide)
    (.word (.ofNat (secondLeftPadding width)))
  obtain ⟨h3, h4⟩ := Handle.bind_eq_ok left
  refine ⟨_, ?_, h3.trans h1, ?_, ?_⟩
  · rw [bindPaddings, right, Answer.ok_bind, left]
  · rw [h4, if_neg (by decide), h2, if_pos rfl]
  · rw [h4, if_pos rfl]

end Kernel

namespace Operands

variable {o : Operands} {half : Bool} {s : Storage}

theorem validate_eq_ok_iff :
    o.validate half = .ok () ↔ o.Compatible half ∧ ∃ w, o.plan.1 = .ok w := by
  rw [validate, Answer.then_eq_ok_iff, check_eq_ok_iff]
  cases o.plan.1 with
  | error e => simp [Functor.map, Except.map]
  | ok w => simp [Functor.map, Except.map]

theorem Compatible.storage?_eq_some (h : o.Compatible half) :
    ∃ s, o.first.type.storage? = some s :=
  ElementType.storage?_of_ne_unknown h.known

theorem compile_options (d : Device) (h : o.first.type.storage? = some s) (ho : o.Compilable) :
    d.compile Program.kernelName (o.options s) = .ok (.fresh Program.kernelName (o.program s)) := by
  rw [Device.compile, if_pos rfl, (ofOptions_eq_ok_iff h).2 ⟨ho, rfl⟩]
  rfl

theorem compile_options_of_not_compilable (d : Device) (h : o.first.type.storage? = some s)
    (ho : ¬ o.Compilable) :
    ∃ e, d.compile Program.kernelName (o.options s) = .error e ∧ e.kind = .device := by
  rw [Device.compile, if_pos rfl]
  cases hp : Program.ofOptions (o.options s) with
  | ok p => exact absurd ((ofOptions_eq_ok_iff h).1 hp).1 ho
  | error e => exact ⟨e, rfl, Program.ofOptions_failsAs _ e hp⟩

end Operands

namespace Kernel

variable {o planned : Operands} {c : ProgramCache} {s : Storage} {k : Kernel} {w : Window}

theorem configure_of_validate_eq_error {e : Error} (h : o.validate c.device.half = .error e) :
    (configure c o).1 = .error e := by
  rw [configure]
  rw [Operands.validate] at h
  cases hc : o.check c.device.half with
  -- The configuration makes the same checks, with the build options between them. Those do not fail.
  | error e' =>
    rw [hc] at h
    simp only [Answer.error_bind] at h ⊢
    rw [Except.error.inj h]
  | ok =>
    have compatible := (Operands.check_eq_ok_iff ..).1 hc
    obtain ⟨s, hs⟩ := compatible.storage?_eq_some
    cases hp : o.plan.1 with
    | ok w => rw [hc, hp] at h; exact nomatch h
    | error e' =>
      rw [hc, hp] at h
      simp only [Operands.buildOptions_eq hs, Answer.ok_bind, Answer.error_bind] at h ⊢
      rw [Except.error.inj h]

theorem configure_of_validate_eq_ok (hc : c.Sound) (h : o.Compatible c.device.half)
    (hs : o.first.type.storage? = some s) (hw : o.plan.1 = .ok w) :
    (configure c o).1 = do
      let handle ← c.device.compile Program.kernelName (o.options s)
      let handle ← bindPaddings handle (o.first.extent 0)
      return (⟨some ⟨handle, w, o.options s, o.configId, none⟩⟩, written o.plan.2) := by
  have compiled := hc.request_fst Program.kernelName (o.options s)
  rw [configure, (Operands.check_eq_ok_iff ..).2 h, Operands.buildOptions_eq hs, hw]
  simp only [Answer.ok_bind, pure, Except.pure, compiled]

theorem configure_eq_ok_iff (hc : c.Sound) :
    (configure c o).1 = .ok (k, planned) ↔
      o.Compatible c.device.half ∧ o.Compilable ∧ planned = written o.plan.2 ∧
        ∃ s w h, o.first.type.storage? = some s ∧ o.plan.1 = .ok w ∧
          bindPaddings (.fresh Program.kernelName (o.program s)) (o.first.extent 0) = .ok h ∧
          k = ⟨some ⟨h, w, o.options s, o.configId, none⟩⟩ := by
  cases hv : o.validate c.device.half with
  | error e =>
    rw [configure_of_validate_eq_error hv]
    refine ⟨fun h => (nomatch h), ?_⟩
    rintro ⟨compatible, -, -, s, w, h, -, hw, -⟩
    rw [Operands.validate_eq_ok_iff.2 ⟨compatible, w, hw⟩] at hv
    exact nomatch hv
  | ok =>
    obtain ⟨compatible, w, hw⟩ := Operands.validate_eq_ok_iff.1 hv
    obtain ⟨s, hs⟩ := compatible.storage?_eq_some
    rw [configure_of_validate_eq_ok hc compatible hs hw]
    by_cases ho : o.Compilable
    · rw [o.compile_options _ hs ho]
      obtain ⟨h, hb, -⟩ := bindPaddings_eq_ok (.fresh Program.kernelName (o.program s))
        (o.first.extent 0)
      simp only [Answer.ok_bind, hb, pure, Except.pure, Except.ok.injEq, Prod.mk.injEq]
      constructor
      · rintro ⟨rfl, rfl⟩
        exact ⟨compatible, ho, rfl, s, w, h, hs, hw, hb, rfl⟩
      · rintro ⟨-, -, rfl, s', w', h', hs', hw', hb', rfl⟩
        obtain rfl := Option.some.inj (hs.symm.trans hs')
        obtain rfl := Except.ok.inj (hw.symm.trans hw')
        obtain rfl := Except.ok.inj (hb.symm.trans hb')
        exact ⟨rfl, rfl⟩
    · obtain ⟨e, he, -⟩ := o.compile_options_of_not_compilable c.device hs ho
      rw [he]
      refine ⟨fun h => (nomatch h), fun h => absurd h.2.1 ho⟩

end Kernel
end TensorConcat
