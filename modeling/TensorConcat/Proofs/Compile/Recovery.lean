import TensorConcat.Proofs.Compile.Compilation
import TensorConcat.Proofs.Numeric.Arithmetic
import TensorConcat.Proofs.Plan.Compatible

/-! What a device makes of the options of a concatenation. It refuses them if there is no plane or if
a scale that takes part in a rescaling is infinite; from all others it recovers the sizes, and the
parameters of the rescaling up to what single precision holds. -/

namespace TensorConcat

def Quantization.Differ : Option Quantization → Option Quantization → Prop
  | none, none => False
  | some p, some q =>
    p.scale.isNaN = true ∨ q.scale.isNaN = true ∨
      (p.scale ≠ q.scale ∧ ¬ (p.scale.pattern = 0 ∧ q.scale.pattern = 0)) ∨ p.offset ≠ q.offset
  | _, _ => True

/-- The parameters of a program are those of a quantization. The scale has all its bits, unless it is
no number, and the offset is rounded from an integer of 32 bits. -/
structure Affine.Recovers (a : Affine) (q : Quantization) : Prop where
  scale : q.scale.isNaN = false → a.scale = q.scale
  nonNumber : q.scale.isNaN = true → a.scale.isNaN = true
  offset : -0x80000000 ≤ q.offset → q.offset < 0x80000000 → a.offset.IsNearest q.offset

theorem Binary32.equals_eq_false_iff {x y : Binary32} :
    x.equals y = false ↔
      x.isNaN = true ∨ y.isNaN = true ∨ (x ≠ y ∧ ¬ (x.pattern = 0 ∧ y.pattern = 0)) := by
  have same : x = y ↔ x.bits = y.bits := ⟨congrArg bits, fun h => by cases x; cases y; cases h; rfl⟩
  rw [equals, ne_eq, same]
  cases x.isNaN <;> cases y.isNaN <;> simp

theorem Quantization.agrees_eq_false_iff {p q : Option Quantization} :
    agrees p q = false ↔ Differ p q := by
  cases p <;> cases q <;>
    simp only [agrees, Differ, Bool.and_eq_false_iff, Binary32.equals_eq_false_iff, beq_eq_false_iff_ne,
      or_assoc, Bool.true_eq_false]

theorem BuildOptions.affineOf_recovers (q : Quantization) : (affineOf q).Recovers q where
  scale h := by rw [affineOf, Binary32.canonical, h, if_neg Bool.false_ne_true]
  nonNumber h := by
    rw [affineOf, Binary32.canonical, h, if_pos rfl]
    exact (by decide : Binary32.nan.isNaN = true)
  offset low high := Binary32.ofInt_isNearest low high

namespace Operands

/-- Values have to be rescaled: they are affine, and an input is not quantized as the output is. -/
def Rescales (o : Operands) : Prop :=
  o.first.type.isAffine = true ∧
    ∃ input ∈ [o.first, o.second], Quantization.Differ input.quantization? o.output.quantization?

theorem rescaling?_isSome_iff (o : Operands) : o.rescaling?.isSome = true ↔ o.Rescales := by
  rw [rescaling?, Option.isSome_ite, Bool.and_eq_true, Rescales, Descriptor.differsFrom,
    List.any_eq_true]
  simp only [Bool.not_eq_true', Quantization.agrees_eq_false_iff]

theorem eq_of_rescaling? {o : Operands} {r : Rescaling} (h : o.rescaling? = some r) :
    r = ⟨o.first.quantization, o.second.quantization, o.output.quantization⟩ := by
  rw [rescaling?] at h
  split at h
  · exact (Option.some.inj h).symm
  · cases h

theorem compilable_iff (o : Operands) :
    o.Compilable ↔ ¬ (o.first.extent 2 = 0 ∨
      o.Rescales ∧ ∃ d ∈ [o.first, o.second, o.output], d.quantization.scale.isInfinite = true) := by
  rw [not_or, not_and, ← rescaling?_isSome_iff]
  constructor
  · rintro ⟨depth, readable⟩
    refine ⟨depth, fun rescales => ?_⟩
    obtain ⟨r, hr⟩ := Option.isSome_iff_exists.1 rescales
    have read := readable r hr
    rw [eq_of_rescaling? hr, Rescaling.Readable] at read
    simp [read]
  · rintro ⟨depth, finite⟩
    refine ⟨depth, fun r hr => ?_⟩
    have read := finite (Option.isSome_iff_exists.2 ⟨r, hr⟩)
    rw [eq_of_rescaling? hr, Rescaling.Readable]
    simpa using read

theorem ofOptions_eq_error_iff {o : Operands} {s : Storage} (h : o.first.type.storage? = some s) :
    (∃ e, Program.ofOptions (o.options s) = .error e) ↔ ¬ o.Compilable := by
  constructor
  · rintro ⟨e, refused⟩ compilable
    rw [(ofOptions_eq_ok_iff h).2 ⟨compilable, rfl⟩] at refused
    cases refused
  · intro uncompilable
    cases compiled : Program.ofOptions (o.options s) with
    | error e => exact ⟨e, rfl⟩
    | ok p => exact absurd ((ofOptions_eq_ok_iff h).1 compiled).1 uncompilable

theorem program_recovers {o : Operands} {s : Storage} {r : Requantization}
    (h : (o.program s).requantization? = some r) :
    r.first.Recovers o.first.quantization ∧ r.second.Recovers o.second.quantization ∧
      r.output.Recovers o.output.quantization := by
  obtain ⟨parameters, hr, rfl⟩ := Option.map_eq_some_iff.1 h
  rw [eq_of_rescaling? hr]
  exact ⟨BuildOptions.affineOf_recovers _, BuildOptions.affineOf_recovers _,
    BuildOptions.affineOf_recovers _⟩

/-- Compatible operands have options. A device refuses them exactly if there is no plane, or if a
rescaling has an infinite scale; and what it makes of all others is the program of the operands. -/
theorem program_of_options {o : Operands} {half : Bool} (compatible : o.check half = .ok ()) :
    ∃ b s, o.buildOptions = .ok b ∧ o.first.type.storage? = some s ∧
      ((∃ e, Program.ofOptions b = .error e) ↔ o.first.extent 2 = 0 ∨
        o.Rescales ∧ ∃ d ∈ [o.first, o.second, o.output], d.quantization.scale.isInfinite = true) ∧
      ∀ p, Program.ofOptions b = .ok p →
        p.storage = s ∧ p.elementSize = s.size ∧ p.elementSize = o.first.elementSize ∧
          p.vectorSize = 8 ∧ p.depth = o.first.extent 2 ∧ p.firstWidth = o.first.extent 0 ∧
          (p.requantization?.isSome = true ↔ o.Rescales) ∧
          ∀ r, p.requantization? = some r →
            r.first.Recovers o.first.quantization ∧ r.second.Recovers o.second.quantization ∧
              r.output.Recovers o.output.quantization := by
  have known := ((check_eq_ok_iff o half).1 compatible).known
  obtain ⟨s, hs⟩ := ElementType.storage?_of_ne_unknown known
  refine ⟨o.options s, s, buildOptions_eq hs, hs, ?_, ?_⟩
  · rw [ofOptions_eq_error_iff hs, compilable_iff, Classical.not_not]
  · intro p compiled
    obtain ⟨-, rfl⟩ := (ofOptions_eq_ok_iff hs).1 compiled
    refine ⟨rfl, rfl, (ElementType.size_of_storage? hs).symm, rfl, rfl, rfl, ?_,
      fun r => program_recovers⟩
    rw [program, Option.isSome_map, rescaling?_isSome_iff]

def mixedScales : Operands :=
  let row (width : UInt64) (bits : UInt32) (offset : Int) : Descriptor :=
    { Descriptor.ofShape ⟨[width, 2], Nat.le_of_ble_eq_true rfl⟩ .affine8 with
      quantization? := some ⟨⟨bits⟩, offset⟩ }
  ⟨row 3 0x3F000000 16777217, row 5 0x3E800000 (-7), row 8 0x3F800000 0⟩

theorem program_of_mixedScales :
    mixedScales.check false = .ok () ∧
      ∃ b p r, mixedScales.buildOptions = .ok b ∧ Program.ofOptions b = .ok p ∧
        p.firstWidth = 3 ∧ p.requantization? = some r ∧ r.first.scale = ⟨0x3F000000⟩ ∧
          r.first.offset.IsNearest 16777217 := by
  obtain ⟨b, s, options, -, refused, recovered⟩ :=
    program_of_options (rfl : mixedScales.check false = .ok ())
  refine ⟨rfl, b, ?_⟩
  cases compiled : Program.ofOptions b with
  | error e =>
    have finite : ∀ d ∈ [mixedScales.first, mixedScales.second, mixedScales.output],
        d.quantization.scale.isInfinite = false := by decide
    obtain depth | ⟨-, d, hd, infinite⟩ := refused.1 ⟨e, compiled⟩
    · exact absurd depth (by decide)
    · rw [finite d hd] at infinite
      cases infinite
  | ok p =>
    obtain ⟨-, -, -, -, -, width, rescales, parameters⟩ := recovered p compiled
    obtain ⟨r, hr⟩ := Option.isSome_iff_exists.1 (rescales.2 ((rescaling?_isSome_iff _).1 rfl))
    have first := (parameters r hr).1
    exact ⟨p, r, options, rfl, width, hr, first.scale (by decide), first.offset (by decide) (by decide)⟩

end Operands
end TensorConcat
