import TensorConcat.Proofs.Compile.Recovery
import TensorConcat.Proofs.Concat.Elements
import TensorConcat.Proofs.Memory.Values
import TensorConcat.Proofs.Numeric.Determinacy

/-! What becomes of an element of an input in the output. If values are rescaled, this is the value that
the formula of the rescaling gives in single precision, rounded and saturated; otherwise it is a copy. -/

namespace TensorConcat

/-- The value `q` in the parameters of the output: `(q - offset) * scale / scale' + offset'`, with every
operation in single precision. -/
def Quantization.IsRescaled (input output : Quantization) (q : Int) (x : Binary32) : Prop :=
  ∃ offset offset' value distance real quotient : Binary32,
    offset.Rounds input.offset ∧ offset'.Rounds output.offset ∧ value.Rounds q ∧
      Binary32.IsDifference value offset distance ∧ Binary32.IsProduct distance input.scale real ∧
        Binary32.IsQuotient real output.scale quotient ∧ Binary32.IsSum quotient offset' x

/-- Rounded half to even, and of the values that the storage holds the nearest one to that. -/
structure Storage.Saturates (s : Storage) (x : Binary32) (value : Int) : Prop where
  holds : s.Holds value
  undefined : x.isNaN = true → value = 0
  nearest : x.isNaN = false → ∃ n, Binary32.IsNearestInteger x.value n ∧
    ∀ other, s.Holds other → (value - n).natAbs ≤ (other - n).natAbs

structure Operands.Conveys (o : Operands) (s : Storage) (input : Descriptor) (bytes bytes' : List UInt8) :
    Prop where
  copied : ¬ o.Rescales → bytes' = bytes
  rescaled : o.Rescales → ∃ x value, input.quantization.IsRescaled o.output.quantization (s.decode bytes) x ∧
    s.Saturates x value ∧ bytes' = s.encode value

namespace Binary32

variable {x y z : Binary32}

theorem ne_of_isNaN (h : z.isNaN = true) : z.isNaN ≠ false := by
  rw [h]
  decide

theorem IsProduct.of_isNaN (hy : y.isNaN = true) (hz : z.isNaN = true) : IsProduct x y z where
  undefined := by simp [hy, hz]
  sign number := absurd number (ne_of_isNaN hz)
  infinite number := absurd number (ne_of_isNaN hz)
  finite _ fy := absurd ((isFinite_iff y).1 fy).1 (ne_of_isNaN hy)

theorem IsQuotient.of_isNaN (hy : y.isNaN = true) (hz : z.isNaN = true) : IsQuotient x y z where
  undefined := by simp [hy, hz]
  sign number := absurd number (ne_of_isNaN hz)
  infinite number := absurd number (ne_of_isNaN hz)
  vanishing _ iy := absurd (number_of_isInfinite iy).1 (ne_of_isNaN hy)
  finite _ fy := absurd ((isFinite_iff y).1 fy).1 (ne_of_isNaN hy)

theorem IsProduct.of_canonical (h : IsProduct x y.canonical z) : IsProduct x y z := by
  unfold canonical at h
  split at h
  next nan => exact .of_isNaN nan (h.undefined.2 (.inr (.inl isNaN_nan)))
  next => exact h

theorem IsQuotient.of_canonical (h : IsQuotient x y.canonical z) : IsQuotient x y z := by
  unfold canonical at h
  split at h
  next nan => exact .of_isNaN nan (h.undefined.2 (.inr (.inl isNaN_nan)))
  next => exact h

theorem toSigned64_eq_clamp {x : Binary32} (h : x.isNaN = false) :
    ∃ n, IsNearestInteger x.value n ∧ x.toSigned64 = clampSigned64 n := by
  have nearest := nearestQuotient_isNearestInteger (format.units x.pattern)
    (by decide : 0 < format.one) x.negative
  rw [← value_eq_signed] at nearest
  exact ⟨_, nearest, by rw [toSigned64, h, if_neg Bool.false_ne_true]⟩

theorem IsNearestInteger.unique {value : ℚ} {m n : Int} (hm : IsNearestInteger value m)
    (hn : IsNearestInteger value n) : m = n := by
  have le {m n : Int} (hm : IsNearestInteger value m) (hn : IsNearestInteger value n) : m ≤ n := by
    by_contra lt
    obtain ⟨low, high⟩ := abs_le.1 hm.near
    obtain ⟨low', high'⟩ := abs_le.1 hn.near
    have apart : m = n + 1 := by
      have : (m : ℚ) ≤ n + 1 := by linarith
      have : m ≤ n + 1 := by exact_mod_cast this
      omega
    -- The value is half-way between the two, and one of them is odd.
    have half : value - n = 1 / 2 := by
      rw [apart] at low
      push_cast at low
      linarith
    have evenN := hn.even (by rw [half, abs_of_pos one_half_pos])
    have evenM := hm.even (by
      rw [apart, Int.cast_add, Int.cast_one, ← sub_sub, half, abs_sub_comm, abs_of_pos] <;> norm_num)
    omega
  exact le_antisymm (le hm hn) (le hn hm)

end Binary32

namespace Storage

variable {s : Storage} {range : Int × Int} {x x' : Binary32} {v v' : Int}

theorem holds_iff (h : s.range? = some range) (value : Int) :
    s.Holds value ↔ range.1 ≤ value ∧ value ≤ range.2 := by
  cases s <;> cases h <;> simp [Holds, isSigned, modulus, size] <;> omega

theorem range_bounds (h : s.range? = some range) :
    -0x8000000000000000 ≤ range.1 ∧ range.1 ≤ 0 ∧ 0 ≤ range.2 ∧ range.2 < 0x8000000000000000 := by
  cases s <;> cases h <;> decide

theorem saturates_clamp (h : s.range? = some range) (x : Binary32) :
    s.Saturates x (max range.1 (min range.2 x.toSigned64)) := by
  have bounds := range_bounds h
  refine ⟨(holds_iff h _).2 (by omega), fun nan => ?_, fun number => ?_⟩
  · rw [Binary32.toSigned64, nan, if_pos rfl]
    omega
  · obtain ⟨n, nearest, clamped⟩ := Binary32.toSigned64_eq_clamp number
    refine ⟨n, nearest, fun other held => ?_⟩
    obtain ⟨low, high⟩ := (holds_iff h other).1 held
    rw [clamped, clampSigned64]
    omega

theorem Saturates.unique (h : s.range? = some range) (hv : s.Saturates x v) (hv' : s.Saturates x' v')
    (alike : x.Alike x') : v = v' := by
  cases nan : x.isNaN with
  | true => rw [hv.undefined nan, hv'.undefined (alike.isNaN ▸ nan)]
  | false =>
    obtain ⟨n, nearest, closest⟩ := hv.nearest nan
    obtain ⟨n', nearest', closest'⟩ := hv'.nearest (alike.isNaN ▸ nan)
    rw [← alike.value nan] at nearest'
    obtain rfl := nearest.unique nearest'
    have low := closest _ hv'.holds
    have high := closest' _ hv.holds
    have held := (holds_iff h v).1 hv.holds
    have held' := (holds_iff h v').1 hv'.holds
    -- Two values on both sides of the integer leave it between them, where the storage holds it.
    by_cases inside : range.1 ≤ n ∧ n ≤ range.2
    · have := closest n ((holds_iff h n).2 inside)
      omega
    · omega

end Storage

namespace Quantization

theorem isRescaled (input output : Quantization) (q : Int) :
    input.IsRescaled output q ((Binary32.ofInt q - .ofInt input.offset) * input.scale.canonical /
      output.scale.canonical + .ofInt output.offset) :=
  ⟨_, _, _, _, _, _, Binary32.ofInt_rounds _, Binary32.ofInt_rounds _, Binary32.ofInt_rounds _,
    Binary32.sub_isDifference _ _, (Binary32.mul_isProduct _ _).of_canonical,
    (Binary32.div_isQuotient _ _).of_canonical, Binary32.add_isSum _ _⟩

theorem IsRescaled.alike {input output : Quantization} {q : Int} {x x' : Binary32}
    (h : input.IsRescaled output q x) (h' : input.IsRescaled output q x') : x.Alike x' := by
  obtain ⟨_, _, _, _, _, _, offset, offset', value, difference, product, quotient, sum⟩ := h
  obtain ⟨_, _, _, _, _, _, toOffset, toOffset', value', difference', product', quotient', sum'⟩ := h'
  have distance := difference.alike difference' (value.alike value') (offset.alike toOffset)
  have real := product.alike product' distance
  exact sum.alike sum' (quotient.alike quotient' real) (offset'.alike toOffset')

end Quantization

namespace Operands

variable {o : Operands} {s : Storage} {input : Descriptor}

theorem conveys_carried (side : Rescaling → Quantization) (hs : o.first.type.storage? = some s)
    (hside : ∀ r, o.rescaling? = some r → side r = input.quantization) (bytes : List UInt8) :
    o.Conveys s input bytes (o.carried s side bytes) := by
  unfold carried
  cases hr : o.rescaling? with
  | none =>
    have plain : ¬ o.Rescales := by
      rw [← rescaling?_isSome_iff, hr]
      decide
    exact ⟨fun _ => rfl, fun h => absurd h plain⟩
  | some r =>
    have rescales : o.Rescales := by
      rw [← rescaling?_isSome_iff, hr]
      rfl
    obtain ⟨range, hrange⟩ := Option.isSome_iff_exists.1
      (ElementType.range?_of_isAffine hs (isAffine_of_rescaling? hr))
    refine ⟨fun h => absurd rescales h, fun _ => ?_⟩
    rw [hrange]
    dsimp only
    rw [hside r hr]
    have rescaled := Quantization.isRescaled input.quantization r.output (s.decode bytes)
    obtain rfl := eq_of_rescaling? hr
    exact ⟨_, _, rescaled, Storage.saturates_clamp hrange _, rfl⟩

theorem Conveys.unique (hs : o.first.type.storage? = some s) {bytes new new' : List UInt8}
    (h : o.Conveys s input bytes new) (h' : o.Conveys s input bytes new') : new = new' := by
  by_cases rescales : o.Rescales
  · obtain ⟨range, hrange⟩ := Option.isSome_iff_exists.1
      (ElementType.range?_of_isAffine hs rescales.1)
    obtain ⟨x, v, rescaled, saturated, rfl⟩ := h.rescaled rescales
    obtain ⟨x', v', rescaled', saturated', rfl⟩ := h'.rescaled rescales
    rw [saturated.unique hrange saturated' (rescaled.alike rescaled')]
  · rw [h.copied rescales, h'.copied rescales]

end Operands
end TensorConcat
