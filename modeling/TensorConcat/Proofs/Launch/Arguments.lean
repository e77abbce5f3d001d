import TensorConcat.Launch.Execution
import TensorConcat.Proofs.Effect
import TensorConcat.Proofs.Launch.Slots

/-! The arguments of a tensor: which slots they fill, and the view of the tensor that a program finds
there. -/

namespace TensorConcat

def IsWord (value : Int) : Prop :=
  0 ≤ value ∧ value < 0x100000000

instance (value : Int) : Decidable (IsWord value) :=
  inferInstanceAs (Decidable (_ ∧ _))

def Argument.ofInt (value : Int) : Argument :=
  .word (UInt32.ofNat value.toNat)

theorem TensorQuantity.argument_eq_ok_iff {q : TensorQuantity} {value : Int} {a : Argument} :
    q.argument value = .ok a ↔ IsWord value ∧ a = .ofInt value := by
  unfold argument
  by_cases h : 0 ≤ value ∧ value < 0x100000000
  · rw [if_pos h]
    exact ⟨fun e => ⟨h, (Except.ok.inj e).symm⟩, fun e => congrArg _ e.2.symm⟩
  · rw [if_neg h]
    exact ⟨fun e => (nomatch e), fun e => absurd e.1 h⟩

theorem IsWord.toNat_ofNat {value : Int} (h : IsWord value) :
    (UInt32.ofNat value.toNat).toNat = value.toNat := by
  obtain ⟨h0, h1⟩ := h
  rw [UInt32.toNat_ofNat']
  omega

namespace Cursor

theorem fill_eq_ok_iff {ahead : Nat} {argument : Except Error Argument} {c c' : Cursor} :
    (fill ahead argument).perform c = (.ok (), c') ↔
      ∃ a h, argument = .ok a ∧ c.handle.bind (c.index + ahead) a = .ok h ∧
        c' = { c with handle := h } := by
  simp only [fill, Action.perform_bind_eq_ok_iff, Action.perform_get, Action.perform_ofExcept,
    Action.perform_set, Prod.mk.injEq, Except.ok.injEq]
  constructor
  · rintro ⟨_, _, ⟨rfl, rfl⟩, a, _, ⟨ha, rfl⟩, h, _, ⟨hh, rfl⟩, -, rfl⟩
    exact ⟨a, h, ha, hh, rfl⟩
  · rintro ⟨a, h, ha, hh, rfl⟩
    exact ⟨_, _, ⟨rfl, rfl⟩, a, _, ⟨ha, rfl⟩, h, _, ⟨hh, rfl⟩, trivial, rfl⟩

/-- Arguments were written to the slots from the next one on, and to no others. -/
structure Wrote (c c' : Cursor) (written : List Argument) : Prop where
  index : c'.index = c.index + written.length
  program : c'.handle.program = c.handle.program
  inside : ∀ n < written.length, c'.handle.argument? (c.index + n) = written[n]?
  outside : ∀ j, j < c.index ∨ c.index + written.length ≤ j →
    c'.handle.argument? j = c.handle.argument? j

theorem Wrote.append {c c' c'' : Cursor} {as bs : List Argument} (ha : Wrote c c' as)
    (hb : Wrote c' c'' bs) : Wrote c c'' (as ++ bs) where
  index := by
    rw [hb.index, ha.index, List.length_append, Nat.add_assoc]
  program := hb.program.trans ha.program
  inside n hn := by
    have hi := ha.index
    rw [List.length_append] at hn
    by_cases h : n < as.length
    · rw [hb.outside _ (Or.inl (by omega)), ha.inside n h, List.getElem?_append_left h]
    · rw [List.getElem?_append_right (by omega), ← hb.inside _ (by omega), hi]
      congr 1
      omega
  outside j hj := by
    have hi := ha.index
    rw [List.length_append] at hj
    rw [hb.outside j (by omega), ha.outside j (by omega)]

theorem wrote_fill {argument : Except Error Argument} {c c' : Cursor}
    (h : (fill 0 argument >>= fun _ => advance 1).perform c = (.ok (), c')) :
    ∃ a, argument = .ok a ∧ Wrote c c' [a] := by
  obtain ⟨_, d, hf, hd⟩ := Action.perform_bind_eq_ok_iff.1 h
  obtain ⟨a, g, ha, hg, rfl⟩ := fill_eq_ok_iff.1 hf
  obtain ⟨-, rfl⟩ := Prod.mk.inj hd
  obtain ⟨program, slots⟩ := Handle.bind_eq_ok hg
  refine ⟨a, ha, rfl, program, ?_, ?_⟩
  · intro n hn
    obtain rfl : n = 0 := by simpa using hn
    exact (slots _).trans (if_pos rfl)
  · intro j hj
    refine (slots j).trans (if_neg ?_)
    simp only [List.length_singleton] at hj
    omega

def axisSlots (d : Descriptor) (w : Window) (axis : Axis) : List Argument :=
  [.ofInt (signed64 (d.stride axis)), .ofInt (signed64 (d.stride axis) * (w.span axis).step)]

def slots (t : DeviceTensor) (w : Window) : List Argument :=
  [.buffer t.buffer] ++ Axis.inner.flatMap (axisSlots t.descriptor w) ++
    [.ofInt (startOffset t.descriptor w)]

theorem wrote_axis {d : Descriptor} {w : Window} {axis : Axis} {c c' : Cursor}
    (h : (axisArguments d w axis).perform c = (.ok (), c')) :
    (IsWord (signed64 (d.stride axis)) ∧ IsWord (signed64 (d.stride axis) * (w.span axis).step)) ∧
      Wrote c c' (axisSlots d w axis) := by
  obtain ⟨_, c1, h1, h⟩ := Action.perform_bind_eq_ok_iff.1 h
  obtain ⟨_, c2, h2, h⟩ := Action.perform_bind_eq_ok_iff.1 h
  obtain ⟨a, g, ha, hg, rfl⟩ := fill_eq_ok_iff.1 h1
  obtain ⟨b, g', hb, hg', rfl⟩ := fill_eq_ok_iff.1 h2
  obtain ⟨-, rfl⟩ := Prod.mk.inj h
  obtain ⟨stride, rfl⟩ := TensorQuantity.argument_eq_ok_iff.1 ha
  obtain ⟨step, rfl⟩ := TensorQuantity.argument_eq_ok_iff.1 hb
  obtain ⟨program, slots⟩ := Handle.bind_eq_ok hg
  obtain ⟨program', slots'⟩ := Handle.bind_eq_ok hg'
  refine ⟨⟨stride, step⟩, rfl, program'.trans program, ?_, ?_⟩
  · intro n hn
    simp only [axisSlots, List.length_cons, List.length_nil] at hn
    rcases (by omega : n = 0 ∨ n = 1) with rfl | rfl
    · exact (slots' _).trans ((if_neg (by simp)).trans ((slots _).trans (if_pos rfl)))
    · exact (slots' _).trans (if_pos rfl)
  · intro j hj
    simp only [axisSlots, List.length_cons, List.length_nil] at hj
    have index : (⟨g, c.index⟩ : Cursor).index = c.index := rfl
    refine (slots' j).trans ((if_neg ?_).trans ((slots j).trans (if_neg ?_))) <;> omega

theorem wrote_axes {d : Descriptor} {w : Window} {axes : List Axis} {c c' : Cursor}
    (h : (axes.forM (axisArguments d w)).perform c = (.ok (), c')) :
    (∀ axis ∈ axes, IsWord (signed64 (d.stride axis)) ∧
      IsWord (signed64 (d.stride axis) * (w.span axis).step)) ∧
      Wrote c c' (axes.flatMap (axisSlots d w)) := by
  induction axes generalizing c with
  | nil =>
    obtain ⟨-, rfl⟩ := Prod.mk.inj h
    exact ⟨by simp, rfl, rfl, by simp, by simp⟩
  | cons axis rest ih =>
    rw [List.forM] at h
    obtain ⟨_, d, ha, hr⟩ := Action.perform_bind_eq_ok_iff.1 h
    obtain ⟨isWord, first⟩ := wrote_axis ha
    obtain ⟨areWords, others⟩ := ih hr
    refine ⟨List.forall_mem_cons.2 ⟨isWord, areWords⟩, ?_⟩
    rw [List.flatMap_cons]
    exact first.append others

def Fits (t : DeviceTensor) (w : Window) : Prop :=
  (∀ axis ∈ Axis.inner, IsWord (signed64 (t.descriptor.stride axis)) ∧
    IsWord (signed64 (t.descriptor.stride axis) * (w.span axis).step)) ∧
    IsWord (startOffset t.descriptor w)

instance (t : DeviceTensor) (w : Window) : Decidable (Fits t w) :=
  inferInstanceAs (Decidable ((∀ axis ∈ Axis.inner, _ ∧ _) ∧ _))

theorem wrote_tensor {t : DeviceTensor} {w : Window} {c c' : Cursor}
    (h : (tensorArguments t w).perform c = (.ok (), c')) : Fits t w ∧ Wrote c c' (slots t w) := by
  rw [tensorArguments] at h
  obtain ⟨_, c1, h1, h⟩ := Action.perform_bind_eq_ok_iff.1 h
  obtain ⟨_, c2, h2, h⟩ := Action.perform_bind_eq_ok_iff.1 h
  obtain ⟨_, c3, h3, h⟩ := Action.perform_bind_eq_ok_iff.1 h
  obtain ⟨_, hb, buffer⟩ := wrote_fill (Action.perform_bind_eq_ok_iff.2 ⟨_, c1, h1, h2⟩)
  obtain ⟨_, ho, offset⟩ := wrote_fill h
  obtain rfl := Except.ok.inj hb
  obtain ⟨isWord, rfl⟩ := TensorQuantity.argument_eq_ok_iff.1 ho
  obtain ⟨areWords, axes⟩ := wrote_axes h3
  refine ⟨⟨areWords, isWord⟩, ?_⟩
  unfold slots
  exact (buffer.append axes).append offset

theorem Fits.of_span_eq {t : DeviceTensor} {v w : Window} (h : Fits t v)
    (same : ∀ a, (v.span a).start = (w.span a).start ∧ (v.span a).step = (w.span a).step) :
    Fits t w := by
  obtain ⟨strides, offset⟩ := h
  simp only [Fits, startOffset, same] at *
  exact ⟨strides, offset⟩

theorem startOffset_eq (d : Descriptor) (w : Window) :
    startOffset d w = (w.span .x).start * signed64 (d.stride Axis.x) +
      ((w.span .y).start * signed64 (d.stride Axis.y) +
        ((w.span .z).start * signed64 (d.stride Axis.z) +
          ((w.span .batch).start * signed64 (d.stride Axis.batch) + signed64 d.firstOffset))) := by
  simp only [startOffset, Axis.inner, List.foldr_cons, List.foldr_nil]

theorem startOffset_congr (d : Descriptor) {v w : Window}
    (same : ∀ a ∈ Axis.inner, v.span a = w.span a) : startOffset d v = startOffset d w := by
  rw [startOffset_eq, startOffset_eq, same .x (by decide), same .y (by decide),
    same .z (by decide), same .batch (by decide)]

theorem fits_congr {t : DeviceTensor} {v w : Window}
    (same : ∀ a ∈ Axis.inner, v.span a = w.span a) : Fits t v ↔ Fits t w := by
  rw [Fits, Fits, startOffset_congr _ same]
  refine and_congr_left' (forall₂_congr fun a ha => ?_)
  rw [same a ha]

theorem exists_fill {c : Cursor} (ahead : Nat) (a : Argument) (hc : c.index + ahead < 32) :
    ∃ c', (fill ahead (.ok a)).perform c = (.ok (), c') ∧ c'.index = c.index :=
  ⟨_, fill_eq_ok_iff.2 ⟨a, _, rfl, Handle.bind_of_lt hc a, rfl⟩, rfl⟩

theorem exists_axes {d : Descriptor} {w : Window} {axes : List Axis} {c : Cursor}
    (fits : ∀ axis ∈ axes, IsWord (signed64 (d.stride axis)) ∧
      IsWord (signed64 (d.stride axis) * (w.span axis).step))
    (hc : c.index + 2 * axes.length < 32) :
    ∃ c', (axes.forM (axisArguments d w)).perform c = (.ok (), c') ∧
      c'.index = c.index + 2 * axes.length := by
  induction axes generalizing c with
  | nil => exact ⟨c, rfl, rfl⟩
  | cons axis rest ih =>
    rw [List.length_cons] at hc
    obtain ⟨stride, step⟩ := fits axis (List.mem_cons_self ..)
    obtain ⟨c1, h1, i1⟩ := exists_fill (c := c) 0 (.ofInt (signed64 (d.stride axis)))
      (by omega)
    obtain ⟨c2, h2, i2⟩ := exists_fill (c := c1) 1
      (.ofInt (signed64 (d.stride axis) * (w.span axis).step)) (by omega)
    obtain ⟨c', h, index⟩ := ih (fun a ha => fits a (List.mem_cons_of_mem _ ha))
      (c := { c2 with index := c2.index + 2 }) (by simp only; omega)
    refine ⟨c', ?_, by simp only [index, List.length_cons]; omega⟩
    rw [List.forM]
    refine Action.perform_bind_eq_ok_iff.2 ⟨(), _, ?_, h⟩
    rw [axisArguments, TensorQuantity.argument_eq_ok_iff.2 ⟨stride, rfl⟩,
      TensorQuantity.argument_eq_ok_iff.2 ⟨step, rfl⟩]
    exact Action.perform_bind_eq_ok_iff.2 ⟨(), c1, h1,
      Action.perform_bind_eq_ok_iff.2 ⟨(), c2, h2, rfl⟩⟩

theorem exists_tensor {t : DeviceTensor} {w : Window} {c : Cursor} (fits : Fits t w)
    (hc : c.index + slotsPerTensor ≤ 32) :
    ∃ c', (tensorArguments t w).perform c = (.ok (), c') ∧
      c'.index = c.index + slotsPerTensor := by
  rw [slotsPerTensor] at *
  obtain ⟨c1, h1, i1⟩ := exists_fill (c := c) 0 (.buffer t.buffer) (by omega)
  obtain ⟨c2, h2, i2⟩ := exists_axes fits.1
    (c := { c1 with index := c1.index + 1 })
    (by simp only [Axis.inner, List.length_cons, List.length_nil]; omega)
  simp only [Axis.inner, List.length_cons, List.length_nil] at i2
  obtain ⟨c3, h3, i3⟩ := exists_fill (c := c2) 0 (.ofInt (startOffset t.descriptor w)) (by omega)
  refine ⟨{ c3 with index := c3.index + 1 }, ?_, by simp only; omega⟩
  rw [tensorArguments, TensorQuantity.argument_eq_ok_iff.2 ⟨fits.2, rfl⟩]
  exact Action.perform_bind_eq_ok_iff.2 ⟨(), c1, h1, Action.perform_bind_eq_ok_iff.2 ⟨_, _, rfl,
    Action.perform_bind_eq_ok_iff.2 ⟨(), c2, h2, Action.perform_bind_eq_ok_iff.2 ⟨(), c3, h3, rfl⟩⟩⟩⟩

end Cursor

namespace TensorView

def of (t : DeviceTensor) (w : Window) : TensorView where
  buffer := t.buffer
  strideX := (signed64 (t.descriptor.stride 0)).toNat
  strideY := (signed64 (t.descriptor.stride 1)).toNat
  strideZ := (signed64 (t.descriptor.stride 2)).toNat
  strideBatch := (signed64 (t.descriptor.stride 3)).toNat
  offset := (Cursor.startOffset t.descriptor w).toNat

theorem ofHandle_eq_ok {t : DeviceTensor} {w : Window} {h : Handle} {first : Nat}
    (fits : Cursor.Fits t w)
    (hs : ∀ n < Cursor.slotsPerTensor, h.argument? (first + n) = (Cursor.slots t w)[n]?) :
    ofHandle h first = .ok (of t w) := by
  have word {n : Nat} (hn : n < Cursor.slotsPerTensor) {value : Int} (hv : IsWord value)
      (ha : (Cursor.slots t w)[n]? = some (.ofInt value)) :
      h.word (first + n) = .ok value.toNat := by
    rw [Handle.word_of_argument? h ((hs n hn).trans ha), hv.toNat_ofNat]
  have buffer : h.buffer first = .ok t.buffer := Handle.buffer_of_argument? h (hs 0 (by decide))
  have stride (axis : Axis) (ha : axis ∈ Axis.inner) := (fits.1 axis ha).1
  rw [ofHandle, buffer, word (by decide) (stride .x (by decide)) rfl,
    word (by decide) (stride .y (by decide)) rfl, word (by decide) (stride .z (by decide)) rfl,
    word (by decide) (stride .batch (by decide)) rfl, word (by decide) fits.2 rfl]
  rfl

end TensorView
end TensorConcat
