import TensorConcat.Proofs.Launch.Arguments

/-! Binding that may fail half way: whether it succeeds or not, it touches no slots but those of the
tensors, and it fails only on a number that 32 bits do not hold. -/

namespace TensorConcat

structure Handle.KeepsFrom (h' h : Handle) (first : Nat) : Prop where
  program : h'.program = h.program
  slots : ∀ j, first ≤ j → h'.argument? j = h.argument? j

namespace Handle.KeepsFrom

variable {h h' h'' : Handle} {m n : Nat}

theorem refl (h : Handle) (n : Nat) : h.KeepsFrom h n :=
  ⟨rfl, fun _ _ => rfl⟩

theorem trans (second : h''.KeepsFrom h' n) (first : h'.KeepsFrom h n) : h''.KeepsFrom h n :=
  ⟨second.program.trans first.program, fun j hj => (second.slots j hj).trans (first.slots j hj)⟩

theorem mono (kept : h'.KeepsFrom h m) (le : m ≤ n) : h'.KeepsFrom h n :=
  ⟨kept.program, fun j hj => kept.slots j (Nat.le_trans le hj)⟩

end Handle.KeepsFrom

theorem TensorQuantity.argument_failsAs (q : TensorQuantity) (value : Int) :
    Answer.FailsAs .runtime (q.argument value) := by
  unfold argument
  split
  · exact Answer.failsAs_ok _ _
  · exact Answer.failsAs_error _

namespace Cursor

/-- Wherever it starts, the action touches no slot but the next few, and a success moves the cursor.
Where there are such slots, it fails only on a number that is too large. -/
structure Confined (a : Action Cursor Unit) (reach advance : Nat) : Prop where
  keeps : ∀ c : Cursor, (a.perform c).2.handle.KeepsFrom c.handle (c.index + reach)
  index : ∀ c : Cursor, (a.perform c).1 = .ok () → (a.perform c).2.index = c.index + advance
  failsAs : ∀ c : Cursor, c.index + reach ≤ 32 → Answer.FailsAs .runtime (a.perform c).1

variable {a b : Action Cursor Unit} {m n i j : Nat}

theorem Confined.then (ha : Confined a m i) (hb : Confined b n j) {k : Nat} (hm : m ≤ k)
    (hn : i + n ≤ k) : Confined (a >>= fun _ => b) k (i + j) := by
  -- The second action runs only where the first one has moved the cursor.
  constructor
  · intro c
    have first := (ha.keeps c).mono (Nat.add_le_add_left hm c.index)
    have moved := ha.index c
    rw [Action.perform_bind]
    generalize a.perform c = r at first moved ⊢
    obtain ⟨_ | _, d⟩ := r
    · exact first
    · have second := hb.keeps d
      rw [show d.index = c.index + i from moved rfl] at second
      exact (second.mono (by omega)).trans first
  · intro c hok
    have moved := ha.index c
    rw [Action.perform_bind] at hok ⊢
    generalize a.perform c = r at hok moved ⊢
    obtain ⟨_ | _, d⟩ := r
    · cases hok
    · have start : d.index = c.index + i := moved rfl
      have stop := hb.index d hok
      simp only [stop, start, Nat.add_assoc]
  · intro c hc
    have moved := ha.index c
    have fails := ha.failsAs c (by omega)
    rw [Action.perform_bind]
    generalize a.perform c = r at fails moved ⊢
    obtain ⟨_ | _, d⟩ := r
    · exact fails
    · have start : d.index = c.index + i := moved rfl
      exact hb.failsAs d (by omega)

theorem confined_pure : Confined (pure () : Action Cursor Unit) 0 0 where
  keeps c := .refl c.handle _
  index _ _ := rfl
  failsAs _ _ := Answer.failsAs_ok _ _

theorem confined_advance (count : Nat) : Confined (advance count) 0 count where
  keeps c := .refl c.handle _
  index _ _ := rfl
  failsAs _ _ := Answer.failsAs_ok _ _

theorem perform_fill (ahead : Nat) (x : Argument) (c : Cursor) :
    (fill ahead (.ok x)).perform c =
      match c.handle.bind (c.index + ahead) x with
      | .ok h => (.ok (), { c with handle := h })
      | .error e => (.error e, c) := by
  simp only [fill, Action.perform_bind, Action.perform_get, Action.perform_ofExcept]
  cases c.handle.bind (c.index + ahead) x <;> rfl

theorem confined_fill (ahead : Nat) {argument : Except Error Argument}
    (fails : Answer.FailsAs .runtime argument) : Confined (fill ahead argument) (ahead + 1) 0 := by
  cases argument with
  | error e =>
    have perform (c : Cursor) : (fill ahead (.error e)).perform c = (.error e, c) := rfl
    refine ⟨fun c => ?_, fun c hok => ?_, fun c _ => ?_⟩
    · rw [perform]
      exact .refl c.handle _
    · rw [perform] at hok
      cases hok
    · rw [perform]
      intro e' he
      cases he
      exact fails e rfl
  | ok x =>
    refine ⟨fun c => ?_, fun c _ => ?_, fun c hc => ?_⟩
    · rw [perform_fill]
      cases hb : c.handle.bind (c.index + ahead) x with
      | error e => exact .refl c.handle _
      | ok h =>
        obtain ⟨program, slots⟩ := Handle.bind_eq_ok hb
        exact ⟨program, fun j hj => (slots j).trans (if_neg (by omega))⟩
    · rw [perform_fill]
      cases c.handle.bind (c.index + ahead) x <;> rfl
    · rw [perform_fill, Handle.bind_of_lt (by omega)]
      exact Answer.failsAs_ok _ _

theorem confined_axisArguments (d : Descriptor) (w : Window) (axis : Axis) :
    Confined (axisArguments d w axis) 2 2 :=
  (confined_fill 0 (TensorQuantity.argument_failsAs _ _)).then
    ((confined_fill 1 (TensorQuantity.argument_failsAs _ _)).then (confined_advance 2)
      (Nat.le_refl 2) (by decide)) (by decide) (by decide)

theorem confined_axes (d : Descriptor) (w : Window) (axes : List Axis) :
    Confined (axes.forM (axisArguments d w)) (2 * axes.length) (2 * axes.length) := by
  induction axes with
  | nil => exact confined_pure
  | cons axis rest ih =>
    have count : 2 * (axis :: rest).length = 2 + 2 * rest.length := by
      rw [List.length_cons]
      omega
    rw [count, List.forM]
    exact (confined_axisArguments d w axis).then ih (by omega) (Nat.le_refl _)

theorem confined_tensorArguments (t : DeviceTensor) (w : Window) :
    Confined (tensorArguments t w) 10 10 := by
  have axes : Confined (Axis.inner.forM (axisArguments t.descriptor w)) 8 8 :=
    confined_axes t.descriptor w Axis.inner
  have offset := (confined_fill 0 (TensorQuantity.argument_failsAs .firstOffset
    (startOffset t.descriptor w))).then (confined_advance 1) (k := 1) (by decide) (by decide)
  have behind := (confined_advance 1).then (axes.then offset (k := 9) (by decide) (by decide))
    (k := 10) (by decide) (by decide)
  rw [tensorArguments]
  exact (confined_fill 0 (Answer.failsAs_ok _ _)).then behind (by decide) (by decide)

end Cursor
end TensorConcat
