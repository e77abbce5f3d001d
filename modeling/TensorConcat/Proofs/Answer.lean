import TensorConcat.Effect

/-! Answers of computations that can fail: when a sequence of them succeeds. -/

namespace TensorConcat
namespace Answer

variable {α β : Type}

theorem bind_eq_ok_iff {a : Except Error α} {f : α → Except Error β} {b : β} :
    (a >>= f) = .ok b ↔ ∃ x, a = .ok x ∧ f x = .ok b := by
  cases a <;> simp [bind, Except.bind]

theorem then_eq_ok_iff {a : Except Error Unit} {f : Unit → Except Error β} {b : β} :
    (a >>= f) = .ok b ↔ a = .ok () ∧ f () = .ok b := by
  cases a <;> simp [bind, Except.bind]

theorem map_eq_ok_iff {a : Except Error α} {f : α → β} {b : β} :
    f <$> a = .ok b ↔ ∃ x, a = .ok x ∧ f x = b := by
  cases a <;> simp [Functor.map, Except.map]

theorem ok_bind (x : α) (f : α → Except Error β) : (Except.ok x >>= f) = f x :=
  rfl

theorem error_bind (e : Error) (f : α → Except Error β) : (Except.error e >>= f) = .error e :=
  rfl

theorem forM_eq_ok_iff (f : α → Except Error Unit) (as : List α) :
    forM as f = .ok () ↔ ∀ a ∈ as, f a = .ok () := by
  induction as with
  | nil => simp [pure, Except.pure]
  | cons a rest ih => simp [List.forM_cons, then_eq_ok_iff, ih]

def FailsAs (kind : ErrorKind) (a : Except Error α) : Prop :=
  ∀ e, a = .error e → e.kind = kind

theorem failsAs_ok (kind : ErrorKind) (x : α) : FailsAs kind (Except.ok x) :=
  fun _ h => nomatch h

theorem failsAs_error (e : Error) : FailsAs e.kind (Except.error e : Except Error α) :=
  fun _ h => by cases h; rfl

theorem FailsAs.bind {kind : ErrorKind} {a : Except Error α} {f : α → Except Error β}
    (ha : FailsAs kind a) (hf : ∀ x, FailsAs kind (f x)) : FailsAs kind (a >>= f) := by
  cases a with
  | error e => exact fun e' h => ha e' (by cases h; rfl)
  | ok x => exact hf x

end Answer
end TensorConcat
