import TensorConcat.Effect

/-! Actions step by step: how a sequence of them succeeds, and what a loop changes when a single one
of its steps touches what is observed. -/

namespace TensorConcat
namespace Action

variable {σ α β γ : Type}

theorem perform_bind (a : Action σ α) (f : α → Action σ β) (s : σ) :
    (a >>= f).perform s =
      match a.perform s with
      | (.ok x, s') => (f x).perform s'
      | (.error e, s') => (.error e, s') := by
  simp only [perform, bind, ExceptT.bind, ExceptT.mk, StateT.bind]
  rcases a s with ⟨_ | _, _⟩ <;> rfl

theorem perform_bind_of_ok {a : Action σ α} {x : α} {s s' : σ} (h : a.perform s = (.ok x, s'))
    (f : α → Action σ β) : (a >>= f).perform s = (f x).perform s' := by
  rw [perform_bind, h]

theorem perform_bind_of_error {a : Action σ α} {e : Error} {s s' : σ}
    (h : a.perform s = (.error e, s')) (f : α → Action σ β) :
    (a >>= f).perform s = (.error e, s') := by
  rw [perform_bind, h]

theorem perform_bind_eq_ok_iff {a : Action σ α} {f : α → Action σ β} {s s' : σ} {y : β} :
    (a >>= f).perform s = (.ok y, s') ↔
      ∃ x t, a.perform s = (.ok x, t) ∧ (f x).perform t = (.ok y, s') := by
  rw [perform_bind]
  rcases h : a.perform s with ⟨_ | x, t⟩
  · simp
  · constructor
    · intro hf
      exact ⟨x, t, rfl, hf⟩
    · rintro ⟨x', t', heq, hf⟩
      obtain ⟨hx, ht⟩ := Prod.mk.inj heq
      rwa [Except.ok.inj hx, ht]

theorem perform_ofExcept (answer : Except Error α) (s : σ) :
    (ofExcept answer).perform s = (answer, s) :=
  rfl

theorem perform_get (s : σ) : (get : Action σ σ).perform s = (.ok s, s) :=
  rfl

theorem perform_set (t s : σ) : (set t : Action σ PUnit).perform s = (.ok ⟨⟩, t) :=
  rfl

/-- From every state with the invariant the action succeeds and keeps it. What is observed is
updated if the condition holds, and stays as it is otherwise. -/
def ActsWhen (inv : σ → Prop) (observe : σ → γ) (a : Action σ Unit) (condition : Prop)
    (update : γ → γ) : Prop :=
  ∀ s, inv s → ∃ s', a.perform s = (.ok (), s') ∧ inv s' ∧
    (condition → observe s' = update (observe s)) ∧ (¬ condition → observe s' = observe s)

variable {inv : σ → Prop} {observe : σ → γ} {update : γ → γ}

theorem ActsWhen.congr {a : Action σ Unit} {c c' : Prop} (h : ActsWhen inv observe a c update)
    (hc : c ↔ c') : ActsWhen inv observe a c' update := by
  rwa [propext hc] at h

theorem ActsWhen.pure : ActsWhen inv observe (pure () : Action σ Unit) False update :=
  fun s hs => ⟨s, rfl, hs, False.elim, fun _ => rfl⟩

theorem ActsWhen.then {a b : Action σ Unit} {c d : Prop} (ha : ActsWhen inv observe a c update)
    (hb : ActsWhen inv observe b d update) (hcd : ¬ (c ∧ d)) :
    ActsWhen inv observe (a >>= fun _ => b) (c ∨ d) update := by
  intro s hs
  obtain ⟨t, ht, it, act, idle⟩ := ha s hs
  obtain ⟨s', hs', is', act', idle'⟩ := hb t it
  refine ⟨s', perform_bind_eq_ok_iff.2 ⟨(), t, ht, hs'⟩, is', ?_, ?_⟩
  · rintro (hc | hd)
    · rw [idle' fun hd => hcd ⟨hc, hd⟩, act hc]
    · rw [act' hd, idle fun hc => hcd ⟨hc, hd⟩]
  · intro h
    rw [not_or] at h
    rw [idle' h.2, idle h.1]

theorem ActsWhen.countTo {f : Nat → Action σ Unit} {c : Prop} (count start i : Nat)
    (h : ∀ n, start ≤ n → n < start + count → ActsWhen inv observe (f n) (n = i ∧ c) update) :
    ActsWhen inv observe (countTo f count start) (start ≤ i ∧ i < start + count ∧ c) update := by
  induction count generalizing start with
  | zero => exact ActsWhen.pure.congr ⟨False.elim, fun h => by omega⟩
  | succ count ih =>
    have first := h start (Nat.le_refl _) (by omega)
    have rest := ih (start + 1) fun n h1 h2 => h n (by omega) (by omega)
    refine (first.then rest (by omega)).congr ?_
    constructor
    · rintro (⟨rfl, hc⟩ | ⟨h1, h2, hc⟩)
      · exact ⟨Nat.le_refl _, by omega, hc⟩
      · exact ⟨by omega, by omega, hc⟩
    · rintro ⟨h1, h2, hc⟩
      by_cases hi : start = i
      · exact Or.inl ⟨hi, hc⟩
      · exact Or.inr ⟨by omega, by omega, hc⟩

/-- The action cannot succeed, from a state with the invariant, unless something else holds; and a
success keeps the invariant. -/
def Requires (inv : σ → Prop) (a : Action σ Unit) (need : Prop) : Prop :=
  ∀ s s', inv s → a.perform s = (.ok (), s') → need ∧ inv s'

theorem Requires.countTo {f : Nat → Action σ Unit} {need : Nat → Prop} (count start : Nat)
    (h : ∀ n, start ≤ n → n < start + count → Requires inv (f n) (need n)) :
    Requires inv (countTo f count start) (∀ n, start ≤ n → n < start + count → need n) := by
  induction count generalizing start with
  | zero =>
    intro s s' hs hok
    obtain ⟨-, rfl⟩ := Prod.mk.inj hok
    exact ⟨fun n h1 h2 => by omega, hs⟩
  | succ count ih =>
    intro s s' hs hok
    obtain ⟨_, t, first, rest⟩ := perform_bind_eq_ok_iff.1 hok
    obtain ⟨here, ht⟩ := h start (Nat.le_refl _) (by omega) s t hs first
    obtain ⟨later, hs'⟩ := ih (start + 1) (fun n h1 h2 => h n (by omega) (by omega)) t s' ht rest
    refine ⟨fun n h1 h2 => ?_, hs'⟩
    by_cases hn : start = n
    · exact hn ▸ here
    · exact later n (by omega) (by omega)

def Keeps (inv : σ → Prop) (a : Action σ α) : Prop :=
  ∀ s, inv s → inv (a.perform s).2

theorem keeps_ofExcept (inv : σ → Prop) (answer : Except Error α) : Keeps inv (ofExcept answer) :=
  fun _ hs => hs

theorem Keeps.bind {a : Action σ α} {f : α → Action σ β} (ha : Keeps inv a)
    (hf : ∀ x, Keeps inv (f x)) : Keeps inv (a >>= f) := by
  intro s hs
  have first := ha s hs
  rw [perform_bind]
  generalize a.perform s = r at first ⊢
  obtain ⟨_ | x, t⟩ := r
  · exact first
  · exact hf x t first

theorem Keeps.countTo {f : Nat → Action σ Unit} (count start : Nat) (h : ∀ n, Keeps inv (f n)) :
    Keeps inv (countTo f count start) := by
  induction count generalizing start with
  | zero => exact fun _ hs => hs
  | succ count ih => exact (h start).bind fun _ => ih (start + 1)

end Action
end TensorConcat
