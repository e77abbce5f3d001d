import TensorConcat.Proofs.Concat.Submission
import TensorConcat.Proofs.Iteration.Slices
import TensorConcat.Proofs.Launch.Confinement

/-! What becomes of a run. It is refused, or it fails at its first slice because a number does not
fit 32 bits, or it submits the launches of all slices. There is nothing between: the slices of a
window differ in no argument. -/

namespace TensorConcat

namespace Window

variable {w slice : Window}

theorem span_of_mem_slices (hs : slice ∈ w.slices) {a : Axis} (ha : a ∈ Axis.inner) :
    slice.span a = w.span a := by
  obtain ⟨i, j, rfl⟩ := exists_sliceAt_of_mem_slices hs
  have inner : ∀ a ∈ Axis.inner, a ≠ .outermost ∧ a ≠ .outer := by decide
  rw [span_sliceAt, if_neg (inner a ha).1, if_neg (inner a ha).2]

theorem slices_ne_nil (w : Window) : w.slices ≠ [] := by
  intro none
  have length := w.length_slices
  have outer : 0 < w.slicePoints .outer := Nat.le_max_left ..
  have outermost : 0 < w.slicePoints .outermost := Nat.le_max_left ..
  rw [none, List.length_nil] at length
  exact absurd length (Nat.ne_of_lt (Nat.mul_pos outermost outer))

end Window

namespace Queue

def submitAll (q : Queue) (ls : List Launch) : Queue :=
  { q with pending := q.pending ++ ls }

@[simp] theorem submitAll_nil (q : Queue) : q.submitAll [] = q := by
  rw [submitAll, List.append_nil]

theorem submitAll_append (q : Queue) (ls rest : List Launch) :
    (q.submitAll ls).submitAll rest = q.submitAll (ls ++ rest) := by
  simp only [submitAll, List.append_assoc]

theorem submitAll_eq_self_iff {q : Queue} {ls : List Launch} : q.submitAll ls = q ↔ ls = [] := by
  constructor
  · intro same
    exact List.append_right_eq_self.1 (congrArg pending same)
  · rintro rfl
    exact q.submitAll_nil

end Queue

namespace Submission

def Tensors.Fit (t : Tensors) (w : Window) : Prop :=
  ∀ u ∈ [t.first, t.second, t.output], Cursor.Fits u w

instance (t : Tensors) (w : Window) : Decidable (t.Fit w) :=
  inferInstanceAs (Decidable (∀ u ∈ [t.first, t.second, t.output], Cursor.Fits u w))

def Tensors.slots (t : Tensors) (w : Window) : List Argument :=
  Cursor.slots t.first w ++ Cursor.slots t.second w ++ Cursor.slots t.output w

variable {t : Tensors} {w : Window} {hint? : Option LaunchRange} {s : Submission}

theorem Tensors.fit_congr {v : Window} (same : ∀ a ∈ Axis.inner, v.span a = w.span a) :
    t.Fit v ↔ t.Fit w :=
  forall₂_congr fun _ _ => Cursor.fits_congr same

theorem arguments_wrote {c c' : Cursor} (hok : (arguments t w).perform c = (.ok (), c')) :
    t.Fit w ∧ Cursor.Wrote c c' (t.slots w) := by
  rw [arguments] at hok
  obtain ⟨_, c1, h1, hok⟩ := Action.perform_bind_eq_ok_iff.1 hok
  obtain ⟨_, c2, h2, h3⟩ := Action.perform_bind_eq_ok_iff.1 hok
  obtain ⟨f1, w1⟩ := Cursor.wrote_tensor h1
  obtain ⟨f2, w2⟩ := Cursor.wrote_tensor h2
  obtain ⟨f3, w3⟩ := Cursor.wrote_tensor h3
  refine ⟨?_, (w1.append w2).append w3⟩
  simp only [Tensors.Fit, List.forall_mem_cons, List.not_mem_nil, false_implies, implies_true,
    and_true]
  exact ⟨f1, f2, f3⟩

theorem confined_arguments (t : Tensors) (w : Window) : Cursor.Confined (arguments t w) 30 30 := by
  have second := (Cursor.confined_tensorArguments t.second w).then
    (Cursor.confined_tensorArguments t.output w) (k := 20) (by omega) (by omega)
  have all := (Cursor.confined_tensorArguments t.first w).then second (k := 30) (by omega)
    (by omega)
  rw [arguments]
  exact all

theorem perform_submitSlice_of_ok {c : Cursor}
    (bound : (arguments t w).perform ⟨s.handle, 0⟩ = (.ok (), c)) :
    (submitSlice t hint? w).perform s =
      (.ok (), ⟨c.handle, s.queue.submitWindow c.handle w hint?⟩) := by
  rw [submitSlice, Action.perform_bind_of_ok (Action.perform_get s), bound]
  rfl

theorem perform_submitSlice_of_error {e : Error} {c : Cursor}
    (bound : (arguments t w).perform ⟨s.handle, 0⟩ = (.error e, c)) :
    (submitSlice t hint? w).perform s = (.error e, ⟨c.handle, s.queue⟩) := by
  rw [submitSlice, Action.perform_bind_of_ok (Action.perform_get s), bound]
  rfl

theorem submitSlice_of_not_fit (unfit : ¬ t.Fit w) (hint? : Option LaunchRange) (s : Submission) :
    ∃ e h, (submitSlice t hint? w).perform s = (.error e, ⟨h, s.queue⟩) ∧ e.kind = .runtime ∧
      h.KeepsFrom s.handle 30 := by
  have kept := (confined_arguments t w).keeps ⟨s.handle, 0⟩
  have fails := (confined_arguments t w).failsAs ⟨s.handle, 0⟩ (Nat.le_add_right 30 2)
  rcases bound : (arguments t w).perform ⟨s.handle, 0⟩ with ⟨e | _, c⟩
  · rw [bound] at kept fails
    exact ⟨e, c.handle, perform_submitSlice_of_error bound, fails e rfl, kept⟩
  · exact absurd (arguments_wrote bound).1 unfit

end Submission

structure Launch.Carries (l : Launch) (t : Submission.Tensors) (slice : Window) : Prop where
  range : l.range = .ofWindow slice
  some : l.range.isEmpty = false
  group : ∀ g ∈ l.group?, g.divides l.range = true
  arguments : ∀ n < 30, l.handle.argument? n = (t.slots slice)[n]?

namespace Submission

variable {t : Tensors} {w : Window} {slices : List Window} {r : LaunchRange}

/-- Launches do the work of slices: one launch for each slice that has work to do, in the order of the
slices, with the program of a handle and its last arguments. -/
inductive Launched (h : Handle) (t : Tensors) : List Window → List Launch → Prop
  | nil : Launched h t [] []
  | idle {slice : Window} {slices : List Window} {ls : List Launch}
      (none : (LaunchRange.ofWindow slice).isEmpty = true) (rest : Launched h t slices ls) :
      Launched h t (slice :: slices) ls
  | launch {slice : Window} {slices : List Window} {l : Launch} {ls : List Launch}
      (carries : l.Carries t slice) (kept : l.handle.KeepsFrom h 30)
      (rest : Launched h t slices ls) : Launched h t (slice :: slices) (l :: ls)

namespace Launched

variable {h h' : Handle} {ls : List Launch}

theorem of_keepsFrom (launched : Launched h t slices ls) (kept : h.KeepsFrom h' 30) :
    Launched h' t slices ls := by
  induction launched with
  | nil => exact .nil
  | idle none _ ih => exact .idle none ih
  | launch carries keeps _ ih => exact .launch carries (keeps.trans kept) ih

theorem forall_mem (launched : Launched h t slices ls) :
    ∀ l ∈ ls, l.handle.KeepsFrom h 30 ∧ ∃ slice ∈ slices, l.Carries t slice := by
  have later {slice : Window} {rest : List Window} {l : Launch}
      (found : l.handle.KeepsFrom h 30 ∧ ∃ slice ∈ rest, l.Carries t slice) :
      l.handle.KeepsFrom h 30 ∧ ∃ part ∈ slice :: rest, l.Carries t part := by
    obtain ⟨kept, part, hp, carries⟩ := found
    exact ⟨kept, part, List.mem_cons_of_mem _ hp, carries⟩
  induction launched with
  | nil => simp
  | idle _ _ ih => exact fun l hl => later (ih l hl)
  | launch carries kept _ ih =>
    exact List.forall_mem_cons.2
      ⟨⟨kept, _, List.mem_cons_self .., carries⟩, fun l hl => later (ih l hl)⟩

theorem length_eq (launched : Launched h t slices ls)
    (size : ∀ slice ∈ slices, LaunchRange.ofWindow slice = r) :
    ls.length = slices.length * if r.isEmpty then 0 else 1 := by
  induction launched with
  | nil => simp
  | idle none _ ih =>
    rw [List.forall_mem_cons] at size
    rw [ih size.2, ← size.1, none, if_pos rfl, Nat.mul_zero, Nat.mul_zero]
  | launch carries _ _ ih =>
    rw [List.forall_mem_cons] at size
    have some := carries.some
    rw [carries.range, size.1] at some
    rw [List.length_cons, ih size.2, some, if_neg Bool.false_ne_true, Nat.mul_one, List.length_cons,
      Nat.mul_one]

end Launched

theorem submitSlice_of_fit (fit : t.Fit w) (hint? : Option LaunchRange) (s : Submission) :
    ∃ h ls, (submitSlice t hint? w).perform s = (.ok (), ⟨h, s.queue.submitAll ls⟩) ∧
      h.KeepsFrom s.handle 30 ∧ ∀ {slices later}, Launched s.handle t slices later →
        Launched s.handle t (w :: slices) (ls ++ later) := by
  obtain ⟨s', hs⟩ := exists_submitSlice hint? s fit
  have kept := (confined_arguments t w).keeps ⟨s.handle, 0⟩
  rcases bound : (arguments t w).perform ⟨s.handle, 0⟩ with ⟨_ | _, c⟩
  · rw [perform_submitSlice_of_error bound] at hs
    cases (Prod.mk.inj hs).1
  rw [bound] at kept
  rw [perform_submitSlice_of_ok bound]
  obtain ⟨-, wrote⟩ := arguments_wrote bound
  cases empty : (LaunchRange.ofWindow w).isEmpty with
  | true =>
    refine ⟨c.handle, [], ?_, kept, fun later => .idle empty later⟩
    simp only [Queue.submitWindow, empty, if_true, Queue.submitAll_nil]
  | false =>
    have carries : (Launch.mk c.handle (.ofWindow w)
        (hint?.filter (·.divides (.ofWindow w)))).Carries t w :=
      ⟨rfl, empty, fun g hg => (Option.mem_filter_iff.1 hg).2,
        fun n hn => by rw [← wrote.inside n hn, Nat.zero_add]⟩
    refine ⟨c.handle, [_], ?_, kept, fun later => .launch carries kept later⟩
    simp only [Queue.submitWindow, empty, Bool.false_eq_true, if_false, Queue.submit,
      Queue.submitAll]

theorem submitSlices_of_fit (fit : ∀ slice ∈ slices, t.Fit slice) (hint? : Option LaunchRange)
    (s : Submission) :
    ∃ h ls, (List.forM slices (submitSlice t hint?)).perform s = (.ok (), ⟨h, s.queue.submitAll ls⟩) ∧
      h.KeepsFrom s.handle 30 ∧ Launched s.handle t slices ls := by
  induction slices generalizing s with
  | nil =>
    refine ⟨s.handle, [], ?_, .refl _ _, .nil⟩
    rw [List.forM, Queue.submitAll_nil]
    rfl
  | cons slice rest ih =>
    rw [List.forall_mem_cons] at fit
    obtain ⟨h, here, first, kept, launched⟩ := submitSlice_of_fit fit.1 hint? s
    obtain ⟨h', later, others, kept', launched'⟩ := ih fit.2 ⟨h, s.queue.submitAll here⟩
    rw [Queue.submitAll_append] at others
    refine ⟨h', here ++ later, ?_, kept'.trans kept, launched (launched'.of_keepsFrom kept)⟩
    rw [List.forM]
    exact Action.perform_bind_eq_ok_iff.2 ⟨(), _, first, others⟩

end Submission

namespace Kernel

inductive RunOutcome (k : Kernel) (pack : TensorPack) (w : Window) (q : Queue) :
    Except Error Unit × Kernel × Queue → Prop
  /-- There is no configuration, the window is no part of its window, or a tensor is missing. -/
  | refused {e : Error} (kind : e.kind = .precondition)
      (unready : ∀ c t, k.configuration? = some c → Submission.Tensors.ofPack pack = .ok t →
        ¬ w.IsWithin c.window) : RunOutcome k pack w q (.error e, k, q)
  | tooLarge {c : Configuration} {t : Submission.Tensors} {e : Error} {h : Handle}
      (configured : k.configuration? = some c) (within : w.IsWithin c.window)
      (bound : Submission.Tensors.ofPack pack = .ok t) (unfit : ¬ t.Fit w)
      (kind : e.kind = .runtime) (kept : h.KeepsFrom c.handle 30) :
      RunOutcome k pack w q (.error e, ⟨some { c with handle := h }⟩, q)
  | submitted {c : Configuration} {t : Submission.Tensors} {h : Handle} {ls : List Launch}
      (configured : k.configuration? = some c) (within : w.IsWithin c.window)
      (bound : Submission.Tensors.ofPack pack = .ok t) (fit : t.Fit w)
      (kept : h.KeepsFrom c.handle 30)
      (launched : Submission.Launched c.handle t w.slices ls) :
      RunOutcome k pack w q (.ok (), ⟨some { c with handle := h }⟩, q.submitAll ls)

variable {k : Kernel} {pack : TensorPack} {w : Window} {q : Queue} {c : Configuration}
  {t : Submission.Tensors}

theorem ofPack_failsAs (pack : TensorPack) :
    Answer.FailsAs .precondition (Submission.Tensors.ofPack pack) := by
  have get (role : Role) : Answer.FailsAs .precondition (pack.get role) := by
    unfold TensorPack.get
    split
    · exact Answer.failsAs_ok _ _
    · exact Answer.failsAs_error _
  exact (get _).bind fun _ => (get _).bind fun _ => (get _).bind fun _ => Answer.failsAs_ok _ _

theorem run_of_not_configured (hc : k.configuration? = none) :
    k.run pack w q = (.error (.notConfigured Program.kernelName), k, q) := by
  simp only [run, configuration, hc, Answer.error_bind]

theorem run_of_not_within (hc : k.configuration? = some c) (within : ¬ w.IsWithin c.window) :
    k.run pack w q = (.error (.notSubWindow w c.window), k, q) := by
  rw [run, configuration_eq_ok_iff.2 hc]
  simp only [Answer.ok_bind, if_neg within, throw, throwThe, MonadExceptOf.throw]

theorem run_of_unbound (hc : k.configuration? = some c) (within : w.IsWithin c.window) {e : Error}
    (unbound : Submission.Tensors.ofPack pack = .error e) :
    k.run pack w q = (.error e, k, q) := by
  rw [run, configuration_eq_ok_iff.2 hc]
  simp only [if_pos within, unbound, bind, Except.bind]

theorem run_eq_submitSlices (hc : k.configuration? = some c) (within : w.IsWithin c.window)
    (bound : Submission.Tensors.ofPack pack = .ok t) {answer : Except Error Unit} {s : Submission}
    (submitted : (List.forM w.slices (Submission.submitSlice t c.hint?)).perform ⟨c.handle, q⟩ =
      (answer, s)) :
    k.run pack w q = (answer, ⟨some { c with handle := s.handle }⟩, s.queue) := by
  rw [run, configuration_eq_ok_iff.2 hc]
  simp only [Answer.ok_bind, if_pos within, bound, pure, Except.pure, Window.forSlices_eq, submitted]

theorem run_outcome (k : Kernel) (pack : TensorPack) (w : Window) (q : Queue) :
    RunOutcome k pack w q (k.run pack w q) := by
  cases hc : k.configuration? with
  | none =>
    rw [run_of_not_configured hc]
    exact .refused rfl fun c t h => absurd (hc.symm.trans h) (by simp)
  | some c =>
    by_cases within : w.IsWithin c.window
    case neg =>
      rw [run_of_not_within hc within]
      refine .refused rfl fun c' _ h _ => ?_
      rwa [← Option.some.inj (hc.symm.trans h)]
    cases bound : Submission.Tensors.ofPack pack with
    | error e =>
      rw [run_of_unbound hc within bound]
      exact .refused (ofPack_failsAs pack e bound) fun _ _ _ h => absurd (bound.symm.trans h) (by simp)
    | ok t =>
      have inner (slice : Window) (hs : slice ∈ w.slices) : t.Fit slice ↔ t.Fit w :=
        Submission.Tensors.fit_congr fun a ha => Window.span_of_mem_slices hs ha
      by_cases fit : t.Fit w
      · obtain ⟨h, ls, submitted, kept, launched⟩ := Submission.submitSlices_of_fit
          (fun slice hs => (inner slice hs).2 fit) c.hint? ⟨c.handle, q⟩
        rw [run_eq_submitSlices hc within bound submitted]
        exact .submitted hc within bound fit kept launched
      · -- The very first slice fails, so that nothing has been submitted.
        obtain ⟨slice, rest, hs⟩ := List.exists_cons_of_ne_nil w.slices_ne_nil
        have here : ¬ t.Fit slice := fun h => fit ((inner slice (by simp [hs])).1 h)
        obtain ⟨e, h, failed, kind, kept⟩ :=
          Submission.submitSlice_of_not_fit here c.hint? ⟨c.handle, q⟩
        have first : (List.forM w.slices (Submission.submitSlice t c.hint?)).perform ⟨c.handle, q⟩ =
            (.error e, ⟨h, q⟩) := by
          rw [hs, List.forM]
          exact Action.perform_bind_of_error failed _
        rw [run_eq_submitSlices hc within bound first]
        exact .tooLarge hc within bound fit kind kept

theorem exists_run_of_fit (hc : k.configuration? = some c) (within : w.IsWithin c.window)
    (bound : Submission.Tensors.ofPack pack = .ok t) (fit : t.Fit w) (q : Queue) :
    ∃ k' ls, k.run pack w q = (.ok (), k', q.submitAll ls) ∧
      ls.length = (w.slices.length * if (LaunchRange.ofWindow w).isEmpty then 0 else 1) ∧
      ∀ l ∈ ls, l.range = .ofWindow w := by
  have outcome := run_outcome k pack w q
  generalize k.run pack w q = r at outcome
  cases outcome with
  | refused _ unready => exact absurd within (unready c t hc bound)
  | tooLarge _ _ bound' unfit =>
    obtain rfl := Except.ok.inj (bound.symm.trans bound')
    exact absurd fit unfit
  | submitted _ _ _ _ _ launched =>
    refine ⟨_, _, rfl, launched.length_eq fun slice hs => Window.ofWindow_of_mem_slices hs,
      fun l hl => ?_⟩
    obtain ⟨-, slice, hs, carries⟩ := launched.forall_mem l hl
    rw [carries.range, Window.ofWindow_of_mem_slices hs]

end Kernel
end TensorConcat
