import Mathlib.Algebra.BigOperators.Ring.List
import Mathlib.Algebra.Order.BigOperators.GroupWithZero.List
import Mathlib.Algebra.Order.Ring.Int
import TensorConcat.Iteration.Collapse
import TensorConcat.Proofs.Iteration.Points

/-! Merging the outer axes of a window into one of them, and the number of iterations. The axes that
are merged have as many iterations as their ends multiply to. But neither the start of the axis they
are merged into nor a last step that ends behind its range is multiplied with them, so the number of
iterations is kept only if what that takes away and what it adds make up for each other. -/

namespace TensorConcat

namespace Span

variable {s : Span} {n : Nat}

theorem iterations_eq_iff (h : s.start ≤ s.stop) :
    s.iterations = n ↔
      s.stop ≤ s.start + n * s.step ∧ s.start + n * s.step < s.stop + s.step := by
  have behind := s.lt_pointCount_iff n
  rw [pointCount_eq, Int.ofNat_inj]
  cases n with
  | zero =>
    have := s.step_pos
    omega
  | succ n =>
    have last := s.lt_pointCount_iff n
    rw [Int.natCast_add, Int.natCast_one, Int.add_mul, Int.one_mul] at *
    omega

/-- How far the last step ends behind the range. -/
def overhang (s : Span) : Int :=
  s.start + s.iterations * s.step - s.stop

theorem IsWhole.overhang_eq_zero (h : s.IsWhole) : s.overhang = 0 := by
  rw [overhang, pointCount_eq, ← h.stop_eq, Int.sub_self]

theorem iterations_eq_stop (start : s.start = 0) (step : s.step ≤ 1) (h : 0 ≤ s.stop) :
    s.iterations = s.stop := by
  have unit : s.step = 1 := Int.le_antisymm step s.step_pos
  obtain ⟨n, hn⟩ := Int.eq_ofNat_of_zero_le h
  rw [hn, iterations_eq_iff (by omega), start, unit]
  omega

theorem iterations_mul_iff (h : s.start ≤ s.stop) (nonneg : 0 ≤ s.start) {k : Int} (hk : 0 ≤ k) :
    { s with stop := s.stop * k }.iterations = s.iterations * k ↔
      k = 0 ∨ s.start * (k - 1) ≤ s.overhang * k ∧ s.overhang * k < s.start * (k - 1) + s.step := by
  rcases Int.lt_or_eq_of_le hk with some | rfl
  · obtain ⟨m, rfl⟩ := Int.eq_ofNat_of_zero_le hk
    have grows : s.start ≤ s.stop * m :=
      Int.le_trans h (le_mul_of_one_le_right (Int.le_trans nonneg h) some)
    have count : s.iterations * m = (s.pointCount * m : Nat) := by
      rw [Int.natCast_mul, ← pointCount_eq]
    have ends : s.overhang * m = s.start * m + s.iterations * m * s.step - s.stop * m := by
      rw [overhang, Int.sub_mul, Int.add_mul, Int.mul_right_comm]
    rw [ends, count, or_iff_right (Int.ne_of_gt some), Int.mul_sub, Int.mul_one,
      iterations_eq_iff (s := { s with stop := s.stop * m }) grows]
    simp only
    omega
  · rw [iterations, if_pos (by simpa using nonneg)]
    simp

end Span

namespace Axis

def before (first : Axis) : List Axis :=
  (List.finRange 6).filter (· < first)

def behind (first : Axis) : List Axis :=
  (List.finRange 6).filter (first < ·)

theorem finRange_eq (first : Axis) : List.finRange 6 = first.before ++ first :: first.behind := by
  revert first
  decide

theorem filter_le_eq (first : Axis) : (List.finRange 6).filter (first ≤ ·) = first :: first.behind := by
  revert first
  decide

theorem mem_before_iff {a first : Axis} : a ∈ first.before ↔ a < first := by
  simp [before]

theorem mem_behind_iff {a first : Axis} : a ∈ first.behind ↔ first < a := by
  simp [behind]

end Axis

namespace Window

variable {w full c : Window} {first : Axis}

def IsForward (w : Window) : Prop :=
  ∀ a, 0 ≤ (w.span a).start ∧ (w.span a).start ≤ (w.span a).stop

instance (w : Window) : Decidable w.IsForward :=
  Nat.decidableForallFin _

def collapse (w full : Window) (first : Axis) : Window × Bool :=
  ((w.collapse? full first).getD w, (w.collapse? full first).isSome)

structure CountFits (w : Window) : Prop where
  spans (a : Axis) : (w.span a).Fits
  products : ∀ n ≤ 6, IsSigned64 ((w.iterations.take n).foldr (· * ·) 1)

instance (w : Window) : Decidable w.CountFits :=
  decidable_of_iff ((∀ a : Axis, (w.span a).Fits) ∧
      ∀ n ≤ 6, IsSigned64 ((w.iterations.take n).foldr (· * ·) 1))
    ⟨fun ⟨spans, products⟩ => ⟨spans, products⟩, fun ⟨spans, products⟩ => ⟨spans, products⟩⟩

def endsBetween (w : Window) (first last : Axis) : Int :=
  (((List.finRange 6).filter fun a => first ≤ a ∧ a ≤ last).map fun a => (w.span a).stop).foldr
    (· * ·) 1

/-- A window whose outer axes are to be merged. Signed numbers of 64 bits hold the ends multiplied as
far as the axes can be merged and, if all can be, the iterations before and after. -/
structure Merging (w full : Window) (first : Axis) : Prop where
  forward : w.IsForward
  ends (last : Axis) : first ≤ last → (∀ a, first < a → a ≤ last → w.CollapsibleAt full a) →
    IsSigned64 (w.endsBetween first last)
  counts : w.Collapsible full first → w.CountFits ∧ (w.collapse full first).1.CountFits

instance (w full : Window) (first : Axis) : Decidable (w.Merging full first) :=
  decidable_of_iff (w.IsForward ∧
      (∀ last : Axis, first ≤ last → (∀ a : Axis, first < a → a ≤ last → w.CollapsibleAt full a) →
        IsSigned64 (w.endsBetween first last)) ∧
      (w.Collapsible full first → w.CountFits ∧ (w.collapse full first).1.CountFits))
    ⟨fun ⟨forward, ends, counts⟩ => ⟨forward, ends, counts⟩,
      fun ⟨forward, ends, counts⟩ => ⟨forward, ends, counts⟩⟩

def iterationsOn (w : Window) (axes : List Axis) : Int :=
  (axes.map fun a => (w.span a).iterations).prod

theorem totalIterations_eq_mul (w : Window) (first : Axis) :
    w.totalIterations =
      w.iterationsOn first.before * ((w.span first).iterations * w.iterationsOn first.behind) := by
  rw [totalIterations, iterations, ← List.prod_eq_foldr, first.finRange_eq, List.map_append,
    List.prod_append, List.map_cons, List.prod_cons]
  rfl

theorem iterationsOn_eq_zero_iff {axes : List Axis} :
    w.iterationsOn axes = 0 ↔ ∃ a ∈ axes, (w.span a).iterations = 0 := by
  rw [iterationsOn, List.prod_eq_zero_iff, List.mem_map]

theorem iterationsOn_nonneg (w : Window) (axes : List Axis) : 0 ≤ w.iterationsOn axes := by
  refine List.prod_nonneg fun n hn => ?_
  obtain ⟨a, -, rfl⟩ := List.mem_map.1 hn
  exact (w.span a).iterations_nonneg

/-- What is lost of the start of the axis, once for each further run over it, and what is gained from
the overhang of its last step, once for each run, differ by less than a step. -/
def MergesEvenly (w : Window) (first : Axis) : Prop :=
  (w.span first).start * (w.iterationsOn first.behind - 1) ≤
      (w.span first).overhang * w.iterationsOn first.behind ∧
    (w.span first).overhang * w.iterationsOn first.behind <
      (w.span first).start * (w.iterationsOn first.behind - 1) + (w.span first).step

theorem mergesEvenly_of_whole (start : (w.span first).start = 0) (whole : (w.span first).IsWhole) :
    w.MergesEvenly first := by
  rw [MergesEvenly, start, whole.overhang_eq_zero, Int.zero_mul, Int.zero_mul, Int.zero_add]
  exact ⟨Int.le_refl 0, (w.span first).step_pos⟩

section Collapsed

variable (hc : w.collapse? full first = some c)
include hc

theorem collapsible_of_collapse? : w.Collapsible full first := by
  rw [collapse?] at hc
  split at hc
  next h => exact h
  next => exact absurd hc (by simp)

theorem span_of_collapse? (a : Axis) :
    c.span a = if a < first then w.span a
      else if a = first then { w.span a with stop := w.mergedStop first } else .unit := by
  rw [collapse?, if_pos (collapsible_of_collapse? hc)] at hc
  rw [← Option.some.inj hc, span_ofSpans]

theorem totalIterations_of_collapse? :
    c.totalIterations = w.iterationsOn first.before *
      { w.span first with stop := w.mergedStop first }.iterations := by
  have before : c.iterationsOn first.before = w.iterationsOn first.before := by
    refine congrArg List.prod (List.map_congr_left fun a ha => ?_)
    rw [span_of_collapse? hc, if_pos (Axis.mem_before_iff.1 ha)]
  have behind : c.iterationsOn first.behind = 1 := by
    refine List.prod_eq_one fun n hn => ?_
    obtain ⟨a, ha, rfl⟩ := List.mem_map.1 hn
    have later := Axis.mem_behind_iff.1 ha
    rw [span_of_collapse? hc, if_neg (Fin.not_lt.2 (Fin.le_of_lt later)), if_neg (Fin.ne_of_gt later)]
    rfl
  rw [c.totalIterations_eq_mul first, before, behind, Int.mul_one, span_of_collapse? hc,
    if_neg (Fin.lt_irrefl first), if_pos rfl]

theorem mergedStop_of_collapse? (nonneg : ∀ a, 0 ≤ (w.span a).stop) :
    w.mergedStop first = (w.span first).stop * w.iterationsOn first.behind := by
  rw [mergedStop, first.filter_le_eq, ← List.prod_eq_foldr, List.map_cons, List.prod_cons, iterationsOn]
  refine congrArg _ (congrArg List.prod (List.map_congr_left fun a ha => ?_))
  obtain ⟨start, -, step, -⟩ := collapsible_of_collapse? hc a (Axis.mem_behind_iff.1 ha)
  rw [Span.iterations_eq_stop start step (nonneg a)]

end Collapsed

theorem exists_other_empty_iff :
    (∃ a, a ≠ first ∧ (w.span a).iterations = 0) ↔
      w.iterationsOn first.before = 0 ∨ w.iterationsOn first.behind = 0 := by
  rw [iterationsOn_eq_zero_iff, iterationsOn_eq_zero_iff]
  simp only [Axis.mem_before_iff, Axis.mem_behind_iff]
  constructor
  · rintro ⟨a, other, none⟩
    exact (Fin.lt_or_lt_of_ne other).imp (⟨a, ·, none⟩) (⟨a, ·, none⟩)
  · rintro (⟨a, less, none⟩ | ⟨a, less, none⟩)
    · exact ⟨a, Fin.ne_of_lt less, none⟩
    · exact ⟨a, Fin.ne_of_gt less, none⟩

/-- A window that is not merged is returned as it is. A merged one has the iterations of the window
exactly if the window has none on another axis, or the axes are merged evenly. -/
theorem collapse_keeps_iterations_iff (h : w.Merging full first) :
    ((w.collapse full first).2 = false → (w.collapse full first).1 = w) ∧
    ((w.collapse full first).2 = true →
      ((w.collapse full first).1.totalIterations = w.totalIterations ↔
        (∃ a, a ≠ first ∧ (w.span a).iterations = 0) ∨ w.MergesEvenly first)) := by
  have forward := h.forward
  rw [collapse]
  cases hc : w.collapse? full first with
  | none => exact ⟨fun _ => rfl, fun merged => absurd merged (by simp)⟩
  | some c =>
    refine ⟨fun kept => absurd kept (by simp), fun _ => ?_⟩
    have stop := mergedStop_of_collapse? hc fun a => Int.le_trans (forward a).1 (forward a).2
    rw [Option.getD_some, totalIterations_of_collapse? hc, w.totalIterations_eq_mul first, stop,
      mul_eq_mul_left_iff, exists_other_empty_iff, or_assoc, or_comm,
      Span.iterations_mul_iff (forward first).2 (forward first).1 (w.iterationsOn_nonneg _)]
    rfl

def batches (planes : Span) : Window :=
  (Window.unit.set .z planes).set .batch (.between 0 3)

theorem collapse_keeps_batches :
    (batches (.between 0 2)).Merging (batches (.between 0 2)) .z ∧
      ((batches (.between 0 2)).collapse (batches (.between 0 2)) .z).2 = true ∧
      ((batches (.between 0 2)).collapse (batches (.between 0 2)) .z).1.totalIterations =
        (batches (.between 0 2)).totalIterations := by
  have merging : (batches (.between 0 2)).Merging (batches (.between 0 2)) .z := by decide
  have even : (batches (.between 0 2)).MergesEvenly .z :=
    mergesEvenly_of_whole (by decide) ⟨2, by decide⟩
  exact ⟨merging, by decide, ((collapse_keeps_iterations_iff merging).2 (by decide)).2 (.inr even)⟩

/-- The second of two planes is merged with the batches as if the first one were in the window. -/
theorem collapse_adds_iterations :
    (batches (.between 1 2)).Merging (batches (.between 0 2)) .z ∧
      (batches (.between 0 2)).IsForward ∧
      ((batches (.between 1 2)).collapse (batches (.between 0 2)) .z).2 = true ∧
      ((batches (.between 1 2)).collapse (batches (.between 0 2)) .z).1.totalIterations = 5 ∧
      (batches (.between 1 2)).totalIterations = 3 := by
  decide

end Window
end TensorConcat
