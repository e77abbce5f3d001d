import TensorConcat.Proofs.Iteration.Slices

/-! Sliding over the slices of a window: from the first slice on, as long as there is a further one.
That goes through all points of the two outermost axes in their order, and comes to an end at the last
of them. -/

namespace TensorConcat
namespace Window

variable {w slice left : Window} {moves : List Window} {i j : Int}

def slide (w slice : Window) : Window × Bool :=
  ((w.nextSlice? slice).getD slice, (w.nextSlice? slice).isSome)

/-- Sliding on from a slice until an attempt fails: the slices moved to, and the slice that the failed
attempt leaves. -/
inductive SlidesOver (w : Window) : Window → List Window → Window → Prop
  | stays {slice left : Window} (h : w.slide slice = (left, false)) : SlidesOver w slice [] left
  | moves {slice next left : Window} {moves : List Window} (h : w.slide slice = (next, true))
      (more : SlidesOver w next moves left) : SlidesOver w slice (next :: moves) left

theorem slide_of_none (h : w.nextSlice? slice = none) : w.slide slice = (slice, false) := by
  rw [slide, h]
  rfl

theorem slide_of_some {next : Window} (h : w.nextSlice? slice = some next) :
    w.slide slice = (next, true) := by
  rw [slide, h]
  rfl

theorem nextSlice?_of_slide {next : Window} (h : w.slide slice = (next, true)) :
    w.nextSlice? slice = some next := by
  cases hn : w.nextSlice? slice with
  | none => exact absurd ((slide_of_none hn).symm.trans h) (by simp)
  | some next' => rw [(Prod.mk.inj ((slide_of_some hn).symm.trans h)).1]

theorem eq_of_slide (h : w.slide slice = (left, false)) :
    w.nextSlice? slice = none ∧ left = slice := by
  cases hn : w.nextSlice? slice with
  | none => exact ⟨rfl, (Prod.mk.inj ((slide_of_none hn).symm.trans h)).1.symm⟩
  | some next => exact absurd ((slide_of_some hn).symm.trans h) (by simp)

theorem head?_slicesFrom (w slice : Window) : (w.slicesFrom slice).head? = some slice := by
  cases h : w.nextSlice? slice with
  | none => rw [slicesFrom_eq_singleton h, List.head?_cons]
  | some next => rw [slicesFrom_eq_cons h, List.head?_cons]

theorem slidesOver_iff :
    w.SlidesOver slice moves left ↔
      w.slicesFrom slice = slice :: moves ∧ (slice :: moves).getLast? = some left := by
  constructor
  · intro h
    induction h with
    | stays h =>
      obtain ⟨none, rfl⟩ := eq_of_slide h
      exact ⟨slicesFrom_eq_singleton none, rfl⟩
    | moves h _ ih =>
      refine ⟨by rw [slicesFrom_eq_cons (nextSlice?_of_slide h), ih.1], ?_⟩
      rw [List.getLast?_cons_cons]
      exact ih.2
  · rintro ⟨slices, last⟩
    induction moves generalizing slice with
    | nil =>
      cases hn : w.nextSlice? slice with
      | none =>
        obtain rfl := Option.some.inj last
        exact .stays (slide_of_none hn)
      | some next =>
        have head := w.head?_slicesFrom next
        rw [slicesFrom_eq_cons hn, List.cons.injEq] at slices
        rw [slices.2] at head
        exact absurd head (by simp)
    | cons next moves ih =>
      cases hn : w.nextSlice? slice with
      | none => exact absurd ((slicesFrom_eq_singleton hn).symm.trans slices) (by simp)
      | some next' =>
        have head := w.head?_slicesFrom next'
        rw [slicesFrom_eq_cons hn, List.cons.injEq] at slices
        obtain ⟨-, further⟩ := slices
        rw [further, List.head?_cons] at head
        obtain rfl := Option.some.inj head
        rw [List.getLast?_cons_cons] at last
        exact .moves (slide_of_some hn) (ih further last)

def outerPoint (slice : Window) : Int × Int :=
  ((slice.span .outer).start, (slice.span .outermost).start)

/-- The order in which the inner one of the two axes runs fastest. -/
def Precedes (p q : Int × Int) : Prop :=
  p.2 < q.2 ∨ p.2 = q.2 ∧ p.1 < q.1

structure IsSliceOf (slice w : Window) : Prop where
  inner : ∀ a ∈ Axis.inner, slice.span a = w.span a
  outer : slice.span .outer = .single slice.outerPoint.1
  outermost : slice.span .outermost = .single slice.outerPoint.2

theorem outerPoint_sliceAt (w : Window) (i j : Int) : (w.sliceAt i j).outerPoint = (i, j) := by
  rw [outerPoint, span_sliceAt, span_sliceAt, if_neg (by decide), if_pos rfl, if_pos rfl]
  rfl

theorem isSliceOf_sliceAt (w : Window) (i j : Int) : (w.sliceAt i j).IsSliceOf w where
  inner a ha := by
    have others : ∀ a ∈ Axis.inner, a ≠ .outermost ∧ a ≠ .outer := by decide
    rw [span_sliceAt, if_neg (others a ha).1, if_neg (others a ha).2]
  outer := by rw [outerPoint_sliceAt, span_sliceAt, if_neg (by decide), if_pos rfl]
  outermost := by rw [outerPoint_sliceAt, span_sliceAt, if_pos rfl]

theorem map_outerPoint_slices (w : Window) :
    w.slices.map outerPoint = (List.range (w.slicePoints .outermost)).flatMap fun (m : Nat) =>
      (List.range (w.slicePoints .outer)).map fun (n : Nat) =>
        ((w.span .outer).start + n, (w.span .outermost).start + m) := by
  rw [slices_eq, List.map_flatMap]
  simp only [row, List.map_map, Function.comp_def, outerPoint_sliceAt]

theorem pairwise_outerPoint_slices (w : Window) : (w.slices.map outerPoint).Pairwise Precedes := by
  rw [map_outerPoint_slices, List.pairwise_flatMap]
  constructor
  · intro m _
    rw [List.pairwise_map]
    exact List.pairwise_lt_range.imp fun less => .inr ⟨rfl, by simpa using less⟩
  · refine List.pairwise_lt_range.imp fun {m m'} less p hp q hq => ?_
    obtain ⟨n, -, rfl⟩ := List.mem_map.1 hp
    obtain ⟨n', -, rfl⟩ := List.mem_map.1 hq
    exact .inl (by simpa using less)

section Points

variable (outer : (w.span .outer).start < (w.span .outer).stop)
  (outermost : (w.span .outermost).start < (w.span .outermost).stop)
include outer outermost

theorem mem_outerPoint_slices_iff :
    (i, j) ∈ w.slices.map outerPoint ↔
      ((w.span .outer).start ≤ i ∧ i < (w.span .outer).stop) ∧
        (w.span .outermost).start ≤ j ∧ j < (w.span .outermost).stop := by
  rw [map_outerPoint_slices, slicePoints_of_lt outer, slicePoints_of_lt outermost]
  simp only [List.mem_flatMap, List.mem_map, List.mem_range, Prod.mk.injEq]
  constructor
  · rintro ⟨m, hm, n, hn, rfl, rfl⟩
    omega
  · rintro ⟨hi, hj⟩
    exact ⟨(j - (w.span .outermost).start).toNat, by omega, (i - (w.span .outer).start).toNat,
      by omega, by omega, by omega⟩

theorem length_slices_eq :
    (w.slices.length : Int) = ((w.span .outer).stop - (w.span .outer).start) *
      ((w.span .outermost).stop - (w.span .outermost).start) := by
  rw [length_slices, slicePoints_of_lt outer, slicePoints_of_lt outermost, Int.natCast_mul,
    Int.toNat_of_nonneg (by omega), Int.toNat_of_nonneg (by omega), Int.mul_comm]

/-- Sliding ends in one way only. It moves once less often than the two outermost axes have points,
takes a slice at each of these points, in their order, and is left at the last slice. -/
theorem slides_over_points :
    ∃ moves last, (∀ moves' left, w.SlidesOver w.firstSlice moves' left ↔
        moves' = moves ∧ left = last) ∧
      (moves.length : Int) = ((w.span .outer).stop - (w.span .outer).start) *
        ((w.span .outermost).stop - (w.span .outermost).start) - 1 ∧
      ((w.firstSlice :: moves).map outerPoint).Pairwise Precedes ∧
      (∀ i j, (i, j) ∈ (w.firstSlice :: moves).map outerPoint ↔
        ((w.span .outer).start ≤ i ∧ i < (w.span .outer).stop) ∧
          (w.span .outermost).start ≤ j ∧ j < (w.span .outermost).stop) ∧
      (∀ slice ∈ w.firstSlice :: moves, slice.IsSliceOf w) ∧
      (w.firstSlice :: moves).getLast? = some last := by
  obtain ⟨moves, slices⟩ : ∃ moves, w.slices = w.firstSlice :: moves :=
    List.head?_eq_some_iff.1 (w.head?_slicesFrom w.firstSlice)
  have last : (w.firstSlice :: moves).getLast? =
      some ((w.firstSlice :: moves).getLast (List.cons_ne_nil _ _)) := List.getLast?_eq_some_getLast _
  have length := length_slices_eq outer outermost
  have inOrder := w.pairwise_outerPoint_slices
  have points (i j : Int) := mem_outerPoint_slices_iff outer outermost (i := i) (j := j)
  have taken (slice : Window) (hs : slice ∈ w.slices) : slice.IsSliceOf w := by
    obtain ⟨i, j, rfl⟩ := exists_sliceAt_of_mem_slices hs
    exact w.isSliceOf_sliceAt i j
  rw [slices] at length inOrder points taken
  rw [List.length_cons] at length
  refine ⟨moves, _, fun moves' left => ?_, by omega, inOrder, points, taken, last⟩
  rw [slidesOver_iff, show w.slicesFrom w.firstSlice = w.firstSlice :: moves from slices,
    List.cons.injEq]
  constructor
  · rintro ⟨⟨-, rfl⟩, left'⟩
    exact ⟨rfl, Option.some.inj (left'.symm.trans last)⟩
  · rintro ⟨rfl, rfl⟩
    exact ⟨⟨rfl, rfl⟩, last⟩

end Points

def fourPoints : Window :=
  (Window.unit.set .outer (.between (-1) 1)).set .outermost (.between 3 5)

theorem slides_over_fourPoints :
    ∃ moves last, fourPoints.SlidesOver fourPoints.firstSlice moves last ∧ moves.length = 3 ∧
      (0, 4) ∈ (fourPoints.firstSlice :: moves).map outerPoint ∧
      (fourPoints.firstSlice :: moves).getLast? = some last := by
  obtain ⟨moves, last, slides, length, -, points, -, left⟩ :=
    slides_over_points (w := fourPoints) (by decide) (by decide)
  have three : (moves.length : Int) = 3 := length.trans (by decide)
  exact ⟨moves, last, (slides moves last).2 ⟨rfl, rfl⟩, Int.ofNat.inj three,
    (points 0 4).2 (by decide), left⟩

end Window
end TensorConcat
