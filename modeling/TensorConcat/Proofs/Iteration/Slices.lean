import TensorConcat.Iteration.Slices
import TensorConcat.Launch.Range

/-! The slices of a window as a list: one for every point of its two outermost axes. -/

namespace TensorConcat

namespace Window

variable {w slice : Window} {i j : Int}

def sliceAt (w : Window) (i j : Int) : Window :=
  (w.set .outer (.single i)).set .outermost (.single j)

theorem firstSlice_eq (w : Window) :
    w.firstSlice = w.sliceAt (w.span .outer).start (w.span .outermost).start :=
  rfl

theorem span_sliceAt (w : Window) (i j : Int) (a : Axis) :
    (w.sliceAt i j).span a =
      if a = .outermost then .single j else if a = .outer then .single i else w.span a := by
  rw [sliceAt, span_set, span_set]

theorem ofWindow_sliceAt (w : Window) (i j : Int) :
    LaunchRange.ofWindow (w.sliceAt i j) = .ofWindow w := by
  have inner (a : Axis) (h : a ≠ .outermost) (h' : a ≠ .outer) :
      (w.sliceAt i j).span a = w.span a := by
    rw [span_sliceAt, if_neg h, if_neg h']
  simp only [LaunchRange.ofWindow, inner .x (by decide) (by decide), inner .y (by decide) (by decide),
    inner .z (by decide) (by decide), inner .batch (by decide) (by decide)]

theorem nextSlice?_sliceAt (w : Window) (i j : Int) :
    w.nextSlice? (w.sliceAt i j) =
      if i + 1 < (w.span .outer).stop then some (w.sliceAt (i + 1) j)
      else if j + 1 < (w.span .outermost).stop then
        some (w.sliceAt (w.span .outer).start (j + 1))
      else none := by
  have atOuter : ((w.sliceAt i j).span .outer).start = i := by
    rw [span_sliceAt, if_neg (by decide), if_pos rfl]
    rfl
  have atOutermost : ((w.sliceAt i j).span .outermost).start = j := by
    rw [span_sliceAt, if_pos rfl]
    rfl
  have along : (w.sliceAt i j).set .outer (.single (i + 1)) = w.sliceAt (i + 1) j := by
    apply ext_span
    intro a
    rw [span_set, span_sliceAt, span_sliceAt]
    by_cases ha : a = .outer
    · subst ha
      rfl
    · rw [if_neg ha, if_neg ha, if_neg ha]
  have across : ((w.sliceAt i j).set .outermost (.single (j + 1))).set .outer
      (.single (w.span .outer).start) = w.sliceAt (w.span .outer).start (j + 1) := by
    apply ext_span
    intro a
    rw [span_set, span_set, span_sliceAt, span_sliceAt]
    by_cases ha : a = .outer
    · subst ha
      rfl
    · rw [if_neg ha, if_neg ha, if_neg ha]
      by_cases ho : a = .outermost
      · rw [if_pos ho, if_pos ho]
      · rw [if_neg ho, if_neg ho, if_neg ho]
  simp only [nextSlice?, atOuter, atOutermost, along, across]

section Visits

variable {m : Type → Type} [Monad m] {action : Window → m Unit}

theorem forSlicesFrom_of_none (h : w.nextSlice? slice = none) :
    w.forSlicesFrom action slice = (action slice >>= fun _ => pure ()) := by
  rw [forSlicesFrom]
  congr
  funext _
  split
  next => rfl
  next next hn => exact absurd (h.symm.trans hn) (by simp)

theorem forSlicesFrom_of_some {next : Window} (h : w.nextSlice? slice = some next) :
    w.forSlicesFrom action slice = (action slice >>= fun _ => w.forSlicesFrom action next) := by
  rw [forSlicesFrom]
  congr
  funext _
  split
  next hn => exact absurd (h.symm.trans hn) (by simp)
  next next' hn => rw [Option.some.inj (hn.symm.trans h)]

end Visits

def visit (slice : Window) : StateM (List Window) Unit :=
  modify (· ++ [slice])

def slicesFrom (w slice : Window) : List Window :=
  ((w.forSlicesFrom visit slice).run []).2

def slices (w : Window) : List Window :=
  w.slicesFrom w.firstSlice

theorem slicesFrom_eq_singleton (h : w.nextSlice? slice = none) : w.slicesFrom slice = [slice] := by
  rw [slicesFrom, forSlicesFrom_of_none h]
  rfl

theorem run_visit_of_some {next : Window} (h : w.nextSlice? slice = some next)
    (before : List Window) :
    (w.forSlicesFrom visit slice).run before =
      (w.forSlicesFrom visit next).run (before ++ [slice]) := by
  rw [forSlicesFrom_of_some h]
  rfl

theorem run_visit (w slice : Window) (before : List Window) :
    ((w.forSlicesFrom visit slice).run before).2 = before ++ w.slicesFrom slice := by
  induction slice using forSlicesFrom.induct (w := w) generalizing before with
  | case1 slice ih =>
    rw [slicesFrom]
    cases h : w.nextSlice? slice with
    | none =>
      rw [forSlicesFrom_of_none h]
      rfl
    | some next =>
      rw [run_visit_of_some h, run_visit_of_some h, ih next h, ih next h, List.nil_append,
        List.append_assoc]

theorem slicesFrom_eq_cons {next : Window} (h : w.nextSlice? slice = some next) :
    w.slicesFrom slice = slice :: w.slicesFrom next := by
  rw [slicesFrom, run_visit_of_some h, run_visit]
  rfl

def row (w : Window) (i j : Int) (count : Nat) : List Window :=
  (List.range count).map fun (n : Nat) => w.sliceAt (i + n) j

theorem row_succ (w : Window) (i j : Int) (count : Nat) :
    w.row i j (count + 1) = w.sliceAt i j :: w.row (i + 1) j count := by
  rw [row, row, List.range_succ_eq_map, List.map_cons, List.map_map]
  refine congr (congrArg List.cons (by rw [Int.natCast_zero, Int.add_zero])) ?_
  refine List.map_congr_left fun n _ => ?_
  rw [Function.comp_apply, Nat.succ_eq_add_one, Int.natCast_add, Int.natCast_one, Int.add_comm (n : Int),
    Int.add_assoc]

theorem slicesFrom_row {count : Nat}
    (h : max (w.span .outer).stop (i + 1) = i + (count + 1 : Nat)) :
    w.slicesFrom (w.sliceAt i j) =
      w.row i j (count + 1) ++
        if j + 1 < (w.span .outermost).stop then
          w.slicesFrom (w.sliceAt (w.span .outer).start (j + 1))
        else [] := by
  have next := w.nextSlice?_sliceAt i j
  rw [row_succ]
  -- An empty row still has the slice it begins with, hence the maximum.
  induction count generalizing i with
  | zero =>
    rw [if_neg (by omega)] at next
    split at next
    next more => rw [slicesFrom_eq_cons next, if_pos more]; rfl
    next done => rw [slicesFrom_eq_singleton next, if_neg done]; rfl
  | succ count ih =>
    rw [if_pos (by omega)] at next
    rw [slicesFrom_eq_cons next, ih (by omega) (w.nextSlice?_sliceAt (i + 1) j), row_succ]
    rfl

theorem slicesFrom_rows {count rows : Nat}
    (h : max (w.span .outer).stop ((w.span .outer).start + 1) =
      (w.span .outer).start + (count + 1 : Nat))
    (h' : max (w.span .outermost).stop (j + 1) = j + (rows + 1 : Nat)) :
    w.slicesFrom (w.sliceAt (w.span .outer).start j) =
      (List.range (rows + 1)).flatMap fun (n : Nat) =>
        w.row (w.span .outer).start (j + n) (count + 1) := by
  induction rows generalizing j with
  | zero =>
    rw [slicesFrom_row h, if_neg (by omega)]
    simp
  | succ rows ih =>
    have shift (n : Nat) : j + 1 + (n : Int) = j + (n + 1 : Nat) := by omega
    rw [slicesFrom_row h, if_pos (by omega), ih (by omega),
      List.range_succ_eq_map (n := rows + 1), List.flatMap_cons, List.flatMap_map, Int.natCast_zero,
      Int.add_zero]
    simp only [shift, Nat.succ_eq_add_one]

/-- The points of an axis that slices are taken at. The first one counts even if the axis is empty. -/
def slicePoints (w : Window) (a : Axis) : Nat :=
  max 1 ((w.span a).stop - (w.span a).start).toNat

theorem slicePoints_of_lt {a : Axis} (h : (w.span a).start < (w.span a).stop) :
    w.slicePoints a = ((w.span a).stop - (w.span a).start).toNat := by
  rw [slicePoints]
  omega

theorem slices_eq (w : Window) :
    w.slices = (List.range (w.slicePoints .outermost)).flatMap fun (n : Nat) =>
      w.row (w.span .outer).start ((w.span .outermost).start + n) (w.slicePoints .outer) := by
  have some (a : Axis) : ∃ n, w.slicePoints a = n + 1 ∧
      max (w.span a).stop ((w.span a).start + 1) = (w.span a).start + (n + 1 : Nat) := by
    refine ⟨w.slicePoints a - 1, ?_⟩
    rw [slicePoints]
    omega
  obtain ⟨count, hc, outer⟩ := some .outer
  obtain ⟨rows, hr, outermost⟩ := some .outermost
  rw [hc, hr, slices, firstSlice_eq]
  exact slicesFrom_rows outer outermost

theorem length_slices (w : Window) :
    w.slices.length = w.slicePoints .outermost * w.slicePoints .outer := by
  rw [slices_eq, List.length_flatMap]
  simp only [row, List.length_map, List.length_range, List.map_const', List.sum_replicate_nat]

theorem exists_sliceAt_of_mem_slices (hs : slice ∈ w.slices) : ∃ i j, slice = w.sliceAt i j := by
  rw [slices_eq] at hs
  obtain ⟨n, -, hs⟩ := List.mem_flatMap.1 hs
  obtain ⟨i, -, rfl⟩ := List.mem_map.1 hs
  exact ⟨_, _, rfl⟩

theorem ofWindow_of_mem_slices (hs : slice ∈ w.slices) :
    LaunchRange.ofWindow slice = .ofWindow w := by
  obtain ⟨i, j, rfl⟩ := exists_sliceAt_of_mem_slices hs
  exact w.ofWindow_sliceAt i j

theorem forSlicesFrom_eq {m : Type → Type} [Monad m] (w : Window) (action : Window → m Unit)
    (slice : Window) : w.forSlicesFrom action slice = List.forM (w.slicesFrom slice) action := by
  induction slice using forSlicesFrom.induct (w := w) with
  | case1 slice ih =>
    cases h : w.nextSlice? slice with
    | none => rw [forSlicesFrom_of_none h, slicesFrom_eq_singleton h, List.forM, List.forM]
    | some next => rw [forSlicesFrom_of_some h, slicesFrom_eq_cons h, List.forM, ih next h]

theorem forSlices_eq {m : Type → Type} [Monad m] (w : Window) (action : Window → m Unit) :
    w.forSlices action = List.forM w.slices action :=
  w.forSlicesFrom_eq action _

end Window
end TensorConcat
