import TensorConcat.Proofs.Iteration.PartPoints

/-! Splitting the parts of a window again: the windows at the leaves of a tree of splits tile the
window at its root, and the parts of each split follow one another along their axis. Both hold as long
as no split is into more parts than signed 64-bit numbers count. -/

namespace TensorConcat
namespace Window

variable {v w : Window} {a : Axis} {i count : Nat}

theorem IsWithin.refl (w : Window) : w.IsWithin w :=
  fun a => Span.IsWithin.refl (w.span a)

theorem IsWithin.trans {u : Window} (h : u.IsWithin v) (h' : v.IsWithin w) : u.IsWithin w :=
  fun a => (h a).trans (h' a)

theorem part_isWithin_iff :
    (w.part a i count).IsWithin w ↔ ((w.span a).part i count).IsWithin (w.span a) := by
  constructor
  · intro h
    rw [← part_span_self]
    exact h a
  · intro h b
    rw [span_part]
    split
    next hb => exact hb ▸ h
    next => exact Span.IsWithin.refl _

theorem has_part_iff {p : Axis → Int} :
    (w.part a i count).Has p ↔
      ((w.span a).part i count).Has (p a) ∧ ∀ b, b ≠ a → (w.span b).Has (p b) := by
  constructor
  · intro h
    refine ⟨?_, fun b hb => ?_⟩
    · rw [← part_span_self]
      exact h a
    · rw [← w.part_span_ne i count hb]
      exact h b
  · rintro ⟨along, others⟩ b
    rw [span_part]
    split
    next hb => exact hb ▸ along
    next hb => exact others b hb

/-- Every range is a whole number of steps that can be counted in signed numbers of 64 bits. -/
structure OnGrid (w : Window) : Prop where
  whole (a : Axis) : (w.span a).IsWhole
  fits (a : Axis) : (w.span a).Fits

/-- Windows that tile another one lie in it, and each of its points is in exactly one of them. -/
structure TiledBy (w : Window) (tiles : List Window) : Prop where
  within : ∀ v ∈ tiles, v.IsWithin w
  apart : tiles.Pairwise fun u v => ∀ p, ¬ (u.Has p ∧ v.Has p)
  cover : ∀ p, w.Has p ↔ ∃ v ∈ tiles, v.Has p

/-- The parts follow one another along the axis, from the start of the range to its end, and none has
more than one iteration more than another. -/
structure DealsInOrder (w : Window) (a : Axis) (count : Nat) : Prop where
  first : ((w.part a 0 count).span a).start = (w.span a).start
  forward : ∀ i < count, ((w.part a i count).span a).start ≤ ((w.part a i count).span a).stop
  next : ∀ i, i + 1 < count →
    ((w.part a (i + 1) count).span a).start = ((w.part a i count).span a).stop
  last : ∀ i, i + 1 = count → ((w.part a i count).span a).stop = (w.span a).stop
  even : ∀ i < count, ∀ j < count,
    ((w.part a i count).span a).iterations ≤ ((w.part a j count).span a).iterations + 1

theorem tiledBy_self (w : Window) : w.TiledBy [w] where
  within v hv := by
    obtain rfl := List.mem_singleton.1 hv
    exact .refl v
  apart := List.pairwise_singleton _ _
  cover p := by simp

theorem TiledBy.flatMap {ι : Type} {ids : List ι} {tile : ι → Window} {tiles : ι → List Window}
    (h : w.TiledBy (ids.map tile)) (each : ∀ i ∈ ids, (tile i).TiledBy (tiles i)) :
    w.TiledBy (ids.flatMap tiles) where
  within v hv := by
    obtain ⟨i, hi, hv⟩ := List.mem_flatMap.1 hv
    exact ((each i hi).within v hv).trans (h.within _ (List.mem_map_of_mem hi))
  apart := by
    rw [List.pairwise_flatMap]
    refine ⟨fun i hi => (each i hi).apart, ?_⟩
    have apart := List.pairwise_map.1 h.apart
    refine apart.imp_of_mem fun {i j} hi hj disjoint u hu v hv p => ?_
    rintro ⟨first, second⟩
    exact disjoint p ⟨((each i hi).cover p).2 ⟨u, hu, first⟩, ((each j hj).cover p).2 ⟨v, hv, second⟩⟩
  cover p := by
    rw [h.cover]
    constructor
    · rintro ⟨v, hv, has⟩
      obtain ⟨i, hi, rfl⟩ := List.mem_map.1 hv
      obtain ⟨u, hu, has⟩ := ((each i hi).cover p).1 has
      exact ⟨u, List.mem_flatMap.2 ⟨i, hi, hu⟩, has⟩
    · rintro ⟨u, hu, has⟩
      obtain ⟨i, hi, hu⟩ := List.mem_flatMap.1 hu
      exact ⟨tile i, List.mem_map_of_mem hi, ((each i hi).cover p).2 ⟨u, hu, has⟩⟩

namespace OnGrid

section Split

variable (h : w.OnGrid) (positive : 0 < count) (parts : count ≤ 0x8000000000000000)
include h

theorem deals (a : Axis) (positive : 0 < count) (parts : count ≤ 0x8000000000000000) :
    (w.span a).Deals count where
  small := (h.fits a).pointCount_lt
  positive := positive
  parts := parts

include positive parts

theorem part (a : Axis) (hi : i < count) : (w.part a i count).OnGrid where
  whole b := by
    rw [span_part]
    split
    next => exact (h.whole a).part (h.deals a positive parts) hi
    next => exact h.whole b
  fits b := by
    rw [span_part]
    split
    next => exact (h.whole a).fits_part (h.deals a positive parts) (h.fits a) hi
    next => exact h.fits b

theorem tiledBy_parts (a : Axis) :
    w.TiledBy ((List.finRange count).map fun (i : Fin count) => w.part a i count) where
  within v hv := by
    obtain ⟨i, -, rfl⟩ := List.mem_map.1 hv
    exact part_isWithin_iff.2 ((h.whole a).part_isWithin (h.deals a positive parts) i.isLt)
  apart := by
    rw [List.pairwise_map]
    refine (List.pairwise_lt_finRange count).imp fun {i j} hij p => ?_
    rintro ⟨first, second⟩
    have stop := (h.whole a).stop_part_le (h.deals a positive parts) j.isLt hij
    obtain ⟨-, -, before⟩ := (has_part_iff.1 first).1
    have after := (has_part_iff.1 second).1.start_le
    omega
  cover p := by
    have along := (h.deals a positive parts).has_iff_exists_part (p a)
    constructor
    · intro has
      obtain ⟨i, hi, part⟩ := along.1 (has a)
      exact ⟨_, List.mem_map_of_mem (List.mem_finRange ⟨i, hi⟩),
        has_part_iff.2 ⟨part, fun b _ => has b⟩⟩
    · rintro ⟨v, hv, has⟩
      obtain ⟨i, -, rfl⟩ := List.mem_map.1 hv
      obtain ⟨part, others⟩ := has_part_iff.1 has
      intro b
      by_cases hb : b = a
      · exact hb ▸ along.2 ⟨i, i.isLt, part⟩
      · exact others b hb

theorem dealsInOrder (a : Axis) : w.DealsInOrder a count := by
  have deals := h.deals a positive parts
  have whole := h.whole a
  constructor <;> simp only [part_span_self]
  · rw [deals.start_part positive]
    simp [pointsBefore]
  · exact fun i hi => deals.start_le_stop hi
  · intro i hi
    rw [deals.start_part hi, whole.stop_part deals (Nat.lt_of_succ_lt hi)]
  · rintro i rfl
    rw [whole.stop_part deals (Nat.lt_succ_self i), pointsBefore_all positive, ← whole.stop_eq]
  · intro i hi j hj
    have le := deals.pointCount_part_le hi hj
    rw [Span.pointCount_eq, Span.pointCount_eq]
    omega

end Split

end OnGrid

theorem DealsInOrder.parts_le (h : w.DealsInOrder a count) (size : count < 0x10000000000000000) :
    count ≤ 0x8000000000000000 := by
  apply Nat.le_of_not_lt
  intro large
  -- With more parts than can be counted, one of them starts in front of the range.
  obtain ⟨j, hj, before⟩ := Span.exists_part_start_lt (w.span a).pointCount_eq large size
  have after : (w.span a).start ≤ ((w.part a j count).span a).start := by
    clear before
    induction j with
    | zero => exact Int.le_of_eq h.first.symm
    | succ j ih =>
      rw [h.next j hj]
      exact Int.le_trans (ih (Nat.lt_of_succ_lt hj)) (h.forward j (Nat.lt_of_succ_lt hj))
  rw [part_span_self] at after
  exact absurd before (Int.not_lt_of_ge after)

end Window

/-- A window is kept, or it is split along an axis into all its parts, each of which is treated in the
same way. -/
inductive SplitTree where
  | keep
  | split (a : Axis) (count : Nat) (positive : 0 < count) (size : count < 0x10000000000000000)
      (parts : Fin count → SplitTree)

namespace SplitTree

def leaves : SplitTree → Window → List Window
  | keep, w => [w]
  | split a count _ _ parts, w =>
    (List.finRange count).flatMap fun i => (parts i).leaves (w.part a i count)

def EachSplit (P : Window → Axis → Nat → Prop) : SplitTree → Window → Prop
  | keep, _ => True
  | split a count _ _ parts, w =>
    P w a count ∧ ∀ i, (parts i).EachSplit P (w.part a i count)

def CountsParts (t : SplitTree) (w : Window) : Prop :=
  t.EachSplit (fun _ _ count => count ≤ 0x8000000000000000) w

variable {t : SplitTree} {w : Window}

theorem tiledBy_leaves (h : w.OnGrid) (counts : t.CountsParts w) : w.TiledBy (t.leaves w) := by
  induction t generalizing w with
  | keep => exact w.tiledBy_self
  | split a count positive size parts ih =>
    obtain ⟨le, deeper⟩ := counts
    exact (h.tiledBy_parts positive le a).flatMap fun i _ =>
      ih i (h.part positive le a i.isLt) (deeper i)

theorem eachSplit_dealsInOrder (h : w.OnGrid) (counts : t.CountsParts w) :
    t.EachSplit Window.DealsInOrder w := by
  induction t generalizing w with
  | keep => trivial
  | split a count positive size parts ih =>
    obtain ⟨le, deeper⟩ := counts
    exact ⟨h.dealsInOrder positive le a, fun i => ih i (h.part positive le a i.isLt) (deeper i)⟩

theorem countsParts_of_dealsInOrder (h : t.EachSplit Window.DealsInOrder w) : t.CountsParts w := by
  induction t generalizing w with
  | keep => trivial
  | split a count positive size parts ih =>
    obtain ⟨inOrder, deeper⟩ := h
    exact ⟨inOrder.parts_le size, fun i => ih i (deeper i)⟩

/-- The leaves of a tree of splits tile the window at its root, with the parts of each split in their
order along its axis, exactly if no split has more parts than signed 64-bit numbers count. -/
theorem tiles_in_order_iff (t : SplitTree) (h : w.OnGrid) :
    w.TiledBy (t.leaves w) ∧ t.EachSplit Window.DealsInOrder w ↔ t.CountsParts w :=
  ⟨fun tiled => countsParts_of_dealsInOrder tiled.2,
    fun counts => ⟨tiledBy_leaves h counts, eachSplit_dealsInOrder h counts⟩⟩

def vectorRows : Window :=
  (Window.unit.set .x ⟨0, 12, 4, by decide⟩).set .y (.between 2 7)

def rowsThenVectors : SplitTree :=
  .split .y 3 (by decide) (by decide) fun i =>
    .split .x (i + 2) (by omega) (by omega) fun _ => .keep

theorem rowsThenVectors_tile :
    vectorRows.OnGrid ∧ rowsThenVectors.CountsParts vectorRows ∧
      vectorRows.TiledBy (rowsThenVectors.leaves vectorRows) ∧
      rowsThenVectors.EachSplit Window.DealsInOrder vectorRows := by
  have axes : ∀ a : Axis, (vectorRows.span a).stop =
      (vectorRows.span a).start + (vectorRows.span a).pointCount * (vectorRows.span a).step := by
    decide
  have onGrid : vectorRows.OnGrid := ⟨fun a => ⟨_, axes a⟩, by decide⟩
  have counts : rowsThenVectors.CountsParts vectorRows :=
    ⟨by decide, fun i => ⟨by omega, fun _ => trivial⟩⟩
  exact ⟨onGrid, counts, (rowsThenVectors.tiles_in_order_iff onGrid).2 counts⟩

def tooManyParts : SplitTree :=
  .split .x 0x8000000000000001 (by decide) (by decide) fun _ => .keep

/-- The part with the first index that signed 64-bit numbers do not hold is in front of the range. -/
theorem tooManyParts_leave_window :
    Window.unit.OnGrid ∧ ¬ Window.unit.TiledBy (tooManyParts.leaves .unit) := by
  refine ⟨⟨fun a => ⟨1, ?_⟩, by decide⟩, fun tiled => ?_⟩
  · rw [Window.unit, Window.span_ofSpans]
    rfl
  · have leaf : Window.unit.part .x 0x8000000000000000 0x8000000000000001 ∈
        tooManyParts.leaves .unit :=
      List.mem_flatMap.2 ⟨⟨0x8000000000000000, by decide⟩, List.mem_finRange _,
        List.mem_singleton_self _⟩
    exact absurd (tiled.within _ leaf) (by decide)

end SplitTree
end TensorConcat
