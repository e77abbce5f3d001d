import TensorConcat.Proofs.Iteration.Tiling
import TensorConcat.Proofs.Plan.Cover

/-! Splitting the window over a region along an axis whose last step ends behind the extent. The points
are dealt out as on any other axis. A part without points though starts behind the last step, so it is
not inside the window: all parts are exactly if there are not more of them than points. -/

namespace TensorConcat

theorem pointsBefore_lt_iff {points count i : Nat} (hi : i < count) :
    pointsBefore points count i < points ↔ i < points := by
  have dealt : pointsBefore points count (i + 1) ≤ points :=
    pointsBefore_le hi (Nat.zero_lt_of_lt hi)
  rw [pointsBefore_succ] at dealt
  by_cases few : points < count
  · have none : points / count = 0 := Nat.div_eq_of_lt few
    have all : points % count = points := Nat.mod_eq_of_lt few
    rw [pointsBefore, none, all]
    omega
  · have some : 0 < points / count := Nat.div_pos (Nat.le_of_not_lt few) (Nat.zero_lt_of_lt hi)
    omega

namespace Span

variable {s : Span} {count i : Nat}

theorem Deals.isWithin_part_iff_lt (h : s.Deals count) (hi : i < count)
    (overhang : ∀ n : Nat, s.start + n * s.step ≠ s.stop) :
    (s.part i count).IsWithin s ↔ i < s.pointCount := by
  have before := s.lt_pointCount_iff (pointsBefore s.pointCount count i)
  have apart := overhang (pointsBefore s.pointCount count i)
  rw [h.isWithin_part_iff hi, ← pointsBefore_lt_iff hi, before]
  omega

end Span

namespace Window

/-- Numbers of 64 bits hold what the window over a region is computed from, and its ranges. -/
structure CoverFits (region : ValidRegion) (steps : List Nat) : Prop where
  rounded (a : Axis) : a ≤ .y →
    ceilMultiple (region.shape.extent a) (stepAt steps a) < 0x10000000000000000
  step (a : Axis) : stepAt steps a < 0x8000000000000000
  span (a : Axis) : ((cover region steps).span a).Fits

/-- A step along an axis behind the rows that does not divide the extent of the region. Numbers of 64
bits hold the window, and also the end of the last step along the axis. -/
structure Overhangs (region : ValidRegion) (steps : List Nat) (a : Axis) : Prop where
  outer : .y < a
  not_dvd : ¬ stepAt steps a ∣ region.shape.extent a
  fits : CoverFits region steps
  last : IsSigned64 (((cover region steps).span a).start +
    ((cover region steps).span a).iterations * ((cover region steps).span a).step)

def partPoints (w : Window) (a : Axis) (count : Nat) : List Int :=
  (List.range count).flatMap fun i => ((w.part a i count).span a).points

variable {region : ValidRegion} {steps : List Nat} {a : Axis} {count : Nat}

theorem partPoints_eq {w : Window} (h : (w.span a).Deals count) :
    w.partPoints a count = (w.span a).points := by
  simp only [partPoints, part_span_self, h.points_parts]

namespace Overhangs

variable (h : Overhangs region steps a)
include h

theorem step_eq : ((cover region steps).span a).step = stepAt steps a := by
  rw [cover, span_ofSpans, step_coverSpan region (h.fits.step a)]

theorem stop_eq :
    ((cover region steps).span a).stop =
      ((cover region steps).span a).start + signed64 (region.shape.extent a) := by
  have some : region.shape.extent a ≠ 0 := fun none => h.not_dvd (none ▸ Nat.dvd_zero _)
  have length : coverLength region.shape steps a = region.shape.extent a := by
    rw [coverLength, if_neg (Fin.not_le.2 h.outer)]
    omega
  rw [cover, span_ofSpans, stop_coverSpan, start_coverSpan, length]

theorem ne_stop (n : Nat) :
    ((cover region steps).span a).start + n * ((cover region steps).span a).step ≠
      ((cover region steps).span a).stop := by
  rw [h.stop_eq, h.step_eq]
  intro ends
  have length : signed64 (region.shape.extent a) = (n * stepAt steps a : Nat) := by
    rw [Int.natCast_mul]
    omega
  by_cases small : region.shape.extent a < 0x8000000000000000
  · rw [signed64_of_lt small] at length
    exact h.not_dvd ⟨n, by rw [Nat.mul_comm]; exact Int.ofNat.inj length⟩
  · -- The extent is read as a negative number.
    have below := region.shape.extent_lt a
    rw [signed64_of_add (Nat.add_sub_of_le (Nat.le_of_lt below)) (Nat.sub_pos_of_lt below)
      (Nat.le_of_not_lt small)] at length
    omega

theorem deals (positive : 0 < count) (parts : count ≤ 0x8000000000000000) :
    ((cover region steps).span a).Deals count :=
  ⟨(h.fits.span a).pointCount_lt, positive, parts⟩

/-- All parts lie in the window and take its points in their order exactly if there are not more parts
than points. As long as signed 64-bit numbers count the parts, the points are dealt out in order, and
the parts in the window are those that get one. -/
theorem parts_tile_iff (positive : 0 < count) (size : count < 0x10000000000000000) :
    let w := cover region steps
    ((∀ i < count, (w.part a i count).IsWithin w) ∧ w.partPoints a count = (w.span a).points ↔
      (count : Int) ≤ (w.span a).iterations) ∧
    (count ≤ 0x8000000000000000 →
      w.partPoints a count = (w.span a).points ∧
      ∀ i < count, ((w.part a i count).IsWithin w ↔ (i : Int) < (w.span a).iterations)) := by
  intro w
  have accepted (parts : count ≤ 0x8000000000000000) (i : Nat) (hi : i < count) :
      (w.part a i count).IsWithin w ↔ (i : Int) < (w.span a).iterations := by
    rw [part_isWithin_iff, (h.deals positive parts).isWithin_part_iff_lt hi h.ne_stop,
      Span.pointCount_eq, Int.ofNat_lt]
  refine ⟨⟨fun tiled => ?_, fun enough => ?_⟩, fun parts => ?_⟩
  · have parts : count ≤ 0x8000000000000000 := by
      apply Nat.le_of_not_lt
      intro large
      obtain ⟨j, hj, before⟩ := Span.exists_part_start_lt (w.span a).pointCount_eq large size
      exact absurd before (Int.not_lt_of_ge (part_isWithin_iff.1 (tiled.1 j hj)).1)
    have last := (accepted parts (count - 1) (by omega)).1 (tiled.1 _ (by omega))
    omega
  · have few : (w.span a).pointCount < 0x8000000000000000 := (h.fits.span a).pointCount_lt
    rw [Span.pointCount_eq] at enough
    have parts : count ≤ 0x8000000000000000 := by omega
    refine ⟨fun i hi => (accepted parts i hi).2 ?_, partPoints_eq (h.deals positive parts)⟩
    rw [Span.pointCount_eq]
    omega
  · exact ⟨partPoints_eq (h.deals positive parts), accepted parts⟩

end Overhangs

def threePlanes : ValidRegion :=
  .full ⟨[8, 1, 3], by decide⟩

theorem threePlanes_overhang : Overhangs threePlanes [8, 1, 2] .z :=
  ⟨by decide, by decide, ⟨by decide, by decide, by decide⟩, by decide⟩

theorem parts_tile_threePlanes :
    (∀ i < 2, ((cover threePlanes [8, 1, 2]).part .z i 2).IsWithin (cover threePlanes [8, 1, 2])) ∧
      (cover threePlanes [8, 1, 2]).partPoints .z 2 = [0, 2] := by
  have two : 0 < 2 := by decide
  obtain ⟨within, points⟩ :=
    (threePlanes_overhang.parts_tile_iff two (by decide)).1.2 (by decide)
  exact ⟨within, points.trans (by decide)⟩

/-- The third of three parts has no point, and it is refused. -/
theorem thirdPart_outside :
    Overhangs threePlanes [8, 1, 2] .z ∧
      ¬ ((cover threePlanes [8, 1, 2]).part .z 2 3).IsWithin (cover threePlanes [8, 1, 2]) :=
  ⟨threePlanes_overhang, by decide⟩

end Window
end TensorConcat
