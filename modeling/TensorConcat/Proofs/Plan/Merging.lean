import TensorConcat.Proofs.Iteration.Points
import TensorConcat.Proofs.Plan.Needs

/-! Merging access patterns into a window: what is left of the window are the points at which the
accesses to all allocated tensors fit, and the padding of the other tensors covers what is left. -/

namespace TensorConcat

namespace Span

variable {s : Span} {n : Nat}

theorem exists_steps (s : Span) (distance : Int) :
    ∃ c : Nat, (if 0 < distance then stepsOver distance s.step else 0) = c ∧
      ∀ i : Nat, c ≤ i ↔ distance ≤ i * s.step := by
  by_cases h : 0 < distance
  · obtain ⟨c, hc⟩ := Int.eq_ofNat_of_zero_le (Int.le_of_lt (stepsOver_pos s.step_pos h))
    refine ⟨c, by rw [if_pos h, hc], fun i => ?_⟩
    rw [← stepsOver_le_iff s.step_pos, hc, Int.ofNat_le]
  · refine ⟨0, by rw [if_neg h]; rfl, fun i => ?_⟩
    have := Int.mul_nonneg (Int.natCast_nonneg i) (Int.le_of_lt s.step_pos)
    exact ⟨fun _ => by omega, fun _ => Nat.zero_le i⟩

@[simp] theorem step_narrow (s : Span) (before after : Int) :
    (s.narrow before after).step = s.step :=
  rfl

theorem exists_narrow_eq (h : s.stop = s.start + n * s.step) (before after : Int) :
    ∃ front back : Nat,
      (∀ i : Nat, front ≤ i ↔ before ≤ i * s.step) ∧ (∀ i : Nat, back ≤ i ↔ after ≤ i * s.step) ∧
      (s.narrow before after).start = s.start + front * s.step ∧
      (s.narrow before after).stop =
        (s.narrow before after).start + (n - back - front : Nat) * s.step := by
  obtain ⟨front, hf, front_le⟩ := s.exists_steps before
  obtain ⟨back, hb, back_le⟩ := s.exists_steps after
  have start : (if 0 < before then s.start + stepsOver before s.step * s.step else s.start) =
      s.start + front * s.step := by
    rw [← hf]
    split
    · rfl
    · rw [Int.zero_mul, Int.add_zero]
  have stop : (if 0 < after then s.stop - stepsOver after s.step * s.step else s.stop) =
      s.stop - back * s.step := by
    rw [← hb]
    split
    · rfl
    · rw [Int.zero_mul, Int.sub_zero]
  refine ⟨front, back, front_le, back_le, start, ?_⟩
  simp only [narrow, start, h]
  rcases Nat.le_total (front + back) n with le | le
  · obtain ⟨rest, rfl⟩ := Nat.exists_eq_add_of_le le
    have left : front + back + rest - back - front = rest := by omega
    have pos := Int.mul_nonneg (Int.natCast_nonneg rest) (Int.le_of_lt s.step_pos)
    rw [left]
    simp only [Int.natCast_add, Int.add_mul]
    omega
  · have none : n - back - front = 0 := by omega
    have neg := Int.mul_le_mul_of_nonneg_right (Int.ofNat_le.2 le) (Int.le_of_lt s.step_pos)
    rw [Int.natCast_add, Int.add_mul] at neg
    rw [none, Int.natCast_zero, Int.zero_mul]
    omega

theorem IsWhole.narrow (h : s.IsWhole) (before after : Int) : (s.narrow before after).IsWhole := by
  obtain ⟨n, hn⟩ := h
  obtain ⟨front, back, -, -, -, stop⟩ := exists_narrow_eq hn before after
  exact ⟨_, stop⟩

theorem IsWhole.has_narrow_iff (h : s.IsWhole) (before after p : Int) :
    (s.narrow before after).Has p ↔
      s.Has p ∧ s.start + before ≤ p ∧ p + after ≤ s.stop - s.step := by
  obtain ⟨n, hn⟩ := h
  obtain ⟨front, back, front_le, back_le, start, stop⟩ := exists_narrow_eq hn before after
  have last {i : Nat} (hi : i < n) :
      s.stop - s.step = s.start + i * s.step + (n - 1 - i : Nat) * s.step := by
    rw [hn, Int.natCast_sub (by omega), Int.natCast_sub (by omega), Int.sub_mul, Int.sub_mul,
      Int.natCast_one, Int.one_mul]
    omega
  rw [has_iff_of_stop stop, has_iff_of_stop hn, start, step_narrow]
  constructor
  · rintro ⟨j, hj, rfl⟩
    have point : s.start + front * s.step + j * s.step = s.start + (front + j : Nat) * s.step := by
      rw [Int.natCast_add, Int.add_mul, Int.add_assoc]
    have inFront := (front_le (front + j)).1 (Nat.le_add_right front j)
    have behind := (back_le (n - 1 - (front + j))).1 (by omega)
    refine ⟨⟨front + j, by omega, point⟩, ?_, ?_⟩
    · rw [point]
      exact Int.add_le_add_left inFront _
    · rw [last (show front + j < n by omega), point]
      exact Int.add_le_add_left behind _
  · rintro ⟨⟨i, hi, rfl⟩, inFront, behind⟩
    rw [Int.add_le_add_iff_left, ← front_le] at inFront
    rw [last hi, Int.add_le_add_iff_left, ← back_le] at behind
    refine ⟨i - front, by omega, ?_⟩
    have split : (i : Int) * s.step = front * s.step + (i - front : Nat) * s.step := by
      rw [← Int.add_mul, ← Int.natCast_add, Nat.add_sub_cancel' inFront]
    rw [split, Int.add_assoc]

theorem IsWhole.has_narrow_if_needed_iff (h : s.IsWhole) (before after p : Int) :
    (if 0 < before ∨ 0 < after then s.narrow before after else s).Has p ↔
      s.Has p ∧ s.start + before ≤ p ∧ p + after ≤ s.stop - s.step := by
  split
  next => exact h.has_narrow_iff before after p
  next needless =>
    refine ⟨fun hp => ⟨hp, ?_⟩, And.left⟩
    have := hp.start_le
    have := hp.le_last h
    omega

theorem IsWhole.narrow_if_needed (h : s.IsWhole) (before after : Int) :
    (if 0 < before ∨ 0 < after then s.narrow before after else s).IsWhole := by
  split
  next => exact h.narrow before after
  next => exact h

end Span

namespace Window

structure IsWholePlane (w : Window) : Prop where
  columns : (w.span .x).IsWhole
  rows : (w.span .y).IsWhole

theorem has_iff (w : Window) (p : Axis → Int) :
    w.Has p ↔ (w.span .x).Has (p .x) ∧ (w.span .y).Has (p .y) ∧
      ∀ a, .y < a → (w.span a).Has (p a) := by
  have axes : ∀ a : Axis, a = .x ∨ a = .y ∨ .y < a := by decide
  constructor
  · intro h
    exact ⟨h .x, h .y, fun a _ => h a⟩
  · rintro ⟨hx, hy, outer⟩ a
    rcases axes a with rfl | rfl | ha
    · exact hx
    · exact hy
    · exact outer a ha

theorem not_has_empty (p : Axis → Int) : ¬ empty.Has p := by
  intro h
  have := (Span.exists_has_iff _).1 ⟨_, h .x⟩
  rw [empty, span_ofSpans] at this
  exact absurd this (by decide)

theorem isWholePlane_empty : empty.IsWholePlane := by
  have whole : Span.empty.IsWhole := ⟨0, rfl⟩
  constructor
  · rwa [empty, span_ofSpans]
  · rwa [empty, span_ofSpans]

end Window

namespace AccessPattern

def boxAt (p : AccessPattern) (x y : Int) : Box :=
  match p with
  | .fixed b => b
  | .horizontal offset width => ⟨x + offset, x + offset + width, y, y + 1⟩

/-- What is left of a window for an access. -/
def narrowed (p : AccessPattern) (w : Window) (d : Descriptor) : Window :=
  (p.narrow? w d).getD w

end AccessPattern

/-- The tensor can still be padded for the access at a point, or it has been padded enough. -/
def Access.FitsAt (a : Access) (p : Axis → Int) : Prop :=
  a.descriptor.resizable = true ∨ (a.pattern.boxAt (p .x) (p .y)).IsWithin a.descriptor.plane

instance (a : Access) (p : Axis → Int) : Decidable (a.FitsAt p) :=
  inferInstanceAs (Decidable (_ ∨ _))

namespace AccessPattern

variable {w : Window} {d : Descriptor} {p : Axis → Int}

theorem has_narrowed_fixed_iff (b : Box) (hr : d.resizable ≠ true) :
    ((AccessPattern.fixed b).narrowed w d).Has p ↔ w.Has p ∧ b.IsWithin d.paddedPlane := by
  rw [narrowed]
  by_cases fits : b.IsWithin d.paddedPlane
  · rw [((fixed b).narrow?_eq_none_iff w d).2 (Or.inr fits), Option.getD_none]
    exact (and_iff_left fits).symm
  · have emptied : (fixed b).narrow? w d = some .empty := by
      rw [narrow?, if_neg hr]
      exact if_neg fits
    rw [emptied, Option.getD_some]
    exact iff_of_false (Window.not_has_empty p) fun h => fits h.2

theorem span_narrowed_horizontal (offset width : Int) (hr : d.resizable ≠ true) (a : Axis) :
    let b := (horizontal offset width).box w
    let plane := d.paddedPlane
    ((horizontal offset width).narrowed w d).span a =
      if a = .y then
        if 0 < plane.top - b.top ∨ 0 < b.bottom - plane.bottom then
          (w.span .y).narrow (plane.top - b.top) (b.bottom - plane.bottom)
        else w.span .y
      else if a = .x then
        if 0 < plane.left - b.left ∨ 0 < b.right - plane.right then
          (w.span .x).narrow (plane.left - b.left) (b.right - plane.right)
        else w.span .x
      else w.span a := by
  simp only [narrowed, narrow?, if_neg hr]
  split
  next => simp only [Option.getD_some, Window.span_set]
  next needless =>
    obtain ⟨columns, rows⟩ := not_or.1 needless
    rw [if_neg columns, if_neg rows, Option.getD_none]
    split
    next ha => rw [ha]
    next =>
      split
      next ha => rw [ha]
      next => rfl

theorem has_narrowed_horizontal_iff (offset width : Int) (hr : d.resizable ≠ true)
    (whole : w.IsWholePlane) :
    ((horizontal offset width).narrowed w d).Has p ↔
      w.Has p ∧ ((horizontal offset width).boxAt (p .x) (p .y)).IsWithin d.paddedPlane := by
  have spans := span_narrowed_horizontal (w := w) offset width hr
  have outer (a : Axis) (ha : .y < a) : ((horizontal offset width).narrowed w d).span a = w.span a := by
    rw [spans, if_neg (Fin.ne_of_gt ha), if_neg (Fin.ne_of_gt (Fin.lt_trans (by decide) ha))]
  rw [Window.has_iff, Window.has_iff w, spans .x, spans .y, if_neg (by decide), if_pos rfl, if_pos rfl,
    whole.columns.has_narrow_if_needed_iff, whole.rows.has_narrow_if_needed_iff]
  generalize d.paddedPlane = plane
  simp only [box, boxAt, Box.IsWithin]
  constructor
  · rintro ⟨⟨hx, left, right⟩, ⟨hy, top, bottom⟩, rest⟩
    refine ⟨⟨hx, hy, fun a ha => outer a ha ▸ rest a ha⟩, ?_⟩
    omega
  · rintro ⟨⟨hx, hy, rest⟩, fits⟩
    refine ⟨⟨hx, ?_⟩, ⟨hy, ?_⟩, fun a ha => (outer a ha).symm ▸ rest a ha⟩
    · omega
    · omega

theorem isWholePlane_narrowed (q : AccessPattern) (whole : w.IsWholePlane) :
    (q.narrowed w d).IsWholePlane := by
  by_cases hr : d.resizable = true
  · rwa [narrowed, narrow?_eq_none_of_resizable q w hr]
  · cases q with
    | fixed b =>
      rw [narrowed, narrow?, if_neg hr]
      simp only
      split
      · exact whole
      · exact Window.isWholePlane_empty
    | horizontal offset width =>
      have spans := span_narrowed_horizontal (w := w) offset width hr
      constructor
      · rw [spans .x, if_neg (by decide), if_pos rfl]
        exact whole.columns.narrow_if_needed _ _
      · rw [spans .y, if_pos rfl]
        exact whole.rows.narrow_if_needed _ _

end AccessPattern

namespace Access

variable {w : Window} {a : Access} {p : Axis → Int}

theorem has_narrowed_iff (whole : w.IsWholePlane)
    (signed : a.descriptor.resizable = false → a.descriptor.SignedPlane) :
    (a.pattern.narrowed w a.descriptor).Has p ↔ w.Has p ∧ a.FitsAt p := by
  by_cases hr : a.descriptor.resizable = true
  · rw [AccessPattern.narrowed, AccessPattern.narrow?_eq_none_of_resizable _ _ hr]
    exact (and_iff_left (Or.inl hr)).symm
  · have committed : a.FitsAt p ↔
        (a.pattern.boxAt (p .x) (p .y)).IsWithin a.descriptor.plane := or_iff_right hr
    rw [committed, ← (signed (Bool.eq_false_iff.2 hr)).paddedPlane_eq]
    cases a.pattern with
    | fixed b => exact AccessPattern.has_narrowed_fixed_iff b hr
    | horizontal offset width => exact AccessPattern.has_narrowed_horizontal_iff offset width hr whole

theorem narrowAll_cons (w : Window) (a : Access) (rest : List Access) :
    (narrowAll w (a :: rest)).1 = (narrowAll (a.pattern.narrowed w a.descriptor) rest).1 := by
  rw [narrowAll, AccessPattern.narrowed]
  cases a.pattern.narrow? w a.descriptor with
  | none => rfl
  | some narrower => rfl

theorem has_narrowAll_iff {accesses : List Access} (whole : w.IsWholePlane)
    (signed : ∀ a ∈ accesses, a.descriptor.resizable = false → a.descriptor.SignedPlane) :
    (narrowAll w accesses).1.Has p ↔ w.Has p ∧ ∀ a ∈ accesses, a.FitsAt p := by
  induction accesses generalizing w with
  | nil => simp [narrowAll]
  | cons a rest ih =>
    rw [List.forall_mem_cons] at signed
    rw [narrowAll_cons, ih (a.pattern.isWholePlane_narrowed whole) signed.2,
      has_narrowed_iff whole signed.1, List.forall_mem_cons, and_assoc]

theorem isWholePlane_narrowAll {accesses : List Access} (whole : w.IsWholePlane) :
    (narrowAll w accesses).1.IsWholePlane := by
  induction accesses generalizing w with
  | nil => exact whole
  | cons a rest ih =>
    rw [narrowAll_cons]
    exact ih (a.pattern.isWholePlane_narrowed whole)

end Access

namespace AccessPattern

variable {w : Window} {d : Descriptor} {p : Axis → Int}

theorem boxAt_isWithin_box (q : AccessPattern) (whole : w.IsWholePlane) (hp : w.Has p) :
    (q.boxAt (p .x) (p .y)).IsWithin (q.box w) := by
  cases q with
  | fixed b => exact ⟨Int.le_refl _, Int.le_refl _, Int.le_refl _, Int.le_refl _⟩
  | horizontal offset width =>
    have := (hp .x).start_le
    have := (hp .x).le_last whole.columns
    have := (hp .y).start_le
    have := (hp .y).le_last whole.rows
    simp only [boxAt, box, Box.IsWithin]
    omega

theorem box_isWithin_iff (q : AccessPattern) (whole : w.IsWholePlane) (some : ∃ p, w.Has p)
    (outer : Box) :
    (q.box w).IsWithin outer ↔ ∀ p, w.Has p → (q.boxAt (p .x) (p .y)).IsWithin outer := by
  constructor
  · intro h p hp
    exact (q.boxAt_isWithin_box whole hp).trans h
  · intro h
    obtain ⟨p, hp⟩ := some
    cases q with
    | fixed b => exact h p hp
    | horizontal offset width =>
      have first : w.Has fun a => (w.span a).start := fun a =>
        Span.has_start ((Span.exists_has_iff _).1 ⟨p a, hp a⟩)
      have last : w.Has fun a =>
          if a = .x then (w.span .x).stop - (w.span .x).step
          else if a = .y then (w.span .y).stop - (w.span .y).step else p a := by
        intro a
        show (w.span a).Has (if a = .x then _ else if a = .y then _ else p a)
        by_cases hx : a = .x
        · rw [if_pos hx, hx]
          exact Span.has_last (hp .x) whole.columns
        · rw [if_neg hx]
          by_cases hy : a = .y
          · rw [if_pos hy, hy]
            exact Span.has_last (hp .y) whole.rows
          · rw [if_neg hy]
            exact hp a
      obtain ⟨left, -, top, -⟩ := h _ first
      obtain ⟨-, right, -, bottom⟩ := h _ last
      exact ⟨left, right, top, bottom⟩

theorem boxAt_isWithin_extend (q : AccessPattern) (whole : w.IsWholePlane) (hr : d.resizable = true)
    (hp : w.Has p) : (q.boxAt (p .x) (p .y)).IsWithin (q.extend w d).plane :=
  (q.boxAt_isWithin_box whole hp).trans
    (q.box_isWithin_extend w (narrow?_eq_none_of_resizable q w hr))

theorem narrow?_ne_none_iff (q : AccessPattern) (whole : w.IsWholePlane) (some : ∃ p, w.Has p)
    (signed : d.resizable = false → d.SignedPlane) :
    q.narrow? w d ≠ none ↔ ∃ p, w.Has p ∧ ¬ (Access.mk d q).FitsAt p := by
  rw [Ne, narrow?_eq_none_iff]
  by_cases hr : d.resizable = true
  · simp [Access.FitsAt, hr]
  · rw [(signed (Bool.eq_false_iff.2 hr)).paddedPlane_eq, q.box_isWithin_iff whole some]
    simp [Access.FitsAt, hr]

end AccessPattern

namespace Access

variable {w : Window} {accesses : List Access}

theorem narrowAll_changed_iff (whole : w.IsWholePlane)
    (signed : ∀ a ∈ accesses, a.descriptor.resizable = false → a.descriptor.SignedPlane)
    (some : ∃ p, w.Has p) :
    (narrowAll w accesses).2 = true ↔ ∃ p, w.Has p ∧ ¬ ∀ a ∈ accesses, a.FitsAt p := by
  rw [← Bool.not_eq_false, narrowAll_unchanged_iff]
  simp only [Classical.not_forall]
  constructor
  · rintro ⟨a, ha, narrows⟩
    obtain ⟨p, hp, misfit⟩ := (a.pattern.narrow?_ne_none_iff whole some (signed a ha)).1 narrows
    exact ⟨p, hp, a, ha, misfit⟩
  · rintro ⟨p, hp, a, ha, misfit⟩
    exact ⟨a, ha, (a.pattern.narrow?_ne_none_iff whole some (signed a ha)).2 ⟨p, hp, misfit⟩⟩

/-- Merging drops exactly the points at which the access to an allocated tensor leaves its padding,
and tells whether there was one. Only the padding of the other tensors changes. It grows by what the
remaining window requires, and then holds the accesses at all remaining points. -/
theorem merge_keeps_fitting_points (w : Window) (accesses : List Access) (whole : w.IsWholePlane)
    (signed : ∀ a ∈ accesses, a.descriptor.resizable = false → a.descriptor.SignedPlane) :
    let final := (merge w accesses).1
    (∀ p, final.Has p ↔ w.Has p ∧ ∀ a ∈ accesses, a.FitsAt p) ∧
      (merge w accesses).2.1 =
        accesses.map (fun a => a.descriptor.grown (a.pattern.requiredPadding final a.descriptor)) ∧
      (∀ a ∈ accesses, a.descriptor.resizable = true → ∀ p, final.Has p →
        (a.pattern.boxAt (p .x) (p .y)).IsWithin
          (a.descriptor.grown (a.pattern.requiredPadding final a.descriptor)).plane) ∧
      (0 < w.totalIterations →
        ((merge w accesses).2.2 = true ↔ ∃ p, w.Has p ∧ ¬ final.Has p)) := by
  intro final
  have kept (p : Axis → Int) : final.Has p ↔ w.Has p ∧ ∀ a ∈ accesses, a.FitsAt p :=
    has_narrowAll_iff whole signed
  refine ⟨kept, ?_, ?_, ?_⟩
  · exact List.map_congr_left fun a _ => Descriptor.extend_eq_grown ..
  · intro a _ hr p hp
    rw [← Descriptor.extend_eq_grown]
    exact a.pattern.boxAt_isWithin_extend (isWholePlane_narrowAll whole) hr hp
  · intro some
    refine (narrowAll_changed_iff whole signed (w.totalIterations_pos_iff_exists.1 some)).trans ?_
    exact exists_congr fun p => and_congr_right fun hp => by rw [kept, and_iff_right hp]

def sampleAt (x y : Int) (a : Axis) : Int :=
  if a = .x then x else if a = .y then y else 0

def sampleWindow : Window :=
  (Window.unit.set .x ⟨0, 24, 8, by decide⟩).set .y (.between 0 4)

def sampleAccesses : List Access :=
  [⟨{ Descriptor.ofShape ⟨[16, 3], by decide⟩ .unsigned8 with
      padding := ⟨0, 0, 1, 0⟩, resizable := false }, .horizontal 0 8⟩,
    ⟨.ofShape ⟨[16, 3], by decide⟩ .unsigned8, .horizontal (-2) 12⟩]

theorem merge_sample :
    (merge sampleWindow sampleAccesses).1.Has (sampleAt 8 3) ∧
      ¬ (merge sampleWindow sampleAccesses).1.Has (sampleAt 16 3) ∧
      (merge sampleWindow sampleAccesses).2.2 = true := by
  have whole : sampleWindow.IsWholePlane := ⟨⟨3, by decide⟩, ⟨4, by decide⟩⟩
  obtain ⟨kept, -, -, changed⟩ :=
    merge_keeps_fitting_points sampleWindow sampleAccesses whole (by decide)
  have dropped : ¬ (merge sampleWindow sampleAccesses).1.Has (sampleAt 16 3) := by
    rw [kept]
    exact fun h => absurd (h.2 _ (List.mem_cons_self ..)) (by decide)
  exact ⟨(kept _).2 ⟨by decide, by decide⟩, dropped,
    (changed (by decide)).2 ⟨_, by decide, dropped⟩⟩

theorem merge_drops_fitting_point :
    ∃ (w : Window) (accesses : List Access) (p : Axis → Int), w.IsWholePlane ∧ w.Has p ∧
      (∀ a ∈ accesses, a.FitsAt p) ∧ ¬ (merge w accesses).1.Has p := by
  refine ⟨Window.unit.set .x ⟨0, 8, 8, by decide⟩,
    [⟨{ Descriptor.ofShape ⟨[0x8000000000000000], by decide⟩ .unsigned8 with resizable := false },
      .fixed ⟨0, 8, 0, 1⟩⟩], sampleAt 0 0, ⟨⟨1, by decide⟩, ⟨1, by decide⟩⟩, ?_, ?_, ?_⟩
  · decide
  · decide
  · decide

end Access
end TensorConcat
