import TensorConcat.Proofs.Launch.Stores

/-! Launches and queues of them: a launch stores once to every element that its range covers, and a
queue runs its launches one after the other. -/

namespace TensorConcat

structure LaunchRange.IsSmall (r : LaunchRange) : Prop where
  x_lt : r.x < 0x8000000000000000
  y_lt : r.y < 0x8000000000000000
  z_lt : r.z < 0x8000000000000000

theorem LaunchRange.isEmpty_iff {r : LaunchRange} :
    r.isEmpty = true ↔ r.x = 0 ∨ r.y = 0 ∨ r.z = 0 := by
  simp only [isEmpty, Bool.or_eq_true, beq_iff_eq, or_assoc]

theorem LaunchRange.isEmpty_eq_false_iff {r : LaunchRange} :
    r.isEmpty = false ↔ 0 < r.x ∧ 0 < r.y ∧ 0 < r.z := by
  simp only [isEmpty, Bool.or_eq_false_iff, beq_eq_false_iff_ne, ← Nat.pos_iff_ne_zero, and_assoc]

theorem Program.runItems_eq (p : Program) (f : Frame) {r : LaunchRange} (small : r.IsSmall) :
    p.runItems f r =
      Action.countTo (fun k =>
        Action.countTo (fun j => Action.countTo (fun i => p.runItem f i j k) r.x 0) r.y 0) r.z 0 := by
  have repeats {count : Nat} (h : count < 0x8000000000000000) : repetitions count = count := by
    rw [repetitions, signed64_of_lt h, Int.toNat_natCast]
  rw [runItems, repeats small.x_lt, repeats small.y_lt, repeats small.z_lt]

namespace Operands

variable {o : Operands} {s : Storage} {t : Submission.Tensors} {f : Frame} {x y plane : Nat}
  {before m m' : Memory} {column row level n : Nat} {r : LaunchRange}

def LoadsFit (o : Operands) (t : Submission.Tensors) (m : Memory) (x y plane : Nat)
    (r : LaunchRange) : Prop :=
  ∀ i j k, i < r.x → j < r.y → k < r.z →
    t.first.HasVector m (x + o.firstColumn i) (y + j) (plane + k) ∧
      t.second.HasVector m (x + o.secondColumn i) (y + j) (plane + k)

instance (o : Operands) (t : Submission.Tensors) (m : Memory) (x y plane : Nat) (r : LaunchRange) :
    Decidable (o.LoadsFit t m x y plane r) :=
  decidable_of_iff (∀ i, i < r.x → ∀ j, j < r.y → ∀ k, k < r.z →
    t.first.HasVector m (x + o.firstColumn i) (y + j) (plane + k) ∧
      t.second.HasVector m (x + o.secondColumn i) (y + j) (plane + k))
    ⟨fun h i j k hi hj hk => h i hi j hj k hk, fun h i hi j hj k hk => h i j k hi hj hk⟩

def ItemsFit (o : Operands) (t : Submission.Tensors) (m : Memory) (x y plane : Nat)
    (r : LaunchRange) : Prop :=
  ∀ i j k, i < r.x → j < r.y → k < r.z →
    t.first.HasVector m (x + o.firstColumn i) (y + j) (plane + k) ∧
      t.second.HasVector m (x + o.secondColumn i) (y + j) (plane + k) ∧
      t.output.HasVector m (x + i * vectorWidth) (y + j) (plane + k)

theorem ItemsFit.loads (h : o.ItemsFit t m x y plane r) : o.LoadsFit t m x y plane r :=
  fun i j k hi hj hk => ⟨(h i j k hi hj hk).1, (h i j k hi hj hk).2.1⟩

/-- The items of a launch belong to vectors, rows and planes of the output. -/
structure StoresFit (t : Submission.Tensors) (x y plane : Nat) (r : LaunchRange) : Prop where
  columns : x + r.x * vectorWidth ≤ vectorEnd (t.output.descriptor.extent 0)
  rows : y + r.y ≤ t.output.descriptor.extent 1
  planes : plane + r.z ≤ t.output.descriptor.planes

theorem StoresFit.isSmall (fits : StoresFit t x y plane r) (suit : t.Suit o s)
    (addressable : m.Addressable) (room : t.HasRoom m) : r.IsSmall := by
  -- No direction of the range is longer than the output, and that fits into its buffer.
  have hs := suit.stride_pos t.output (by simp)
  have width := Descriptor.paddedExtent_le_totalSize room.elements hs (show 0 < 6 by decide)
  have height := Descriptor.paddedExtent_le_totalSize room.elements hs (show 1 < 6 by decide)
  have depth := Descriptor.planes_le_totalSize room.elements hs
  have size := room.size_le
  have small := addressable t.output.buffer
  have vectors := fits.columns
  have rows := fits.rows
  have planes := fits.planes
  have hx := t.output.descriptor.extent_le_paddedExtent 0
  have hy := t.output.descriptor.extent_le_paddedExtent 1
  have whole : r.x * vectorWidth = r.x * 8 := rfl
  rw [vectorEnd_eq] at vectors
  exact ⟨by omega, by omega, by omega⟩

theorem runItems_actsWhen (suit : t.Suit o s) (stands : f.StandsAt o t x y plane)
    (addressable : before.Addressable) (room : t.HasRoom before)
    (loads : o.LoadsFit t before x y plane r) (stores : StoresFit t x y plane r) (level : Nat)
    (hc : column < t.output.descriptor.extent 0) (hr : row < t.output.descriptor.extent 1)
    (hn : n < s.size) :
    Action.ActsWhen (before.Beside t.output.buffer) (t.outputCell column row level n)
      ((o.program s).runItems f r)
      ((x ≤ column ∧ column < x + r.x * vectorWidth) ∧ (y ≤ row ∧ row < y + r.y) ∧
        plane ≤ level ∧ level < plane + r.z)
      (·.store ((o.joined s t before x column row level).getD n 0)) := by
  have columns := stores.columns
  have rows := stores.rows
  have planes := stores.planes
  simp only [vectorWidth] at columns
  rw [Program.runItems_eq _ _ (stores.isSmall suit addressable room)]
  have item (i j k : Nat) (hi : i < r.x) (hj : j < r.y) (hk : k < r.z) :=
    runItem_actsWhen suit stands addressable room (loads i j k hi hj hk).1 (loads i j k hi hj hk).2
      level (n := n) (show x + i * 8 + 8 ≤ _ by omega) (by omega) (by omega) hc hr hn
  -- Each loop around settles one more coordinate of the cell: at most one of its turns reaches it.
  have line (j k : Nat) (hj : j < r.y) (hk : k < r.z) :=
    Action.ActsWhen.countTo r.x 0 ((column - x) / 8)
      (c := x ≤ column ∧ y + j = row ∧ plane + k = level) fun i _ hi =>
        (item i j k (by omega) hj hk).congr (by simp only [vectorWidth]; omega)
  have sheet (k : Nat) (hk : k < r.z) :=
    Action.ActsWhen.countTo r.y 0 (row - y)
      (c := (x ≤ column ∧ column < x + r.x * 8) ∧ y ≤ row ∧ plane + k = level) fun j _ hj =>
        (line j k (by omega) hk).congr (by omega)
  exact (Action.ActsWhen.countTo r.z 0 (level - plane)
    (c := (x ≤ column ∧ column < x + r.x * 8) ∧ (y ≤ row ∧ row < y + r.y) ∧ plane ≤ level)
    fun k _ hk => (sheet k (by omega)).congr (by omega)).congr (by simp only [vectorWidth]; omega)

theorem runItems_requires (suit : t.Suit o s) (stands : f.StandsAt o t x y plane)
    (addressable : before.Addressable) (small : r.IsSmall) :
    Action.Requires (before.Beside t.output.buffer) ((o.program s).runItems f r)
      (o.ItemsFit t before x y plane r) := by
  rw [Program.runItems_eq _ _ small]
  intro m m' hm hok
  have run := Action.Requires.countTo r.z 0 (fun k _ _ =>
    Action.Requires.countTo r.y 0 (fun j _ _ =>
      Action.Requires.countTo r.x 0 (fun i _ _ =>
        runItem_requires (i := i) (j := j) (k := k) suit stands addressable)))
  obtain ⟨fit, hm'⟩ := run m m' hm hok
  exact ⟨fun i j k hi hj hk => fit k (Nat.zero_le _) (by omega) j (Nat.zero_le _) (by omega) i
    (Nat.zero_le _) (by omega), hm'⟩

end Operands

namespace Window

def startAt (w : Window) (a : Axis) : Nat :=
  (w.span a).start.toNat

def Covers (w : Window) (column row level : Nat) : Prop :=
  (w.startAt .x ≤ column ∧
      column < w.startAt .x + (LaunchRange.ofWindow w).x * Operands.vectorWidth) ∧
    (w.startAt .y ≤ row ∧ row < w.startAt .y + (LaunchRange.ofWindow w).y) ∧
    w.startAt .z ≤ level ∧ level < w.startAt .z + (LaunchRange.ofWindow w).z

instance (w : Window) (column row level : Nat) : Decidable (w.Covers column row level) :=
  inferInstanceAs (Decidable (_ ∧ _ ∧ _))

theorem not_covers_of_isEmpty {w : Window} (h : (LaunchRange.ofWindow w).isEmpty = true)
    (column row level : Nat) : ¬ w.Covers column row level := by
  rintro ⟨⟨_, hx⟩, ⟨_, hy⟩, _, hz⟩
  rcases LaunchRange.isEmpty_iff.1 h with h | h | h
  · rw [h, Nat.zero_mul] at hx
    omega
  · omega
  · omega

end Window

/-- The launch runs the program for the operands over a window of the tensors. -/
structure Launch.Serves (l : Launch) (o : Operands) (s : Storage) (t : Submission.Tensors)
    (w : Window) : Prop where
  program : l.handle.program = o.program s
  frame : ∃ f, Frame.ofHandle l.handle = .ok f ∧
    f.StandsAt o t (w.startAt .x) (w.startAt .y) (w.startAt .z)
  range : l.range = .ofWindow w

inductive Served (o : Operands) (s : Storage) (t : Submission.Tensors) :
    List Window → List Launch → Prop
  | nil : Served o s t [] []
  | idle {w : Window} {ws : List Window} {ls : List Launch}
      (empty : (LaunchRange.ofWindow w).isEmpty = true) (rest : Served o s t ws ls) :
      Served o s t (w :: ws) ls
  | launch {w : Window} {ws : List Window} {l : Launch} {ls : List Launch}
      (some : (LaunchRange.ofWindow w).isEmpty = false) (serves : l.Serves o s t w)
      (rest : Served o s t ws ls) : Served o s t (w :: ws) (l :: ls)

theorem Served.eq_nil {o : Operands} {s : Storage} {t : Submission.Tensors} {ws : List Window}
    {ls : List Launch} (h : Served o s t ws ls)
    (empty : ∀ w ∈ ws, (LaunchRange.ofWindow w).isEmpty = true) : ls = [] := by
  induction h with
  | nil => rfl
  | idle _ _ ih => exact ih fun w hw => empty w (List.mem_cons_of_mem _ hw)
  | launch some => exact absurd ((empty _ (List.mem_cons_self ..)).symm.trans some) (by decide)

namespace Queue

theorem finish_of_runAll {q : Queue} {m m' : Memory}
    (h : runAll q.pending m = (q.pending, .ok (), m')) :
    q.finish m = (.ok q.pending.length, ⟨[], q.completed ++ q.pending⟩, m') := by
  rw [finish, h]
  rfl

theorem runAll_of_finish {q : Queue} {m : Memory} {count : Nat} (h : (q.finish m).1 = .ok count) :
    (runAll q.pending m).2.1 = .ok () := by
  rcases hr : runAll q.pending m with ⟨done, answer, m'⟩
  rw [finish, hr] at h
  cases answer with
  | error e => exact nomatch h
  | ok => rfl

end Queue

namespace Operands

variable {o : Operands} {s : Storage} {t : Submission.Tensors} {before m m' : Memory}
  {column row level n : Nat} {w : Window} {l : Launch}

def WindowLoads (o : Operands) (t : Submission.Tensors) (m : Memory) (w : Window) : Prop :=
  o.LoadsFit t m (w.startAt .x) (w.startAt .y) (w.startAt .z) (.ofWindow w)

instance (o : Operands) (t : Submission.Tensors) (m : Memory) (w : Window) :
    Decidable (o.WindowLoads t m w) :=
  inferInstanceAs (Decidable (o.LoadsFit ..))

def WindowFits (o : Operands) (t : Submission.Tensors) (m : Memory) (w : Window) : Prop :=
  o.ItemsFit t m (w.startAt .x) (w.startAt .y) (w.startAt .z) (.ofWindow w)

def WindowStores (t : Submission.Tensors) (w : Window) : Prop :=
  StoresFit t (w.startAt .x) (w.startAt .y) (w.startAt .z) (.ofWindow w)

def windowByte (o : Operands) (s : Storage) (t : Submission.Tensors) (m : Memory)
    (column row level n : Nat) (w : Window) : UInt8 :=
  (o.joined s t m (w.startAt .x) column row level).getD n 0

theorem execute_eq_of_frame {f : Frame} (program : l.handle.program = o.program s)
    (frame : Frame.ofHandle l.handle = .ok f) (range : l.range = .ofWindow w) (m : Memory) :
    (l.handle.execute l.range).perform m =
      ((o.program s).runItems f (.ofWindow w)).perform m := by
  have bytes : (o.program s).vectorBytes = vectorWidth * s.size := rfl
  have small : ¬ 0x8000000000000000 ≤ (o.program s).vectorBytes := by
    rw [bytes]
    cases s <;> decide
  rw [Handle.execute, frame, program, range, Action.perform_bind, Action.perform_ofExcept]
  simp only [if_neg small]

theorem execute_eq_runItems (h : l.Serves o s t w) :
    ∃ f, f.StandsAt o t (w.startAt .x) (w.startAt .y) (w.startAt .z) ∧ ∀ m,
      (l.handle.execute l.range).perform m =
        ((o.program s).runItems f (.ofWindow w)).perform m := by
  obtain ⟨f, hf, stands⟩ := h.frame
  exact ⟨f, stands, execute_eq_of_frame h.program hf h.range⟩

theorem runAll_served (suit : t.Suit o s) (addressable : before.Addressable)
    (room : t.HasRoom before) {ws : List Window} {ls : List Launch} (served : Served o s t ws ls)
    (loads : ∀ w ∈ ws, (LaunchRange.ofWindow w).isEmpty = false → o.WindowLoads t before w)
    (stores : ∀ w ∈ ws, (LaunchRange.ofWindow w).isEmpty = false → WindowStores t w) (level : Nat)
    (hc : column < t.output.descriptor.extent 0) (hr : row < t.output.descriptor.extent 1)
    (hn : n < s.size) (hm : before.Beside t.output.buffer m) :
    ∃ m', Queue.runAll ls m = (ls, .ok (), m') ∧ before.Beside t.output.buffer m' ∧
      t.outputCell column row level n m' = ws.foldl (fun c w =>
        if w.Covers column row level then
          c.store (o.windowByte s t before column row level n w) else c)
        (t.outputCell column row level n m) := by
  -- Later launches load what the first one did: only the output has changed.
  induction served generalizing m with
  | nil => exact ⟨m, rfl, hm, rfl⟩
  | idle empty rest ih =>
    rw [List.foldl_cons, if_neg (Window.not_covers_of_isEmpty empty column row level)]
    exact ih (fun w hw => loads w (List.mem_cons_of_mem _ hw))
      (fun w hw => stores w (List.mem_cons_of_mem _ hw)) hm
  | @launch w ws l ls some serves rest ih =>
    obtain ⟨f, stands, run⟩ := execute_eq_runItems serves
    obtain ⟨m1, hrun, hm1, act, idle⟩ := runItems_actsWhen suit stands addressable room
      (loads w (List.mem_cons_self ..) some) (stores w (List.mem_cons_self ..) some) level
      hc hr hn m hm
    obtain ⟨m', hrest, hm', cell⟩ := ih (fun w hw => loads w (List.mem_cons_of_mem _ hw))
      (fun w hw => stores w (List.mem_cons_of_mem _ hw)) hm1
    refine ⟨m', by simp only [Queue.runAll, run, hrun, hrest], hm', ?_⟩
    rw [cell, List.foldl_cons]
    by_cases hcov : w.Covers column row level
    · rw [if_pos hcov, act hcov, windowByte]
    · rw [if_neg hcov, idle hcov]

theorem runAll_requires_fits (suit : t.Suit o s) (addressable : before.Addressable)
    {ws : List Window} {ls : List Launch} (served : Served o s t ws ls)
    (small : ∀ w ∈ ws, (LaunchRange.ofWindow w).isEmpty = false → (LaunchRange.ofWindow w).IsSmall)
    (hm : before.Beside t.output.buffer m) (hok : (Queue.runAll ls m).2.1 = .ok ()) :
    ∀ w ∈ ws, (LaunchRange.ofWindow w).isEmpty = false → o.WindowFits t before w := by
  induction served generalizing m with
  | nil => simp
  | idle empty rest ih =>
    refine List.forall_mem_cons.2 ⟨fun h => absurd (empty.symm.trans h) (by decide), ?_⟩
    exact ih (fun w hw => small w (List.mem_cons_of_mem _ hw)) hm hok
  | @launch w ws l ls some serves rest ih =>
    obtain ⟨f, stands, run⟩ := execute_eq_runItems serves
    rw [Queue.runAll, run] at hok
    rcases hrun : ((o.program s).runItems f (.ofWindow w)).perform m with ⟨_ | _, m1⟩
    · rw [hrun] at hok
      exact nomatch hok
    · rw [hrun] at hok
      obtain ⟨fit, hm1⟩ := runItems_requires suit stands addressable
        (small w (List.mem_cons_self ..) some) m m1 hm hrun
      exact List.forall_mem_cons.2 ⟨fun _ => fit,
        ih (fun w hw => small w (List.mem_cons_of_mem _ hw)) hm1 hok⟩

theorem runAll_requires (suit : t.Suit o s) (addressable : before.Addressable)
    (room : t.HasRoom before) {ws : List Window} {ls : List Launch} (served : Served o s t ws ls)
    (stores : ∀ w ∈ ws, (LaunchRange.ofWindow w).isEmpty = false → WindowStores t w)
    (hm : before.Beside t.output.buffer m) (hok : (Queue.runAll ls m).2.1 = .ok ()) :
    ∀ w ∈ ws, (LaunchRange.ofWindow w).isEmpty = false → o.WindowLoads t before w := by
  have small (w : Window) (hw : w ∈ ws) (some : (LaunchRange.ofWindow w).isEmpty = false) :=
    (stores w hw some).isSmall suit addressable room
  exact fun w hw some =>
    (runAll_requires_fits suit addressable served small hm hok w hw some).loads

end Operands
end TensorConcat
