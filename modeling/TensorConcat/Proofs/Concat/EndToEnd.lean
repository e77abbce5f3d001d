import TensorConcat.Proofs.Concat.Requantization

/-! Running a configured kernel over parts of its window: every row that a part contains holds both
inputs side by side, and each part stores once to every element of its rows. -/

namespace TensorConcat

/-- Every item of the launch loads vectors from padded rows of the inputs, and stores a vector to a
padded row of the output. -/
def Launch.StaysInRows (l : Launch) (t : Submission.Tensors) : Prop :=
  ∃ f, Frame.ofHandle l.handle = .ok f ∧ f.first.buffer = t.first.buffer ∧
    f.second.buffer = t.second.buffer ∧ f.output.buffer = t.output.buffer ∧
    (∀ u ∈ [t.first, t.second, t.output],
      l.handle.program.vectorBytes = Operands.vectorWidth * u.descriptor.elementSize) ∧
    ∀ i j n, i < l.range.x → j < l.range.y → n < l.range.z →
      ∃ (x1 x2 x3 : Int) (y plane : Nat), t.first.InRow x1 y plane ∧ t.second.InRow x2 y plane ∧
        t.output.InRow x3 y plane ∧
        l.handle.program.addresses f i j n = ⟨t.first.descriptor.address x1 y plane,
          t.second.descriptor.address x2 y plane, t.output.descriptor.address x3 y plane⟩

theorem Served.forall_mem {o : Operands} {s : Storage} {t : Submission.Tensors} {ws : List Window}
    {ls : List Launch} (h : Served o s t ws ls) :
    ∀ l ∈ ls, ∃ w ∈ ws, (LaunchRange.ofWindow w).isEmpty = false ∧ l.Serves o s t w := by
  induction h with
  | nil => simp
  | idle _ _ ih =>
    intro l hl
    obtain ⟨w, hw, some, serves⟩ := ih l hl
    exact ⟨w, List.mem_cons_of_mem _ hw, some, serves⟩
  | launch some serves _ ih =>
    refine List.forall_mem_cons.2 ⟨⟨_, List.mem_cons_self .., some, serves⟩, ?_⟩
    intro l hl
    obtain ⟨w, hw, some, serves⟩ := ih l hl
    exact ⟨w, List.mem_cons_of_mem _ hw, some, serves⟩

namespace Operands

variable {o : Operands} {s : Storage} {k k' : Kernel} {t : Submission.Tensors} {m m' : Memory}
  {ws : List Window} {ls : List Launch} {w : Window} {l : Launch}

theorem Prepared.staysInRows (p : o.Prepared s k t m) (h : w.IsPart o.plannedWindow)
    (hx : w.span .x = o.plannedWindow.span .x) (some : (LaunchRange.ofWindow w).isEmpty = false)
    (serves : l.Serves o s t w) : l.StaysInRows t := by
  obtain ⟨f, hf, stands⟩ := serves.frame
  refine ⟨f, hf, stands.first.buffer, stands.second.buffer, stands.output.buffer, ?_⟩
  rw [serves.program, serves.range]
  refine ⟨fun u hu => congrArg (vectorWidth * ·) (p.suit.size u hu).symm, ?_⟩
  intro i j n hi hj hn
  obtain ⟨first, second, output⟩ := p.inRow hx h some hi hj hn
  exact ⟨_, _, _, _, _, first, second, output, addresses_eq p.suit stands i j n⟩

/-- Runs of a configured kernel over any parts with all columns. If all of them are accepted, the
queue finishes, and no work item leaves the padded rows of its tensors. Every element of the output
has been stored to once for each part with its row, and counters of 32 bits with room for one more
store from each part do not overflow. Rows in some part hold what the elements of the first input and
then those of the second become. -/
theorem run_concatenates (half : Bool) (requests : List (String × BuildOptions))
    {o planned : Operands} {k k' : Kernel} {full : Window} {pack : TensorPack}
    {t : Submission.Tensors} {m : Memory} {q q' : Queue} {ws : List Window}
    (elements : o.HasElements) (valid : o.output.valid = .full o.output.shape)
    (configured : (Kernel.configure (.after (.host half) requests) o).1 = .ok (k, planned))
    (window : k.configuration?.map (·.window) = some full)
    (host : t.Host planned) (bound : Submission.Tensors.ofPack pack = .ok t)
    (addressable : m.Addressable) (allocated : t.Allocated m)
    (parts : ∀ w ∈ ws, ∀ a, a ≠ .y → a ≠ .z → w.span a = full.span a)
    (counted : (m.buffer t.output.buffer).HasRoom ws.length)
    (idle : q.pending = []) (runs : k.runAll pack ws q = (.ok (), k', q')) :
    ∃ s m', o.first.type.storage? = some s ∧
      q'.finish m = (.ok q'.pending.length, ⟨[], q'.completed ++ q'.pending⟩, m') ∧
      (∀ l ∈ q'.pending, l.StaysInRows t) ∧
      ∀ x y z b, x < o.output.extent 0 → y < o.output.extent 1 → z < o.output.extent 2 →
        b < o.output.extent 3 →
        t.output.storesAt m' [x, y, z, b] = (t.output.storesAt m [x, y, z, b]).map
          (· + ws.countP (·.HasRow y (z + o.output.extent 2 * b))) ∧
        (∀ count ∈ t.output.storesAt m' [x, y, z, b], count < 0x100000000) ∧
        ((∃ w ∈ ws, w.HasRow y (z + o.output.extent 2 * b)) →
          (x < o.first.extent 0 → o.Conveys s o.first (t.first.elementAt m [x, y, z, b])
            (t.output.elementAt m' [x, y, z, b])) ∧
          (o.first.extent 0 ≤ x → x < o.joinedWidth → o.Conveys s o.second
            (t.second.elementAt m [x - o.first.extent 0, y, z, b])
            (t.output.elementAt m' [x, y, z, b]))) := by
  obtain ⟨s, hs, p⟩ := prepared_of_configure (ProgramCache.after_sound _ _).1 elements valid
    configured host allocated addressable
  obtain rfl := p.runs.window_eq window
  have outer (w : Window) (hw : w ∈ ws) (a : Axis) (ha : .z < a) :
      w.span a = o.plannedWindow.span a :=
    parts w hw a (fun e => absurd (e ▸ ha) (by decide)) (fun e => absurd (e ▸ ha) (by decide))
  have wide (w : Window) (hw : w ∈ ws) : w.span .x = o.plannedWindow.span .x :=
    parts w hw _ (by decide) (by decide)
  obtain ⟨served, inside⟩ := p.served_of_runAll bound outer idle runs
  obtain ⟨m', run, elements⟩ := p.elements_of_runAll addressable served (fun w hw => (inside w hw).1)
    fun w hw some => p.windowLoads (wide w hw) (inside w hw).1 some
  refine ⟨s, m', hs, Queue.finish_of_runAll run, ?_, ?_⟩
  · intro l hl
    obtain ⟨w, hw, some, serves⟩ := served.forall_mem l hl
    exact p.staysInRows (inside w hw).1 (wide w hw) some serves
  · intro x y z b hx hy hz hb
    -- All parts start in column zero, so that they agree on what belongs to the first input.
    obtain ⟨stores, values⟩ := elements x y z b 0 hx hy hz hb fun w hw _ => startAt_x (wide w hw)
    have rows (w : Window) (hw : w ∈ ws) :
        w.Covers x y (z + o.output.extent 2 * b) ↔ w.HasRow y (z + o.output.extent 2 * b) :=
      covers_iff_hasRow (wide w hw) (inside w hw).1 hx
    have count : ws.countP (·.Covers x y (z + o.output.extent 2 * b)) =
        ws.countP (·.HasRow y (z + o.output.extent 2 * b)) :=
      List.countP_congr fun w hw => by simp [rows w hw]
    refine ⟨by rw [stores, count], DeviceTensor.storesAt_lt counted List.countP_le_length stores, ?_⟩
    · rintro ⟨w, hw, row⟩
      rw [values ⟨w, hw, (rows w hw).2 row⟩, joinedElement, Nat.zero_add]
      constructor
      · intro first
        rw [if_pos first]
        exact conveys_carried Rescaling.first hs (fun r hr => by rw [eq_of_rescaling? hr]) _
      · intro second _
        rw [if_neg (Nat.not_lt_of_le second)]
        exact conveys_carried Rescaling.second hs (fun r hr => by rw [eq_of_rescaling? hr]) _

def small : Operands where
  first := .ofShape ⟨[3, 2], by decide⟩ .unsigned8
  second := .ofShape ⟨[9, 2], by decide⟩ .unsigned8
  output := .ofShape ⟨[12, 2], by decide⟩ .unsigned8

theorem small_inRange : small.InRange where
  first := ⟨by decide, by decide, by decide⟩
  second := ⟨by decide, by decide, by decide⟩
  output := ⟨by decide, by decide, by decide⟩
  vectors := by decide

theorem small_hasElements : small.HasElements :=
  ⟨Descriptor.hasElements_of_forall (by decide), Descriptor.hasElements_of_forall (by decide),
    Descriptor.hasElements_of_forall (by decide)⟩

def smallTensors : Submission.Tensors where
  first := ⟨small.padded.first, 0⟩
  second := ⟨small.padded.second, 1⟩
  output := ⟨small.padded.output, 2⟩

def smallPack : TensorPack :=
  ((TensorPack.empty.add (.source 0) smallTensors.first).add (.source 1) smallTensors.second).add
    .destination smallTensors.output

theorem ofPack_small : Submission.Tensors.ofPack smallPack = .ok smallTensors :=
  rfl

def smallMemory : Memory :=
  ⟨#[⟨((List.range 32).map fun n => ⟨.ofNat n, 0⟩).toArray⟩,
    ⟨((List.range 32).map fun n => ⟨.ofNat (100 + n), 0⟩).toArray⟩, .zeroed 32]⟩

theorem small_addressable : smallMemory.Addressable
  | 0 => by decide
  | 1 => by decide
  | 2 => by decide
  | id + 3 => by simp [Memory.buffer, smallMemory, Buffer.zeroed, Buffer.size]

theorem small_allocated : smallTensors.Allocated smallMemory :=
  ⟨by decide, by decide, by decide, by decide, by decide⟩

theorem small_host : smallTensors.Host (Kernel.written small.padded) :=
  ⟨⟨rfl, rfl, by decide⟩, ⟨rfl, rfl, by decide⟩, ⟨rfl, rfl, by decide⟩⟩

theorem configured_accepts (compatible : o.Compatible false) (inRange : o.InRange)
    (valid : o.output.valid = .full o.output.shape) (plannable : o.Plannable)
    (compilable : o.Compilable) (hs : o.first.type.storage? = some s) {pack : TensorPack}
    (bound : Submission.Tensors.ofPack pack = .ok t) :
    ∃ k, (Kernel.configure (.after (.host false) []) o).1 = .ok (k, Kernel.written o.padded) ∧
      k.configuration?.map (·.window) = some o.plannedWindow ∧
      ∀ ws, (∀ w ∈ ws, w.IsPart o.plannedWindow ∧
        ∀ u ∈ [t.first, t.second, t.output], Cursor.Fits u w) →
        ∃ k' q', k.runAll pack ws .empty = (.ok (), k', q') := by
  obtain ⟨k, configured, window, runs⟩ := configure_of_plannable (s := s) [] compatible inRange valid
    plannable compilable hs
  refine ⟨k, configured, window, ?_⟩
  intro ws parts
  exact Kernel.exists_runAll runs bound (fun w hw => flat_of_isPart (parts w hw).1)
    (fun w hw => (parts w hw).1.within) (fun w hw => (parts w hw).2) .empty

theorem small_configured :
    ∃ k, (Kernel.configure (.after (.host false) []) small).1 =
        .ok (k, Kernel.written small.padded) ∧
      k.configuration?.map (·.window) = some small.plannedWindow ∧
      ∀ ws, (∀ w ∈ ws, w.IsPart small.plannedWindow ∧
        ∀ u ∈ [smallTensors.first, smallTensors.second, smallTensors.output], Cursor.Fits u w) →
        ∃ k' q', k.runAll smallPack ws .empty = (.ok (), k', q') := by
  have compilable : small.Compilable := by
    refine ⟨by decide, ?_⟩
    intro r hr
    exact absurd hr (by simp [rescaling?, small, Descriptor.ofShape, ElementType.isAffine])
  exact configured_accepts ((check_eq_ok_iff _ _).1 rfl) small_inRange rfl (by decide) compilable
    (s := .u8) rfl rfl

def rescaledSmall : Operands where
  first := { small.first with type := .affine8, quantization? := some ⟨⟨0x3F000000⟩, 7⟩ }
  second := { small.second with type := .affine8, quantization? := some ⟨⟨0x40800000⟩, -1⟩ }
  output := { small.output with type := .affine8, quantization? := some ⟨⟨0x3F800000⟩, 3⟩ }

theorem rescaledSmall_hasElements : rescaledSmall.HasElements :=
  ⟨Descriptor.hasElements_of_forall (by decide), Descriptor.hasElements_of_forall (by decide),
    Descriptor.hasElements_of_forall (by decide)⟩

def rescaledTensors : Submission.Tensors where
  first := ⟨rescaledSmall.padded.first, 0⟩
  second := ⟨rescaledSmall.padded.second, 1⟩
  output := ⟨rescaledSmall.padded.output, 2⟩

def rescaledPack : TensorPack :=
  ((TensorPack.empty.add (.source 0) rescaledTensors.first).add (.source 1) rescaledTensors.second).add
    .destination rescaledTensors.output

theorem rescaledSmall_configured :
    ∃ k k' q', (Kernel.configure (.after (.host false) []) rescaledSmall).1 =
        .ok (k, Kernel.written rescaledSmall.padded) ∧
      k.configuration?.map (·.window) = some rescaledSmall.plannedWindow ∧
      k.runAll rescaledPack [rescaledSmall.plannedWindow] .empty = (.ok (), k', q') := by
  have inRange : rescaledSmall.InRange :=
    ⟨⟨by decide, by decide, by decide⟩, ⟨by decide, by decide, by decide⟩,
      ⟨by decide, by decide, by decide⟩, by decide⟩
  have compilable : rescaledSmall.Compilable := by
    refine ⟨by decide, ?_⟩
    intro r hr
    rw [eq_of_rescaling? hr]
    exact ⟨by decide, by decide, by decide⟩
  have bound : Submission.Tensors.ofPack rescaledPack = .ok rescaledTensors := rfl
  obtain ⟨k, configured, window, accepts⟩ := configured_accepts
    ((check_eq_ok_iff rescaledSmall false).1 rfl) inRange rfl (by decide) compilable (s := .u8) rfl
    bound
  obtain ⟨k', q', runs⟩ := accepts [rescaledSmall.plannedWindow]
    (List.forall_mem_singleton.2 ⟨.refl _, by decide⟩)
  exact ⟨k, k', q', configured, window, runs⟩

/-- Bytes are copied. The values 10 and 125 become 9/2, which is rounded to the even 4, and 507, which
is too large for a byte. -/
theorem run_concatenates_small :
    (∃ k planned k' q', (Kernel.configure (.after (.host false) []) small).1 = .ok (k, planned) ∧
      k.runAll smallPack [small.plannedWindow] .empty = (.ok (), k', q') ∧
      ∃ m', (q'.finish smallMemory).2.2 = m' ∧
        smallTensors.output.elementAt m' [2, 1, 0, 0] = [10] ∧
        smallTensors.output.elementAt m' [9, 1, 0, 0] = [125]) ∧
    ∃ k planned k' q', (Kernel.configure (.after (.host false) []) rescaledSmall).1 =
        .ok (k, planned) ∧
      k.runAll rescaledPack [rescaledSmall.plannedWindow] .empty = (.ok (), k', q') ∧
      ∃ m', (q'.finish smallMemory).2.2 = m' ∧
        rescaledTensors.output.elementAt m' [2, 1, 0, 0] = [4] ∧
        rescaledTensors.output.elementAt m' [9, 1, 0, 0] = [255] := by
  constructor
  · obtain ⟨k, configured, window, accepts⟩ := small_configured
    obtain ⟨k', q', runs⟩ := accepts [small.plannedWindow]
      (List.forall_mem_singleton.2 ⟨.refl _, by decide⟩)
    obtain ⟨s, m', hs, finish, -, elements⟩ := run_concatenates false [] small_hasElements rfl configured
      window small_host rfl small_addressable small_allocated (by simp) (by decide) rfl runs
    have row : ∃ w ∈ [small.plannedWindow], w.HasRow 1 (0 + small.output.extent 2 * 0) :=
      ⟨_, List.mem_singleton_self _, by decide⟩
    have plain : ¬ small.Rescales := fun h => absurd h.1 (by decide)
    obtain ⟨first, -⟩ := (elements 2 1 0 0 (by decide) (by decide) (by decide) (by decide)).2.2 row
    obtain ⟨-, second⟩ := (elements 9 1 0 0 (by decide) (by decide) (by decide) (by decide)).2.2 row
    refine ⟨k, _, k', q', configured, runs, m', by rw [finish], ?_, ?_⟩
    · rw [(first (by decide)).copied plain]
      decide
    · rw [(second (by decide) (by decide)).copied plain]
      decide
  · obtain ⟨k, k', q', configured, window, runs⟩ := rescaledSmall_configured
    obtain ⟨s, m', hs, finish, -, elements⟩ := run_concatenates false [] rescaledSmall_hasElements rfl
      configured window ⟨⟨rfl, rfl, by decide⟩, ⟨rfl, rfl, by decide⟩, ⟨rfl, rfl, by decide⟩⟩ rfl
      small_addressable ⟨by decide, by decide, by decide, by decide, by decide⟩ (by simp) (by decide) rfl
      runs
    obtain rfl : s = .u8 := (Option.some.inj hs).symm
    have row : ∃ w ∈ [rescaledSmall.plannedWindow], w.HasRow 1 (0 + rescaledSmall.output.extent 2 * 0) :=
      ⟨_, List.mem_singleton_self _, by decide⟩
    obtain ⟨first, -⟩ := (elements 2 1 0 0 (by decide) (by decide) (by decide) (by decide)).2.2 row
    obtain ⟨-, second⟩ := (elements 9 1 0 0 (by decide) (by decide) (by decide) (by decide)).2.2 row
    refine ⟨k, _, k', q', configured, runs, m', by rw [finish], ?_, ?_⟩
    · rw [(first (by decide)).unique hs (conveys_carried Rescaling.first hs
        (fun r hr => by rw [eq_of_rescaling? hr]) _)]
      decide +kernel
    · rw [(second (by decide) (by decide)).unique hs (conveys_carried Rescaling.second hs
        (fun r hr => by rw [eq_of_rescaling? hr]) _)]
      decide +kernel

end Operands
end TensorConcat
