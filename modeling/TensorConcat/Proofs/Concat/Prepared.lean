import TensorConcat.Proofs.Concat.Submission
import TensorConcat.Proofs.Plan.Exact
import TensorConcat.Proofs.Tensor.Hosting

/-! A kernel that is configured for operands with elements, and tensors in memory to run it on: what
the plan provides for the loads and stores of a run. -/

namespace TensorConcat

namespace Submission.Tensors

structure Host (t : Tensors) (o : Operands) : Prop where
  first : t.first.descriptor.Hosts o.first
  second : t.second.descriptor.Hosts o.second
  output : t.output.descriptor.Hosts o.output

structure Allocated (t : Tensors) (m : Memory) : Prop where
  first : t.first.descriptor.totalSize ≤ (m.buffer t.first.buffer).size
  second : t.second.descriptor.totalSize ≤ (m.buffer t.second.buffer).size
  output : t.output.descriptor.totalSize ≤ (m.buffer t.output.buffer).size
  first_ne : t.first.buffer ≠ t.output.buffer
  second_ne : t.second.buffer ≠ t.output.buffer

/-- The tensors are those that the operands describe, in buffers that hold them exactly. The counters
of the output do not overflow with one store more. -/
structure IsAllocation (t : Tensors) (o : Operands) (m : Memory) : Prop where
  first : t.first.descriptor = o.first
  second : t.second.descriptor = o.second
  output : t.output.descriptor = o.output
  first_size : (m.buffer t.first.buffer).size = o.first.totalSize
  second_size : (m.buffer t.second.buffer).size = o.second.totalSize
  output_size : (m.buffer t.output.buffer).size = o.output.totalSize
  first_ne : t.first.buffer ≠ t.output.buffer
  second_ne : t.second.buffer ≠ t.output.buffer
  room : (m.buffer t.output.buffer).HasRoom 1

theorem IsAllocation.host {t : Tensors} {o : Operands} {m : Memory} (h : t.IsAllocation o m) :
    t.Host o where
  first := h.first ▸ .refl _
  second := h.second ▸ .refl _
  output := h.output ▸ .refl _

theorem IsAllocation.allocated {t : Tensors} {o : Operands} {m : Memory}
    (h : t.IsAllocation o m) : t.Allocated m where
  first := Nat.le_of_eq (by rw [h.first_size, h.first])
  second := Nat.le_of_eq (by rw [h.second_size, h.second])
  output := Nat.le_of_eq (by rw [h.output_size, h.output])
  first_ne := h.first_ne
  second_ne := h.second_ne

theorem Host.trans {t : Tensors} {o p : Operands} (h : t.Host o) (first : o.first.Hosts p.first)
    (second : o.second.Hosts p.second) (output : o.output.Hosts p.output) : t.Host p :=
  ⟨h.first.trans first, h.second.trans second, h.output.trans output⟩

theorem Host.of_written {t : Tensors} {o : Operands} (h : t.Host (Kernel.written o)) : t.Host o :=
  ⟨h.first, h.second, h.output.shape, h.output.type, h.output.padding⟩

end Submission.Tensors

namespace Operands

structure HasElements (o : Operands) : Prop where
  first : o.first.HasElements
  second : o.second.HasElements
  output : o.output.HasElements

theorem plan_hosts (o : Operands) :
    o.plan.2.first.Hosts o.first ∧ o.plan.2.second.Hosts o.second ∧
      o.plan.2.output.Hosts o.output := by
  rw [plan_snd]
  split
  · exact ⟨.refl _, .refl _, .refl _⟩
  · exact ⟨Descriptor.extend_hosts .., Descriptor.extend_hosts .., Descriptor.extend_hosts ..⟩

theorem host_of_plan {t : Submission.Tensors} {o : Operands}
    (h : t.Host (Kernel.written o.plan.2)) : t.Host o := by
  obtain ⟨first, second, output⟩ := o.plan_hosts
  exact h.of_written.trans first second output

/-- Tensors in memory that can stand for operands, with the padding that a plan provides. The rows
of the inputs may be empty. -/
structure Provided (o : Operands) (s : Storage) (t : Submission.Tensors) (m : Memory) : Prop where
  suit : t.Suit o s
  addressed : t.Addressed
  room : t.HasRoom m
  allocated : t.Allocated m
  host : t.Host o
  first_extent : ∀ axis, 1 ≤ axis → o.first.extent axis = o.output.extent axis
  second_extent : ∀ axis, 1 ≤ axis → o.second.extent axis = o.output.extent axis
  width_le : o.joinedWidth ≤ o.output.extent 0
  vectorEnd_eq : vectorEnd (o.output.extent 0) = vectorEnd o.joinedWidth
  first_right : vectorEnd (o.first.extent 0) ≤ o.first.extent 0 + t.first.descriptor.padding.right
  second_left : o.first.extent 0 % vectorWidth ≤ t.second.descriptor.padding.left
  second_right : vectorEnd o.joinedWidth ≤ o.joinedWidth + t.second.descriptor.padding.right

structure Filled (o : Operands) (s : Storage) (t : Submission.Tensors) (m : Memory) : Prop
    extends Provided o s t m where
  ordinary : t.Ordinary

/-- Everything that runs of a configured kernel rely on. -/
structure Prepared (o : Operands) (s : Storage) (k : Kernel) (t : Submission.Tensors) (m : Memory) :
    Prop extends Filled o s t m where
  runs : k.Runs o s o.plannedWindow

variable {o planned : Operands} {s : Storage} {k : Kernel} {t : Submission.Tensors} {m : Memory}
  {c : ProgramCache}

theorem HasElements.hosted (h : o.HasElements) (ht : t.Host o) :
    t.first.descriptor.HasElements ∧ t.second.descriptor.HasElements ∧
      t.output.descriptor.HasElements := by
  refine ⟨?_, ?_, ?_⟩
  · intro axis
    rw [ht.first.extent_eq]
    exact h.first axis
  · intro axis
    rw [ht.second.extent_eq]
    exact h.second axis
  · intro axis
    rw [ht.output.extent_eq]
    exact h.output axis

theorem Compatible.stride_eq {half : Bool} (h : o.Compatible half) (host : t.Host o)
    (hs : o.first.type.storage? = some s) :
    ∀ u ∈ [t.first, t.second, t.output], u.descriptor.stride 0 = s.size := by
  have size (d : Descriptor) (hd : d.type = o.first.type) : d.stride 0 = s.size := by
    show d.type.size = s.size
    rw [hd, ElementType.size_of_storage? hs]
  simp only [List.forall_mem_cons, List.not_mem_nil, false_implies, implies_true, and_true]
  exact ⟨size _ host.first.type, size _ (host.second.type.trans h.second_type.symm),
    size _ (host.output.type.trans h.output_type.symm)⟩

theorem Compatible.suit {half : Bool} (h : o.Compatible half) (inRange : o.output.InRange)
    (host : t.Host o) (hs : o.first.type.storage? = some s) : t.Suit o s where
  size := h.stride_eq host hs
  depth := by
    simp only [List.forall_mem_cons, List.not_mem_nil, false_implies, implies_true,
      host.first.extent_eq, host.second.extent_eq, host.output.extent_eq,
      h.first_extent 2 (by decide), h.second_extent 2 (by decide), and_self]
  depth_lt := by
    rw [h.first_extent 2 (by decide)]
    exact inRange.extent_lt 2
  width_lt := by
    have := inRange.extent_lt 0
    have := h.width_le
    rw [joinedWidth] at this
    omega

theorem totalSize_lt {u : DeviceTensor} (addressable : m.Addressable)
    (allocated : u.descriptor.totalSize ≤ (m.buffer u.buffer).size) :
    u.descriptor.totalSize < 0x8000000000000000 := by
  have := addressable u.buffer
  omega

theorem HasElements.ordinary (h : o.HasElements) (host : t.Host o) (allocated : t.Allocated m)
    (addressable : m.Addressable) : t.Ordinary := by
  obtain ⟨first, second, output⟩ := h.hosted host
  exact ⟨⟨first, totalSize_lt addressable allocated.first⟩,
    ⟨second, totalSize_lt addressable allocated.second⟩,
    ⟨output, totalSize_lt addressable allocated.output⟩⟩

theorem addressed_of_elements {half : Bool} (h : o.Compatible half) (host : t.Host o)
    (elements : o.output.HasElements) (allocated : t.Allocated m) (addressable : m.Addressable) :
    t.Addressed := by
  refine ⟨⟨fun axis ha => ?_, totalSize_lt addressable allocated.first⟩,
    ⟨fun axis ha => ?_, totalSize_lt addressable allocated.second⟩,
    ⟨fun axis ha => ?_, totalSize_lt addressable allocated.output⟩⟩
  · rw [host.first.extent_eq, h.first_extent axis ha]
    exact elements axis
  · rw [host.second.extent_eq, h.second_extent axis ha]
    exact elements axis
  · rw [host.output.extent_eq]
    exact elements axis

theorem output_inRange (host : t.Host o) (elements : o.output.HasElements)
    (positive : 0 < t.output.descriptor.stride 0) (allocated : t.Allocated m)
    (addressable : m.Addressable) :
    o.output.InRange ∧ vectorEnd (o.output.extent 0) < 0x8000000000000000 := by
  have bound := addressable t.output.buffer
  have size := allocated.output
  have hosted : t.output.descriptor.HasElements := fun axis => by
    rw [host.output.extent_eq]
    exact elements axis
  have width := Nat.le_trans (host.output.paddedExtent_le 0)
    (Descriptor.paddedExtent_le_totalSize hosted positive (by decide))
  have extent := o.output.extent_le_paddedExtent 0
  refine ⟨host.output.inRange hosted positive (by omega), ?_⟩
  rw [vectorEnd_eq]
  omega

theorem Provided.inRange (p : o.Provided s t m) (addressable : m.Addressable) :
    o.output.InRange ∧ vectorEnd (o.output.extent 0) < 0x8000000000000000 := by
  refine output_inRange p.host (fun axis => ?_) ?_ p.allocated addressable
  · rw [← p.host.output.extent_eq]
    exact p.room.elements axis
  · exact p.suit.stride_pos t.output (by simp)

theorem plan_provides {half : Bool} (h : o.Compatible half)
    (hv : vectorEnd (o.output.extent 0) < 0x8000000000000000)
    (start : o.output.valid.anchor.get Axis.x = 0)
    (width : o.output.valid.shape.extent 0 = o.output.extent 0) {w : Window}
    (hw : o.plan.1 = .ok w) :
    vectorEnd (o.output.extent 0) = vectorEnd o.joinedWidth ∧
      vectorEnd (o.first.extent 0) ≤ o.first.extent 0 + o.plan.2.first.padding.right ∧
      o.first.extent 0 % vectorWidth ≤ o.plan.2.second.padding.left ∧
      vectorEnd o.joinedWidth ≤ o.joinedWidth + o.plan.2.second.padding.right ∧
      vectorEnd (o.output.extent 0) ≤ o.output.extent 0 + o.plan.2.output.padding.right := by
  obtain ⟨reaches, none, -⟩ := plan_eq_ok_iff.1 hw
  obtain ⟨hosts1, hosts2, hosts3⟩ := o.plan_hosts
  have whole := le_vectorEnd o.joinedWidth
  have holds (a : Access) (ha : a ∈ o.accesses) :=
    a.pattern.box_isWithin_extend _ (none a ha)
  simp only [accesses, List.forall_mem_cons, List.not_mem_nil, false_implies, implies_true,
    and_true] at holds
  obtain ⟨⟨-, right1, -⟩, ⟨left2, right2, -⟩, -, right3, -⟩ := holds
  have plan := plan_snd_of_ok hw
  simp only [accesses, List.map_cons, List.map_nil, withDescriptors] at plan
  rw [show (AccessPattern.extend _ _ o.first) = o.plan.2.first by rw [plan]] at right1
  rw [show (AccessPattern.extend _ _ o.second) = o.plan.2.second by rw [plan]] at left2 right2
  rw [show (AccessPattern.extend _ _ o.output) = o.plan.2.output by rw [plan]] at right3
  have first : signed64 (ceilMultiple (o.first.extent 0) vectorWidth) =
      vectorEnd (o.first.extent 0) :=
    signed64_of_lt (h.widths_lt hv).2.2
  have second : signed64 o.secondLimit = (vectorEnd o.joinedWidth - o.first.extent 0 : Nat) := by
    rw [signed64_of_lt (secondLimit_lt h hv), secondLimit_eq h hv]
  simp only [AccessPattern.box, Descriptor.plane, hosts1.extent_eq, hosts2.extent_eq,
    hosts3.extent_eq, cover_x hv start width, first, second, secondLeftPadding]
    at right1 left2 right2 right3
  refine ⟨(reach_le_limit_iff h hv).1 reaches, ?_, ?_, ?_, ?_⟩
  · omega
  · omega
  · rw [joinedWidth] at *
    omega
  · omega

theorem provided_of_configure (sound : c.Sound) (elements : o.output.HasElements)
    (start : o.output.valid.anchor.get Axis.x = 0)
    (width : o.output.valid.shape.extent 0 = o.output.extent 0)
    (configured : (Kernel.configure c o).1 = .ok (k, planned)) (host : t.Host planned)
    (allocated : t.Allocated m) (addressable : m.Addressable) :
    ∃ s w, o.first.type.storage? = some s ∧ o.plan.1 = .ok w ∧ k.Runs o s w ∧
      o.Provided s t m := by
  obtain ⟨compatible, -, rfl, s, w, h, hs, hw, hb, rfl⟩ :=
    (Kernel.configure_eq_ok_iff sound).1 configured
  have hostPlan := host.of_written
  have hostO := host_of_plan host
  have positive : 0 < t.output.descriptor.stride 0 := by
    rw [compatible.stride_eq hostO hs _ (by simp)]
    exact s.size_pos
  obtain ⟨inRange, vectors⟩ := output_inRange hostO elements positive allocated addressable
  obtain ⟨ends, right1, left2, right2, right3⟩ := plan_provides compatible vectors start width hw
  -- The tensors have at least the padding that the plan left.
  have more1 := hostPlan.first.padding.2.1
  have more2 := hostPlan.second.padding
  have more3 := hostPlan.output.padding.2.1
  refine ⟨s, w, hs, hw, Kernel.runs_of_bindPaddings hb, compatible.suit inRange hostO hs,
    addressed_of_elements compatible hostO elements allocated addressable,
    ⟨allocated.first_ne, allocated.second_ne, fun axis => ?_, allocated.output, ?_⟩, allocated,
    hostO, compatible.first_extent, compatible.second_extent, compatible.width_le, ends, ?_, ?_, ?_⟩
  · rw [hostO.output.extent_eq]
    exact elements axis
  · rw [hostO.output.extent_eq]
    omega
  · omega
  · exact Nat.le_trans left2 more2.2.2.2
  · have := more2.2.1
    omega

theorem planned_of_configure (sound : c.Sound) (elements : o.output.HasElements)
    (valid : o.output.valid = .full o.output.shape)
    (configured : (Kernel.configure c o).1 = .ok (k, planned)) (host : t.Host planned)
    (allocated : t.Allocated m) (addressable : m.Addressable) :
    ∃ s, o.first.type.storage? = some s ∧ k.Runs o s o.plannedWindow ∧ o.Provided s t m := by
  have rows := validRows_of_full valid
  obtain ⟨s, w, hs, hw, runs, p⟩ := provided_of_configure sound elements rows.start rows.width
    configured host allocated addressable
  obtain ⟨compatible, -⟩ := (Kernel.configure_eq_ok_iff sound).1 configured
  obtain ⟨inRange, vectors⟩ := p.inRange addressable
  obtain ⟨-, -, rfl⟩ := plan_eq_ok_iff.1 hw
  rw [merged_cover compatible inRange vectors valid] at runs
  exact ⟨s, hs, runs, p⟩

theorem prepared_of_configure (sound : c.Sound) (elements : o.HasElements)
    (valid : o.output.valid = .full o.output.shape)
    (configured : (Kernel.configure c o).1 = .ok (k, planned)) (host : t.Host planned)
    (allocated : t.Allocated m) (addressable : m.Addressable) :
    ∃ s, o.first.type.storage? = some s ∧ o.Prepared s k t m := by
  obtain ⟨s, hs, runs, p⟩ := planned_of_configure sound elements.output valid configured host
    allocated addressable
  exact ⟨s, hs, { p with ordinary := elements.ordinary p.host allocated addressable, runs }⟩

theorem configure_of_plan {half : Bool} (requests : List (String × BuildOptions))
    (compatible : o.Compatible half) (compilable : o.Compilable)
    (hs : o.first.type.storage? = some s) {w : Window} (plan : o.plan.1 = .ok w) :
    ∃ k, (Kernel.configure (.after (.host half) requests) o).1 = .ok (k, Kernel.written o.plan.2) ∧
      k.configuration?.map (·.window) = some w ∧ k.Runs o s w := by
  obtain ⟨sound, device⟩ := ProgramCache.after_sound (.host half) requests
  obtain ⟨h, hb, -⟩ := Kernel.bindPaddings_eq_ok (.fresh Program.kernelName (o.program s))
    (o.first.extent 0)
  refine ⟨_, (Kernel.configure_eq_ok_iff sound).2 ⟨?_, compilable, rfl, s, w, h, hs, plan, hb, rfl⟩,
    rfl, Kernel.runs_of_bindPaddings hb⟩
  rw [device]
  exact compatible

theorem configure_of_plannable {half : Bool} (requests : List (String × BuildOptions))
    (compatible : o.Compatible half) (inRange : o.InRange)
    (valid : o.output.valid = .full o.output.shape) (plannable : o.Plannable)
    (compilable : o.Compilable) (hs : o.first.type.storage? = some s) :
    ∃ k, (Kernel.configure (.after (.host half) requests) o).1 = .ok (k, Kernel.written o.padded) ∧
      k.configuration?.map (·.window) = some o.plannedWindow ∧ k.Runs o s o.plannedWindow := by
  have plan := plan_of_plannable compatible inRange valid plannable
  obtain ⟨k, configured, rest⟩ := configure_of_plan requests compatible compilable hs
    (congrArg Prod.fst plan)
  rw [plan] at configured
  exact ⟨k, configured, rest⟩

end Operands
end TensorConcat
