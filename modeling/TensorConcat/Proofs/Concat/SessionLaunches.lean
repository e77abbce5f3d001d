import Mathlib.Data.List.Induction
import TensorConcat.Proofs.Concat.EndToEnd
import TensorConcat.Proofs.Concat.Lifecycle
import TensorConcat.Proofs.Launch.Numbers

/-! Where the launches of a session come from. All slots of a launch are bound, and what they hold is
settled by the run that submitted it and by what its kernel was last configured for: not by earlier
runs of the kernel, whether they succeeded or failed half way, and not by other kernels. -/

namespace TensorConcat

namespace Submission.Tensors

variable {t : Tensors}

def SignedLayouts (t : Tensors) : Prop :=
  ∀ u ∈ [t.first, t.second, t.output], u.descriptor.SignedLayout

def AreWords (t : Tensors) (w : Window) : Prop :=
  ∀ u ∈ [t.first, t.second, t.output], ∀ n ∈ u.descriptor.numbers w, IsWord n

theorem fit_iff (h : t.SignedLayouts) (w : Window) : t.Fit w ↔ t.AreWords w :=
  forall₂_congr fun u hu => Cursor.fits_iff (h u hu) w

theorem areWords_of_mem_slices {w slice : Window} (hs : slice ∈ w.slices) :
    t.AreWords slice ↔ t.AreWords w := by
  refine forall₂_congr fun u _ => ?_
  rw [u.descriptor.numbers_congr fun a ha => Window.span_of_mem_slices hs ha]

end Submission.Tensors

def TensorPack.Signed (p : TensorPack) : Prop :=
  ∀ t, Submission.Tensors.ofPack p = .ok t → t.SignedLayouts

def Command.Signed : Command → Prop
  | .run _ pack _ => pack.Signed
  | _ => True

/-- The launch has work to do, in groups that cover its range, and all its slots are bound: to what
the tensors are for a slice, to the columns by which the first width misses a multiple of eight, and to
its remainder. Its execution finds them all. -/
structure Launch.Complete (l : Launch) (o : Operands) (t : Submission.Tensors) (slice : Window) :
    Prop where
  range : l.range = .ofWindow slice
  some : 0 < l.range.x ∧ 0 < l.range.y ∧ 0 < l.range.z
  group : ∀ g ∈ l.group?, g.x ∣ l.range.x ∧ g.y ∣ l.range.y ∧ g.z ∣ l.range.z
  bound : ∀ i < 32, (l.handle.argument? i).isSome
  first : l.handle.HoldsTensor 0 t.first slice
  second : l.handle.HoldsTensor 10 t.second slice
  output : l.handle.HoldsTensor 20 t.output slice
  right : l.handle.HoldsNumber 30 ((o.first.extent 0 + 7) / 8 * 8 - o.first.extent 0 : Nat)
  left : l.handle.HoldsNumber 31 (o.first.extent 0 % 8 : Nat)
  executes : ∃ f, Frame.ofHandle l.handle = .ok f ∧ ∀ m,
    (l.handle.execute l.range).perform m = (l.handle.program.runItems f l.range).perform m

theorem LaunchRange.dvd_of_divides {r whole : LaunchRange} (h : r.divides whole = true) :
    r.x ∣ whole.x ∧ r.y ∣ whole.y ∧ r.z ∣ whole.z := by
  simp only [divides, Bool.and_eq_true, beq_iff_eq] at h
  obtain ⟨⟨⟨-, hx⟩, hy⟩, hz⟩ := h
  exact ⟨Nat.dvd_of_mod_eq_zero hx, Nat.dvd_of_mod_eq_zero hy, Nat.dvd_of_mod_eq_zero hz⟩

namespace Launch

variable {l : Launch} {o : Operands} {t : Submission.Tensors} {slice : Window}

theorem Carries.slots (carries : l.Carries t slice) :
    (∀ n < 10, l.handle.argument? (0 + n) = (Cursor.slots t.first slice)[n]?) ∧
      (∀ n < 10, l.handle.argument? (10 + n) = (Cursor.slots t.second slice)[n]?) ∧
      ∀ n < 10, l.handle.argument? (20 + n) = (Cursor.slots t.output slice)[n]? := by
  have length (u : DeviceTensor) : (Cursor.slots u slice).length = 10 := rfl
  have bound := carries.arguments
  simp only [Submission.Tensors.slots] at bound
  refine ⟨fun n hn => ?_, fun n hn => ?_, fun n hn => ?_⟩
  · rw [bound _ (by omega), List.getElem?_append_left (by simp only [List.length_append, length]; omega),
      List.getElem?_append_left (by rw [length]; omega), Nat.zero_add]
  · rw [bound _ (by omega), List.getElem?_append_left (by simp only [List.length_append, length]; omega),
      List.getElem?_append_right (by rw [length]; omega), length, Nat.add_sub_cancel_left]
  · rw [bound _ (by omega),
      List.getElem?_append_right (by simp only [List.length_append, length]; omega),
      List.length_append, length, length, Nat.add_sub_cancel_left]

theorem complete_of_carries (carries : l.Carries t slice) (serves : l.handle.Serves o)
    (layouts : t.SignedLayouts) (fit : t.Fit slice) : l.Complete o t slice := by
  obtain ⟨first, second, output⟩ := carries.slots
  have view (u : DeviceTensor) (hu : u ∈ [t.first, t.second, t.output]) (start : Nat)
      (bound : ∀ n < 10, l.handle.argument? (start + n) = (Cursor.slots u slice)[n]?) :
      TensorView.ofHandle l.handle start = .ok (.of u slice) :=
    TensorView.ofHandle_eq_ok (fit u hu) bound
  have frame : Frame.ofHandle l.handle = .ok ⟨.of t.first slice, .of t.second slice,
      .of t.output slice, firstRightPadding (o.first.extent 0),
      secondLeftPadding (o.first.extent 0)⟩ := by
    rw [Frame.ofHandle, view t.first (by simp) _ first, Answer.ok_bind,
      view t.second (by simp) Cursor.slotsPerTensor second, Answer.ok_bind,
      view t.output (by simp) (2 * Cursor.slotsPerTensor) output, Answer.ok_bind,
      Handle.word_of_argument? _ serves.right, Handle.word_of_argument? _ serves.left,
      Kernel.toNat_firstRightPadding, Kernel.toNat_secondLeftPadding]
    rfl
  obtain ⟨s, -, program⟩ := serves.program
  refine
    { range := carries.range
      some := LaunchRange.isEmpty_eq_false_iff.1 carries.some
      group := fun g hg => LaunchRange.dvd_of_divides (carries.group g hg)
      bound := ?_
      first := Handle.holdsTensor_of_slots (layouts _ (by simp)) (fit _ (by simp)) first
      second := Handle.holdsTensor_of_slots (layouts _ (by simp)) (fit _ (by simp)) second
      output := Handle.holdsTensor_of_slots (layouts _ (by simp)) (fit _ (by simp)) output
      right := ⟨_, serves.right, congrArg Nat.cast (Kernel.toNat_firstRightPadding _)⟩
      left := ⟨_, serves.left, congrArg Nat.cast (Kernel.toNat_secondLeftPadding _)⟩
      executes := ⟨_, frame, fun m => ?_⟩ }
  · intro i hi
    have length : (t.slots slice).length = 30 := rfl
    rcases (by omega : i < 30 ∨ i = 30 ∨ i = 31) with hi | rfl | rfl
    · rw [carries.arguments i hi, List.getElem?_eq_getElem (by rw [length]; exact hi)]
      rfl
    · rw [show (30 : Nat) = Frame.paddingSlot from rfl, serves.right]
      rfl
    · rw [show (31 : Nat) = Frame.paddingSlot + 1 from rfl, serves.left]
      rfl
  · rw [Operands.execute_eq_of_frame program frame carries.range, program, carries.range]

/-- A run among the commands submitted the launch for a slice, when its kernel had last been
configured for the operands. -/
def ComesFrom (l : Launch) (half : Bool) (commands : List Command) (o : Operands)
    (t : Submission.Tensors) (slice : Window) : Prop :=
  ∃ before i pack w later since ls, commands = before ++ .run i pack w :: later ∧
    ((Session.after half before).perform (.run i pack w)).queue =
      (Session.after half before).queue.submitAll ls ∧ l ∈ ls ∧
    LastConfigured (Session.after half before).log i o since ∧
    Submission.Tensors.ofPack pack = .ok t ∧ slice ∈ w.slices

theorem ComesFrom.append {half : Bool} {commands : List Command}
    (h : l.ComesFrom half commands o t slice) (command : Command) :
    l.ComesFrom half (commands ++ [command]) o t slice := by
  obtain ⟨before, i, pack, w, later, since, ls, rfl, rest⟩ := h
  exact ⟨before, i, pack, w, later ++ [command], since, ls, by simp, rest⟩

end Launch

namespace Session

variable {s : Session}

theorem queue_perform {command : Command} (idle : ∀ i pack w, command ≠ .run i pack w) :
    (s.perform command).queue = s.queue := by
  show (s.effect command).queue = s.queue
  cases command with
  | describe => rfl
  | configure i inputs output =>
    rw [effect]
    split <;> rfl
  | setHint i hint? =>
    rw [effect]
    split <;> rfl
  | tune i table =>
    rw [effect]
    split <;> rfl
  | run i pack w => exact absurd rfl (idle i pack w)

theorem Sound.exists_of (hs : s.Sound) {i : Nat} {c : Configuration}
    (hc : (s.kernels i).configuration? = some c) :
    ∃ o since, LastConfigured s.log i o since ∧ c.Of o := by
  have configured : (s.kernels i).configuration?.isSome := by
    rw [hc]
    rfl
  obtain ⟨o, since, last⟩ := exists_lastConfigured_iff.2 ((hs.kernels i).isSome_iff.1 configured)
  obtain ⟨c', hc', of, -⟩ := (hs.kernels i).last o since last
  obtain rfl := Option.some.inj (hc.symm.trans hc')
  exact ⟨o, since, last, of⟩

theorem Sound.exists_submitAll (hs : s.Sound) (i : Nat) {pack : TensorPack} (w : Window)
    (signed : pack.Signed) :
    ∃ ls, (s.perform (.run i pack w)).queue = s.queue.submitAll ls ∧
      ∀ l ∈ ls, ∃ o since t slice, LastConfigured s.log i o since ∧
        Submission.Tensors.ofPack pack = .ok t ∧ slice ∈ w.slices ∧ l.Complete o t slice := by
  have outcome := Kernel.run_outcome (s.kernels i) pack w s.queue
  simp only [Session.perform, effect]
  generalize (s.kernels i).run pack w s.queue = r at outcome ⊢
  cases outcome with
  | refused => exact ⟨[], (Queue.submitAll_nil _).symm, by simp⟩
  | tooLarge => exact ⟨[], (Queue.submitAll_nil _).symm, by simp⟩
  | @submitted c t h ls configured _ bound fit _ launched =>
    obtain ⟨o, since, last, of⟩ := hs.exists_of configured
    refine ⟨ls, rfl, fun l hl => ?_⟩
    obtain ⟨kept, slice, hslice, carries⟩ := launched.forall_mem l hl
    have inner := Submission.Tensors.fit_congr (t := t) fun a ha =>
      Window.span_of_mem_slices hslice ha
    exact ⟨o, since, t, slice, last, bound, hslice,
      Launch.complete_of_carries carries (of.handle.of_keepsFrom kept) (signed t bound) (inner.2 fit)⟩

theorem pending_complete (half : Bool) {commands : List Command}
    (signed : ∀ command ∈ commands, command.Signed) :
    ∀ l ∈ (after half commands).queue.pending,
      ∃ o t slice, l.ComesFrom half commands o t slice ∧ l.Complete o t slice := by
  induction commands using List.reverseRecOn with
  | nil => exact fun l hl => absurd hl List.not_mem_nil
  | append_singleton commands command ih =>
    rw [List.forall_mem_append, List.forall_mem_singleton] at signed
    rw [after_append]
    have earlier (l : Launch) (hl : l ∈ (after half commands).queue.pending) :
        ∃ o t slice, l.ComesFrom half (commands ++ [command]) o t slice ∧ l.Complete o t slice := by
      obtain ⟨o, t, slice, comes, complete⟩ := ih signed.1 l hl
      exact ⟨o, t, slice, comes.append command, complete⟩
    by_cases run : ∃ i pack w, command = .run i pack w
    · obtain ⟨i, pack, w, rfl⟩ := run
      obtain ⟨ls, queue, complete⟩ := (sound_after half commands).exists_submitAll i w signed.2
      intro l hl
      rw [queue] at hl
      rcases List.mem_append.1 hl with hl | hl
      · exact earlier l hl
      · obtain ⟨o, since, t, slice, last, bound, hs, hc⟩ := complete l hl
        exact ⟨o, t, slice, ⟨commands, i, pack, w, [], since, ls, rfl, queue, hl, last, bound, hs⟩, hc⟩
    · rw [queue_perform fun i pack w h => run ⟨i, pack, w, h⟩]
      exact earlier

theorem reply_run {i : Nat} {c : Configuration} {pack : TensorPack} {w : Window}
    {t : Submission.Tensors} (configured : (s.kernels i).configuration? = some c)
    (within : w.IsWithin c.window) (bound : Submission.Tensors.ofPack pack = .ok t)
    (layouts : t.SignedLayouts) :
    ((∀ slice ∈ w.slices, t.AreWords slice) →
        s.reply (.run i pack w) = .run i pack w (.ok ())) ∧
      ((∃ slice ∈ w.slices, ¬ t.AreWords slice) →
        ∃ e, s.reply (.run i pack w) = .run i pack w (.error e) ∧ e.kind = .runtime ∧
          (s.perform (.run i pack w)).queue = s.queue) := by
  obtain ⟨first, here⟩ := List.exists_mem_of_ne_nil w.slices w.slices_ne_nil
  have outcome := Kernel.run_outcome (s.kernels i) pack w s.queue
  simp only [reply, perform, effect]
  generalize (s.kernels i).run pack w s.queue = r at outcome ⊢
  cases outcome with
  | refused _ unready => exact absurd within (unready c t configured bound)
  | @tooLarge _ t' _ _ _ _ bound' unfit kind _ =>
    obtain rfl := Except.ok.inj (bound.symm.trans bound')
    refine ⟨fun words => absurd ?_ unfit, fun _ => ⟨_, rfl, kind, rfl⟩⟩
    exact (t.fit_iff layouts w).2
      ((Submission.Tensors.areWords_of_mem_slices here).1 (words first here))
  | @submitted _ t' _ _ _ _ bound' fit _ _ =>
    obtain rfl := Except.ok.inj (bound.symm.trans bound')
    refine ⟨fun _ => rfl, ?_⟩
    rintro ⟨slice, hslice, unfit⟩
    refine absurd ?_ unfit
    exact (Submission.Tensors.areWords_of_mem_slices hslice).2 ((t.fit_iff layouts w).1 fit)

/-- Every launch that any commands have submitted comes from one of their runs and is complete. A run
whose numbers do not all fit 32 bits submits nothing. -/
theorem launches_complete (half : Bool) (commands : List Command)
    (signed : ∀ command ∈ commands, command.Signed) :
    (∀ l ∈ (after half commands).queue.pending,
        ∃ o t slice, l.ComesFrom half commands o t slice ∧ l.Complete o t slice) ∧
      ∀ i c pack w t, ((after half commands).kernels i).configuration? = some c →
        w.IsWithin c.window → Submission.Tensors.ofPack pack = .ok t → t.SignedLayouts →
        ((∀ slice ∈ w.slices, t.AreWords slice) →
            (after half commands).reply (.run i pack w) = .run i pack w (.ok ())) ∧
          ((∃ slice ∈ w.slices, ¬ t.AreWords slice) →
            ∃ e, (after half commands).reply (.run i pack w) = .run i pack w (.error e) ∧
              e.kind = .runtime ∧
              ((after half commands).perform (.run i pack w)).queue =
                (after half commands).queue) :=
  ⟨pending_complete half signed, fun _ _ _ _ _ configured within bound layouts =>
    reply_run configured within bound layouts⟩

def smallSetup : List Command :=
  [.describe 0 Operands.small.first, .describe 1 Operands.small.second,
    .describe 2 Operands.small.output, .configure 0 [0, 1] 2]

theorem smallPack_signed : Operands.smallPack.Signed := by
  intro t bound
  obtain rfl : Operands.smallTensors = t := Except.ok.inj bound
  simp only [Submission.Tensors.SignedLayouts, List.forall_mem_cons, List.not_mem_nil, false_implies,
    implies_true, and_true]
  exact ⟨⟨by decide, by decide⟩, ⟨by decide, by decide⟩, by decide, by decide⟩

def smallRun : List Command :=
  smallSetup ++ [.run 0 Operands.smallPack Operands.small.plannedWindow]

theorem launches_complete_small :
    (∀ command ∈ smallRun, command.Signed) ∧
      ∃ l ∈ (after false smallRun).queue.pending,
        ∃ o t slice, l.ComesFrom false smallRun o t slice ∧ l.Complete o t slice := by
  have signed : ∀ command ∈ smallRun, command.Signed := by
    simp [smallRun, smallSetup, Command.Signed, smallPack_signed]
  have window : ((after false smallSetup).kernels 0).configuration?.map (·.window) =
      some Operands.small.plannedWindow := by decide +kernel
  have idle : (after false smallSetup).queue = .empty := by decide +kernel
  obtain ⟨c, hc, full⟩ := Option.map_eq_some_iff.1 window
  have within : Operands.small.plannedWindow.IsWithin c.window := by
    rw [full]
    exact (Window.IsPart.refl _).within
  obtain ⟨k', ls, runs, length, -⟩ := Kernel.exists_run_of_fit hc within Operands.ofPack_small
    (by decide) .empty
  obtain ⟨l, rfl⟩ := List.length_eq_one_iff.1 (length.trans (by rw [Window.length_slices]; decide))
  have pending : l ∈ (after false smallRun).queue.pending := by
    rw [smallRun, after_append, perform, effect, idle, runs]
    exact List.mem_singleton_self l
  exact ⟨signed, l, pending, (launches_complete false smallRun signed).1 l pending⟩

end Session
end TensorConcat
