import TensorConcat.Iteration.Split
import TensorConcat.Proofs.Concat.SessionLaunches
import TensorConcat.Proofs.Launch.Drains

/-! Sessions whose queue is drained again and again. No launch is lost or runs twice: each is
completed, dropped or pending, in the order of the submissions, and no buffer changes that is not the
output of one. -/

namespace TensorConcat

/-- The launches that a command submits: none, unless it is a run that succeeds, and then those for the
slices of its window, bound to its tensors. -/
inductive Session.Submits (s : Session) : Command → List Launch → Prop
  | slices {i : Nat} {pack : TensorPack} {w : Window} {c : Configuration} {t : Submission.Tensors}
      {ls : List Launch} (accepted : s.reply (.run i pack w) = .run i pack w (.ok ()))
      (configured : (s.kernels i).configuration? = some c)
      (bound : Submission.Tensors.ofPack pack = .ok t)
      (launched : Submission.Launched c.handle t w.slices ls) : Submits s (.run i pack w) ls
  | nothing {command : Command} (none : ∀ i pack w, s.reply command ≠ .run i pack w (.ok ())) :
      Submits s command []

/-- A session, the memory that its launches run on, and the launches that a failure has dropped. -/
structure Dispatch where
  session : Session
  memory : Memory
  dropped : List Launch

inductive DispatchStep where
  | command (c : Command)
  | finish

inductive Fate where
  | completed
  | dropped
  | pending
deriving DecidableEq, Repr

def Fate.select (fate : Fate) (fates : List (Launch × Fate)) : List Launch :=
  (fates.filter (·.2 = fate)).map (·.1)

namespace Fate

variable {fate other : Fate}

theorem select_append (fate : Fate) (fates rest : List (Launch × Fate)) :
    fate.select (fates ++ rest) = fate.select fates ++ fate.select rest := by
  simp only [select, List.filter_append, List.map_append]

theorem select_map_self (fate : Fate) (ls : List Launch) : fate.select (ls.map (·, fate)) = ls := by
  simp [select, List.filter_map, List.map_map, Function.comp_def]

theorem select_map_of_ne (h : other ≠ fate) (ls : List Launch) :
    fate.select (ls.map (·, other)) = [] := by
  simp [select, List.filter_map, h]

theorem select_sublist (fate : Fate) (fates : List (Launch × Fate)) :
    (fate.select fates).Sublist (fates.map (·.1)) :=
  List.filter_sublist.map _

end Fate

namespace Dispatch

def start (s : Session) (m : Memory) : Dispatch :=
  ⟨{ s with queue := .empty }, m, []⟩

def perform (d : Dispatch) : DispatchStep → Dispatch
  | .command c => { d with session := d.session.perform c }
  | .finish =>
    let (_, queue, memory) := d.session.queue.finish d.memory
    { session := { d.session with queue }
      memory
      dropped := d.dropped ++ d.session.queue.lost d.memory }

def after (s : Session) (m : Memory) (steps : List DispatchStep) : Dispatch :=
  steps.foldl perform (start s m)

def having (d : Dispatch) : Fate → List Launch
  | .completed => d.session.queue.completed
  | .dropped => d.dropped
  | .pending => d.session.queue.pending

inductive Submitted (s : Session) (m : Memory) : List DispatchStep → List Launch → Prop
  | start : Submitted s m [] []
  | command {steps : List DispatchStep} {c : Command} {ls new : List Launch}
      (before : Submitted s m steps ls) (submits : (after s m steps).session.Submits c new) :
      Submitted s m (steps ++ [.command c]) (ls ++ new)
  | finish {steps : List DispatchStep} {ls : List Launch} (before : Submitted s m steps ls) :
      Submitted s m (steps ++ [.finish]) ls

theorem after_append (s : Session) (m : Memory) (steps : List DispatchStep) (step : DispatchStep) :
    after s m (steps ++ [step]) = (after s m steps).perform step :=
  List.foldl_append

end Dispatch

theorem Session.exists_submits (s : Session) (c : Command) :
    ∃ ls, s.Submits c ls ∧ (s.perform c).queue = s.queue.submitAll ls := by
  by_cases run : ∃ i pack w, c = .run i pack w
  · obtain ⟨i, pack, w, rfl⟩ := run
    have outcome := Kernel.run_outcome (s.kernels i) pack w s.queue
    have answered : s.reply (.run i pack w) =
        .run i pack w ((s.kernels i).run pack w s.queue).1 := rfl
    simp only [Session.perform, effect]
    generalize (s.kernels i).run pack w s.queue = r at outcome answered ⊢
    cases outcome with
    | refused =>
      exact ⟨[], .nothing fun _ _ _ h => by simp [answered] at h, (Queue.submitAll_nil _).symm⟩
    | tooLarge =>
      exact ⟨[], .nothing fun _ _ _ h => by simp [answered] at h, (Queue.submitAll_nil _).symm⟩
    | submitted configured _ bound _ _ launched =>
      exact ⟨_, .slices answered configured bound launched, rfl⟩
  · have idle (i : Nat) (pack : TensorPack) (w : Window) : c ≠ .run i pack w :=
      fun h => run ⟨i, pack, w, h⟩
    refine ⟨[], .nothing fun i pack w => ?_, ?_⟩
    · cases c with
      | run i pack w => exact absurd rfl (idle i pack w)
      | _ => simp [reply]
    · rw [Queue.submitAll_nil, queue_perform idle]

namespace Dispatch

variable {d : Dispatch} {m : Memory} {submitted : List Launch} {settled : List (Launch × Fate)}

/-- Launches that have been submitted: those that are no longer pending, with what has become of each,
and then the pending ones. -/
structure Settled (d : Dispatch) (submitted : List Launch) (settled : List (Launch × Fate)) : Prop where
  submitted : submitted = settled.map (·.1) ++ d.session.queue.pending
  completed : Fate.completed.select settled = d.session.queue.completed
  dropped : Fate.dropped.select settled = d.dropped
  pending : Fate.pending.select settled = []

def Spares (m : Memory) (submitted : List Launch) (d : Dispatch) : Prop :=
  ∀ id, (∀ l ∈ submitted, ¬ l.StoresTo id) → d.memory.buffer id = m.buffer id

theorem Settled.command (h : d.Settled submitted settled) {c : Command} {new : List Launch}
    (queue : (d.session.perform c).queue = d.session.queue.submitAll new) :
    (d.perform (.command c)).Settled (submitted ++ new) settled := by
  rw [perform]
  refine ⟨?_, ?_, h.dropped, h.pending⟩
  · rw [queue, h.submitted, Queue.submitAll, List.append_assoc]
  · rw [queue, Queue.submitAll, h.completed]

theorem Settled.finish (h : d.Settled submitted settled) :
    ∃ new, (d.perform .finish).Settled submitted (settled ++ new) := by
  obtain ⟨done, pending, left⟩ := (d.session.queue.finish_drained d.memory).exists_done
  refine ⟨done.map (·, .completed) ++ (d.session.queue.lost d.memory).map (·, .dropped),
    ⟨?_, ?_, ?_, ?_⟩⟩
  · simp [perform, left, h.submitted, pending, Function.comp_def]
  · rw [Fate.select_append, Fate.select_append, Fate.select_map_self,
      Fate.select_map_of_ne (by decide), List.append_nil, h.completed]
    simp only [perform, left]
  · rw [Fate.select_append, Fate.select_append, Fate.select_map_self,
      Fate.select_map_of_ne (by decide), List.nil_append, h.dropped]
    rfl
  · rw [Fate.select_append, Fate.select_append, Fate.select_map_of_ne (by decide),
      Fate.select_map_of_ne (by decide), h.pending, List.append_nil, List.append_nil]

theorem Spares.command (spares : Spares m submitted d) (c : Command) (new : List Launch) :
    Spares m (submitted ++ new) (d.perform (.command c)) :=
  fun id others => spares id fun l hl => others l (List.mem_append_left _ hl)

theorem Spares.finish (spares : Spares m submitted d) (h : d.Settled submitted settled) :
    Spares m submitted (d.perform .finish) := by
  intro id others
  have drained := d.session.queue.finish_drained d.memory
  have own : ∀ l ∈ d.session.queue.pending, ¬ l.StoresTo id := fun l hl =>
    others l (h.submitted ▸ List.mem_append_right _ hl)
  exact (drained.buffer own).trans (spares id others)

theorem exists_settled (s : Session) (m : Memory) (steps : List DispatchStep) :
    ∃ submitted settled, Submitted s m steps submitted ∧
      (after s m steps).Settled submitted settled ∧ Spares m submitted (after s m steps) := by
  induction steps using List.reverseRecOn with
  | nil => exact ⟨[], [], .start, ⟨rfl, rfl, rfl, rfl⟩, fun _ _ => rfl⟩
  | append_singleton steps step ih =>
    obtain ⟨submitted, settled, before, h, spares⟩ := ih
    rw [after_append]
    cases step with
    | command c =>
      obtain ⟨new, submits, queue⟩ := (after s m steps).session.exists_submits c
      exact ⟨submitted ++ new, settled, .command before submits, h.command queue,
        spares.command c new⟩
    | finish =>
      obtain ⟨new, h'⟩ := h.finish
      exact ⟨submitted, settled ++ new, .finish before, h', spares.finish h⟩

theorem Settled.exists_fates (h : d.Settled submitted settled) :
    ∃ fates : List (Launch × Fate),
      fates.map (·.1) = submitted ∧ ∀ fate : Fate, fate.select fates = d.having fate := by
  refine ⟨settled ++ d.session.queue.pending.map (·, .pending), ?_, fun fate => ?_⟩
  · simp [h.submitted, Function.comp_def]
  · rw [Fate.select_append]
    cases fate with
    | completed => rw [Fate.select_map_of_ne (by decide), List.append_nil, h.completed, having]
    | dropped => rw [Fate.select_map_of_ne (by decide), List.append_nil, h.dropped, having]
    | pending => rw [Fate.select_map_self, h.pending, List.nil_append, having]

/-- After any steps, every launch that has been submitted is completed, dropped or pending, and only
one of these. Launches are submitted by runs that succeed, one for each slice with work to do. They go
to the end of the queue, and the memory is left alone. A drain runs what is pending up to the first
failure, and drops the rest. -/
theorem launches_accounted (s : Session) (m : Memory) (steps : List DispatchStep) :
    let d := after s m steps
    (∃ submitted, Submitted s m steps submitted ∧
        (∃ fates : List (Launch × Fate),
          fates.map (·.1) = submitted ∧ ∀ fate : Fate, fate.select fates = d.having fate) ∧
        d.session.queue.completed.Sublist submitted ∧
        ∀ id, (∀ l ∈ submitted, ¬ l.StoresTo id) → d.memory.buffer id = m.buffer id) ∧
      (∀ c, ∃ ls, d.session.Submits c ls ∧
        (d.session.perform c).queue = d.session.queue.submitAll ls ∧
        (d.perform (.command c)).memory = d.memory) ∧
      d.session.queue.Drained d.memory (d.session.queue.finish d.memory)
        (d.session.queue.lost d.memory) := by
  intro d
  obtain ⟨submitted, settled, history, h, spares⟩ := exists_settled s m steps
  obtain ⟨fates, all, having⟩ := h.exists_fates
  have completed : Fate.completed.select fates = d.session.queue.completed := having .completed
  refine ⟨⟨submitted, history, ⟨fates, all, having⟩, ?_, spares⟩, fun c => ?_, Queue.finish_drained ..⟩
  · rw [← completed, ← all]
    exact Fate.select_sublist .completed fates
  · obtain ⟨ls, submits, queue⟩ := d.session.exists_submits c
    exact ⟨ls, submits, queue, rfl⟩

def tightMemory : Memory :=
  ⟨#[.zeroed 16, .zeroed 16, .zeroed 16]⟩

def rowRun (row : Nat) : DispatchStep :=
  .command (.run 0 Operands.smallPack (Operands.small.plannedWindow.part .y row 2))

def tightSteps : List DispatchStep :=
  [rowRun 0, rowRun 1, rowRun 0]

theorem tight_outcome :
    let before := after (.after false Session.smallSetup) tightMemory tightSteps
    let d := after (.after false Session.smallSetup) tightMemory (tightSteps ++ [.finish])
    (before.session.queue.finish before.memory).1.isOk = false ∧
      d.memory.buffer 2 = ⟨Array.replicate 16 ⟨0, 1⟩⟩ ∧ (d.having .completed).length = 1 ∧
        (d.having .dropped).length = 2 ∧ d.having .pending = [] := by
  -- The slices are listed by their points, for the recursion over them does not evaluate.
  simp only [tightSteps, rowRun, after, start, perform, List.cons_append, List.nil_append,
    List.foldl_cons, List.foldl_nil, Session.perform, Session.effect, Kernel.run,
    Window.forSlices_eq, Window.slices_eq, having]
  decide +kernel

/-- The second of three launches fails, so that the third is dropped with it and stores nothing. -/
theorem launches_accounted_cut :
    let before := after (.after false Session.smallSetup) tightMemory tightSteps
    let d := after (.after false Session.smallSetup) tightMemory (tightSteps ++ [.finish])
    (∃ e, (before.session.queue.finish before.memory).1 = .error e) ∧
      d.memory.buffer 2 = ⟨Array.replicate 16 ⟨0, 1⟩⟩ ∧
      ∃ submitted fates, fates.map (·.1) = submitted ∧
        Submitted (.after false Session.smallSetup) tightMemory (tightSteps ++ [.finish]) submitted ∧
        (Fate.completed.select fates).length = 1 ∧ (Fate.dropped.select fates).length = 2 ∧
        Fate.pending.select fates = [] := by
  intro before d
  obtain ⟨fails, stored, completed, dropped, pending⟩ := tight_outcome
  obtain ⟨⟨submitted, history, ⟨fates, all, having⟩, -⟩, -⟩ := launches_accounted
    (.after false Session.smallSetup) tightMemory (tightSteps ++ [.finish])
  refine ⟨?_, stored, submitted, fates, all, history, ?_, ?_, ?_⟩
  · cases answer : (before.session.queue.finish before.memory).1 with
    | error e => exact ⟨e, rfl⟩
    | ok => exact absurd ((congrArg Except.isOk answer).symm.trans fails) Bool.noConfusion
  · rw [having, completed]
  · rw [having, dropped]
  · rw [having, pending]

end Dispatch
end TensorConcat
