import TensorConcat.Launch.Queue
import TensorConcat.Proofs.Answer
import TensorConcat.Proofs.Effect
import TensorConcat.Proofs.Memory.Cells

/-! How a queue ends: with all of its launches run, or cut off at one that fails. Whether a launch
succeeds or fails, it changes no buffer but its output. -/

namespace TensorConcat

def Launch.StoresTo (l : Launch) (id : BufferId) : Prop :=
  l.handle.argument? (2 * Cursor.slotsPerTensor) = some (.buffer id)

namespace Handle

variable {h : Handle} {first : Nat} {f : Frame} {id : BufferId}

theorem argument?_of_buffer (bound : h.buffer first = .ok id) :
    h.argument? first = some (.buffer id) := by
  unfold buffer at bound
  split at bound
  next found => rw [found, Except.ok.inj bound]
  next => cases bound

theorem output_of_frame (frame : Frame.ofHandle h = .ok f) :
    h.argument? (2 * Cursor.slotsPerTensor) = some (.buffer f.output.buffer) := by
  simp only [Frame.ofHandle, TensorView.ofHandle, Answer.bind_eq_ok_iff] at frame
  obtain ⟨_, -, _, -, output, ⟨id, bound, rest⟩, _, -, _, -, same⟩ := frame
  obtain ⟨_, -, _, -, _, -, _, -, _, -, view⟩ := rest
  obtain rfl := Except.ok.inj same
  obtain rfl := Except.ok.inj view
  exact argument?_of_buffer bound

end Handle

namespace Program

variable {p : Program} {f : Frame} {id : BufferId}

theorem runItem_keeps (other : id ≠ f.output.buffer) (b : Buffer) (i j k : Nat) :
    Action.Keeps (fun m : Memory => m.buffer id = b) (p.runItem f i j k) := by
  intro m hm
  rw [runItem, Action.perform_bind_of_ok (Action.perform_get m)]
  have loads (answer : Except Error (List UInt8)) :=
    Action.keeps_ofExcept (fun m : Memory => m.buffer id = b) answer
  refine ((loads _).bind fun _ => (loads _).bind fun _ => ?_) m hm
  exact (Action.keeps_ofExcept _ _).bind fun _ _ _ => (Memory.buffer_set_of_ne other).trans hm

theorem runItems_keeps (other : id ≠ f.output.buffer) (b : Buffer) (r : LaunchRange) :
    Action.Keeps (fun m : Memory => m.buffer id = b) (p.runItems f r) :=
  .countTo _ _ fun _ => .countTo _ _ fun _ => .countTo _ _ fun _ => runItem_keeps other b _ _ _

end Program

theorem Launch.buffer_execute {l : Launch} {id : BufferId} (other : ¬ l.StoresTo id) (m : Memory) :
    ((l.handle.execute l.range).perform m).2.buffer id = m.buffer id := by
  rw [Handle.execute, Action.perform_bind, Action.perform_ofExcept]
  cases frame : Frame.ofHandle l.handle with
  | error => rfl
  | ok f =>
    have ne : id ≠ f.output.buffer := fun h => other (h ▸ Handle.output_of_frame frame)
    dsimp only
    split
    · rfl
    · exact Program.runItems_keeps ne _ l.range m rfl

inductive Runs : List Launch → Memory → Memory → Prop
  | nil {m : Memory} : Runs [] m m
  | cons {l : Launch} {ls : List Launch} {m m1 m' : Memory}
      (first : (l.handle.execute l.range).perform m = (.ok (), m1)) (rest : Runs ls m1 m') :
      Runs (l :: ls) m m'

theorem Runs.buffer {ls : List Launch} {m m' : Memory} {id : BufferId} (run : Runs ls m m')
    (others : ∀ l ∈ ls, ¬ l.StoresTo id) : m'.buffer id = m.buffer id := by
  induction run with
  | nil => rfl
  | @cons l ls m m1 m' first rest ih =>
    rw [List.forall_mem_cons] at others
    have here := Launch.buffer_execute others.1 m
    rw [first] at here
    rw [ih others.2, here]

namespace Queue

/-- The answer of a queue, what is left of it, the memory, and the launches that are dropped. -/
inductive Drained (q : Queue) (m : Memory) :
    Except Error Nat × Queue × Memory → List Launch → Prop
  | whole {m' : Memory} (run : Runs q.pending m m') :
      Drained q m (.ok q.pending.length, ⟨[], q.completed ++ q.pending⟩, m') []
  /-- The memory is what the failed launch leaves of it. -/
  | cut {done later : List Launch} {l : Launch} {e : Error} {m1 m' : Memory}
      (pending : q.pending = done ++ l :: later) (run : Runs done m m1)
      (fails : (l.handle.execute l.range).perform m1 = (.error e, m')) :
      Drained q m (.error e, ⟨[], q.completed ++ done⟩, m') (l :: later)

def lost (q : Queue) (m : Memory) : List Launch :=
  q.pending.drop (runAll q.pending m).1.length

variable {q : Queue} {m : Memory} {result : Except Error Nat × Queue × Memory} {lost : List Launch}
  {id : BufferId}

theorem runAll_cases (ls : List Launch) (m : Memory) :
    (∃ m', runAll ls m = (ls, .ok (), m') ∧ Runs ls m m') ∨
      ∃ done l later e m1 m', ls = done ++ l :: later ∧ runAll ls m = (done, .error e, m') ∧
        Runs done m m1 ∧ (l.handle.execute l.range).perform m1 = (.error e, m') := by
  induction ls generalizing m with
  | nil => exact .inl ⟨m, rfl, .nil⟩
  | cons l ls ih =>
    rcases first : (l.handle.execute l.range).perform m with ⟨e | _, m1⟩
    · exact .inr ⟨[], l, ls, e, m, m1, rfl, by rw [runAll, first], .nil, first⟩
    · rcases ih m1 with ⟨m', all, run⟩ | ⟨done, l', later, e, m2, m', split, part, run, fails⟩
      · exact .inl ⟨m', by rw [runAll, first]; simp only [all], .cons first run⟩
      · exact .inr ⟨l :: done, l', later, e, m2, m', by rw [split, List.cons_append],
          by rw [runAll, first]; simp only [part], .cons first run, fails⟩

theorem finish_drained (q : Queue) (m : Memory) : Drained q m (q.finish m) (q.lost m) := by
  rcases runAll_cases q.pending m with
    ⟨m', all, run⟩ | ⟨done, l, later, e, m1, m', split, part, run, fails⟩
  · rw [finish, lost, all, List.drop_length]
    exact .whole run
  · rw [finish, Queue.lost, part]
    have left : q.pending.drop done.length = l :: later := by rw [split, List.drop_left]
    rw [left]
    exact .cut split run fails

theorem Drained.exists_done (h : Drained q m result lost) :
    ∃ done, q.pending = done ++ lost ∧ result.2.1 = ⟨[], q.completed ++ done⟩ := by
  cases h with
  | whole => exact ⟨q.pending, (List.append_nil _).symm, rfl⟩
  | cut pending => exact ⟨_, pending, rfl⟩

theorem Drained.buffer (h : Drained q m result lost) (others : ∀ l ∈ q.pending, ¬ l.StoresTo id) :
    result.2.2.buffer id = m.buffer id := by
  cases h with
  | whole run => exact run.buffer others
  | @cut done later l e m1 m' pending run fails =>
    rw [pending, List.forall_mem_append, List.forall_mem_cons] at others
    have last := Launch.buffer_execute others.2.1 m1
    rw [fails] at last
    exact last.trans (run.buffer others.1)

def sample (output : BufferId) : Launch where
  handle := ⟨"sample", ⟨.u8, 8, 1, 3, 1, none⟩,
    ((((Vector.replicate 32 (some (.word 0))).set 0 (some (.buffer 0))).set 10
      (some (.buffer 0))).set 20 (some (.buffer output))).set 21 (some (.word 1))⟩
  range := ⟨2, 1, 1⟩
  group? := none

/-- The second launch fails at its second item: its output has room for the first one only. The third
has not run. -/
example :
    let m : Memory := ⟨#[.zeroed 8, .zeroed 16, .zeroed 12]⟩
    let (_, queue, m') := finish ⟨[sample 1, sample 2, sample 1], []⟩ m
    queue = ⟨[], [sample 1]⟩ ∧ m'.buffer 0 = m.buffer 0 ∧
      m'.buffer 1 = ⟨Array.replicate 16 ⟨0, 1⟩⟩ ∧
      m'.buffer 2 = ⟨Array.replicate 8 ⟨0, 1⟩ ++ Array.replicate 4 .blank⟩ := by
  decide +kernel

end Queue
end TensorConcat
