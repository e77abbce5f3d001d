import TensorConcat.Proofs.Concat.Configuring
import TensorConcat.Proofs.Concat.Outcome

/-! Sessions: any number of kernels that share a device, a cache and a queue. The log of a session
tells all that its kernels are: what the last successful configuration of each was for, and which
hint has been given to it since. It also tells where each launch comes from. -/

namespace TensorConcat

inductive Command where
  | describe (name : Nat) (d : Descriptor)
  | configure (kernel : Nat) (inputs : List Nat) (output : Nat)
  | setHint (kernel : Nat) (hint? : Option LaunchRange)
  | tune (kernel : Nat) (table : TuningTable)
  | run (kernel : Nat) (pack : TensorPack) (w : Window)

/-- What was asked for, with the descriptors as they were then, and what the answer was. -/
inductive Event where
  | describe (name : Nat) (d : Descriptor)
  | configure (kernel : Nat) (inputs : List Descriptor) (output : Descriptor)
      (answer : Except Error Operands)
  | setHint (kernel : Nat) (hint? : Option LaunchRange) (answer : Except Error Unit)
  | tune (kernel : Nat) (table : TuningTable) (answer : Except Error Bool)
  | run (kernel : Nat) (pack : TensorPack) (w : Window) (answer : Except Error Unit)

namespace Event

variable {i : Nat}

def configured? (i : Nat) : Event → Option Operands
  | .configure kernel [first, second] output (.ok _) =>
    if kernel = i then some ⟨first, second, output⟩ else none
  | _ => none

/-- The hint that the event gives to a kernel with the given configuration id, if it gives one. A table
does if it has an entry for the id, whatever the answer was. -/
def hinted? (i : Nat) (id : String) : Event → Option (Option LaunchRange)
  | .setHint kernel hint? (.ok ()) => if kernel = i then some hint? else none
  | .tune kernel table _ => if kernel = i then (table.get? id).map some else none
  | _ => none

def error? : Event → Option Error
  | .configure _ _ _ (.error e) | .setHint _ _ (.error e) | .tune _ _ (.error e)
  | .run _ _ _ (.error e) => some e
  | _ => none

theorem configured?_configure_error {kernel : Nat} {inputs : List Descriptor} {output : Descriptor}
    {failure : Error} : (Event.configure kernel inputs output (.error failure)).configured? i = none := by
  unfold configured?
  split
  next h => cases h
  next => rfl

end Event

/-- A log ends with a successful configuration of a kernel and with what happened after it. -/
def LastConfigured (log : List Event) (i : Nat) (o : Operands) (since : List Event) : Prop :=
  ∃ before e, log = before ++ e :: since ∧ e.configured? i = some o ∧
    ∀ e ∈ since, e.configured? i = none

def lastHint? (i : Nat) (id : String) (since : List Event) : Option LaunchRange :=
  (since.filterMap (·.hinted? i id)).getLast?.join

section Log

variable {log since : List Event} {e : Event} {i : Nat} {o : Operands} {id : String}

theorem lastHint?_append_of_none (h : e.hinted? i id = none) :
    lastHint? i id (since ++ [e]) = lastHint? i id since := by
  rw [lastHint?, List.filterMap_append, List.filterMap_cons_none h, List.filterMap_nil,
    List.append_nil, lastHint?]

theorem lastHint?_append_of_some {hint? : Option LaunchRange} (h : e.hinted? i id = some hint?) :
    lastHint? i id (since ++ [e]) = hint? := by
  rw [lastHint?, List.filterMap_append, List.filterMap_cons_some h, List.filterMap_nil,
    List.getLast?_append, List.getLast?_singleton, Option.some_or, Option.join_some]

theorem lastConfigured_append_iff :
    LastConfigured (log ++ [e]) i o since ↔
      e.configured? i = some o ∧ since = [] ∨
        e.configured? i = none ∧ ∃ rest, since = rest ++ [e] ∧ LastConfigured log i o rest := by
  constructor
  · rintro ⟨before, e', split, last, none⟩
    rcases List.eq_nil_or_concat since with rfl | ⟨rest, x, rfl⟩
    · obtain ⟨-, same⟩ := List.append_inj' split rfl
      obtain rfl := (List.cons.inj same).1
      exact .inl ⟨last, rfl⟩
    · rw [List.concat_eq_append, ← List.cons_append, ← List.append_assoc] at split
      obtain ⟨front, same⟩ := List.append_inj' split rfl
      obtain rfl := (List.cons.inj same).1
      exact .inr ⟨none e (by simp), rest, List.concat_eq_append, before, e', front, last,
        fun y hy => none y (by simp [hy])⟩
  · rintro (⟨configured, rfl⟩ | ⟨idle, rest, rfl, before, e', rfl, last, none⟩)
    · exact ⟨log, e, rfl, configured, by simp⟩
    · refine ⟨before, e', by simp, last, ?_⟩
      rw [List.forall_mem_append]
      exact ⟨none, List.forall_mem_singleton.2 idle⟩

theorem lastConfigured_append_of_some {o' : Operands} (h : e.configured? i = some o) :
    LastConfigured (log ++ [e]) i o' since ↔ o' = o ∧ since = [] := by
  simp [lastConfigured_append_iff, h, eq_comm]

theorem lastConfigured_append_of_none (h : e.configured? i = none) :
    LastConfigured (log ++ [e]) i o since ↔
      ∃ rest, since = rest ++ [e] ∧ LastConfigured log i o rest := by
  simp [lastConfigured_append_iff, h]

theorem exists_lastConfigured_iff :
    (∃ o since, LastConfigured log i o since) ↔ ∃ e ∈ log, (e.configured? i).isSome := by
  constructor
  · rintro ⟨o, since, before, e, rfl, last, -⟩
    exact ⟨e, by simp, by rw [last]; rfl⟩
  · intro some
    induction log with
    | nil =>
      obtain ⟨e, he, -⟩ := some
      exact absurd he List.not_mem_nil
    | cons first rest ih =>
      by_cases later : ∃ e ∈ rest, (e.configured? i).isSome
      · obtain ⟨o, since, before, last, rfl, configured, none⟩ := ih later
        exact ⟨o, since, first :: before, last, rfl, configured, none⟩
      · have none (x : Event) (hx : x ∈ rest) : x.configured? i = none :=
          Option.not_isSome_iff_eq_none.1 fun h => later ⟨x, hx, h⟩
        obtain ⟨e, he, configured⟩ := some
        rcases List.mem_cons.1 he with rfl | he
        · obtain ⟨o, configured⟩ := Option.isSome_iff_exists.1 configured
          exact ⟨o, rest, [], e, rfl, configured, none⟩
        · exact absurd ⟨e, he, configured⟩ later

end Log

structure Session where
  cache : ProgramCache
  queue : Queue
  kernels : Nat → Kernel
  descriptors : Nat → Descriptor
  log : List Event

namespace Session

def put {α : Type} (f : Nat → α) (i : Nat) (a : α) : Nat → α :=
  fun j => if j = i then a else f j

theorem put_self {α : Type} (f : Nat → α) (i : Nat) (a : α) : put f i a i = a :=
  if_pos rfl

theorem put_of_ne {α : Type} (f : Nat → α) {i j : Nat} (h : j ≠ i) (a : α) : put f i a j = f j :=
  if_neg h

theorem put_same {α : Type} (f : Nat → α) (i : Nat) : put f i (f i) = f := by
  funext j
  by_cases h : j = i
  · rw [h, put_self]
  · rw [put_of_ne f h]

def putAll (f : Nat → Descriptor) (names : List Nat) (ds : List Descriptor) : Nat → Descriptor :=
  (names.zip ds).foldl (fun f entry => put f entry.1 entry.2) f

def start (half : Bool) : Session where
  cache := .empty (.host half)
  queue := .empty
  kernels _ := .unconfigured
  descriptors _ := .ofShape ⟨[], Nat.zero_le 6⟩ .unknown
  log := []

def configure (s : Session) (inputs : List Nat) (output : Nat) :
    Except Error (Kernel × Operands) × ProgramCache :=
  Operation.concatenateWidth.configure s.cache (inputs.map s.descriptors) (s.descriptors output)

def reply (s : Session) : Command → Event
  | .describe name d => .describe name d
  | .configure i inputs output =>
    .configure i (inputs.map s.descriptors) (s.descriptors output)
      ((s.configure inputs output).1.map (·.2))
  | .setHint i hint? => .setHint i hint? (((s.kernels i).setHint hint?).map fun _ => ())
  | .tune i table => .tune i table (((s.kernels i).tune table).map (·.1))
  | .run i pack w => .run i pack w ((s.kernels i).run pack w s.queue).1

def effect (s : Session) : Command → Session
  | .describe name d => { s with descriptors := put s.descriptors name d }
  | .configure i inputs output =>
    match s.configure inputs output with
    | (.ok (k, planned), cache) =>
      { s with
        cache
        kernels := put s.kernels i k
        descriptors := putAll s.descriptors (inputs ++ [output])
          [planned.first, planned.second, planned.output] }
    | (.error _, cache) => { s with cache }
  | .setHint i hint? =>
    match (s.kernels i).setHint hint? with
    | .ok k => { s with kernels := put s.kernels i k }
    | .error _ => s
  | .tune i table =>
    match (s.kernels i).tune table with
    | .ok (_, k, _) => { s with kernels := put s.kernels i k }
    | .error _ => s
  | .run i pack w =>
    let (_, k, queue) := (s.kernels i).run pack w s.queue
    { s with kernels := put s.kernels i k, queue }

def perform (s : Session) (command : Command) : Session :=
  { s.effect command with log := s.log ++ [s.reply command] }

def after (half : Bool) (commands : List Command) : Session :=
  commands.foldl perform (start half)

end Session
end TensorConcat
