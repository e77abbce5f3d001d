import TensorConcat.Launch.Queue
import TensorConcat.Proofs.Compile.Compilation

/-! A compile context answers as its device would, whatever becomes of the handles it has given out.
It asks the device for every name with its options only until they have compiled. -/

namespace TensorConcat

structure RecordingDevice where
  device : Device
  log : List ((String × BuildOptions) × Except Error Handle)

namespace RecordingDevice

def compile (name : String) (o : BuildOptions) : Action RecordingDevice Handle := fun d =>
  let answer := d.device.compile name o
  (answer, { d with log := d.log ++ [((name, o), answer)] })

def compiled (d : RecordingDevice) : List ((String × BuildOptions) × Handle) :=
  d.log.filterMap fun e => e.2.toOption.map (e.1, ·)

variable {d : RecordingDevice} {name : String} {o : BuildOptions}

theorem compiled_compile_of_ok {h : Handle} (compiles : d.device.compile name o = .ok h) :
    (compile name o d).2.compiled = d.compiled ++ [((name, o), h)] := by
  simp only [compiled, compile, compiles, List.filterMap_append, List.filterMap_cons,
    List.filterMap_nil, Except.toOption, Option.map_some]

theorem compiled_compile_of_error {e : Error} (fails : d.device.compile name o = .error e) :
    (compile name o d).2.compiled = d.compiled := by
  simp only [compiled, compile, fails, List.filterMap_append, List.filterMap_cons,
    List.filterMap_nil, Except.toOption, Option.map_none, List.append_nil]

theorem mem_log_of_mem_compiled {p : String × BuildOptions} {h : Handle}
    (mem : (p, h) ∈ d.compiled) : (p, .ok h) ∈ d.log := by
  obtain ⟨⟨q, answer⟩, logged, found⟩ := List.mem_filterMap.1 mem
  cases answer with
  | error e => cases found
  | ok k =>
    cases found
    exact logged

end RecordingDevice

namespace Device

theorem argument?_of_compile {d : Device} {name : String} {o : BuildOptions} {h : Handle}
    (compiled : d.compile name o = .ok h) (i : Nat) : h.argument? i = none := by
  rw [compile] at compiled
  split at compiled
  · obtain ⟨p, -, rfl⟩ := Answer.map_eq_ok_iff.1 compiled
    rw [Handle.argument?, Handle.fresh, Vector.getElem?_replicate]
    split <;> rfl
  · cases compiled

end Device

namespace CompileContext

variable {κ : Type} {fingerprint : String → BuildOptions → κ} {half : Bool}
  {c : CompileContext RecordingDevice κ} {requests : List (String × BuildOptions)}

def Distinguishes (fingerprint : String → BuildOptions → κ)
    (requests : List (String × BuildOptions)) : Prop :=
  ∀ p ∈ requests, ∀ q ∈ requests, fingerprint p.1 p.2 = fingerprint q.1 q.2 → p = q

/-- A context after some requests. It holds all of them that the host device compiles, each once; its
counters account for every request, and the misses for those that it has compiled or that failed. -/
structure Remembers (c : CompileContext RecordingDevice κ) (fingerprint : String → BuildOptions → κ)
    (half : Bool) (requests : List (String × BuildOptions)) : Prop where
  device : c.device.device = .host half
  log : ∀ e ∈ c.device.log, (Device.host half).compile e.1.1 e.1.2 = e.2
  entries : c.entries = c.device.compiled.map fun e => (fingerprint e.1.1 e.1.2, e.2)
  requested : ∀ e ∈ c.device.compiled, e.1 ∈ requests
  complete : ∀ p ∈ requests, ∀ h, (Device.host half).compile p.1 p.2 = .ok h →
    (p, h) ∈ c.device.compiled
  once : (c.device.compiled.map Prod.fst).Nodup
  calls : c.hits + c.misses = requests.length
  misses : c.misses = c.size +
    requests.countP fun p => ((Device.host half).compile p.1 p.2).toOption.isNone

theorem remembers_empty (fingerprint : String → BuildOptions → κ) (half : Bool) :
    Remembers (.empty ⟨.host half, []⟩) fingerprint half [] where
  device := rfl
  log _ he := absurd he List.not_mem_nil
  entries := rfl
  requested _ he := absurd he List.not_mem_nil
  complete _ hp := absurd hp List.not_mem_nil
  once := List.nodup_nil
  calls := rfl
  misses := rfl

namespace Remembers

theorem compile_eq (r : c.Remembers fingerprint half requests) {p : String × BuildOptions}
    {h : Handle} (mem : (p, h) ∈ c.device.compiled) :
    (Device.host half).compile p.1 p.2 = .ok h :=
  r.log _ (RecordingDevice.mem_log_of_mem_compiled mem)

theorem size_eq (r : c.Remembers fingerprint half requests) : c.size = c.device.compiled.length := by
  rw [size, r.entries, List.length_map]

theorem mem_compiled_iff (r : c.Remembers fingerprint half requests) (p : String × BuildOptions) :
    p ∈ c.device.compiled.map Prod.fst ↔
      p ∈ requests ∧ ∃ h, (Device.host half).compile p.1 p.2 = .ok h := by
  constructor
  · intro mem
    obtain ⟨⟨q, h⟩, compiled, rfl⟩ := List.mem_map.1 mem
    exact ⟨r.requested _ compiled, h, r.compile_eq compiled⟩
  · rintro ⟨requested, h, compiles⟩
    exact List.mem_map_of_mem (r.complete p requested h compiles)

section Request

variable {name : String} {o : BuildOptions}

theorem hit (r : c.Remembers fingerprint half requests) {h : Handle}
    (mem : ((name, o), h) ∈ c.device.compiled) :
    Remembers { c with hits := c.hits + 1 } fingerprint half (requests ++ [(name, o)]) where
  device := r.device
  log := r.log
  entries := r.entries
  requested e he := List.mem_append_left _ (r.requested e he)
  complete := by
    refine List.forall_mem_append.2 ⟨r.complete, List.forall_mem_singleton.2 fun k compiles => ?_⟩
    rw [r.compile_eq mem] at compiles
    exact Except.ok.inj compiles ▸ mem
  once := r.once
  calls := by
    rw [List.length_append, ← r.calls, List.length_singleton]
    exact Nat.add_right_comm ..
  misses := by
    rw [List.countP_append, List.countP_singleton, r.compile_eq mem]
    exact r.misses

theorem log_compile (r : c.Remembers fingerprint half requests) :
    ∀ e ∈ (RecordingDevice.compile name o c.device).2.log,
      (Device.host half).compile e.1.1 e.1.2 = e.2 :=
  List.forall_mem_append.2
    ⟨r.log, List.forall_mem_singleton.2 (congrArg (·.compile name o) r.device.symm)⟩

theorem miss_ok (r : c.Remembers fingerprint half requests) {h : Handle}
    (missing : (name, o) ∉ c.device.compiled.map Prod.fst)
    (compiles : (Device.host half).compile name o = .ok h) :
    Remembers ⟨(RecordingDevice.compile name o c.device).2,
      c.entries ++ [(fingerprint name o, h)], c.hits, c.misses + 1⟩ fingerprint half
      (requests ++ [(name, o)]) := by
  have compiled := RecordingDevice.compiled_compile_of_ok (r.device.symm ▸ compiles)
  constructor
  case device => exact r.device
  case log => exact r.log_compile
  case entries => rw [compiled, r.entries, List.map_append, List.map_singleton]
  case requested =>
    rw [compiled]
    exact List.forall_mem_append.2 ⟨fun e he => List.mem_append_left _ (r.requested e he),
      List.forall_mem_singleton.2 (List.mem_append_right _ (List.mem_singleton_self _))⟩
  case complete =>
    rw [compiled]
    refine List.forall_mem_append.2 ⟨fun p hp k again => List.mem_append_left _ (r.complete p hp k again),
      List.forall_mem_singleton.2 fun k again => ?_⟩
    rw [compiles] at again
    exact Except.ok.inj again ▸ List.mem_append_right _ (List.mem_singleton_self _)
  case once =>
    rw [compiled, List.map_append, List.map_singleton]
    refine List.nodup_append.2 ⟨r.once, List.nodup_cons.2 ⟨List.not_mem_nil, List.nodup_nil⟩, ?_⟩
    rintro p mem q hq rfl
    obtain rfl := List.mem_singleton.1 hq
    exact missing mem
  case calls =>
    rw [List.length_append, ← r.calls, List.length_singleton]
    rfl
  case misses =>
    rw [List.countP_append, List.countP_singleton, compiles, size, List.length_append,
      List.length_singleton, r.misses]
    exact Nat.add_right_comm ..

theorem miss_error (r : c.Remembers fingerprint half requests) {e : Error}
    (fails : (Device.host half).compile name o = .error e) :
    Remembers ⟨(RecordingDevice.compile name o c.device).2, c.entries, c.hits, c.misses + 1⟩
      fingerprint half (requests ++ [(name, o)]) := by
  have compiled := RecordingDevice.compiled_compile_of_error (r.device.symm ▸ fails)
  constructor
  case device => exact r.device
  case log => exact r.log_compile
  case entries => rw [compiled, r.entries]
  case requested =>
    rw [compiled]
    exact fun e he => List.mem_append_left _ (r.requested e he)
  case complete =>
    rw [compiled]
    refine List.forall_mem_append.2 ⟨r.complete, List.forall_mem_singleton.2 fun k compiles => ?_⟩
    rw [fails] at compiles
    cases compiles
  case once => rw [compiled]; exact r.once
  case calls =>
    rw [List.length_append, ← r.calls, List.length_singleton]
    rfl
  case misses =>
    rw [List.countP_append, List.countP_singleton, fails, r.misses]
    rfl

variable [DecidableEq κ]

theorem mem_of_lookup (r : c.Remembers fingerprint half requests)
    (distinct : Distinguishes fingerprint (requests ++ [(name, o)])) {h : Handle}
    (found : c.entries.lookup (fingerprint name o) = some h) :
    ((name, o), h) ∈ c.device.compiled := by
  obtain ⟨before, rest, entries, -⟩ := List.lookup_eq_some_iff.1 found
  have mem : (fingerprint name o, h) ∈ c.entries := by simp [entries]
  rw [r.entries] at mem
  obtain ⟨⟨p, k⟩, compiled, pair⟩ := List.mem_map.1 mem
  obtain ⟨same, rfl⟩ := Prod.mk.inj pair
  -- Fingerprints are told apart, so that the entry was compiled for the same request.
  obtain rfl := distinct p (List.mem_append_left _ (r.requested _ compiled)) (name, o)
    (List.mem_append_right _ (List.mem_singleton_self _)) same
  exact compiled

theorem not_mem_of_lookup (r : c.Remembers fingerprint half requests)
    (missing : c.entries.lookup (fingerprint name o) = none) :
    (name, o) ∉ c.device.compiled.map Prod.fst := by
  intro mem
  obtain ⟨⟨p, h⟩, compiled, rfl⟩ := List.mem_map.1 mem
  have stored : (fingerprint name o, h) ∈ c.entries :=
    r.entries ▸ List.mem_map_of_mem (f := fun e => (fingerprint e.1.1 e.1.2, e.2)) compiled
  exact absurd (List.lookup_eq_none_iff.1 missing _ stored) (by simp)

theorem request (r : c.Remembers fingerprint half requests)
    (distinct : Distinguishes fingerprint (requests ++ [(name, o)])) :
    (CompileContext.request fingerprint RecordingDevice.compile c name o).1 =
        (Device.host half).compile name o ∧
      (CompileContext.request fingerprint RecordingDevice.compile c name o).2.Remembers fingerprint
        half (requests ++ [(name, o)]) := by
  rw [request_eq]
  cases found : c.entries.lookup (fingerprint name o) with
  | some h =>
    have mem := r.mem_of_lookup distinct found
    exact ⟨(r.compile_eq mem).symm, r.hit mem⟩
  | none =>
    have asked (answer : Except Error Handle)
        (answered : (Device.host half).compile name o = answer) :
        (RecordingDevice.compile name o).perform c.device =
          (answer, (RecordingDevice.compile name o c.device).2) :=
      Prod.ext ((congrArg (·.compile name o) r.device).trans answered) rfl
    cases answered : (Device.host half).compile name o with
    | ok h =>
      simp only [compile, asked _ answered, true_and]
      exact r.miss_ok (r.not_mem_of_lookup found) answered
    | error e =>
      simp only [compile, asked _ answered, true_and]
      exact r.miss_error answered

end Request
end Remembers
end CompileContext

/-- What a caller has: a context, the answers to its requests, the handles it was given and may have
bound since, a queue and the memory that the queue runs on. -/
structure CompileSession (κ : Type) where
  context : CompileContext RecordingDevice κ
  answers : List (Except Error Handle)
  handles : List Handle
  queue : Queue
  memory : Memory

namespace CompileSession

inductive Command where
  | create (name : String) (options : BuildOptions)
  | bind (handle slot : Nat) (argument : Argument)
  | submit (handle : Nat) (range : LaunchRange) (group? : Option LaunchRange)
  | finish

def Command.request? : Command → Option (String × BuildOptions)
  | .create name o => some (name, o)
  | _ => none

variable {κ : Type} [DecidableEq κ]

def start (half : Bool) (m : Memory) : CompileSession κ where
  context := .empty ⟨.host half, []⟩
  answers := []
  handles := []
  queue := .empty
  memory := m

def perform (fingerprint : String → BuildOptions → κ) (s : CompileSession κ) :
    Command → CompileSession κ
  | .create name o =>
    let (answer, context) := s.context.request fingerprint RecordingDevice.compile name o
    { s with
      context
      answers := s.answers ++ [answer]
      handles := s.handles ++ answer.toOption.toList }
  | .bind i slot a =>
    match s.handles[i]? with
    | some h =>
      match h.bind slot a with
      | .ok h => { s with handles := s.handles.set i h }
      | .error _ => s
    | none => s
  | .submit i range group? =>
    match s.handles[i]? with
    | some h => { s with queue := s.queue.submit ⟨h, range, group?⟩ }
    | none => s
  | .finish =>
    let (_, queue, memory) := s.queue.finish s.memory
    { s with queue, memory }

def after (fingerprint : String → BuildOptions → κ) (half : Bool) (m : Memory)
    (commands : List Command) : CompileSession κ :=
  commands.foldl (perform fingerprint) (start half m)

def requests (commands : List Command) : List (String × BuildOptions) :=
  commands.filterMap Command.request?

variable {fingerprint : String → BuildOptions → κ} {half : Bool} {s : CompileSession κ}

theorem perform_of_no_request (fingerprint : String → BuildOptions → κ) (s : CompileSession κ)
    {command : Command} (h : command.request? = none) :
    (s.perform fingerprint command).answers = s.answers ∧
      (s.perform fingerprint command).context = s.context := by
  cases command with
  | create name o => cases h
  | bind i slot a =>
    rw [perform]
    split
    · split <;> exact ⟨rfl, rfl⟩
    · exact ⟨rfl, rfl⟩
  | submit i range group? =>
    rw [perform]
    split <;> exact ⟨rfl, rfl⟩
  | finish => exact ⟨rfl, rfl⟩

/-- The answers are those of the device, and the context remembers the requests. -/
structure Faithful (s : CompileSession κ) (fingerprint : String → BuildOptions → κ) (half : Bool)
    (requests : List (String × BuildOptions)) : Prop where
  answers : s.answers = requests.map fun p => (Device.host half).compile p.1 p.2
  context : s.context.Remembers fingerprint half requests

theorem Faithful.perform {requests : List (String × BuildOptions)}
    (f : s.Faithful fingerprint half requests) (command : Command)
    (distinct : CompileContext.Distinguishes fingerprint (requests ++ command.request?.toList)) :
    (s.perform fingerprint command).Faithful fingerprint half
      (requests ++ command.request?.toList) := by
  cases requested : command.request? with
  | none =>
    obtain ⟨answers, context⟩ := perform_of_no_request fingerprint s requested
    rw [Option.toList_none, List.append_nil]
    exact ⟨answers.trans f.answers, context ▸ f.context⟩
  | some p =>
    obtain ⟨name, o⟩ := p
    obtain rfl : command = .create name o := by
      cases command <;> cases requested
      rfl
    obtain ⟨answer, remembers⟩ := f.context.request distinct
    refine ⟨?_, remembers⟩
    rw [Option.toList_some, List.map_append, ← f.answers]
    exact congrArg (fun a => s.answers ++ [a]) answer

theorem faithful_after (half : Bool) (m : Memory) (commands : List Command)
    (distinct : CompileContext.Distinguishes fingerprint (requests commands)) :
    (after fingerprint half m commands).Faithful fingerprint half (requests commands) := by
  -- The commands so far may be any, as long as the requests stay apart to the end.
  suffices h : ∀ (s : CompileSession κ) (past : List (String × BuildOptions)),
      s.Faithful fingerprint half past →
      CompileContext.Distinguishes fingerprint (past ++ requests commands) →
      (commands.foldl (CompileSession.perform fingerprint) s).Faithful fingerprint half
        (past ++ requests commands) from
    h (start half m) [] ⟨rfl, CompileContext.remembers_empty fingerprint half⟩ distinct
  clear distinct
  induction commands with
  | nil =>
    intro s past f _
    rwa [requests, List.filterMap_nil, List.append_nil]
  | cons command rest ih =>
    intro s past f distinct
    have split : past ++ requests (command :: rest) =
        past ++ command.request?.toList ++ requests rest := by
      rw [requests, requests, List.filterMap_cons, List.append_assoc]
      cases command.request? <;> rfl
    rw [split] at distinct ⊢
    refine ih _ _ (f.perform command fun p hp q hq => ?_) distinct
    exact distinct p (List.mem_append_left _ hp) q (List.mem_append_left _ hq)

/-- Any requests, whatever happens to the handles between them, are answered as by the device; every
handle is given out with no argument bound. The device compiles successfully just the requests that it
can, and each only once; so many handles are kept. Every request is a hit or a miss, and the misses
are those compilations and the requests that failed. -/
theorem context_transparent (half : Bool) (m : Memory) (commands : List Command)
    (distinct : CompileContext.Distinguishes fingerprint (requests commands)) :
    let s := after fingerprint half m commands
    s.answers = (requests commands).map (fun p => (Device.host half).compile p.1 p.2) ∧
      (∀ h, .ok h ∈ s.answers → ∀ i, h.argument? i = none) ∧
      (s.context.device.compiled.map Prod.fst).Nodup ∧
      (∀ p, p ∈ s.context.device.compiled.map Prod.fst ↔
        p ∈ requests commands ∧ ∃ h, (Device.host half).compile p.1 p.2 = .ok h) ∧
      s.context.size = (s.context.device.compiled.map Prod.fst).length ∧
      s.context.hits + s.context.misses = (requests commands).length ∧
      s.context.misses = s.context.size + s.answers.countP (fun a => a.toOption.isNone) := by
  intro s
  obtain ⟨answers, context⟩ := faithful_after half m commands distinct
  refine ⟨answers, fun h mem => ?_, context.once, context.mem_compiled_iff, ?_, context.calls, ?_⟩
  · obtain ⟨p, -, compiles⟩ := List.mem_map.1 (answers ▸ mem)
    exact Device.argument?_of_compile compiles
  · rw [List.length_map]
    exact context.size_eq
  · rw [answers, List.countP_map]
    exact context.misses

def byteRows (depth : String) : BuildOptions :=
  ⟨[("DATA_TYPE", "uchar"), ("VEC_SIZE", "8"), ("DEPTH", depth), ("INPUT1_WIDTH", "3"),
    ("ELEMENT_SIZE", "1")]⟩

def repeated : List Command :=
  [.create Program.kernelName (byteRows "1"), .bind 0 30 (.word 7),
    .create Program.kernelName (byteRows "0"), .submit 0 ⟨1, 1, 1⟩ none, .finish,
    .create Program.kernelName (byteRows "1"), .create Program.kernelName (byteRows "0")]

def codeSum (name : String) (o : BuildOptions) : UInt64 :=
  .ofNat ((name :: o.defines.map (·.2)).flatMap (·.toList) |>.foldl (fun n c => n + c.toNat) 0)

theorem context_transparent_repeated :
    CompileContext.Distinguishes codeSum (requests repeated) ∧
      let s := after codeSum true .empty repeated
      let h := Handle.fresh Program.kernelName ⟨.u8, 8, 1, 3, 1, none⟩
      s.answers = [.ok h, .error .emptyVectorOrDepth, .ok h, .error .emptyVectorOrDepth] ∧
        s.context.hits + s.context.misses = 4 ∧ s.context.misses = s.context.size + 2 := by
  have distinct : CompileContext.Distinguishes codeSum (requests repeated) := by
    unfold CompileContext.Distinguishes
    decide +kernel
  obtain ⟨answers, -, -, -, -, calls, misses⟩ :=
    context_transparent true .empty repeated distinct
  exact ⟨distinct, answers, calls, by rw [misses, answers]; rfl⟩

end CompileSession
end TensorConcat
