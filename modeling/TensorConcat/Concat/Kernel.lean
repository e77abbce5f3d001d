import TensorConcat.Compile.Cache
import TensorConcat.Concat.Plan
import TensorConcat.Iteration.Slices
import TensorConcat.Launch.Queue
import TensorConcat.Tuning.Table

/-! Kernels: configured for operands once, then run over windows of the output. -/

namespace TensorConcat

/-- The tensors of a run by their roles, each role at most once. -/
structure TensorPack where
  entries : List (Role × DeviceTensor)
deriving DecidableEq, Repr

namespace TensorPack

def empty : TensorPack := ⟨[]⟩

def add (p : TensorPack) (role : Role) (t : DeviceTensor) : TensorPack :=
  ⟨p.entries.filter (·.1 ≠ role) ++ [(role, t)]⟩

def get (p : TensorPack) (role : Role) : Except Error DeviceTensor :=
  match p.entries.lookup role with
  | some t => .ok t
  | none => .error (.unbound role)

def size (p : TensorPack) : Nat :=
  p.entries.length

end TensorPack

structure Configuration where
  handle : Handle
  window : Window
  options : BuildOptions
  configId : String
  hint? : Option LaunchRange
deriving DecidableEq, Repr

structure Kernel where
  configuration? : Option Configuration
deriving DecidableEq, Repr

/-- A handle that is being bound, and the queue its launches go to. -/
structure Submission where
  handle : Handle
  queue : Queue
deriving DecidableEq, Repr

namespace Submission

structure Tensors where
  first : DeviceTensor
  second : DeviceTensor
  output : DeviceTensor
deriving DecidableEq, Repr

def Tensors.ofPack (p : TensorPack) : Except Error Tensors := do
  let first ← p.get (.source 0)
  let second ← p.get (.source 1)
  let output ← p.get .destination
  return { first, second, output }

def arguments (t : Tensors) (slice : Window) : Action Cursor Unit := do
  Cursor.tensorArguments t.first slice
  Cursor.tensorArguments t.second slice
  Cursor.tensorArguments t.output slice

/-- Binds the tensors for a slice and submits its launch. Arguments bound before a failure stay. -/
def submitSlice (t : Tensors) (hint? : Option LaunchRange) (slice : Window) :
    Action Submission Unit := do
  let s ← get
  let (answer, c) := (arguments t slice).perform ⟨s.handle, 0⟩
  set { s with handle := c.handle }
  Action.ofExcept answer
  modify fun s => { s with queue := s.queue.submitWindow s.handle slice hint? }

end Submission

namespace Kernel

def unconfigured : Kernel := ⟨none⟩

def configuration (k : Kernel) : Except Error Configuration :=
  match k.configuration? with
  | some c => .ok c
  | none => .error (.notConfigured Program.kernelName)

/-- The paddings at which the loads are clamped, as the last two arguments. -/
def bindPaddings (h : Handle) (firstWidth : Nat) : Except Error Handle := do
  let h ← h.bind Frame.paddingSlot (.word (UInt32.ofNat (firstRightPadding firstWidth)))
  h.bind (Frame.paddingSlot + 1) (.word (UInt32.ofNat (secondLeftPadding firstWidth)))

/-- The operands after a configuration: padded as planned, and all of the output valid. -/
def written (planned : Operands) : Operands :=
  { planned with output := { planned.output with valid := .full planned.output.shape } }

/-- Configures a kernel for operands. The kernel and the operands change only on success. -/
def configure (cache : ProgramCache) (o : Operands) :
    Except Error (Kernel × Operands) × ProgramCache :=
  let prepared : Except Error (BuildOptions × Window) := do
    o.check cache.device.half
    let options ← o.buildOptions
    let window ← o.plan.1
    return (options, window)
  match prepared with
  | .error e => (.error e, cache)
  | .ok (options, window) =>
    let (answer, cache) := cache.request Program.kernelName options
    let configured : Except Error (Kernel × Operands) := do
      let handle ← answer
      let handle ← bindPaddings handle (o.first.extent 0)
      return (⟨some ⟨handle, window, options, o.configId, none⟩⟩, written o.plan.2)
    (configured, cache)

def setHint (k : Kernel) (hint? : Option LaunchRange) : Except Error Kernel := do
  let c ← k.configuration
  return ⟨some { c with hint? }⟩

/-- Takes the hint from a table of tuned sizes, if it has one for the configuration. Tells whether
it had. -/
def tune (k : Kernel) (t : TuningTable) : Except Error (Bool × Kernel × TuningTable) := do
  let c ← k.configuration
  match t.lookup c.configId with
  | (some size, t) => return (true, ⟨some { c with hint? := some size }⟩, t)
  | (none, t) => return (false, k, t)

/-- Submits a launch for every slice of a window, up to the first that fails. -/
def run (k : Kernel) (pack : TensorPack) (w : Window) (q : Queue) :
    Except Error Unit × Kernel × Queue :=
  let ready : Except Error (Configuration × Submission.Tensors) := do
    let c ← k.configuration
    if w.IsWithin c.window then return (c, ← Submission.Tensors.ofPack pack)
    else throw (.notSubWindow w c.window)
  match ready with
  | .error e => (.error e, k, q)
  | .ok (c, tensors) =>
    let (answer, s) :=
      (w.forSlices (Submission.submitSlice tensors c.hint?)).perform ⟨c.handle, q⟩
    (answer, ⟨some { c with handle := s.handle }⟩, s.queue)

end Kernel
end TensorConcat
