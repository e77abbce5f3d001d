import TensorConcat.Effect
import TensorConcat.Memory.Buffer
import TensorConcat.Compile.Program

/-! Handles of compiled programs: a program and its 32 argument slots. -/

namespace TensorConcat

inductive Argument where
  | buffer (id : BufferId)
  | word (value : UInt32)
deriving DecidableEq, Repr

structure Handle where
  name : String
  program : Program
  arguments : Vector (Option Argument) 32
deriving DecidableEq, Repr

structure DeviceTensor where
  descriptor : Descriptor
  buffer : BufferId
deriving DecidableEq, Repr

namespace Handle

def fresh (name : String) (program : Program) : Handle :=
  ⟨name, program, Vector.replicate 32 none⟩

def argument? (h : Handle) (index : Nat) : Option Argument :=
  h.arguments[index]?.join

def bind (h : Handle) (index : Nat) (a : Argument) : Except Error Handle :=
  if _h : index < 32 then .ok { h with arguments := h.arguments.set index (some a) }
  else .error (.argumentIndex index h.name)

def buffer (h : Handle) (index : Nat) : Except Error BufferId :=
  match h.argument? index with
  | some (.buffer id) => .ok id
  | _ => .error (.noBuffer index)

def word (h : Handle) (index : Nat) : Except Error Nat :=
  match h.argument? index with
  | some (.word value) => .ok value.toNat
  | _ => .error (.noScalar index)

end Handle

def TensorQuantity.argument (q : TensorQuantity) (value : Int) : Except Error Argument :=
  if 0 ≤ value ∧ value < 0x100000000 then .ok (.word (UInt32.ofNat value.toNat))
  else .error (.argumentTooLarge q value)

/-- A handle and the slot where its next arguments go. -/
structure Cursor where
  handle : Handle
  index : Nat
deriving DecidableEq, Repr

namespace Cursor

def fill (ahead : Nat) (argument : Except Error Argument) : Action Cursor Unit := do
  let c ← get
  let a ← Action.ofExcept argument
  let h ← Action.ofExcept (c.handle.bind (c.index + ahead) a)
  set { c with handle := h }

def advance (slots : Nat) : Action Cursor Unit :=
  modify fun c => { c with index := c.index + slots }

/-- The number of slots of a tensor: its buffer, two strides for each of four axes, and the
offset. -/
def slotsPerTensor : Nat := 10

/-- The stride of an axis, and how far a step of the window goes. -/
def axisArguments (d : Descriptor) (w : Window) (a : Axis) : Action Cursor Unit := do
  let stride := signed64 (d.stride a)
  fill 0 (TensorQuantity.stride.argument stride)
  fill 1 (TensorQuantity.stepStride.argument (stride * (w.span a).step))
  advance 2

def startOffset (d : Descriptor) (w : Window) : Int :=
  Axis.inner.foldr (fun a offset => (w.span a).start * signed64 (d.stride a) + offset)
    (signed64 d.firstOffset)

def tensorArguments (t : DeviceTensor) (w : Window) : Action Cursor Unit := do
  fill 0 (.ok (.buffer t.buffer))
  advance 1
  Axis.inner.forM (axisArguments t.descriptor w)
  fill 0 (TensorQuantity.firstOffset.argument (startOffset t.descriptor w))
  advance 1

end Cursor
end TensorConcat
