import TensorConcat.Launch.Handle
import TensorConcat.Launch.Range

/-! Running a program over a range of work items. Each item loads a vector of columns from both
inputs, takes every column from the one it belongs to, and stores the vector to the output. -/

namespace TensorConcat

/-- A tensor as a program finds it in the arguments. -/
structure TensorView where
  buffer : BufferId
  strideX : Nat
  strideY : Nat
  strideZ : Nat
  strideBatch : Nat
  offset : Nat
deriving DecidableEq, Repr

namespace TensorView

def ofHandle (h : Handle) (first : Nat) : Except Error TensorView := do
  let buffer ← h.buffer first
  let strideX ← h.word (first + 1)
  let strideY ← h.word (first + 3)
  let strideZ ← h.word (first + 5)
  let strideBatch ← h.word (first + 7)
  let offset ← h.word (first + 9)
  return { buffer, strideX, strideY, strideZ, strideBatch, offset }

def address (t : TensorView) (x y z batch : Int) : Int :=
  t.offset + x * t.strideX + y * t.strideY + z * t.strideZ + batch * t.strideBatch

end TensorView

structure Frame where
  first : TensorView
  second : TensorView
  output : TensorView
  rightPadding : Nat
  leftPadding : Nat
deriving DecidableEq, Repr

namespace Frame

def paddingSlot : Nat := 3 * Cursor.slotsPerTensor

def ofHandle (h : Handle) : Except Error Frame := do
  let first ← TensorView.ofHandle h 0
  let second ← TensorView.ofHandle h Cursor.slotsPerTensor
  let output ← TensorView.ofHandle h (2 * Cursor.slotsPerTensor)
  let rightPadding ← h.word paddingSlot
  let leftPadding ← h.word (paddingSlot + 1)
  return { first, second, output, rightPadding, leftPadding }

end Frame

structure ItemAddresses where
  first : Int
  second : Int
  output : Int
deriving DecidableEq, Repr

namespace Program

def vectorBytes (p : Program) : Nat :=
  p.vectorSize * p.elementSize

def column (p : Program) (i : Nat) : Int :=
  i * signed64 p.vectorSize

/-- The columns of the loads are clamped, so that they end with the padding right of the first input
and start with the padding left of the second. -/
def addresses (p : Program) (f : Frame) (i j k : Nat) : ItemAddresses :=
  let x := p.column i
  let width := signed64 p.firstWidth
  let z := (k : Int).tmod (signed64 p.depth)
  let batch := (k : Int).tdiv (signed64 p.depth)
  { first := f.first.address (min x (width + f.rightPadding - signed64 p.vectorSize)) j z batch
    second := f.second.address (max (x - width) (-f.leftPadding)) j z batch
    output := f.output.address x j z batch }

/-- The value of one column, rescaled from the parameters that `side` gives for its input. -/
def convert (p : Program) (side : Requantization → Affine) (bytes : List UInt8) : List UInt8 :=
  match p.requantization?, p.storage.range? with
  | some r, some range =>
    p.storage.encode ((side r).rescale r.output range (p.storage.decode bytes))
  | _, _ => bytes

def lane (p : Program) (n : Nat) (vector : List UInt8) : List UInt8 :=
  (vector.drop (n * p.elementSize)).take p.elementSize

/-- The vector that starts at column `x`: columns before the first input's width come from there. -/
def select (p : Program) (x : Int) (first second : List UInt8) : List UInt8 :=
  (List.range p.vectorSize).flatMap fun (n : Nat) =>
    if x + n < signed64 p.firstWidth then p.convert Requantization.first (p.lane n first)
    else p.convert Requantization.second (p.lane n second)

def runItem (p : Program) (f : Frame) (i j k : Nat) : Action Memory Unit := do
  let m ← get
  let a := p.addresses f i j k
  let first ← Action.ofExcept ((m.buffer f.first.buffer).read a.first p.vectorBytes)
  let second ← Action.ofExcept ((m.buffer f.second.buffer).read a.second p.vectorBytes)
  let vector := p.select (p.column i) first second
  let b ← Action.ofExcept ((m.buffer f.output.buffer).write a.output vector)
  set (m.set f.output.buffer b)

def repetitions (n : Nat) : Nat :=
  (signed64 n).toNat

/-- Runs all work items, x fastest, up to the first that fails. -/
def runItems (p : Program) (f : Frame) (r : LaunchRange) : Action Memory Unit :=
  Action.countTo (fun k =>
    Action.countTo (fun j =>
      Action.countTo (fun i => p.runItem f i j k) (repetitions r.x) 0) (repetitions r.y) 0)
    (repetitions r.z) 0

end Program

namespace Handle

/-- Runs the program of a handle with its arguments. No vector takes up half of the addresses. -/
def execute (h : Handle) (r : LaunchRange) : Action Memory Unit := do
  let f ← Action.ofExcept (Frame.ofHandle h)
  if 0x8000000000000000 ≤ h.program.vectorBytes then throw (.fault .addressTooLarge)
  else h.program.runItems f r

end Handle
end TensorConcat
