import TensorConcat.Effect
import TensorConcat.Memory.Encoding
import TensorConcat.Tensor.Layout

/-! Buffers: bytes that count how often a kernel has stored to them. -/

namespace TensorConcat

structure Cell where
  value : UInt8
  stores : Nat
deriving DecidableEq, Repr, Inhabited

namespace Cell

def blank : Cell := ⟨0, 0⟩

/-- A store by a kernel is counted. -/
def store (c : Cell) (b : UInt8) : Cell := ⟨b, c.stores + 1⟩

/-- A value placed by the host is not counted. -/
def place (c : Cell) (b : UInt8) : Cell := ⟨b, c.stores⟩

end Cell

structure Buffer where
  cells : Array Cell
deriving DecidableEq, Repr

namespace Buffer

def zeroed (size : Nat) : Buffer :=
  ⟨Array.replicate size .blank⟩

def size (b : Buffer) : Nat :=
  b.cells.size

def start (b : Buffer) (action : ByteAction) (offset : Int) (length : Nat) : Except Error Nat :=
  if offset < 0 then .error (.outOfBounds action length offset b.size)
  else if 0x10000000000000000 ≤ offset + length then .error (.fault .addressTooLarge)
  else if b.size < offset + length then .error (.outOfBounds action length offset b.size)
  else .ok offset.toNat

def range (b : Buffer) (position length : Nat) : List Cell :=
  (b.cells.extract position (position + length)).toList

def update (f : Cell → UInt8 → Cell) (cells : Array Cell) (position : Nat) :
    List UInt8 → Array Cell
  | [] => cells
  | byte :: bytes => update f (cells.modify position (f · byte)) (position + 1) bytes

def read (b : Buffer) (offset : Int) (length : Nat) : Except Error (List UInt8) := do
  let position ← b.start .read offset length
  return (b.range position length).map (·.value)

def write (b : Buffer) (offset : Int) (bytes : List UInt8) : Except Error Buffer := do
  let position ← b.start .write offset bytes.length
  return ⟨update Cell.store b.cells position bytes⟩

def checkSize (s : Storage) (d : Descriptor) : Except Error Unit :=
  if d.elementSize = s.size then .ok () else .error (.valueSize s.size d.type)

def checkElement (b : Buffer) (action : ByteAction) (offset size : Nat) : Except Error Unit :=
  if offset + size ≤ b.size then .ok ()
  else .error (.outOfBounds action size (signed64 offset) b.size)

/-- Places values at offsets, one after the other, up to the first that is outside. -/
def placeAll (s : Storage) : List (Nat × Int) → Action Buffer Unit
  | [] => pure ()
  | (offset, value) :: rest => do
    let b ← get
    Action.ofExcept (b.checkElement .upload offset s.size)
    set (⟨update Cell.place b.cells offset (s.encode value)⟩ : Buffer)
    placeAll s rest

/-- Places the values of all elements of a tensor, x fastest; its padding is left alone. -/
def upload (d : Descriptor) (s : Storage) (values : List Int) : Action Buffer Unit := do
  Action.ofExcept (checkSize s d)
  let offsets ← Action.ofExcept d.listOffsets
  if offsets.length = values.length then placeAll s (offsets.zip values)
  else throw (.valueCount offsets.length values.length)

def download (b : Buffer) (d : Descriptor) (s : Storage) : Except Error (List Int) := do
  checkSize s d
  (← d.listOffsets).mapM fun offset => do
    b.checkElement .download offset s.size
    return s.decode ((b.range offset s.size).map (·.value))

/-- How often all bytes of each element have been stored. An element without bytes has no count. -/
def storeCounts (b : Buffer) (d : Descriptor) : Except Error (List Nat) := do
  let size := d.elementSize
  (← d.listOffsets).mapM fun offset => do
    b.checkElement .count offset size
    match ((b.range offset size).map (·.stores)).min? with
    | some n => return n
    | none => throw (.outOfBounds .count size (signed64 offset) b.size)

def text (b : Buffer) : String :=
  s!"HostBuffer \x7b len: {b.size} \x7d"

theorem size_update (f : Cell → UInt8 → Cell) (cells : Array Cell) (position : Nat)
    (bytes : List UInt8) : (update f cells position bytes).size = cells.size := by
  induction bytes generalizing cells position with
  | nil => rfl
  | cons byte bytes ih => simp only [update, ih, Array.size_modify]

end Buffer

abbrev BufferId := Nat

structure Memory where
  buffers : Array Buffer
deriving DecidableEq, Repr

namespace Memory

def empty : Memory := ⟨#[]⟩

def buffer (m : Memory) (id : BufferId) : Buffer :=
  m.buffers.getD id (.zeroed 0)

def set (m : Memory) (id : BufferId) (b : Buffer) : Memory :=
  ⟨m.buffers.setIfInBounds id b⟩

/-- Adds a zeroed buffer and gives its number. No buffer takes up half of the addresses. -/
def allocate (m : Memory) (size : Nat) : Except Error (BufferId × Memory) :=
  if 0x8000000000000000 ≤ size then .error (.fault .addressTooLarge)
  else .ok (m.buffers.size, ⟨m.buffers.push (.zeroed size)⟩)

end Memory
end TensorConcat
