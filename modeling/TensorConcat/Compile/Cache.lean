import TensorConcat.Launch.Handle

/-! The device and its cache of compiled programs. -/

namespace TensorConcat

structure Device where
  name : String
  half : Bool
deriving DecidableEq, Repr

namespace Device

def host (half : Bool) : Device := ⟨"host-ref", half⟩

def compile (_ : Device) (name : String) (o : BuildOptions) : Except Error Handle :=
  if name = Program.kernelName then (Program.ofOptions o).map (Handle.fresh name)
  else .error (.unknownKernel name)

end Device

/-- A device and the handles compiled on it so far, by their keys. A look-up that finds a handle
counts as a hit, and a request whose first look-up finds none as a miss. -/
structure CompileContext (δ κ : Type) where
  device : δ
  entries : List (κ × Handle)
  hits : Nat
  misses : Nat
deriving DecidableEq, Repr

namespace CompileContext

variable {δ κ : Type} [BEq κ]

def empty (d : δ) : CompileContext δ κ := ⟨d, [], 0, 0⟩

def size (c : CompileContext δ κ) : Nat :=
  c.entries.length

def lookUp (c : CompileContext δ κ) (key : κ) : Option Handle × CompileContext δ κ :=
  match c.entries.lookup key with
  | some h => (some h, { c with hits := c.hits + 1 })
  | none => (none, c)

/-- Compiles, and keeps the handle by the key. A failure is not kept. -/
def compile (c : CompileContext δ κ) (compiler : Action δ Handle) (key : κ) :
    Except Error Handle × CompileContext δ κ :=
  match compiler.perform c.device with
  | (.ok h, device) => (.ok h, { c with device, entries := c.entries ++ [(key, h)] })
  | (.error e, device) => (.error e, { c with device })

/-- The handle for a name and options, compiled on the first request for its fingerprint. A second
look-up comes before the compilation, for what others have compiled since the first. -/
def request (fingerprint : String → BuildOptions → κ)
    (compiler : String → BuildOptions → Action δ Handle) (c : CompileContext δ κ) (name : String)
    (o : BuildOptions) : Except Error Handle × CompileContext δ κ :=
  let key := fingerprint name o
  match c.lookUp key with
  | (some h, c) => (.ok h, c)
  | (none, c) =>
    match { c with misses := c.misses + 1 }.lookUp key with
    | (some h, c) => (.ok h, c)
    | (none, c) => c.compile (compiler name o) key

end CompileContext

/-- The handles compiled on a device, by name and options. -/
abbrev ProgramCache := CompileContext Device (String × BuildOptions)

namespace ProgramCache

def empty (d : Device) : ProgramCache := CompileContext.empty d

def request (c : ProgramCache) (name : String) (o : BuildOptions) :
    Except Error Handle × ProgramCache :=
  CompileContext.request Prod.mk (fun name o d => (d.compile name o, d)) c name o

end ProgramCache
end TensorConcat
