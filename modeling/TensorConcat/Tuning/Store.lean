import TensorConcat.Error
import TensorConcat.Tuning.FileTree
import TensorConcat.Tuning.Table

/-! Stores of tuned sizes: a table in memory, or one that is written to a file on every change. -/

namespace TensorConcat

structure TuningStore where
  table : TuningTable
  path? : Option Path
deriving DecidableEq, Repr

namespace TuningStore

def inMemory : TuningStore := ⟨.empty, none⟩

/-- Opens the store of a file. A path that leads nowhere is an empty store. -/
def openAt (t : FileTree) (p : Path) : Except Error TuningStore :=
  match t.find? p with
  | none => .ok ⟨.empty, some p⟩
  | some _ =>
    match t.readText? p with
    | none => .error .fileSystem
    | some text =>
      match TuningTable.ofText? text with
      | none => .error .malformedStore
      | some table => .ok ⟨table, some p⟩

def devicePath (base : Path) (kernel device : String) : Path :=
  ((base.push "autotune").push kernel).push (device ++ ".json")

def openFor (t : FileTree) (base : Path) (kernel device : String) : Except Error TuningStore :=
  openAt t (devicePath base kernel device)

def openIf (enabled : Bool) (t : FileTree) (base : Path) (kernel device : String) :
    Except Error (Option TuningStore) :=
  if enabled then (openFor t base kernel device).map some else .ok none

/-- Records a size and writes the file, unless the size is known already. The table keeps the size
even if the file cannot be written. -/
def record (s : TuningStore) (t : FileTree) (id : String) (size : LaunchRange) :
    Except Error Unit × TuningStore × FileTree :=
  if s.table.get? id = some size then (.ok (), s, t)
  else
    let s := { s with table := s.table.put id size }
    match s.path? with
    | none => (.ok (), s, t)
    | some p =>
      match t.save p s.table.text.toUTF8 with
      | (true, t) => (.ok (), s, t)
      | (false, t) => (.error .fileSystem, s, t)

def lookup (s : TuningStore) (id : String) : Option LaunchRange × TuningStore :=
  let (found, table) := s.table.lookup id
  (found, { s with table })

def size (s : TuningStore) : Nat :=
  s.table.size

end TuningStore
end TensorConcat
