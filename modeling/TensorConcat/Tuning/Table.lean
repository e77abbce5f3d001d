import TensorConcat.Stored

/-! Tables of tuned sizes by configuration id, and their text: an indented JSON array of pairs, in the
order of the bytes of the ids. -/

namespace TensorConcat

/-- The sizes recorded so far, and how many look-ups found one. -/
structure TuningTable where
  entries : List (String × LaunchRange)
  hits : Nat
  misses : Nat
deriving DecidableEq, Repr

namespace TuningTable

def empty : TuningTable := ⟨[], 0, 0⟩

/-- An entry takes the place of one with the same id. -/
def insert (id : String) (size : LaunchRange) :
    List (String × LaunchRange) → List (String × LaunchRange)
  | [] => [(id, size)]
  | (k, v) :: rest => if k = id then (id, size) :: rest else (k, v) :: insert id size rest

def get? (t : TuningTable) (id : String) : Option LaunchRange :=
  t.entries.lookup id

def lookup (t : TuningTable) (id : String) : Option LaunchRange × TuningTable :=
  match t.get? id with
  | some size => (some size, { t with hits := t.hits + 1 })
  | none => (none, { t with misses := t.misses + 1 })

def put (t : TuningTable) (id : String) (size : LaunchRange) : TuningTable :=
  { t with entries := insert id size t.entries }

def size (t : TuningTable) : Nat :=
  t.entries.length

def entryToJson (entry : String × LaunchRange) : Json :=
  .array [.ofString entry.1, entry.2.toJson]

def entryOfJson? : Json → Option (String × LaunchRange)
  | .array [id, size] => do return (← id.asString?, ← LaunchRange.ofJson? size)
  | _ => none

/-- The order of ids: that of their bytes in UTF-8. -/
def before (a b : String) : Bool :=
  a.toUTF8.data.toList < b.toUTF8.data.toList

def sorted (t : TuningTable) : List (String × LaunchRange) :=
  t.entries.mergeSort fun a b => !before b.1 a.1

def text (t : TuningTable) : String :=
  (Json.array (t.sorted.map entryToJson)).indentedText

/-- Reads a text. Of several entries with one id the last counts. -/
def ofText? (s : String) : Option TuningTable := do
  let entries ← (← (← Json.parse? s).asArray?).mapM entryOfJson?
  return entries.foldl (fun t (id, size) => t.put id size) empty

end TuningTable
end TensorConcat
