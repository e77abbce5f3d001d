/-! Trees of directories and files, and the paths that lead through them. A path is followed from
the root: names go down, two points go up, and every place left on the way has to be a directory.
A path that is too long is not followed at all. -/

namespace TensorConcat

structure Path where
  text : String
deriving DecidableEq, Repr

inductive PathStep where
  | up
  | down (name : List Char)
deriving DecidableEq, Repr

namespace Path

/-- The path followed by another one, which replaces it if it starts at the root. -/
def push (p : Path) (part : String) : Path :=
  if part.toList.head? = some '/' || p.text.isEmpty then ⟨part⟩
  else if p.text.toList.getLast? = some '/' then ⟨p.text ++ part⟩
  else ⟨p.text ++ "/" ++ part⟩

def parts (p : Path) : List (List Char) :=
  p.text.toList.splitOn '/'

/-- An empty part or a single point leads nowhere. -/
def isIdle (part : List Char) : Bool :=
  part = [] || part = ['.']

def steps (p : Path) : List PathStep :=
  p.parts.filterMap fun part =>
    if isIdle part then none
    else if part = ['.', '.'] then some .up
    else some (.down part)

/-- The path without its last step, and without the idle parts before and after it. -/
def parent (p : Path) : Path :=
  let above := ((p.parts.reverse.dropWhile isIdle).drop 1).dropWhile isIdle
  ⟨String.ofList (['/'].intercalate above.reverse)⟩

def endsWithPoint (p : Path) : Bool :=
  (p.parts.filter (· ≠ [])).getLast? = some ['.']

/-- A path that ends with a separator or a point can only lead to a directory. -/
def isDirectoryPath (p : Path) : Bool :=
  p.parts.getLast? = some [] || p.endsWithPoint

def maxBytes : Nat := 4095

/-- A path that can be followed is not too long and holds no zero character. -/
def isAcceptable (p : Path) : Bool :=
  p.text.utf8ByteSize ≤ maxBytes && !p.text.toList.contains '\x00'

end Path

inductive Node where
  | directory
  | file (content : ByteArray)

/-- A place in a tree: the names that lead to it from the root. -/
abbrev Place := List (List Char)

structure FileTree where
  nodes : List (Place × Node)

namespace FileTree

def empty : FileTree := ⟨[]⟩

def node? (t : FileTree) (p : Place) : Option Node :=
  if p = [] then some .directory else t.nodes.lookup p

def isDirectory (t : FileTree) (p : Place) : Bool :=
  match t.node? p with
  | some .directory => true
  | _ => false

def insert (t : FileTree) (p : Place) (n : Node) : FileTree :=
  ⟨(p, n) :: t.nodes.filter (·.1 ≠ p)⟩

def erase (t : FileTree) (p : Place) : FileTree :=
  ⟨t.nodes.filter (·.1 ≠ p)⟩

def isName (name : List Char) : Bool :=
  (String.ofList name).utf8ByteSize ≤ 255

/-- The place that steps lead to, if every place they leave is a directory. -/
def follow (t : FileTree) : (origin : Place) → List PathStep → Option Place
  | p, [] => some p
  | p, .up :: rest => if t.isDirectory p then follow t p.dropLast rest else none
  | p, .down name :: rest =>
    if t.isDirectory p && isName name then follow t (p ++ [name]) rest else none

def resolve (t : FileTree) (p : Path) : Option Place :=
  if p.isAcceptable then t.follow [] p.steps else none

def find? (t : FileTree) (p : Path) : Option Node := do
  let place ← t.resolve p
  match ← t.node? place with
  | .directory => some .directory
  | .file content => if p.isDirectoryPath then none else some (.file content)

def read? (t : FileTree) (p : Path) : Option ByteArray :=
  match t.find? p with
  | some (.file content) => some content
  | _ => none

def readText? (t : FileTree) (p : Path) : Option String :=
  (t.read? p).bind String.fromUTF8?

def write? (t : FileTree) (p : Path) (content : ByteArray) : Option FileTree := do
  let place ← t.resolve p
  if p.isDirectoryPath || t.isDirectory place then none
  else some (t.insert place (.file content))

def remove? (t : FileTree) (p : Path) : Option FileTree := do
  let _ ← t.read? p
  let place ← t.resolve p
  some (t.erase place)

/-- Makes the directories on the way that steps lead; those made before a failure stay. -/
def makeAlong (t : FileTree) : (origin : Place) → List PathStep → Bool × FileTree
  | _, [] => (true, t)
  | p, .up :: rest => makeAlong t p.dropLast rest
  | p, .down name :: rest =>
    let place := p ++ [name]
    match t.node? place with
    | some .directory => makeAlong t place rest
    | some (.file _) => (false, t)
    | none => if isName name then makeAlong (t.insert place .directory) place rest else (false, t)

/-- Makes the directory at a path and those above it; nothing if the path cannot be followed. A
point at the end makes nothing itself. -/
def makeDirectories (t : FileTree) (p : Path) : Bool × FileTree :=
  if !p.isAcceptable then (false, t)
  else if p.endsWithPoint then
    let (_, t) := t.makeAlong [] p.steps.dropLast
    match t.find? p with
    | some .directory => (true, t)
    | _ => (false, t)
  else t.makeAlong [] p.steps

/-- Makes the directories above a path and writes the file there. The directories stay if the
writing fails. -/
def save (t : FileTree) (p : Path) (content : ByteArray) : Bool × FileTree :=
  match t.makeDirectories p.parent with
  | (false, t) => (false, t)
  | (true, t) =>
    match t.write? p content with
    | some t => (true, t)
    | none => (false, t)

end FileTree
end TensorConcat
