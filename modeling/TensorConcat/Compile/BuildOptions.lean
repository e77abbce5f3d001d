import TensorConcat.Numeric.Binary32Text

/-! Build options: named definitions that a program is compiled with, in the order in which they
were first made. -/

namespace TensorConcat

structure BuildOptions where
  defines : List (String × String)
deriving DecidableEq, Repr

namespace BuildOptions

def empty : BuildOptions := ⟨[]⟩

/-- Gives the first entry of a key another value, or adds an entry at the end. -/
def put (key value : String) : List (String × String) → List (String × String)
  | [] => [(key, value)]
  | (k, v) :: rest => if k = key then (k, value) :: rest else (k, v) :: put key value rest

def define (o : BuildOptions) (key value : String) : BuildOptions :=
  ⟨put key value o.defines⟩

def defineNat (o : BuildOptions) (key : String) (n : Nat) : BuildOptions :=
  o.define key (String.ofList (Digits.ofNat n))

def defineInt (o : BuildOptions) (key : String) (n : Int) : BuildOptions :=
  o.define key (String.ofList (Digits.ofInt n))

def defineFloat (o : BuildOptions) (key : String) (x : Binary32) : BuildOptions :=
  o.define key (String.ofList x.optionText)

def get? (o : BuildOptions) (key : String) : Option String :=
  o.defines.lookup key

def contains (o : BuildOptions) (key : String) : Bool :=
  (o.get? key).isSome

def keys (o : BuildOptions) : List String :=
  o.defines.map (·.1)

def count (o : BuildOptions) : Nat :=
  o.defines.length

def arguments (o : BuildOptions) : List String :=
  o.defines.map fun (key, value) => s!"-D{key}={value}"

theorem lookup_put (key value : String) (entries : List (String × String)) (k : String) :
    (put key value entries).lookup k = if k = key then some value else entries.lookup k := by
  induction entries with
  | nil => by_cases h : k = key <;> simp [put, List.lookup_cons, h, beq_false_of_ne]
  | cons e rest ih =>
    obtain ⟨k', v'⟩ := e
    by_cases h : k' = key
    · by_cases hk : k = key <;> simp [put, List.lookup_cons, h, hk, beq_false_of_ne]
    · by_cases hk : k = k'
      · simp [put, h, hk]
      · simp [put, List.lookup_cons, h, ih, beq_false_of_ne hk]

theorem get?_define (o : BuildOptions) (key value k : String) :
    (o.define key value).get? k = if k = key then some value else o.get? k :=
  lookup_put key value o.defines k

end BuildOptions
end TensorConcat
