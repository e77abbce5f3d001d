import TensorConcat.Concat.Kernel

/-! The operations that can be asked for by name. -/

namespace TensorConcat

inductive Operation where
  | concatenateWidth
deriving DecidableEq, Repr

namespace Operation

def all : List Operation := [.concatenateWidth]

def name : Operation → String
  | .concatenateWidth => Program.kernelName

def inputCount : Operation → Nat
  | .concatenateWidth => 2

def named (name : String) : Except Error Operation :=
  match all.find? (·.name = name) with
  | some op => .ok op
  | none => .error (.unknownOperation name)

def operands (op : Operation) (inputs : List Descriptor) (output : Descriptor) :
    Except Error Operands :=
  match inputs with
  | [first, second] => .ok ⟨first, second, output⟩
  | _ => .error (.inputCount op.name op.inputCount inputs.length)

def validate (name : String) (inputs : List Descriptor) (output : Descriptor) (half : Bool) :
    Except Error Unit := do
  let op ← named name
  let o ← op.operands inputs output
  o.validate half

def configure (op : Operation) (cache : ProgramCache) (inputs : List Descriptor)
    (output : Descriptor) : Except Error (Kernel × Operands) × ProgramCache :=
  match op.operands inputs output with
  | .ok o => Kernel.configure cache o
  | .error e => (.error e, cache)

end Operation
end TensorConcat
