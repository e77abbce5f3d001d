import TensorConcat.Access
import TensorConcat.Concat.Check
import TensorConcat.Iteration.Collapse
import TensorConcat.Iteration.Cover

/-! The plan of a concatenation: the window over the output, and the padding that lets every work
item load whole vectors from both inputs. -/

namespace TensorConcat

/-- The columns right of the first input, up to the end of its last vector. -/
def firstRightPadding (width : Nat) : Nat :=
  ceilMultiple width Operands.vectorWidth - width

/-- The columns left of the second input, from the start of the vector in which it begins. -/
def secondLeftPadding (firstWidth : Nat) : Nat :=
  firstWidth % Operands.vectorWidth

/-- The columns right of the second input: the output's whole vectors less both widths, up to whole
vectors. -/
def secondRightPadding (outputWidth firstWidth secondWidth : Nat) : Nat :=
  (residue (signed64 (floorMultiple outputWidth Operands.vectorWidth) - signed64 firstWidth
    - signed64 secondWidth) Operands.vectorWidth).toNat

namespace Operands

def secondLimit (o : Operands) : Nat :=
  o.second.extent 0
    + secondRightPadding (o.output.extent 0) (o.first.extent 0) (o.second.extent 0)

/-- The column of the second input up to which the last vector of the output reaches. -/
def secondReach (o : Operands) : Int :=
  signed64 (ceilMultiple (o.output.extent 0) vectorWidth) - signed64 (o.first.extent 0)

def accesses (o : Operands) : List Access :=
  [⟨o.first, .fixed
      ⟨0, signed64 (ceilMultiple (o.first.extent 0) vectorWidth), 0, signed64 (o.first.extent 1)⟩⟩,
    ⟨o.second, .fixed
      ⟨-secondLeftPadding (o.first.extent 0), signed64 o.secondLimit, 0,
        signed64 (o.second.extent 1)⟩⟩,
    ⟨o.output, .horizontal 0 vectorWidth⟩]

def withDescriptors (o : Operands) : List Descriptor → Operands
  | [first, second, output] => ⟨first, second, output⟩
  | _ => o

def merged (w : Window) : Window :=
  (w.collapse? w .z).getD w

/-- Plans the window and extends the padding of the operands. A plan that fails late has extended
the padding already. -/
def plan (o : Operands) : Except Error Window × Operands :=
  if signed64 o.secondLimit < o.secondReach then
    (.error (.reachesPastPadding (o.output.extent 0) o.secondReach o.secondLimit), o)
  else
    let (w, descriptors, narrowed) :=
      Access.merge (.cover o.output.valid [vectorWidth]) o.accesses
    let planned := o.withDescriptors descriptors
    if narrowed then (.error .insufficientPadding, planned) else (.ok (merged w), planned)

def validate (o : Operands) (half : Bool) : Except Error Unit := do
  o.check half
  let _ ← o.plan.1

end Operands
end TensorConcat
