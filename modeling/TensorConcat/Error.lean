import TensorConcat.Iteration.Window
import TensorConcat.Tensor.ElementType

/-! Everything that can go wrong, by its cause, and the text in which each cause is reported. -/

namespace TensorConcat

/-- The kinds of errors a caller can tell apart. A fault is no error to be handled: the request has
no meaning at all. -/
inductive ErrorKind where
  | invalidArgument
  | runtime
  | precondition
  | device
  | io
  | fault
deriving DecidableEq, Repr

inductive Fault where
  | divisionByZero
  | noSuchAxis
  | nonPositiveStep
  | addressTooLarge
deriving DecidableEq, Repr

inductive Role where
  | source (index : Nat)
  | destination
deriving DecidableEq, Repr

inductive Input where
  | first
  | second
deriving DecidableEq, Repr

inductive ByteAction where
  | read
  | write
  | upload
  | download
  | count
deriving DecidableEq, Repr

inductive TensorQuantity where
  | stride
  | stepStride
  | firstOffset
deriving DecidableEq, Repr

inductive Error where
  | rankTooLarge (rank : Nat)
  | halfUnsupported
  | unknownType
  | mixedTypes (first second output : ElementType)
  | widthsExceedOutput (first second output : Nat)
  | extentMismatch (input : Input) (axis extent output : Nat)
  | inputRankTooLarge (rank : Nat)
  | reachesPastPadding (outputWidth : Nat) (reach : Int) (limit : Nat)
  | insufficientPadding
  | noStorage (type : ElementType)
  | unknownOperation (name : String)
  | inputCount (operation : String) (expected got : Nat)
  | notSubWindow (sub full : Window)
  | notConfigured (operation : String)
  | unbound (role : Role)
  | argumentTooLarge (quantity : TensorQuantity) (value : Int)
  | argumentIndex (index : Nat) (kernel : String)
  | unknownKernel (name : String)
  | missingOption (key : String)
  | unsupportedStorage (name : String)
  | optionNotInteger (key value : String)
  | optionNotNumber (key value : String)
  | partialRequantization (keys : List String)
  | emptyVectorOrDepth
  | elementSizeMismatch (size : Nat) (storage : String)
  | noRequantization (storage : String)
  | noBuffer (index : Nat)
  | noScalar (index : Nat)
  | outOfBounds (action : ByteAction) (length : Nat) (offset : Int) (capacity : Nat)
  | valueSize (size : Nat) (type : ElementType)
  | valueCount (expected got : Nat)
  | malformedStore
  | fileSystem
  | fault (cause : Fault)
deriving DecidableEq, Repr

def Role.text : Role → String
  | .source index => s!"SrcVec({index})"
  | .destination => "Dst"

def Input.text : Input → String
  | .first => "input1"
  | .second => "input2"

def ByteAction.text : ByteAction → String
  | .read => "read"
  | .write => "write"
  | .upload => "upload"
  | .download => "download"
  | .count => "count"

def TensorQuantity.text : TensorQuantity → String
  | .stride => "stride"
  | .stepStride => "step stride"
  | .firstOffset => "first element offset"

def ErrorKind.opening : ErrorKind → String
  | .invalidArgument => "invalid argument: "
  | .runtime => "runtime error: "
  | .precondition => "precondition violated: "
  | .device => "device failure: "
  | .io => "i/o error: "
  | .fault => ""

namespace Error

def kind : Error → ErrorKind
  | .rankTooLarge .. | .halfUnsupported | .unknownType | .mixedTypes .. | .widthsExceedOutput ..
  | .extentMismatch .. | .inputRankTooLarge .. | .noStorage ..
  | .unknownOperation .. | .inputCount .. | .valueSize .. | .valueCount .. => .invalidArgument
  | .reachesPastPadding .. | .insufficientPadding | .argumentTooLarge .. | .malformedStore =>
    .runtime
  | .notSubWindow .. | .notConfigured .. | .unbound .. => .precondition
  | .argumentIndex .. | .unknownKernel .. | .missingOption .. | .unsupportedStorage ..
  | .optionNotInteger .. | .optionNotNumber .. | .partialRequantization .. | .emptyVectorOrDepth
  | .elementSizeMismatch .. | .noRequantization .. | .noBuffer .. | .noScalar ..
  | .outOfBounds .. => .device
  | .fileSystem => .io
  | .fault .. => .fault

def detail : Error → String
  | .rankTooLarge rank => s!"shape rank {rank} exceeds the supported maximum of 6"
  | .halfUnsupported => "F16 is not supported by this device"
  | .unknownType => "input1 has an unknown data type"
  | .mixedTypes first second output =>
    s!"mismatching data types: input1 {first.name}, input2 {second.name}, output {output.name}"
  | .widthsExceedOutput first second output =>
    s!"input widths {first} + {second} exceed the output width {output}"
  | .extentMismatch input axis extent output =>
    s!"{input.text} dimension {axis} is {extent} but the output has {output}"
  | .inputRankTooLarge rank => s!"input1 has {rank} dimensions, at most 4 are supported"
  | .reachesPastPadding outputWidth reach limit =>
    s!"output width {outputWidth} reads input2 up to column {reach}, "
      ++ s!"past its padded extent of {limit}"
  | .insufficientPadding => "Insufficient Padding!"
  | .noStorage type => s!"no device type for {type.name}"
  | .unknownOperation name => s!"unknown operation '{name}'"
  | .inputCount operation expected got =>
    s!"{operation} expects {expected} source descriptors, got {got}"
  | .notSubWindow sub full =>
    s!"execution window {sub.text} is not a sub-window of the configured window {full.text}"
  | .notConfigured operation => s!"{operation} kernel is not configured"
  | .unbound role => s!"no tensor bound for {role.text}"
  | .argumentTooLarge quantity value => s!"{quantity.text} {value} does not fit a u32 argument"
  | .argumentIndex index kernel => s!"argument index {index} out of range for {kernel}"
  | .unknownKernel name => s!"host device has no kernel named '{name}'"
  | .missingOption key => s!"missing build option {key}"
  | .unsupportedStorage name => s!"unsupported DATA_TYPE '{name}'"
  | .optionNotInteger key value => s!"build option {key}={value} is not an integer"
  | .optionNotNumber key value => s!"build option {key}={value} is not a number"
  | .partialRequantization keys => "requantization needs all of " ++ ", ".intercalate keys
  | .emptyVectorOrDepth => "VEC_SIZE and DEPTH must be non-zero"
  | .elementSizeMismatch size storage =>
    s!"ELEMENT_SIZE {size} does not match DATA_TYPE '{storage}'"
  | .noRequantization storage => s!"requantization is not available for DATA_TYPE '{storage}'"
  | .noBuffer index => s!"argument {index} is not a bound buffer"
  | .noScalar index => s!"argument {index} is not a bound u32 scalar"
  | .outOfBounds action length offset capacity =>
    s!"{action.text} of {length} bytes at offset {offset} is outside a buffer of {capacity} bytes"
  | .valueSize size type =>
    s!"element of {size} bytes does not match {type.name} ({type.size} bytes)"
  | .valueCount expected got => s!"expected {expected} values, got {got}"
  | .malformedStore => "malformed tuning store"
  | .fileSystem => "the file system refused"
  | .fault _ => "the request has no meaning"

def message (e : Error) : String :=
  e.kind.opening ++ e.detail

end Error
end TensorConcat
