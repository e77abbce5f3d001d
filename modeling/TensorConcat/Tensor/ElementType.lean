/-! Element types of tensors, and the storage in which a device keeps them. -/

namespace TensorConcat

inductive Storage where
  | u8
  | i8
  | u16
  | i16
  | u32
  | i32
  | f16
  | f32
deriving DecidableEq, Repr

namespace Storage

def all : List Storage :=
  [.u8, .i8, .u16, .i16, .u32, .i32, .f16, .f32]

def name : Storage → String
  | .u8 => "uchar"
  | .i8 => "char"
  | .u16 => "ushort"
  | .i16 => "short"
  | .u32 => "uint"
  | .i32 => "int"
  | .f16 => "half"
  | .f32 => "float"

def named? (s : String) : Option Storage :=
  all.find? (·.name = s)

def size : Storage → Nat
  | .u8 | .i8 => 1
  | .u16 | .i16 | .f16 => 2
  | .u32 | .i32 | .f32 => 4

/-- The least and the greatest value of a storage in which values can be rescaled. -/
def range? : Storage → Option (Int × Int)
  | .u8 => some (0, 255)
  | .i8 => some (-128, 127)
  | .u16 => some (0, 65535)
  | .i16 => some (-32768, 32767)
  | _ => none

theorem named?_name (s : Storage) : named? s.name = some s := by
  cases s <;> decide

end Storage

inductive ElementType where
  | unknown
  | unsigned8
  | signed8
  | symmetric8
  | affine8
  | signedAffine8
  | unsigned16
  | signed16
  | symmetric16
  | affine16
  | unsigned32
  | signed32
  | brainFloat16
  | half
  | single
deriving DecidableEq, Repr

namespace ElementType

def all : List ElementType :=
  [.unknown, .unsigned8, .signed8, .symmetric8, .affine8, .signedAffine8, .unsigned16, .signed16,
    .symmetric16, .affine16, .unsigned32, .signed32, .brainFloat16, .half, .single]

def storage? : ElementType → Option Storage
  | .unknown => none
  | .unsigned8 | .affine8 => some .u8
  | .signed8 | .symmetric8 | .signedAffine8 => some .i8
  | .unsigned16 | .affine16 | .brainFloat16 => some .u16
  | .signed16 | .symmetric16 => some .i16
  | .unsigned32 => some .u32
  | .signed32 => some .i32
  | .half => some .f16
  | .single => some .f32

def size (t : ElementType) : Nat :=
  (t.storage?.map Storage.size).getD 0

/-- Values are a scale times their distance from an offset. -/
def isAffine : ElementType → Bool
  | .affine8 | .signedAffine8 | .affine16 => true
  | _ => false

def name : ElementType → String
  | .unknown => "UNKNOWN"
  | .unsigned8 => "U8"
  | .signed8 => "S8"
  | .symmetric8 => "QSYMM8"
  | .affine8 => "QASYMM8"
  | .signedAffine8 => "QASYMM8_SIGNED"
  | .unsigned16 => "U16"
  | .signed16 => "S16"
  | .symmetric16 => "QSYMM16"
  | .affine16 => "QASYMM16"
  | .unsigned32 => "U32"
  | .signed32 => "S32"
  | .brainFloat16 => "BFLOAT16"
  | .half => "F16"
  | .single => "F32"

def tag : ElementType → String
  | .unknown => "Unknown"
  | .unsigned8 => "Ui8"
  | .signed8 => "Si8"
  | .symmetric8 => "QSymm8"
  | .affine8 => "QAsymm8"
  | .signedAffine8 => "QAsymm8Signed"
  | .unsigned16 => "Ui16"
  | .signed16 => "Si16"
  | .symmetric16 => "QSymm16"
  | .affine16 => "QAsymm16"
  | .unsigned32 => "Ui32"
  | .signed32 => "Si32"
  | .brainFloat16 => "Bf16"
  | .half => "F16"
  | .single => "F32"

def tagged? (s : String) : Option ElementType :=
  all.find? (·.tag = s)

theorem mem_all (t : ElementType) : t ∈ all := by
  cases t <;> decide

end ElementType
end TensorConcat
