import TensorConcat.Tensor.ElementType

/-! Values as bytes, the least significant byte first. -/

namespace TensorConcat

def littleEndian : (size : Nat) → (n : Nat) → List UInt8
  | 0, _ => []
  | size + 1, n => UInt8.ofNat n :: littleEndian size (n / 256)

def ofLittleEndian : List UInt8 → Nat
  | [] => 0
  | b :: bs => b.toNat + 256 * ofLittleEndian bs

theorem length_littleEndian (size n : Nat) : (littleEndian size n).length = size := by
  induction size generalizing n with
  | zero => rfl
  | succ size ih => simp [littleEndian, ih]

theorem ofLittleEndian_littleEndian (size n : Nat) :
    ofLittleEndian (littleEndian size n) = n % Nat.pow 256 size := by
  induction size generalizing n with
  | zero => simp [littleEndian, ofLittleEndian, Nat.mod_one]
  | succ size ih =>
    rw [littleEndian, ofLittleEndian, ih]
    show _ = n % (Nat.pow 256 size * 256)
    rw [Nat.mul_comm (Nat.pow 256 size), Nat.mod_mul]
    rfl

namespace Storage

def isSigned : Storage → Bool
  | .i8 | .i16 | .i32 => true
  | _ => false

def modulus (s : Storage) : Nat :=
  Nat.pow 256 s.size

/-- The bytes of a value, which is reduced to the range of the storage. -/
def encode (s : Storage) (value : Int) : List UInt8 :=
  littleEndian s.size (value % (s.modulus : Int)).toNat

/-- The value of bytes; a float is given by its bit pattern. -/
def decode (s : Storage) (bytes : List UInt8) : Int :=
  let n := ofLittleEndian bytes
  if s.isSigned && s.modulus ≤ 2 * n then (n : Int) - s.modulus else n

theorem length_encode (s : Storage) (value : Int) : (s.encode value).length = s.size :=
  length_littleEndian _ _

end Storage
end TensorConcat
