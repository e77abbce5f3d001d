/-! Decimal notation of whole numbers, over lists of characters: digits are written most
significant first, and reading is the inverse. -/

namespace TensorConcat
namespace Digits

def digit (d : Nat) : Char :=
  Char.ofNat (48 + d)

def value? (c : Char) : Option Nat :=
  if 48 ≤ c.toNat ∧ c.toNat ≤ 57 then some (c.toNat - 48) else none

def isDigit (c : Char) : Bool :=
  (value? c).isSome

/-- The digits of a number, at least one, without leading zeros. -/
def ofNat (n : Nat) : List Char :=
  if n < 10 then [digit n] else ofNat (n / 10) ++ [digit (n % 10)]

def ofInt (n : Int) : List Char :=
  if n < 0 then '-' :: ofNat n.natAbs else ofNat n.natAbs

/-- The number that a list of digits continues to, after digits that were worth `start`. -/
def continueFrom (start : Nat) : List Char → Nat
  | [] => start
  | c :: cs => continueFrom (10 * start + (value? c).getD 0) cs

def number (cs : List Char) : Nat :=
  continueFrom 0 cs

def number? (cs : List Char) : Option Nat :=
  if cs.isEmpty || !cs.all isDigit then none else some (number cs)

/-- Reads a size of 64 bits: an optional plus sign, then digits alone. -/
def size? (cs : List Char) : Option Nat :=
  let body := match cs with
    | '+' :: rest => rest
    | _ => cs
  (number? body).filter (· < 0x10000000000000000)

def count (n : Nat) : Nat :=
  if n < 10 then 1 else count (n / 10) + 1

theorem continueFrom_append (start : Nat) (xs ys : List Char) :
    continueFrom start (xs ++ ys) = continueFrom (continueFrom start xs) ys := by
  induction xs generalizing start with
  | nil => rfl
  | cons c cs ih => simpa only [List.cons_append, continueFrom] using ih _

theorem value?_digit {d : Nat} (h : d < 10) : value? (digit d) = some d := by
  have : ∀ d, d < 10 → value? (digit d) = some d := by decide
  exact this d h

theorem isDigit_digit {d : Nat} (h : d < 10) : isDigit (digit d) = true := by
  simp [isDigit, value?_digit h]

theorem number_ofNat (n : Nat) : number (ofNat n) = n := by
  induction n using ofNat.induct with
  | case1 n h => rw [ofNat, if_pos h]; simp [number, continueFrom, value?_digit h]
  | case2 n h ih =>
    have hd : n % 10 < 10 := by omega
    rw [ofNat, if_neg h, number, continueFrom_append]
    rw [number] at ih
    simp only [ih, continueFrom, value?_digit hd, Option.getD_some]
    omega

theorem all_isDigit_ofNat (n : Nat) : (ofNat n).all isDigit = true := by
  induction n using ofNat.induct with
  | case1 n h => rw [ofNat, if_pos h]; simp [isDigit_digit h]
  | case2 n h ih =>
    have hd : n % 10 < 10 := by omega
    rw [ofNat, if_neg h, List.all_append, ih]
    simp [isDigit_digit hd]

theorem ofNat_ne_nil (n : Nat) : ofNat n ≠ [] := by
  rw [ofNat]
  split <;> simp

theorem number?_ofNat (n : Nat) : number? (ofNat n) = some n := by
  simp [number?, all_isDigit_ofNat, ofNat_ne_nil, number_ofNat]

end Digits
end TensorConcat
