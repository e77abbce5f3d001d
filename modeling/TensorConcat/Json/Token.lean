import TensorConcat.Numeric.Digits

/-! Tokens of JSON text. Numbers stay literals and texts stay lists of units, so that nothing is
lost or refused before a reader says what it expects. -/

namespace TensorConcat
namespace Json

/-- A character of a text, or half of a surrogate pair that was written as an escape. -/
inductive TextUnit where
  | char (c : Char)
  | surrogate (code : Nat)
deriving DecidableEq, Repr

/-- A number literal. An empty fraction stands for none. -/
structure Number where
  negative : Bool
  whole : List Char
  fraction : List Char
  exponent : Option Int
deriving DecidableEq, Repr

inductive Token where
  | openArray
  | closeArray
  | openObject
  | closeObject
  | comma
  | colon
  | null
  | bool (value : Bool)
  | number (value : Number)
  | text (units : List TextUnit)
deriving DecidableEq, Repr

/-- Pairs of surrogates become one character; a surrogate without its partner is no character. -/
def string? : List TextUnit → Option (List Char)
  | [] => some []
  | .char c :: rest => (string? rest).map (c :: ·)
  | .surrogate high :: .surrogate low :: rest =>
    if high < 0xdc00 ∧ 0xdc00 ≤ low then
      (string? rest).map (Char.ofNat (0x10000 + (high - 0xd800) * 0x400 + (low - 0xdc00)) :: ·)
    else none
  | .surrogate _ :: _ => none

def isSpace (c : Char) : Bool :=
  c = ' ' || c = '\n' || c = '\t' || c = '\r'

def hexValue? (c : Char) : Option Nat :=
  if 48 ≤ c.toNat ∧ c.toNat ≤ 57 then some (c.toNat - 48)
  else if 97 ≤ c.toNat ∧ c.toNat ≤ 102 then some (c.toNat - 87)
  else if 65 ≤ c.toNat ∧ c.toNat ≤ 70 then some (c.toNat - 55)
  else none

def TextUnit.ofCode (code : Nat) : TextUnit :=
  if 0xd800 ≤ code ∧ code < 0xe000 then .surrogate code else .char (Char.ofNat code)

def escaped? (letter : Char) : Option Char :=
  match letter with
  | '"' => some '"'
  | '\\' => some '\\'
  | '/' => some '/'
  | 'b' => some '\x08'
  | 'f' => some '\x0c'
  | 'n' => some '\n'
  | 'r' => some '\r'
  | 't' => some '\t'
  | _ => none

/-- The first unit of a text and what follows it. Control characters have to be escaped. -/
def unit? : List Char → Option (TextUnit × List Char)
  | '\\' :: 'u' :: a :: b :: c :: d :: rest => do
    let code := 4096 * (← hexValue? a) + 256 * (← hexValue? b) + 16 * (← hexValue? c)
      + (← hexValue? d)
    some (.ofCode code, rest)
  | '\\' :: letter :: rest => (escaped? letter).map fun c => (.char c, rest)
  | c :: rest => if c.toNat < 0x20 ∨ c = '\\' then none else some (.char c, rest)
  | [] => none

theorem length_unit? {cs rest : List Char} {u : TextUnit} (h : unit? cs = some (u, rest)) :
    rest.length < cs.length := by
  unfold unit? at h
  split at h
  next a b c d tail =>
    simp only [Option.bind_eq_bind, Option.bind_eq_some_iff, Option.some.injEq,
      Prod.mk.injEq] at h
    obtain ⟨_, _, _, _, _, _, _, _, _, rfl⟩ := h
    simp only [List.length_cons]
    omega
  next letter tail _ =>
    obtain ⟨_, _, h⟩ := Option.map_eq_some_iff.mp h
    obtain ⟨_, rfl⟩ := Prod.mk.inj h
    simp only [List.length_cons]
    omega
  next c tail _ _ =>
    split at h
    · simp at h
    · obtain ⟨_, rfl⟩ := Prod.mk.inj (Option.some.inj h)
      exact Nat.lt_succ_self _
  next => simp at h

def units? (cs : List Char) : Option (List TextUnit × List Char) :=
  match cs with
  | [] => none
  | c :: rest =>
    if c = '"' then some ([], rest)
    else
      match _h : unit? (c :: rest) with
      | none => none
      | some (u, tail) => (units? tail).map fun (us, after) => (u :: us, after)
termination_by cs.length
decreasing_by exact length_unit? _h

theorem length_units? {cs rest : List Char} {us : List TextUnit} (h : units? cs = some (us, rest)) :
    rest.length < cs.length := by
  induction cs using units?.induct generalizing us rest with
  | case1 => simp [units?] at h
  | case2 tail =>
    rw [units?, if_pos rfl] at h
    obtain ⟨_, rfl⟩ := Prod.mk.inj (Option.some.inj h)
    exact Nat.lt_succ_self _
  | case3 c tail hc hu =>
    rw [units?, if_neg hc] at h
    split at h
    · simp at h
    · simp_all
  | case4 c tail hc u after hu ih =>
    rw [units?, if_neg hc] at h
    split at h
    · simp at h
    next u' after' hu' =>
      obtain ⟨_, rfl⟩ := Prod.mk.inj (Option.some.inj (hu.symm.trans hu'))
      obtain ⟨⟨vs, last⟩, hv, he⟩ := Option.map_eq_some_iff.mp h
      obtain ⟨_, rfl⟩ := Prod.mk.inj he
      exact Nat.lt_trans (ih hv) (length_unit? hu)

def places (cs : List Char) : List Char × List Char :=
  (cs.takeWhile Digits.isDigit, cs.dropWhile Digits.isDigit)

theorem length_places (cs : List Char) :
    (places cs).1.length + (places cs).2.length = cs.length := by
  rw [← List.length_append]
  exact congrArg List.length List.takeWhile_append_dropWhile

/-- The whole part: a zero alone, or digits that start with another one. -/
def whole (cs : List Char) : List Char × List Char :=
  match cs with
  | '0' :: rest => (['0'], rest)
  | _ => places cs

theorem length_whole (cs : List Char) : (whole cs).1.length + (whole cs).2.length = cs.length := by
  unfold whole
  split
  · simp [Nat.add_comm]
  · exact length_places cs

/-- The fraction, empty if there is no point; a point needs a digit after it. -/
def fraction? (cs : List Char) : Option (List Char × List Char) :=
  match cs with
  | '.' :: rest => if (places rest).1.isEmpty then none else some (places rest)
  | _ => some ([], cs)

theorem length_fraction? {cs digits rest : List Char} (h : fraction? cs = some (digits, rest)) :
    rest.length ≤ cs.length := by
  unfold fraction? at h
  split at h
  next tail =>
    split at h
    · simp at h
    · have := length_places tail
      rw [Option.some.inj h] at this
      simp only [List.length_cons]
      simp only at this
      omega
  next =>
    obtain ⟨_, rfl⟩ := Prod.mk.inj (Option.some.inj h)
    exact Nat.le_refl _

def exponentSign (cs : List Char) : Bool × List Char :=
  match cs with
  | '+' :: rest => (false, rest)
  | '-' :: rest => (true, rest)
  | _ => (false, cs)

/-- The exponent, if there is one; its mark needs a digit after it. -/
def exponent? (cs : List Char) : Option (Option Int × List Char) :=
  match cs with
  | [] => some (none, [])
  | mark :: rest =>
    if mark = 'e' ∨ mark = 'E' then
      let (negative, body) := exponentSign rest
      let (digits, after) := places body
      if digits.isEmpty then none
      else
        let n : Int := Digits.number digits
        some (some (if negative then -n else n), after)
    else some (none, cs)

theorem length_exponentSign (cs : List Char) : (exponentSign cs).2.length ≤ cs.length := by
  unfold exponentSign
  split <;> simp

theorem length_exponent? {cs rest : List Char} {e : Option Int}
    (h : exponent? cs = some (e, rest)) : rest.length ≤ cs.length := by
  unfold exponent? at h
  split at h
  · simp_all
  next mark tail =>
    split at h
    · simp only at h
      split at h
      · simp at h
      · obtain ⟨_, rfl⟩ := Prod.mk.inj (Option.some.inj h)
        have hs := length_exponentSign tail
        have hp := length_places (exponentSign tail).2
        simp only [List.length_cons]
        omega
    · obtain ⟨_, rfl⟩ := Prod.mk.inj (Option.some.inj h)
      exact Nat.le_refl _

def magnitude? (negative : Bool) (cs : List Char) : Option (Number × List Char) :=
  if (whole cs).1.isEmpty then none
  else
    (fraction? (whole cs).2).bind fun (fraction, tail) =>
      (exponent? tail).map fun (exponent, rest) =>
        (⟨negative, (whole cs).1, fraction, exponent⟩, rest)

def number? : List Char → Option (Number × List Char)
  | '-' :: cs => magnitude? true cs
  | cs => magnitude? false cs

theorem length_magnitude? {cs rest : List Char} {negative : Bool} {n : Number}
    (h : magnitude? negative cs = some (n, rest)) : rest.length < cs.length := by
  unfold magnitude? at h
  split at h
  · simp at h
  next hw =>
    obtain ⟨⟨fraction, tail⟩, hf, h⟩ := Option.bind_eq_some_iff.mp h
    obtain ⟨⟨exponent, after⟩, he, h⟩ := Option.map_eq_some_iff.mp h
    obtain ⟨_, rfl⟩ := Prod.mk.inj h
    have hl := length_whole cs
    have hpos : 0 < (whole cs).1.length := by
      simpa [List.length_pos_iff, List.isEmpty_iff] using hw
    have := length_fraction? hf
    have := length_exponent? he
    omega

theorem length_number? {cs rest : List Char} {n : Number} (h : number? cs = some (n, rest)) :
    rest.length < cs.length := by
  unfold number? at h
  split at h
  next tail => exact Nat.lt_succ_of_lt (length_magnitude? h)
  next => exact length_magnitude? h

def after? (word cs : List Char) : Option (List Char) :=
  match word, cs with
  | [], rest => some rest
  | _ :: _, [] => none
  | w :: word, c :: cs => if w = c then after? word cs else none

theorem length_after? {word cs rest : List Char} (h : after? word cs = some rest) :
    rest.length ≤ cs.length := by
  induction word generalizing cs with
  | nil =>
    simp only [after?, Option.some.injEq] at h
    exact h ▸ Nat.le_refl _
  | cons w word ih =>
    cases cs with
    | nil => simp [after?] at h
    | cons c cs =>
      rw [after?] at h
      split at h
      · exact Nat.le_succ_of_le (ih h)
      · simp at h

def tokenFrom? (c : Char) (rest : List Char) : Option (Token × List Char) :=
  match c with
  | '[' => some (.openArray, rest)
  | ']' => some (.closeArray, rest)
  | '\x7b' => some (.openObject, rest)
  | '\x7d' => some (.closeObject, rest)
  | ',' => some (.comma, rest)
  | ':' => some (.colon, rest)
  | '"' => (units? rest).map fun (us, after) => (.text us, after)
  | 'n' => (after? "ull".toList rest).map (Token.null, ·)
  | 't' => (after? "rue".toList rest).map (Token.bool true, ·)
  | 'f' => (after? "alse".toList rest).map (Token.bool false, ·)
  | _ => (number? (c :: rest)).map fun (n, after) => (.number n, after)

theorem length_tokenFrom? {c : Char} {rest after : List Char} {t : Token}
    (h : tokenFrom? c rest = some (t, after)) : after.length < (c :: rest).length := by
  rw [List.length_cons]
  unfold tokenFrom? at h
  split at h
  case h_7 =>
    obtain ⟨⟨us, tail⟩, hu, h⟩ := Option.map_eq_some_iff.mp h
    obtain ⟨_, rfl⟩ := Prod.mk.inj h
    exact Nat.lt_succ_of_lt (length_units? hu)
  case h_11 =>
    obtain ⟨⟨n, tail⟩, hn, h⟩ := Option.map_eq_some_iff.mp h
    obtain ⟨_, rfl⟩ := Prod.mk.inj h
    exact length_number? hn
  case h_8 | h_9 | h_10 =>
    obtain ⟨tail, ht, h⟩ := Option.map_eq_some_iff.mp h
    obtain ⟨_, rfl⟩ := Prod.mk.inj h
    exact Nat.lt_succ_of_le (length_after? ht)
  all_goals
    obtain ⟨_, rfl⟩ := Prod.mk.inj (Option.some.inj h)
    exact Nat.lt_succ_self _

def tokens? (cs : List Char) : Option (List Token) :=
  match cs with
  | [] => some []
  | c :: rest =>
    if isSpace c then tokens? rest
    else
      match _h : tokenFrom? c rest with
      | none => none
      | some (t, after) => (tokens? after).map (t :: ·)
termination_by cs.length
decreasing_by
  · exact Nat.lt_succ_self _
  · exact length_tokenFrom? _h

end Json
end TensorConcat
