import TensorConcat.Json.Token

/-! JSON values and their tokens: `tokens` lists the tokens of a value and `ofTokens?` reads them
back. -/

namespace TensorConcat

inductive Json where
  | null
  | bool (value : Bool)
  | number (value : Json.Number)
  | text (units : List Json.TextUnit)
  | array (items : List Json)
  | object (members : List (List Json.TextUnit × Json))
deriving Repr

namespace Json

def ofChars (cs : List Char) : Json :=
  .text (cs.map .char)

def ofString (s : String) : Json :=
  ofChars s.toList

def ofNat (n : Nat) : Json :=
  .number ⟨false, Digits.ofNat n, [], none⟩

def ofInt (n : Int) : Json :=
  .number ⟨decide (n < 0), Digits.ofNat n.natAbs, [], none⟩

mutual

def tokens : Json → List Token
  | .null => [.null]
  | .bool b => [.bool b]
  | .number n => [.number n]
  | .text us => [.text us]
  | .array items => .openArray :: itemTokens items ++ [.closeArray]
  | .object members => .openObject :: memberTokens members ++ [.closeObject]

def itemTokens : List Json → List Token
  | [] => []
  | [v] => tokens v
  | v :: vs => tokens v ++ .comma :: itemTokens vs

def memberTokens : List (List TextUnit × Json) → List Token
  | [] => []
  | [(k, v)] => .text k :: .colon :: tokens v
  | (k, v) :: ms => .text k :: .colon :: tokens v ++ .comma :: memberTokens ms

end

mutual

def value? : (fuel : Nat) → List Token → Option (Json × List Token)
  | 0, _ => none
  | fuel + 1, ts =>
    match ts with
    | .null :: rest => some (.null, rest)
    | .bool b :: rest => some (.bool b, rest)
    | .number n :: rest => some (.number n, rest)
    | .text us :: rest => some (.text us, rest)
    | .openArray :: .closeArray :: rest => some (.array [], rest)
    | .openArray :: rest => (items? fuel rest).map fun (vs, after) => (.array vs, after)
    | .openObject :: .closeObject :: rest => some (.object [], rest)
    | .openObject :: rest => (members? fuel rest).map fun (ms, after) => (.object ms, after)
    | _ => none

def items? : (fuel : Nat) → List Token → Option (List Json × List Token)
  | 0, _ => none
  | fuel + 1, ts =>
    match value? fuel ts with
    | some (v, .closeArray :: rest) => some ([v], rest)
    | some (v, .comma :: rest) => (items? fuel rest).map fun (vs, after) => (v :: vs, after)
    | _ => none

def members? : (fuel : Nat) → List Token → Option (List (List TextUnit × Json) × List Token)
  | 0, _ => none
  | fuel + 1, ts =>
    match ts with
    | .text k :: .colon :: ts =>
      match value? fuel ts with
      | some (v, .closeObject :: rest) => some ([(k, v)], rest)
      | some (v, .comma :: rest) =>
        (members? fuel rest).map fun (ms, after) => ((k, v) :: ms, after)
      | _ => none
    | _ => none

end

/-- Reads tokens that make up one value. A level of nesting takes a token at least, so their number
bounds the recursion. -/
def ofTokens? (ts : List Token) : Option Json :=
  match value? (2 * ts.length + 1) ts with
  | some (v, []) => some v
  | _ => none

def parse? (s : String) : Option Json :=
  (tokens? s.toList).bind ofTokens?

end Json
end TensorConcat
