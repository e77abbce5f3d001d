import TensorConcat.Json.Real

/-! Readers of JSON values: each accepts the values of one type and nothing else. -/

namespace TensorConcat
namespace Json

/-- A text without lone surrogates. -/
def asString? : Json → Option String
  | .text us => (string? us).map String.ofList
  | _ => none

def asReal? : Json → Option Real
  | .number n => Real.ofNumber? n
  | _ => none

def asSize? (v : Json) : Option Nat :=
  match v.asReal? with
  | some (.size n) => some n
  | _ => none

def asInt32? (v : Json) : Option Int :=
  match v.asReal? with
  | some (.size n) => if n < 0x80000000 then some n else none
  | some (.negative n) => if -0x80000000 ≤ n then some n else none
  | _ => none

def asBinary32? (v : Json) : Option Binary32 :=
  v.asReal?.map Real.toBinary32

def asArray? : Json → Option (List Json)
  | .array items => some items
  | _ => none

def lookup (key : String) (members : List (String × Json)) : List Json :=
  (members.filter (·.1 = key)).map (·.2)

/-- The values of a record's fields in order: from an array of exactly these, or from an object that
has each of them once. Other members of the object do not count. -/
def asRecord? (fields : List String) : Json → Option (List Json)
  | .array items => if items.length = fields.length then some items else none
  | .object members => do
    let named ← members.mapM fun (k, v) => (string? k).map fun cs => (String.ofList cs, v)
    fields.mapM fun field =>
      match lookup field named with
      | [v] => some v
      | _ => none
  | _ => none

/-- One name out of several: as a text, or as the only key of an object whose value is null. -/
def asName? : Json → Option String
  | .object [(k, .null)] => (string? k).map String.ofList
  | v => v.asString?

end Json
end TensorConcat
