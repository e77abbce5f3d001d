import TensorConcat.Json.Value

/-! JSON text of a value: compact, without any space, and indented by two spaces a level. -/

namespace TensorConcat
namespace Json

def hexDigit (n : Nat) : Char :=
  if n < 10 then Char.ofNat (48 + n) else Char.ofNat (87 + n)

def codeEscape (code : Nat) : List Char :=
  ['\\', 'u', hexDigit (code / 4096 % 16), hexDigit (code / 256 % 16), hexDigit (code / 16 % 16),
    hexDigit (code % 16)]

/-- A quote, a backslash and the control characters are escaped, by a letter where there is one. -/
def charText (c : Char) : List Char :=
  match c with
  | '"' => ['\\', '"']
  | '\\' => ['\\', '\\']
  | '\x08' => ['\\', 'b']
  | '\x0c' => ['\\', 'f']
  | '\n' => ['\\', 'n']
  | '\r' => ['\\', 'r']
  | '\t' => ['\\', 't']
  | _ => if c.toNat < 0x20 then codeEscape c.toNat else [c]

def TextUnit.print : TextUnit → List Char
  | .char c => charText c
  | .surrogate code => codeEscape code

def textBody (us : List TextUnit) : List Char :=
  '"' :: us.flatMap TextUnit.print ++ ['"']

/-- The text of an exponent always has a sign. -/
def exponentText (e : Int) : List Char :=
  'e' :: (if e < 0 then [] else ['+']) ++ Digits.ofInt e

def Number.print (n : Number) : List Char :=
  (if n.negative then ['-'] else []) ++ n.whole
    ++ (if n.fraction.isEmpty then [] else '.' :: n.fraction)
    ++ match n.exponent with
      | none => []
      | some e => exponentText e

mutual

def compact : Json → List Char
  | .null => "null".toList
  | .bool true => "true".toList
  | .bool false => "false".toList
  | .number n => n.print
  | .text us => textBody us
  | .array items => '[' :: compactItems items ++ [']']
  | .object members => '\x7b' :: compactMembers members ++ ['\x7d']

def compactItems : List Json → List Char
  | [] => []
  | [v] => compact v
  | v :: vs => compact v ++ ',' :: compactItems vs

def compactMembers : List (List TextUnit × Json) → List Char
  | [] => []
  | [(k, v)] => textBody k ++ ':' :: compact v
  | (k, v) :: ms => textBody k ++ ':' :: compact v ++ ',' :: compactMembers ms

end

def newline (level : Nat) : List Char :=
  '\n' :: List.replicate (2 * level) ' '

mutual

def indented (level : Nat) : Json → List Char
  | .null => "null".toList
  | .bool true => "true".toList
  | .bool false => "false".toList
  | .number n => n.print
  | .text us => textBody us
  | .array [] => "[]".toList
  | .array items => '[' :: indentedItems (level + 1) items ++ newline level ++ [']']
  | .object [] => "\x7b\x7d".toList
  | .object members =>
    '\x7b' :: indentedMembers (level + 1) members ++ newline level ++ ['\x7d']

def indentedItems (level : Nat) : List Json → List Char
  | [] => []
  | [v] => newline level ++ indented level v
  | v :: vs => newline level ++ indented level v ++ ',' :: indentedItems level vs

def indentedMembers (level : Nat) : List (List TextUnit × Json) → List Char
  | [] => []
  | [(k, v)] => newline level ++ textBody k ++ ':' :: ' ' :: indented level v
  | (k, v) :: ms =>
    newline level ++ textBody k ++ ':' :: ' ' :: indented level v ++ ',' :: indentedMembers level ms

end

def compactText (v : Json) : String :=
  String.ofList v.compact

def indentedText (v : Json) : String :=
  String.ofList (v.indented 0)

end Json
end TensorConcat
