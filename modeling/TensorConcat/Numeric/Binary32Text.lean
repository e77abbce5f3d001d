import TensorConcat.Numeric.Binary32
import TensorConcat.Numeric.Shortest

/-! Single-precision numbers as text: written positionally with the fewest digits, read in decimal
notation with an optional exponent or by name. -/

namespace TensorConcat
namespace Binary32

/-- The fewest digits that read back, never with an exponent; a whole number has no point. -/
def toText (x : Binary32) : List Char :=
  let sign := if x.negative then ['-'] else []
  if x.isNaN then "NaN".toList
  else if x.isInfinite then sign ++ "inf".toList
  else if x.pattern = 0 then sign ++ ['0']
  else sign ++ (Decimal.shortest .single .upper x.pattern).positional

/-- The text of a number in a build option: one that is not whole is marked as a float. -/
def optionText (x : Binary32) : List Char :=
  if x.isWhole then x.toText else x.toText ++ ['f']

/-- The magnitudes that are written by name, in any mix of cases. -/
def named? (cs : List Char) : Option Binary32 :=
  let lower := cs.map Char.toLower
  if lower = "inf".toList ∨ lower = "infinity".toList then some (infinity false)
  else if lower = "nan".toList then some nan
  else none

def ofMagnitude? (negative : Bool) (cs : List Char) : Option Binary32 :=
  match Decimal.ofText? cs with
  | some d => some (ofPattern negative (BinaryFormat.single.nearestDecimal d))
  | none => (named? cs).map fun x => if negative then x.neg else x

def ofText? : List Char → Option Binary32
  | '+' :: cs => ofMagnitude? false cs
  | '-' :: cs => ofMagnitude? true cs
  | cs => ofMagnitude? false cs

/-- Reads the text of a build option: the marks of a float at its end are dropped. -/
def ofOptionText? (cs : List Char) : Option Binary32 :=
  ofText? (cs.reverse.dropWhile (· = 'f')).reverse

end Binary32
end TensorConcat
