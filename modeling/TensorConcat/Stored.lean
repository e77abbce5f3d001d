import TensorConcat.Compile.BuildOptions
import TensorConcat.Json.Print
import TensorConcat.Json.Read
import TensorConcat.Launch.Range
import TensorConcat.Tensor.Descriptor

/-! The JSON form in which descriptions are stored. -/

namespace TensorConcat

namespace ElementType

def toJson (t : ElementType) : Json :=
  .ofString t.tag

def ofJson? (v : Json) : Option ElementType :=
  v.asName?.bind tagged?

end ElementType

namespace Quantization

def toJson (q : Quantization) : Json :=
  .object [("scale".toList.map .char, .ofBinary32 q.scale),
    ("offset".toList.map .char, .ofInt q.offset)]

def ofJson? (v : Json) : Option Quantization := do
  match ← v.asRecord? ["scale", "offset"] with
  | [scale, offset] => return ⟨← scale.asBinary32?, ← offset.asInt32?⟩
  | _ => none

end Quantization

namespace LaunchRange

def toJson (r : LaunchRange) : Json :=
  .array [.ofNat r.x, .ofNat r.y, .ofNat r.z]

def ofJson? : Json → Option LaunchRange
  | .array [x, y, z] => do return ⟨← x.asSize?, ← y.asSize?, ← z.asSize?⟩
  | _ => none

end LaunchRange

namespace BuildOptions

def pairToJson (entry : String × String) : Json :=
  .array [.ofString entry.1, .ofString entry.2]

def pairOfJson? : Json → Option (String × String)
  | .array [key, value] => do return (← key.asString?, ← value.asString?)
  | _ => none

def toJson (o : BuildOptions) : Json :=
  .object [("defines".toList.map .char, .array (o.defines.map pairToJson))]

def ofJson? (v : Json) : Option BuildOptions := do
  match ← v.asRecord? ["defines"] with
  | [defines] => return ⟨← (← defines.asArray?).mapM pairOfJson?⟩
  | _ => none

end BuildOptions
end TensorConcat
