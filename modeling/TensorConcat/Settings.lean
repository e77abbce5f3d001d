import TensorConcat.Text.Blank

/-! The settings of a process, read from three variables of its environment. -/

namespace TensorConcat

structure Settings where
  half : Bool
  tuning : Bool
  tuningDirectory : String
deriving DecidableEq, Repr

namespace Settings

def isOn (cs : List Char) : Bool :=
  ["1", "true", "yes", "on"].contains (String.ofList ((trim cs).map Char.toLower))

/-- A switch that is not set, or blank, has its default. -/
def switch (default : Bool) : Option String → Bool
  | none => default
  | some s => if trim s.toList = [] then default else isOn s.toList

def defaultDirectory : String := ".cache/widthcat"

def directory : Option String → String
  | none => defaultDirectory
  | some s => if trim s.toList = [] then defaultDirectory else String.ofList (trim s.toList)

def ofVariables (half? tuning? directory? : Option String) : Settings :=
  ⟨switch true half?, switch false tuning?, directory directory?⟩

end Settings
end TensorConcat
