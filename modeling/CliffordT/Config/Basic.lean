import CliffordT.Circuit.Json
import CliffordT.Host.Process
import CliffordT.Text.Blank

/-!
# Configuration of a synthesis program

Which program synthesizes rotations, and its arguments in front of the angle.  The program may be
replaced by a variable of the environment (`Config.withOverride`).
-/

namespace CliffordT

/-- A synthesis program and its leading arguments. -/
structure Config where
  program : Path
  args : List String := []
deriving DecidableEq

namespace Config

/-- The variable of the environment that replaces the program. -/
def environmentVariable : String := "ROTSYNTH_ORACLE"

/-- The program that is run unless another one is configured. -/
def defaultProgram : String := "./gridsynth"

/-- The default program without arguments. -/
def standard : Config := ⟨.ofString defaultProgram, []⟩

/-- One more argument behind the others. -/
def withArg (c : Config) (arg : String) : Config := { c with args := c.args ++ [arg] }

/-- The configuration with its program replaced by the bytes of the environment variable, where it
is set.  A value that is not valid UTF-8 or holds nothing but white space is ignored; any other
value is taken as it stands. -/
def withOverride (c : Config) (value : Option (List UInt8)) : Config :=
  match value with
  | none => c
  | some bytes =>
    match Utf8.decode bytes with
    | .error _ => c
    | .ok cs => if (trimBlanks cs).isEmpty then c else { c with program := ⟨bytes⟩ }

/-- Equality with the program compared as a place. -/
def sameValue (a b : Config) : Bool := a.program.samePlace b.program && a.args == b.args

/-! ### As JSON -/

open Json

/-- The configuration as JSON, unless the program is no text. -/
def toJson? (c : Config) : Option Value :=
  c.program.text?.map fun program =>
    .ofMembers [("program", .ofString program), ("args", .ofItems (c.args.map Tree.ofString))]

/-- The complaint about a program that is no text. -/
def jsonComplaint : String := "path contains invalid UTF-8 characters"

end Config

/-- The parts of a configuration, as far as they are read. -/
structure ConfigFields where
  program : Option Path := none
  args : Option (List String) := none

/-- The configuration with its missing parts filled in. -/
def ConfigFields.toConfig (s : ConfigFields) : Config :=
  ⟨s.program.getD Config.standard.program, s.args.getD Config.standard.args⟩

/-- The fields of a configuration.  Both may be left out. -/
def configRecord [Json.Library] : Json.Record ConfigFields where
  name := "struct OracleConfig"
  fields :=
    [{ name := "program", isOptional := true, isSet := (·.program.isSome)
       store := fun s v =>
        return { s with program := some (.ofString (← Json.decodeString "path string" v)) } },
     { name := "args", isOptional := true, isSet := (·.args.isSome)
       store := fun s v =>
        return { s with args := some (← Json.decodeList (Json.decodeString "a string") v) } }]

/-- A configuration from JSON. -/
def Config.ofJson [Json.Library] (v : Json.Value) : Except Json.Fault Config :=
  (configRecord.decode {} v).map ConfigFields.toConfig

end CliffordT
