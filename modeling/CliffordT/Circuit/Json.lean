import CliffordT.Circuit.Word
import CliffordT.Json.Decode

/-!
# Gates, commands and words as JSON

Each type has a tree (`toJson`) and a reader of trees (`ofJson`).  A gate without parameters is the
string of its name, a gate with parameters an object with its name for the only key.
-/

namespace CliffordT

open Json

/-! ### Doubles -/

/-- A double as JSON.  What is not finite has no numeral and becomes `null`. -/
def Binary64.toJson [Library] (x : Binary64) : Value :=
  if x.isFinite then .number (Library.numeral x) else .null

/-! ### Gates -/

namespace Axis

/-- The capital letter of an axis. -/
def letter : Axis → String
  | x => "X"
  | y => "Y"
  | z => "Z"

/-- The axis as its capital letter. -/
def toJson (a : Axis) : Value := .ofString a.letter

/-- The axes by their capital letters. -/
def ofJson [Library] : Value → Except Fault Axis :=
  decodeVariant [.unit "X" x, .unit "Y" y, .unit "Z" z]

end Axis

namespace FixedGate

/-- The gate as its capital letter. -/
def toJson (g : FixedGate) : Value := .ofString g.text

/-- The gates of the alphabet by their capital letters. -/
def ofJson [Library] : Value → Except Fault FixedGate :=
  decodeVariant (all.map fun g => .unit g.text g)

end FixedGate

/-- The parameters of a rotation, as far as they are read. -/
structure RotationFields where
  axis : Option Axis := none
  angle : Option Binary64 := none

/-- The fields of a rotation. -/
def rotationRecord [Library] : Record RotationFields where
  name := "struct variant GateKind::Rotation"
  fields :=
    [{ name := "axis", isSet := (·.axis.isSome)
       store := fun s v => return { s with axis := some (← Axis.ofJson v) } },
     { name := "angle", isSet := (·.angle.isSome)
       store := fun s v => return { s with angle := some (← decodeBinary64 v) } }]

namespace Gate

/-- The gate as JSON. -/
def toJson [Library] : Gate → Value
  | allocate => .ofString "Allocate"
  | deallocate => .ofString "Deallocate"
  | measure => .ofString "Measure"
  | rotation axis angle =>
    .ofMembers [("Rotation", .ofMembers [("axis", axis.toJson), ("angle", angle.toJson)])]
  | fixed g => .ofMembers [("Fixed", g.toJson)]
  | flush => .ofString "Flush"
  | other name => .ofMembers [("Other", .ofString name)]

/-- A rotation with the given parameters. -/
def ofRotationFields (s : RotationFields) : Gate :=
  .rotation (s.axis.getD .x) (s.angle.getD .zero)

/-- A gate from JSON. -/
def ofJson [Library] : Value → Except Fault Gate :=
  decodeVariant
    [.unit "Allocate" allocate, .unit "Deallocate" deallocate, .unit "Measure" measure,
     .carrying "Rotation" "struct variant" fun v =>
       (rotationRecord.decode {} v).map ofRotationFields,
     .carrying "Fixed" "newtype variant" fun v => (FixedGate.ofJson v).map fixed,
     .unit "Flush" flush,
     .carrying "Other" "newtype variant" fun v => (decodeString "a string" v).map other]

end Gate

/-! ### Commands -/

namespace Qubit

/-- The handle as its number. -/
def toJson (q : Qubit) : Value := .ofNat q.index.toNat

/-- A handle from a number of thirty-two bits. -/
def ofJson [Library] (v : Value) : Except Fault Qubit :=
  (decodeNat "u32" UInt32.size v).map fun n => ⟨UInt32.ofNat n⟩

end Qubit

/-- The parts of a command, as far as they are read. -/
structure CommandFields where
  gate : Option Gate := none
  targets : Option (List Qubit) := none

/-- The fields of a command. -/
def commandRecord [Library] : Record CommandFields where
  name := "struct Command"
  fields :=
    [{ name := "gate", isSet := (·.gate.isSome)
       store := fun s v => return { s with gate := some (← Gate.ofJson v) } },
     { name := "targets", isSet := (·.targets.isSome)
       store := fun s v => return { s with targets := some (← decodeList Qubit.ofJson v) } }]

namespace Command

/-- The command as JSON. -/
def toJson [Library] (c : Command) : Value :=
  .ofMembers [("gate", c.gate.toJson), ("targets", .ofItems (c.targets.map Qubit.toJson))]

/-- A command from JSON. -/
def ofJson [Library] (v : Value) : Except Fault Command :=
  (commandRecord.decode {} v).map fun s => ⟨s.gate.getD .flush, s.targets.getD []⟩

end Command

/-! ### Words -/

/-- The fields of a word. -/
def wordRecord [Library] : Record (Option (List FixedGate)) where
  name := "struct DecompositionWord"
  fields :=
    [{ name := "gates", isSet := Option.isSome
       store := fun _ v => return some (← decodeList FixedGate.ofJson v) }]

namespace Word

/-- The word as JSON. -/
def toJson (w : Word) : Value := .ofMembers [("gates", .ofItems (w.gates.map FixedGate.toJson))]

/-- A word from JSON. -/
def ofJson [Library] (v : Value) : Except Fault Word :=
  (wordRecord.decode none v).map fun gates => ⟨gates.getD []⟩

end Word

/-! ### Whole texts -/

/-- The value that a whole text holds.  White space may surround it, and nothing else. -/
def Json.decodeText [Library] {α : Type} (read : Value → Except Fault α) (s : String) :
    Except Fault α := do
  let document := Library.read s
  let a ← read document.root
  if document.isWhole then return a else throw .malformed

end CliffordT
