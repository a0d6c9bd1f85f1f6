import CliffordT.Number.Decimal

/-!
# Gates

The gates of a command stream: register management, continuous rotations, the discrete Clifford+T
alphabet, and any further gate by its name.
-/

namespace CliffordT

/-! ### Axes -/

/-- The axis of a rotation. -/
inductive Axis where
  | x
  | y
  | z
deriving DecidableEq

namespace Axis

/-- The axis as a lower-case letter. -/
def name : Axis → String
  | x => "x"
  | y => "y"
  | z => "z"

end Axis

/-- A rotation in words, such as `Rz(0.5)`. -/
def rotationText (axis : Axis) (angle : Binary64) : String :=
  "R" ++ axis.name ++ "(" ++ angle.plain ++ ")"

/-! ### The discrete alphabet -/

/-- A gate of the discrete alphabet that rotations are decomposed into. -/
inductive FixedGate where
  /-- The Hadamard gate. -/
  | h
  /-- The phase gate. -/
  | s
  /-- The gate whose square is the phase gate. -/
  | t
  /-- The bit flip. -/
  | x
deriving DecidableEq

namespace FixedGate

/-- The whole alphabet, in order. -/
def all : List FixedGate := [h, s, t, x]

/-- The place of a gate in the alphabet. -/
def index : FixedGate → Nat
  | h => 0
  | s => 1
  | t => 2
  | x => 3

/-- Gates are ordered as in the alphabet. -/
instance : Ord FixedGate := ⟨fun a b => compare a.index b.index⟩

/-- The gate as a lower-case letter. -/
def name : FixedGate → String
  | h => "h"
  | s => "s"
  | t => "t"
  | x => "x"

/-- The letter that stands for the gate in a word. -/
def symbol : FixedGate → Char
  | h => 'H'
  | s => 'S'
  | t => 'T'
  | x => 'X'

/-- The gate that a letter stands for. -/
def ofSymbol? : Char → Option FixedGate
  | 'H' => some h
  | 'S' => some s
  | 'T' => some t
  | 'X' => some x
  | _ => none

/-- The gate as a capital letter. -/
def text (g : FixedGate) : String := String.singleton g.symbol

@[simp] theorem ofSymbol?_symbol (g : FixedGate) : ofSymbol? g.symbol = some g := by
  cases g <;> rfl

/-- The two tables agree: letters and gates determine each other. -/
theorem ofSymbol?_eq_some_iff {c : Char} {g : FixedGate} :
    ofSymbol? c = some g ↔ c = g.symbol := by
  constructor
  · intro hc
    unfold ofSymbol? at hc
    split at hc <;> cases hc <;> rfl
  · rintro rfl
    exact ofSymbol?_symbol g

end FixedGate

/-! ### All gates -/

/-- What a command does to its targets. -/
inductive Gate where
  /-- Claim the targets. -/
  | allocate
  /-- Release the targets. -/
  | deallocate
  /-- Measure the targets. -/
  | measure
  /-- Rotate the target around an axis. -/
  | rotation (axis : Axis) (angle : Binary64)
  /-- A gate of the discrete alphabet. -/
  | fixed (gate : FixedGate)
  /-- The end of a batch. -/
  | flush
  /-- Any other gate, by its name. -/
  | other (name : String)
deriving DecidableEq

namespace Gate

/-- The name of a gate; a rotation is named for its axis, whatever its angle. -/
def name : Gate → String
  | allocate => "allocate"
  | deallocate => "deallocate"
  | measure => "measure"
  | rotation axis _ => "r" ++ axis.name
  | fixed g => g.name
  | flush => "flush"
  | other n => n

/-- The gate as it is printed. -/
def text : Gate → String
  | rotation axis angle => rotationText axis angle
  | fixed g => g.text
  | g => g.name

/-- Whether the gate is a rotation. -/
def isRotation (g : Gate) : Bool := g matches rotation ..

/-- Whether the gate marks the end of a batch. -/
def isFlush (g : Gate) : Bool := g matches flush

/-- The axis and the angle of a rotation. -/
def asRotation? : Gate → Option (Axis × Binary64)
  | rotation axis angle => some (axis, angle)
  | _ => none

/-- Equality in which angles are compared as numbers. -/
def sameValue : Gate → Gate → Bool
  | rotation a θ, rotation b φ => a == b && θ.sameValue φ
  | a, b => a == b

end Gate

end CliffordT
