import CliffordT.Circuit.Gate
import CliffordT.Circuit.Error

/-!
# Commands

A command applies one gate to an ordered list of qubits.
-/

namespace CliffordT

/-- The handle of a register slot. -/
structure Qubit where
  /-- The number of the slot. -/
  index : UInt32
deriving DecidableEq

namespace Qubit

/-- Handles are ordered by number. -/
instance : Ord Qubit := ⟨fun a b => compare a.index b.index⟩

/-- The handle as it is printed. -/
def text (q : Qubit) : String := "q" ++ toString q.index.toNat

end Qubit

/-- A gate and the qubits it is applied to, in order. -/
structure Command where
  gate : Gate
  targets : List Qubit
deriving DecidableEq

namespace Command

/-! ### Constructors -/

/-- Claim a register slot. -/
def allocate (q : Qubit) : Command := ⟨.allocate, [q]⟩

/-- Release a register slot. -/
def deallocate (q : Qubit) : Command := ⟨.deallocate, [q]⟩

/-- Measure one qubit. -/
def measure (q : Qubit) : Command := ⟨.measure, [q]⟩

/-- Measure several qubits at once. -/
def measureAll (qs : List Qubit) : Command := ⟨.measure, qs⟩

/-- Rotate a qubit around an axis. -/
def rotation (axis : Axis) (angle : Binary64) (q : Qubit) : Command := ⟨.rotation axis angle, [q]⟩

/-- Rotate a qubit around the first axis. -/
def rx (angle : Binary64) (q : Qubit) : Command := rotation .x angle q

/-- Rotate a qubit around the second axis. -/
def ry (angle : Binary64) (q : Qubit) : Command := rotation .y angle q

/-- Rotate a qubit around the third axis. -/
def rz (angle : Binary64) (q : Qubit) : Command := rotation .z angle q

/-- Apply a gate of the discrete alphabet to a qubit. -/
def fixed (g : FixedGate) (q : Qubit) : Command := ⟨.fixed g, [q]⟩

/-- The end of a batch. -/
def flush : Command := ⟨.flush, []⟩

/-- Apply a named gate. -/
def other (name : String) (qs : List Qubit) : Command := ⟨.other name, qs⟩

/-! ### Properties -/

/-- The name of the gate. -/
def name (c : Command) : String := c.gate.name

/-- The target of a command that must have exactly one.  Counts are reported up to `2^32 - 1`. -/
def qubit (c : Command) : Except CircuitError Qubit :=
  match c.targets with
  | [q] => .ok q
  | qs => .error (.targetCountMismatch c.name 1 (min qs.length (UInt32.size - 1)))

/-- The command as it is printed: the gate, and behind a bar the targets if there are any. -/
def text (c : Command) : String :=
  c.gate.text ++
    if c.targets.isEmpty then ""
    else " |" ++ String.join (c.targets.map fun q => " " ++ q.text)

/-- Equality in which angles are compared as numbers. -/
def sameValue (a b : Command) : Bool := a.gate.sameValue b.gate && a.targets == b.targets

end Command

end CliffordT
