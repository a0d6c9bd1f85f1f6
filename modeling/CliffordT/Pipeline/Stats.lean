import CliffordT.Circuit.Json

/-!
# Statistics of an engine

Counters, and for each gate of the alphabet the number of times it was emitted for a rotation.  A
gate that was never emitted has no entry, which differs from an entry of zero.

Counters are natural numbers.  They stand for words of sixty-four bits, with which they agree as
long as every total stays below `2^64`; readers of statistics accept nothing beyond it.
-/

namespace CliffordT

/-- Numbers for some gates of the alphabet. -/
structure Tally where
  h : Option Nat := none
  s : Option Nat := none
  t : Option Nat := none
  x : Option Nat := none
deriving DecidableEq

namespace Tally

/-- The entry of a gate. -/
def get? (a : Tally) : FixedGate → Option Nat
  | .h => a.h
  | .s => a.s
  | .t => a.t
  | .x => a.x

/-- The tally with a new entry for a gate. -/
def set (a : Tally) (n : Nat) : FixedGate → Tally
  | .h => { a with h := some n }
  | .s => { a with s := some n }
  | .t => { a with t := some n }
  | .x => { a with x := some n }

/-- The number of a gate, zero without an entry. -/
def count (a : Tally) (g : FixedGate) : Nat := (a.get? g).getD 0

/-- One more for a gate. -/
def bump (a : Tally) (g : FixedGate) : Tally := a.set (a.count g + 1) g

/-- The entries, in the order of the alphabet. -/
def entries (a : Tally) : List (FixedGate × Nat) :=
  FixedGate.all.filterMap fun g => (a.get? g).map fun n => (g, n)

/-- The sum of all entries. -/
def total (a : Tally) : Nat := FixedGate.all.foldr (fun g n => a.count g + n) 0

/-- The tally in which the entries of a list are set one after the other. -/
def ofList (es : List (FixedGate × Nat)) : Tally := es.foldl (fun a e => a.set e.2 e.1) {}

theorem get?_set (a : Tally) (n : Nat) (g k : FixedGate) :
    (a.set n g).get? k = if k = g then some n else a.get? k := by
  cases g <;> cases k <;> rfl

end Tally

/-- The counters of an engine.  Each stands for a word of sixty-four bits, as long as it stays below
`2^64`. -/
structure Stats where
  /-- Qubits that are claimed now. -/
  activeQubits : Nat := 0
  /-- The most qubits that were claimed at once. -/
  maxWidth : Nat := 0
  /-- Rotations handed to the oracle. -/
  rotations : Nat := 0
  /-- Measured qubits, once for each target. -/
  measurements : Nat := 0
  /-- Gates emitted for rotations. -/
  emitted : Tally := {}
  /-- Commands that the next stage accepted. -/
  forwarded : Nat := 0
deriving DecidableEq

namespace Stats

/-- The number of `T` gates emitted for rotations. -/
def tCount (s : Stats) : Nat := s.emitted.count .t

/-- The number of gates emitted for rotations. -/
def emittedTotal (s : Stats) : Nat := s.emitted.total

/-- The report on the counters: the width, the rotations, and the gates that were emitted. -/
def report (s : Stats) : String :=
  "Max. width (number of qubits) : " ++ toString s.maxWidth ++ "\n" ++
  "Rotations decomposed          : " ++ toString s.rotations ++ "\n" ++
  String.join ((FixedGate.all.filter fun g => 0 < s.emitted.count g).map fun g =>
    g.text ++ " : " ++ toString (s.emitted.count g) ++ "\n")

end Stats

/-! ### As JSON -/

open Json

namespace Tally

/-- The entries as an object. -/
def toJson (a : Tally) : Value := .ofMembers (a.entries.map fun e => (e.1.text, .ofNat e.2))

/-- Entries from the members of an object; of several entries of a gate the last one counts. -/
def ofMembers [Library] (a : Tally) : Tree .members → Except Fault Tally
  | .noMember => .ok a
  | .member (some key) value rest => do
    let g ← FixedGate.ofJson (.ofString key)
    let n ← decodeNat "u64" UInt64.size value
    (a.set n g).ofMembers rest
  | _ => .error .malformed

/-- Entries from an object. -/
def ofJson [Library] : Value → Except Fault Tally
  | .object members => ofMembers {} members
  | v => .error (refuse "a map" v)

end Tally

/-- The counters, as far as they are read. -/
structure StatsFields where
  activeQubits : Option Nat := none
  maxWidth : Option Nat := none
  rotations : Option Nat := none
  measurements : Option Nat := none
  emitted : Option Tally := none
  forwarded : Option Nat := none

/-- The fields of the statistics. -/
def statsRecord [Library] : Record StatsFields where
  name := "struct EngineStats"
  fields :=
    [{ name := "active_qubits", isSet := (·.activeQubits.isSome)
       store := fun s v =>
        return { s with activeQubits := some (← decodeNat "usize" UInt64.size v) } },
     { name := "max_width", isSet := (·.maxWidth.isSome)
       store := fun s v => return { s with maxWidth := some (← decodeNat "usize" UInt64.size v) } },
     { name := "rotations", isSet := (·.rotations.isSome)
       store := fun s v => return { s with rotations := some (← decodeNat "u64" UInt64.size v) } },
     { name := "measurements", isSet := (·.measurements.isSome)
       store := fun s v =>
        return { s with measurements := some (← decodeNat "u64" UInt64.size v) } },
     { name := "emitted", isSet := (·.emitted.isSome)
       store := fun s v => return { s with emitted := some (← Tally.ofJson v) } },
     { name := "forwarded", isSet := (·.forwarded.isSome)
       store := fun s v => return { s with forwarded := some (← decodeNat "u64" UInt64.size v) } }]

namespace Stats

/-- The statistics as JSON. -/
def toJson (s : Stats) : Value :=
  .ofMembers
    [("active_qubits", .ofNat s.activeQubits), ("max_width", .ofNat s.maxWidth),
     ("rotations", .ofNat s.rotations), ("measurements", .ofNat s.measurements),
     ("emitted", s.emitted.toJson), ("forwarded", .ofNat s.forwarded)]

/-- Statistics from JSON. -/
def ofJson [Library] (v : Value) : Except Fault Stats :=
  (statsRecord.decode {} v).map fun s =>
    ⟨s.activeQubits.getD 0, s.maxWidth.getD 0, s.rotations.getD 0, s.measurements.getD 0,
      s.emitted.getD {}, s.forwarded.getD 0⟩

end Stats

end CliffordT
