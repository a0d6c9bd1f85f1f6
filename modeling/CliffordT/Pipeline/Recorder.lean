import CliffordT.Circuit.Command

/-!
# Recorders of measurements

A recorder takes the outcomes of measurements.  A `Register` keeps the latest outcome of each qubit
and the number of all outcomes; an `OutcomeLog` keeps them all.
-/

namespace CliffordT

/-- A receiver of measurement outcomes. -/
class Recorder (ρ : Type) where
  /-- Take the outcome of one qubit. -/
  record : ρ → Qubit → Bool → ρ

/-- The latest outcomes of measured qubits. -/
structure Register where
  /-- The latest outcomes, by ascending handle. -/
  values : List (Qubit × Bool) := []
  /-- The number of outcomes taken, repeats included. -/
  records : Nat := 0
deriving DecidableEq

namespace Register

/-- Set the outcome of a qubit, keeping handles in ascending order. -/
def put (q : Qubit) (b : Bool) : List (Qubit × Bool) → List (Qubit × Bool)
  | [] => [(q, b)]
  | e :: es =>
    if e.1 = q then (q, b) :: es
    else if q.index < e.1.index then (q, b) :: e :: es
    else e :: put q b es

/-- The register after one more outcome. -/
def record (r : Register) (q : Qubit) (b : Bool) : Register := ⟨put q b r.values, r.records + 1⟩

/-- The latest outcome of a qubit. -/
def get? (r : Register) (q : Qubit) : Option Bool := r.values.lookup q

/-- The number of qubits that were measured. -/
def length (r : Register) : Nat := r.values.length

/-- No qubit was measured. -/
def isEmpty (r : Register) : Bool := r.values.isEmpty

theorem lookup_put (q k : Qubit) (b : Bool) (es : List (Qubit × Bool)) :
    (put q b es).lookup k = if k = q then some b else es.lookup k := by
  induction es with
  | nil => grind [put]
  | cons e es ih => grind [put]

/-- Of several outcomes of a qubit the last one counts. -/
theorem get?_record (r : Register) (q k : Qubit) (b : Bool) :
    (r.record q b).get? k = if k = q then some b else r.get? k :=
  lookup_put q k b r.values

end Register

instance : Recorder Register := ⟨Register.record⟩

/-- All outcomes, in the order of their arrival. -/
structure OutcomeLog where
  outcomes : List (Qubit × Bool) := []
deriving DecidableEq

instance : Recorder OutcomeLog := ⟨fun l q b => ⟨l.outcomes ++ [(q, b)]⟩⟩

end CliffordT
