import CliffordT.Pipeline.Outcome

/-!
# Oracles

An oracle turns a rotation into the text of a word.  It may keep a state from one call to the next.

* `FunctionOracle` : an answer for each axis and angle,
* `ScriptedOracle` : a cycle of answers,
* `WordTable` : a table of answers; angles are told apart by their bits.
-/

namespace CliffordT

/-- What an oracle answers to one rotation. -/
structure Answer (ω : Type) where
  /-- The text of a word in operator order, or a fault. -/
  result : Except PipelineError String
  /-- The oracle after the call. -/
  oracle : ω
  /-- What the oracle reported. -/
  notices : List Notice := []

/-- A source of words for rotations. -/
class Oracle (ω : Type) where
  /-- The name of the oracle in reports and faults. -/
  name : ω → String
  /-- The answer to a rotation. -/
  synthesize : ω → Axis → Binary64 → Answer ω

/-! ### Oracles made of answers -/

/-- An oracle that answers by the axis and the angle alone. -/
structure FunctionOracle where
  answer : Axis → Binary64 → Except PipelineError String

instance : Oracle FunctionOracle where
  name _ := "oracle"
  synthesize o axis angle := ⟨o.answer axis angle, o, []⟩

/-- An oracle that answers from a list, over and over again. -/
structure ScriptedOracle where
  replies : List (Except PipelineError String)
  /-- The number of calls so far. -/
  calls : Nat := 0

instance : Oracle ScriptedOracle where
  name _ := "oracle"
  synthesize o _ _ :=
    ⟨o.replies.getD (o.calls % o.replies.length) (.ok ""), { o with calls := o.calls + 1 }, []⟩

/-! ### Tables -/

/-- A table of words for rotations. -/
structure WordTable where
  /-- The entries, each rotation once. -/
  entries : List ((Axis × Binary64) × String) := []
deriving DecidableEq

namespace WordTable

/-- Replace the entry of a rotation, or add it at the end. -/
def put (axis : Axis) (angle : Binary64) (raw : String) :
    List ((Axis × Binary64) × String) → List ((Axis × Binary64) × String)
  | [] => [((axis, angle), raw)]
  | e :: es =>
    if e.1 = (axis, angle) then ((axis, angle), raw) :: es else e :: put axis angle raw es

/-- The table with the text of a rotation; it replaces an earlier text. -/
def insert (t : WordTable) (axis : Axis) (angle : Binary64) (raw : String) : WordTable :=
  ⟨put axis angle raw t.entries⟩

/-- The text of a rotation. -/
def find? (t : WordTable) (axis : Axis) (angle : Binary64) : Option String :=
  t.entries.lookup (axis, angle)

/-- The number of rotations in the table. -/
def length (t : WordTable) : Nat := t.entries.length

/-- The table has no entry. -/
def isEmpty (t : WordTable) : Bool := t.entries.isEmpty

theorem lookup_put (axis : Axis) (angle : Binary64) (raw : String) (k : Axis × Binary64)
    (es : List ((Axis × Binary64) × String)) :
    (put axis angle raw es).lookup k = if k = (axis, angle) then some raw else es.lookup k := by
  induction es with
  | nil => grind [put]
  | cons e es ih => grind [put]

/-- Of several texts for a rotation the last one counts. -/
theorem find?_insert (t : WordTable) (a b : Axis) (x y : Binary64) (raw : String) :
    (t.insert a x raw).find? b y = if (b, y) = (a, x) then some raw else t.find? b y :=
  lookup_put a x raw (b, y) t.entries

/-- The fault of a rotation that is not in the table. -/
def absent (axis : Axis) (angle : Binary64) : PipelineError :=
  .oracleFailed "static" none ("no word registered for " ++ rotationText axis angle)

end WordTable

instance : Oracle WordTable where
  name _ := "static"
  synthesize t axis angle :=
    ⟨match t.find? axis angle with
      | some raw => .ok raw
      | none => .error (WordTable.absent axis angle), t, []⟩

end CliffordT
