import CliffordT.Circuit.Command

/-!
# Words over the discrete alphabet

A synthesized rotation arrives as a text in operator order: the product of its letters, of which the
last acts first.  A `Word` holds the gates in the order in which they are applied.
-/

namespace CliffordT

/-- A sequence of gates of the discrete alphabet, in the order of application. -/
structure Word where
  gates : List FixedGate := []
deriving DecidableEq

namespace Word

/-! ### Reading -/

/-- A text without the one line feed, or carriage return and line feed, that may end it. -/
def chomp (cs : List Char) : List Char :=
  match cs.reverse with
  | '\n' :: '\r' :: rest => rest.reverse
  | '\n' :: rest => rest.reverse
  | _ => cs

/-- The gates that the characters stand for; `position` is that of the first one. -/
def gatesFrom (position : Nat) : List Char → Except CircuitError (List FixedGate)
  | [] => .ok []
  | c :: cs =>
    match FixedGate.ofSymbol? c with
    | none => .error (.unrecognizedToken c position)
    | some g => (gatesFrom (position + 1) cs).map (g :: ·)

/-- The word of a text in operator order, which may end in one line terminator. -/
def ofOperatorText (raw : String) : Except CircuitError Word :=
  (gatesFrom 0 (chomp raw.toList)).map fun gs => ⟨gs.reverse⟩

/-! ### Properties -/

/-- The number of gates. -/
def length (w : Word) : Nat := w.gates.length

/-- The number of `T` gates. -/
def tCount (w : Word) : Nat := w.gates.count .t

/-- The letters of the gates, in the order of application. -/
def text (w : Word) : String := String.ofList (w.gates.map FixedGate.symbol)

/-- The word as commands on one qubit. -/
def toCommands (w : Word) (q : Qubit) : List Command := w.gates.map (Command.fixed · q)

end Word

end CliffordT
