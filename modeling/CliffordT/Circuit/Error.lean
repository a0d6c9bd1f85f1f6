/-!
# Faults of commands and words
-/

namespace CliffordT

/-- Why a command or a word cannot be used. -/
inductive CircuitError where
  /-- A character outside the alphabet, at a position counted in characters. -/
  | unrecognizedToken (token : Char) (position : Nat)
  /-- A gate with the wrong number of targets. -/
  | targetCountMismatch (gateName : String) (expected got : Nat)
deriving DecidableEq

/-- The fault in words. -/
def CircuitError.message : CircuitError → String
  | .unrecognizedToken token position =>
    "Unrecognized token '" ++ String.singleton token ++ "' at position " ++ toString position ++
      " in decomposition word"
  | .targetCountMismatch gateName expected got =>
    "Gate '" ++ gateName ++ "' requires " ++ toString expected ++ " target qubits, got " ++
      toString got

end CliffordT
