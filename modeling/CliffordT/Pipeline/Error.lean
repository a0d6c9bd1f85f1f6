import CliffordT.Circuit.Command
import CliffordT.Host.Process

/-!
# Faults of a pipeline
-/

namespace CliffordT

/-- Why a pipeline stops. -/
inductive PipelineError where
  /-- The synthesis program could not be launched. -/
  | oracleLaunch (program : Path) (cause : SystemError)
  /-- The oracle answered with a failure. -/
  | oracleFailed (oracle : String) (status : Option WaitStatus) (stderr : String)
  /-- The oracle's answer is no text. -/
  | oracleOutput (oracle reason : String)
  /-- The oracle's text is no word. -/
  | malformedDecomposition (axis : Axis) (angle : Binary64) (cause : CircuitError)
  /-- No word is left for a rotation. -/
  | queueUnderflow
  /-- A qubit is released that is not claimed. -/
  | counterUnderflow (q : Qubit)
  /-- A qubit is claimed twice. -/
  | doubleAllocation (q : Qubit)
  /-- The next stage refused a command. -/
  | sink (text : String)
  /-- A configuration cannot be used. -/
  | config (text : String)
  /-- A command is not valid. -/
  | circuit (cause : CircuitError)
deriving DecidableEq

namespace PipelineError

/-- The fault in words. -/
def message : PipelineError → String
  | oracleLaunch program cause =>
    "Failed to launch synthesis oracle '" ++ program.text ++ "': " ++ cause.message
  | oracleFailed oracle status stderr =>
    "Synthesis oracle '" ++ oracle ++ "' failed" ++
      (match status with
        | some s => " (" ++ s.text ++ ")"
        | none => "") ++
      ": " ++ stderr
  | oracleOutput oracle reason =>
    "Synthesis oracle '" ++ oracle ++ "' produced unreadable output: " ++ reason
  | malformedDecomposition axis angle cause =>
    "Malformed decomposition for " ++ rotationText axis angle ++ ": " ++ cause.message
  | queueUnderflow =>
    "Pending decomposition queue underflow: classification and forwarding are out of step"
  | counterUnderflow q => "Deallocate of " ++ q.text ++ " without a matching allocate"
  | doubleAllocation q => "Allocate of " ++ q.text ++ " while it is already allocated"
  | sink text => "Sink error: " ++ text
  | config text => "Configuration error: " ++ text
  | circuit cause => "Invalid command: " ++ cause.message

/-- The text of the fault that is behind this one, if there is one. -/
def cause? : PipelineError → Option String
  | oracleLaunch _ cause => some cause.message
  | malformedDecomposition _ _ cause => some cause.message
  | circuit cause => some cause.message
  | _ => none

end PipelineError

end CliffordT
