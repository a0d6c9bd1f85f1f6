import CliffordT.Circuit.Word
import CliffordT.Host.WaitStatus

/-!
# Notices

What a pipeline reports about its work, in the order in which it happens.
-/

namespace CliffordT

/-- A report of a pipeline about its work. -/
inductive Notice where
  /-- A synthesis program is about to run. -/
  | launching (oracle : String) (axis : Axis) (angle : Binary64)
  /-- A synthesis program has failed. -/
  | exited (oracle : String) (status : WaitStatus) (stderr : String)
  /-- An oracle's text is no word. -/
  | malformedWord (oracle : String) (axis : Axis) (angle : Binary64)
  /-- A rotation has its word. -/
  | decomposed (axis : Axis) (angle : Binary64) (word : Word)
  /-- Measurement outcomes that nobody records. -/
  | outcomesDropped (count : Nat)
  /-- A batch is classified. -/
  | classified (commands synthesized : Nat)
  /-- Words that nobody receives. -/
  | wordsDropped (count : Nat)
  /-- A batch is forwarded. -/
  | forwarded (total : Nat)
deriving DecidableEq

namespace Notice

/-- How grave a notice is. -/
def level : Notice → String
  | exited .. => "WARN"
  | malformedWord .. => "WARN"
  | classified .. => "INFO"
  | _ => "DEBUG"

/-- The notice in words. -/
def text : Notice → String
  | launching oracle axis angle => "Launching " ++ oracle ++ " for " ++ rotationText axis angle
  | exited oracle status stderr => oracle ++ " exited with " ++ status.text ++ ": " ++ stderr
  | malformedWord oracle axis angle =>
    oracle ++ " returned a malformed word for " ++ rotationText axis angle
  | decomposed axis angle word =>
    rotationText axis angle ++ " -> " ++ word.text ++ " (" ++ toString word.length ++ " gates)"
  | outcomesDropped n => "No recorder attached, dropping " ++ toString n ++ " outcomes"
  | classified commands synthesized =>
    "Classified batch of " ++ toString commands ++ " commands, " ++ toString synthesized ++
      " rotations synthesized"
  | wordsDropped n => "Terminal engine, dropping " ++ toString n ++ " words"
  | forwarded total => "Batch forwarded, total forwarded: " ++ toString total

/-- The notice as a line of a log. -/
def line (n : Notice) : String := n.level ++ " " ++ n.text

end Notice

end CliffordT
