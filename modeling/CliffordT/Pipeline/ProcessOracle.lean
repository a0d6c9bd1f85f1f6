import CliffordT.Config.Basic
import CliffordT.Pipeline.Oracle

/-!
# Oracles that run a program

The program gets the configured arguments and then the angle, whatever the axis is, and writes the
text of a word.  The angle is moved into `[0, 4π]` first, so that it does not look like an option.
-/

namespace CliffordT

/-- The period of rotations, four times the double nearest to `π`. -/
def rotationPeriod : Binary64 := ⟨0x402921fb54442d18⟩

/-- The angle as an argument of a program: digits and a point, and never a sign. -/
def angleArgument (angle : Binary64) : String :=
  (Binary64.reduce rotationPeriod.magnitude angle).plain

/-- An oracle that runs a program on a machine. -/
structure ProcessOracle where
  config : Config
  host : Host

namespace ProcessOracle

/-- The oracle is named for its program. -/
def name (o : ProcessOracle) : String := o.config.program.text

/-- The arguments of the program. -/
def arguments (o : ProcessOracle) (angle : Binary64) : List String :=
  o.config.args ++ [angleArgument angle]

/-- What the program complained about, without the white space around it. -/
def complaint (output : ProcessOutput) : String :=
  String.ofList (trimBlanks (Utf8.lossy output.stderr))

/-- What the end of the program means: its output counts if it succeeded and wrote valid UTF-8. -/
def judge (o : ProcessOracle) (output : ProcessOutput) : Except PipelineError String :=
  if output.status.isSuccess then
    match Utf8.decode output.stdout with
    | .ok cs => .ok (String.ofList cs)
    | .error fault => .error (.oracleOutput o.name fault.message)
  else .error (.oracleFailed o.name (some output.status) (complaint output))

/-- Run the program for a rotation. -/
def run (o : ProcessOracle) (axis : Axis) (angle : Binary64) :
    Except PipelineError String × List Notice :=
  let launching := Notice.launching o.name axis angle
  match o.host o.config.program (o.arguments angle) with
  | .error cause => (.error (.oracleLaunch o.config.program cause), [launching])
  | .ok output =>
    (o.judge output,
      if output.status.isSuccess then [launching]
      else [launching, .exited o.name output.status (complaint output)])

end ProcessOracle

instance : Oracle ProcessOracle where
  name := ProcessOracle.name
  synthesize o axis angle := ⟨(o.run axis angle).1, o, (o.run axis angle).2⟩

end CliffordT
