import CliffordT.Host.Path
import CliffordT.Host.SystemError
import CliffordT.Host.WaitStatus

/-!
# Processes

What a pipeline needs of the machine it runs on: a way to run a program to its end.
-/

namespace CliffordT

/-- What a finished process leaves behind. -/
structure ProcessOutput where
  status : WaitStatus
  /-- The bytes of the standard output. -/
  stdout : List UInt8
  /-- The bytes of the standard error output. -/
  stderr : List UInt8
deriving DecidableEq

/-- A machine: it runs a program with arguments and an empty input, or cannot launch it. -/
abbrev Host := Path → List String → Except SystemError ProcessOutput

end CliffordT
