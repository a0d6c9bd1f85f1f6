/-!
# Wait statuses

How a process ended, packed into thirty-two bits: an exit code, a signal, or a change of state that
is no end.
-/

namespace CliffordT

/-- The names of the signals, by number from one. -/
def signalNames : List String :=
  ["SIGHUP", "SIGINT", "SIGQUIT", "SIGILL", "SIGTRAP", "SIGABRT", "SIGBUS", "SIGFPE", "SIGKILL",
   "SIGUSR1", "SIGSEGV", "SIGUSR2", "SIGPIPE", "SIGALRM", "SIGTERM", "SIGSTKFLT", "SIGCHLD",
   "SIGCONT", "SIGSTOP", "SIGTSTP", "SIGTTIN", "SIGTTOU", "SIGURG", "SIGXCPU", "SIGXFSZ",
   "SIGVTALRM", "SIGPROF", "SIGWINCH", "SIGIO", "SIGPWR", "SIGSYS"]

/-- A signal by its number, and by its name if it has one. -/
def signalText (n : Nat) : String :=
  toString n ++
    match if n = 0 then none else signalNames[n - 1]? with
    | some name => " (" ++ name ++ ")"
    | none => ""

/-- The status of a process. -/
structure WaitStatus where
  /-- The status as a signed number of thirty-two bits. -/
  raw : Int
deriving DecidableEq

namespace WaitStatus

/-- The status of a process that left with an exit code. -/
def exit (code : Nat) : WaitStatus := ⟨(code % 256 : Nat) * 256⟩

/-- The status of a process that a signal has ended. -/
def signal (n : Nat) : WaitStatus := ⟨(n % 128 : Nat)⟩

/-- The process left with exit code zero. -/
def isSuccess (s : WaitStatus) : Bool := s.raw == 0

/-- The thirty-two bits of the status. -/
def bits (s : WaitStatus) : Nat := (s.raw % (UInt32.size : Int)).toNat

/-- The status in words. -/
def text (s : WaitStatus) : String :=
  let w := s.bits
  let low := w % 128
  let high := w / 256 % 256
  if low = 0 then "exit status: " ++ toString high
  else if low ≠ 127 then
    "signal: " ++ signalText low ++ if w / 128 % 2 = 1 then " (core dumped)" else ""
  else if w % 256 = 127 then "stopped (not terminated) by signal: " ++ signalText high
  else if w = 0xffff then "continued (WIFCONTINUED)"
  else
    "unrecognised wait status: " ++ toString s.raw ++ " 0x" ++
      String.ofList (Nat.toDigits 16 w)

end WaitStatus

end CliffordT
