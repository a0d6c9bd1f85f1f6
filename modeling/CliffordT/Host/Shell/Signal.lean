import CliffordT.Host.Shell.Text

/-!
# Signals

The names and numbers of the signals as the shell writes them, and what a process that has made no
arrangement does with each.

* `Signal.number?` : the number that a word names,
* `Signal.name` : the name of a number.
-/

namespace CliffordT

namespace Shell

namespace Signal

/-- The names of the signals from number one on.  Those without a name go by their number. -/
def names : List String :=
  ["HUP", "INT", "QUIT", "ILL", "TRAP", "ABRT", "BUS", "FPE", "KILL", "USR1", "SEGV", "USR2",
   "PIPE", "ALRM", "TERM", "16", "CHLD", "CONT", "STOP", "TSTP", "TTIN", "TTOU", "URG", "XCPU",
   "XFSZ", "VTALRM", "PROF", "WINCH", "IO", "PWR", "SYS", "32", "33", "RTMIN"] ++
  ((List.range 15).map fun n => "RTMIN+" ++ toString (n + 1)) ++
  ((List.range 14).map fun n => "RTMAX-" ++ toString (14 - n)) ++ ["RTMAX"]

/-- The name of a number; number zero is the end of the process. -/
def name (n : Nat) : Text :=
  if n = 0 then "EXIT".toList else (names.getD (n - 1) "").toList

/-- The number that a word names, as a number or a name in any case, from a least one on. -/
def number? (least : Nat) (t : Text) : Option Nat :=
  if t.isEmpty then none
  else if t.all Char.isDigit then
    let n := valueOf 10 t
    if n ≤ names.length then some n else none
  else
    let wanted := t.map Char.toUpper
    (List.range (names.length + 1)).find? fun n => least ≤ n && name n == wanted

/-- The signals by name that processes pass over: news of children, of the terminal and of urgent
data, and the call to go on. -/
def isHarmless (n : Nat) : Bool := [0, 17, 18, 23, 28].contains n

/-- What is said of a process that a signal has ended.  Nothing is said of an interrupt and of a
pipe that nobody reads. -/
def description? (n : Nat) : Option String :=
  ([(1, "Hangup"), (3, "Quit"), (4, "Illegal instruction"), (5, "Trace/breakpoint trap"),
    (6, "Aborted"), (7, "Bus error"), (8, "Floating point exception"), (9, "Killed"),
    (10, "User defined signal 1"), (11, "Segmentation fault"), (12, "User defined signal 2"),
    (14, "Alarm clock"), (15, "Terminated"), (16, "Stack fault"), (24, "CPU time limit exceeded"),
    (25, "File size limit exceeded"), (26, "Virtual timer expired"),
    (27, "Profiling timer expired"), (29, "I/O possible"), (30, "Power failure"),
    (31, "Bad system call")] : List (Nat × String)).lookup n

end Signal

end Shell

end CliffordT
