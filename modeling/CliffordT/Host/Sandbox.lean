import CliffordT.Host.Process
import CliffordT.Host.Shell.Eval

/-!
# A small machine

A machine with a shell, an `echo`, some other tools, and hardly any files.  It runs programs as
`Host` asks for, and reads files.
-/

namespace CliffordT

namespace Sandbox

/-! ### Files -/

/-- The content of the file at a path. -/
def contentOf (files : Files) (p : Path) : Except SystemError (List UInt8) :=
  if p.bytes.contains 0 then .error (.custom "file name contained an unexpected NUL byte")
  else
    match files.find Files.workingDirectory p with
    | .ok .directory => .error .isDirectory
    | .ok (.device _) => .ok []
    | .ok (.program _) => .ok [0x7f, 0x45, 0x4c, 0x46, 0xff]
    | .ok (.file content) => .ok content
    | .error e => .error e

/-- The files with one more file in the working directory. -/
def withFile (files : Files) (p : Path) (content : List UInt8) : Files :=
  files.put (Files.workingDirectory ++ p.pieces.filter fun c => !c.isEmpty && c != [Path.dot])
    (.file content)

/-! ### Programs -/

/-- The program at a path that names a place. -/
def executable (files : Files) (p : Path) : Except SystemError String :=
  match files.find Files.workingDirectory p with
  | .ok (.program q) => .ok q
  | .ok _ => .error .denied
  | .error e => .error e

/-- The directories that a bare name is looked for in. -/
def searchPath : List String := ["/usr/bin/", "/bin/"]

/-- The program that a name stands for: a path if it has a slash, otherwise the first program of
that name in the search path.  Where none is found, a place that may not be run is
reported first. -/
def locate (files : Files) (p : Path) : Except SystemError String :=
  if p.bytes.contains Path.separator then executable files p
  else if p.bytes.isEmpty then .error .notFound
  else if 255 < p.bytes.length then .error .nameTooLong
  else
    let tried := searchPath.map fun d => executable files ⟨Files.nameOf d ++ p.bytes⟩
    match tried.findSome? Except.toOption with
    | some q => .ok q
    | none =>
      if tried.any fun r => (match r with
        | .error e => e == .denied
        | .ok _ => false) then .error .denied
      else .error .notFound

/-- The variables that programs get to know. -/
def environment : List (Shell.Text × Shell.Text) :=
  [("HOME", "/root"), ("PATH", "/usr/local/sbin:/usr/local/bin:/usr/sbin:/usr/bin:/sbin:/bin"),
   ("PWD", "/work")].map fun (name, value) => (name.toList, value.toList)

/-- The state that a program starts in: its input is empty. -/
def initialState (name : Shell.Text) : Shell.State :=
  { name
    settings := environment
    exported := environment.map (·.1)
    number := Shell.firstNumber - 1
    lastNumber := Shell.firstNumber - 1
    streams := #[.device .null true false, .sink [], .sink []] }

/-- Run a program under a name with arguments. -/
def run (program : String) (name : Shell.Text) (args : List Shell.Text) : ProcessOutput :=
  let action := do
    let start :=
      if program = "sh" then Shell.Run.becomeShell Shell.Run.depth name args
      else Shell.Run.runProgram Shell.Run.depth program name args
    let killer ← Shell.Run.toEnd Shell.Run.depth start
    return (killer, ← Shell.Run.written 1, ← Shell.Run.written 2)
  match action (initialState name) with
  | (.ok (killer, stdout, stderr), s) =>
    let status :=
      match killer with
      | some signal => WaitStatus.signal signal
      | none => .exit (s.status % 256)
    ⟨status, Shell.toBytes stdout, Shell.toBytes stderr⟩
  | (.error _, s) => ⟨.exit (s.status % 256), [], []⟩

/-- The machine as a host. -/
def host : Host := fun program args =>
  let texts := args.map Shell.ofString
  if program.bytes.contains 0 ∨ texts.any (·.contains '\x00') then
    .error (.custom "nul byte found in provided data")
  else
    (locate Files.initial program).map fun p => run p (Shell.ofBytes program.bytes) texts

end Sandbox

end CliffordT
