import CliffordT.Host.Files
import CliffordT.Host.Shell.Script

/-!
# The state of a running script

A script runs in a process, which has arguments, variables and open descriptors of its own, on a
machine with files and streams.  Processes share streams: what one reads, another one does not read
again.

* `Run` : an action on the state, which may jump out of the commands that it is part of,
* `write`, `readAll` : the streams behind descriptors,
* `assign`, `lookup?` : variables.
-/

namespace CliffordT

namespace Shell

/-! ### Streams -/

/-- What is read from and written to. -/
inductive Stream where
  /-- Input, of which some is left. -/
  | source (rest : Text)
  /-- Output, in pieces, the last one first. -/
  | sink (pieces : List Text)
  /-- A file with a position in it. -/
  | file (place : Place) (position : Nat) (reads writes appends : Bool)
  | device (d : Device) (reads writes : Bool)

/-! ### Processes -/

/-- What a variable was before it got another meaning for a while. -/
structure Held where
  name : Text
  /-- What it held, if it was set. -/
  value : Option Text
  isExported : Bool
  isLocked : Bool

/-- Some names, with that of the variable among them or without it. -/
def Held.marked (h : Held) (isMarked : Bool) (names : List Text) : List Text :=
  let others := names.filter (· != h.name)
  if isMarked then h.name :: others else others

/-- The number of the first shell. -/
def firstNumber : Nat := 4242

/-- A process that runs a script. -/
structure Process where
  /-- The name that the script goes by in its complaints. -/
  name : Text
  args : List Text := []
  /-- The variables that are set. -/
  settings : List (Text × Text) := []
  /-- The variables that programs get to know. -/
  exported : List Text := []
  /-- The variables that may not be set any more. -/
  locked : List Text := []
  functions : List (Text × Script) := []
  /-- The streams that descriptors stand for, by their numbers. -/
  descriptors : List (Nat × Nat) := [(0, 0), (1, 1), (2, 2)]
  directory : Place := Files.workingDirectory
  /-- The permissions that new files lack, as three octal digits. -/
  mask : Text := "022".toList
  /-- The options that are on, by their letters. -/
  options : List Char := []
  /-- The scripts to run at signals, by their numbers.  The end of the process has number zero. -/
  traps : List (Nat × Text) := []
  /-- The status of the last command. -/
  status : Nat := 0
  /-- The status of the last script whose output was taken, since the command started. -/
  outputStatus : Option Nat := none
  /-- The line of the command. -/
  line : Nat := 1
  /-- The builtin command that is running. -/
  builtin : Option Text := none
  /-- A fault of that command ends the process. -/
  isStrict : Bool := false
  /-- The loops around the command. -/
  loops : Nat := 0
  /-- The function calls around the command. -/
  calls : Nat := 0
  /-- What the variables that are local to the function were before, the last one first. -/
  shadowed : List Held := []
  /-- The number that scripts get for the shell that runs them. -/
  number : Nat := firstNumber
  /-- The numbers of the shells that wait for that one, the nearest first. -/
  ancestors : List Nat := []
  /-- The process is that shell itself, and no copy of it. -/
  isMain : Bool := true
  /-- The commands that nothing waited for, by their numbers, with their status. -/
  background : List (Nat × Nat) := []
  /-- The texts that stand for commands. -/
  aliases : List (Text × Text) := []
  /-- The programs whose paths are remembered. -/
  tracked : List Text := []
  /-- What the shell has been told about resources, by the letters of their options. -/
  limits : List (Char × Text) := []

/-- The whole state. -/
structure State extends Process where
  streams : Array Stream := #[]
  files : Files := Files.initial
  /-- The documents of all scripts that have been read. -/
  documents : List (Nat × Phrase) := []
  /-- The greatest number of a process so far. -/
  lastNumber : Nat := firstNumber
  /-- The signals that have been sent to shells, by their numbers, the last one first. -/
  raised : List (Nat × Nat) := []

/-- What leaves the commands around a command. -/
inductive Jump where
  /-- Out of some loops. -/
  | breakLoops (n : Nat)
  /-- To the next turn of a loop, out of the loops within it. -/
  | continueLoop (n : Nat)
  /-- Out of a function or a script file. -/
  | leave
  /-- Out of the process. -/
  | exit
  /-- Out of the process, by a signal. -/
  | signal (n : Nat)
deriving DecidableEq

/-- An action on the state. -/
abbrev Run := ExceptT Jump (StateM State)

namespace Run

/-- Run an action, and tell what jump it ended in. -/
def caught (body : Run Unit) : Run (Option Jump) := fun s =>
  match body s with
  | (.ok (), s) => (.ok none, s)
  | (.error j, s) => (.ok (some j), s)

/-- Run an action, and another one behind it, even if the first one ends in a jump. -/
def protect (body after : Run Unit) : Run Unit := do
  match ← caught body with
  | none => after
  | some j =>
    after
    throw j

/-- Run a turn of a loop, and tell whether the loop goes on. -/
def turn (body : Run Unit) : Run Bool := fun s =>
  match body s with
  | (.ok (), s) => (.ok true, s)
  | (.error (.breakLoops n), s) =>
    if n ≤ 1 then (.ok false, s) else (.error (.breakLoops (n - 1)), s)
  | (.error (.continueLoop n), s) =>
    if n ≤ 1 then (.ok true, s) else (.error (.continueLoop (n - 1)), s)
  | (.error j, s) => (.error j, s)

/-- Run turns of a loop as long as a condition holds and the turns want to go on.  The loop ends
with the status of its last turn.  The bound is on the number of turns. -/
def loop (holds : Run Bool) (body : Run Unit) : Nat → Nat → Run Unit
  | 0, _ => fun s => (.error .exit, s)
  | n + 1, last => fun s =>
    match holds s with
    | (.ok true, s) =>
      match turn body s with
      | (.ok true, s) => loop holds body n s.status s
      | (.ok false, s) => (.ok (), s)
      | (.error j, s) => (.error j, s)
    | (.ok false, s) => (.ok (), { s with status := last })
    | (.error j, s) => (.error j, s)

/-- Run a turn of a loop for each word, as long as the turns want to go on. -/
def forEach (body : Text → Run Unit) : List Text → Run Unit
  | [] => pure ()
  | word :: rest => do
    if ← turn (body word) then forEach body rest

/-- Change the process. -/
def modifyProcess (f : Process → Process) : Run Unit :=
  modify fun s => { s with toProcess := f s.toProcess }

/-- The last command has ended with a status. -/
def finish (status : Nat) : Run Unit := modifyProcess fun p => { p with status }

/-! ### Streams -/

/-- A new stream, by its number. -/
def addStream (stream : Stream) : Run Nat := fun s =>
  (.ok s.streams.size, { s with streams := s.streams.push stream })

/-- Let a descriptor stand for a stream, or for none. -/
def redirect (descriptor : Nat) (stream : Option Nat) : Run Unit :=
  modifyProcess fun p =>
    let others := p.descriptors.filter (·.1 != descriptor)
    { p with
      descriptors :=
        match stream with
        | some n => (descriptor, n) :: others
        | none => others }

/-- The number of the stream behind a descriptor. -/
def streamNumber? (descriptor : Nat) : Run (Option Nat) :=
  return (← get).descriptors.lookup descriptor

/-- The stream behind a descriptor. -/
def stream? (descriptor : Nat) : Run (Option Stream) := do
  let streams := (← get).streams
  return (← streamNumber? descriptor).bind fun n => streams[n]?

/-- Put another stream behind a descriptor, in its place. -/
def replaceStream (descriptor : Nat) (stream : Stream) : Run Unit := do
  match ← streamNumber? descriptor with
  | some n => modify fun s => { s with streams := s.streams.setIfInBounds n stream }
  | none => pure ()

/-- The content of the file at a place. -/
def contentAt (place : Place) : Run (List UInt8) := do
  match (← get).files.lookup place with
  | some (.file content) => return content
  | _ => return []

/-- Write a text to a descriptor, and tell whether it could be written. -/
def write (descriptor : Nat) (t : Text) : Run Bool := do
  match ← stream? descriptor with
  | some (.sink pieces) =>
    replaceStream descriptor (.sink (t :: pieces))
    return true
  | some (.file place position reads true appends) =>
    let content ← contentAt place
    let bytes := toBytes t
    let position := if appends then content.length else position
    let before := content.take position
    let gap := List.replicate (position - before.length) 0
    let after := content.drop (position + bytes.length)
    modify fun s =>
      { s with files := s.files.put place (.file (before ++ gap ++ bytes ++ after)) }
    replaceStream descriptor (.file place (position + bytes.length) reads true appends)
    return true
  | some (.device d _ true) => return d != .full || t.isEmpty
  | _ => return t.isEmpty

/-- What is left to read at a descriptor, without reading it. -/
def peekAll (descriptor : Nat) : Run Text := do
  match ← stream? descriptor with
  | some (.source rest) => return rest
  | some (.file place position true _ _) => return ofBytes ((← contentAt place).drop position)
  | _ => return []

/-- The size of the file that is read at a descriptor. -/
def size? (descriptor : Nat) : Run (Option Nat) := do
  match ← stream? descriptor with
  | some (.file place _ _ _ _) => return some (← contentAt place).length
  | _ => return none

/-- Read some characters at a descriptor. -/
def consume (descriptor n : Nat) : Run Unit := do
  match ← stream? descriptor with
  | some (.source rest) => replaceStream descriptor (.source (rest.drop n))
  | some (.file place position reads writes appends) =>
    replaceStream descriptor (.file place (position + n) reads writes appends)
  | _ => pure ()

/-- Read what is left at a descriptor. -/
def readAll (descriptor : Nat) : Run Text := do
  let t ← peekAll descriptor
  consume descriptor t.length
  return t

/-- What has been written to a stream. -/
def written (n : Nat) : Run Text := do
  match (← get).streams[n]? with
  | some (.sink pieces) => return pieces.reverse.flatten
  | _ => return []

/-! ### Complaints -/

/-- The start of a complaint: the name of the script, the line, and the builtin command. -/
def complaintHead (p : Process) : Text :=
  p.name ++ ": ".toList ++ decimal p.line ++ ": ".toList ++
    match p.builtin with
    | some name => name ++ ": ".toList
    | none => []

/-- Complain. -/
def complain (t : Text) : Run Unit := do
  let _ ← write 2 (complaintHead (← get).toProcess ++ t ++ ['\n'])

/-- Complain, and end the process. -/
def abort {α : Type} (t : Text) : Run α := do
  complain t
  finish 2
  throw .exit

/-- Complain of a builtin command, which fails. -/
def refuse (t : Text) : Run Unit := do
  complain t
  finish 2
  if (← get).isStrict then throw .exit

/-! ### Variables -/

/-- The value of a variable, if it is set. -/
def lookup? (name : Text) : Run (Option Text) := return (← get).settings.lookup name

/-- Forget the value of a variable. -/
def unset (name : Text) : Run Unit :=
  modifyProcess fun p => { p with settings := p.settings.filter (·.1 != name) }

/-- Set a variable, whether it may be set or not.  Another search path makes all paths be looked for
again. -/
def put (name value : Text) : Run Unit :=
  modifyProcess fun p =>
    { p with
      settings := (name, value) :: p.settings.filter (·.1 != name)
      tracked := if name == "PATH".toList then [] else p.tracked
      exported :=
        if p.options.contains 'a' && !p.exported.contains name then name :: p.exported
        else p.exported }

/-- Set a variable; one that is locked ends the process. -/
def assign (name value : Text) : Run Unit := do
  if (← get).locked.contains name then abort (name ++ ": is read only".toList)
  put name value

/-- What a variable is now. -/
def hold (name : Text) : Run Held := do
  let s ← get
  return ⟨name, s.settings.lookup name, s.exported.contains name, s.locked.contains name⟩

/-- Let a variable be what it was before. -/
def restore (h : Held) : Run Unit := do
  match h.value with
  | some value => put h.name value
  | none => unset h.name
  modifyProcess fun p =>
    { p with
      exported := h.marked h.isExported p.exported
      locked := h.marked h.isLocked p.locked }

/-- Whether an option is on. -/
def hasOption (c : Char) : Run Bool := return (← get).options.contains c

/-! ### Files -/

/-- A text as a path. -/
def pathOf (t : Text) : Path := ⟨toBytes t⟩

/-- The place of a path, and what stands there. -/
def locate (t : Text) : Run (Except SystemError (Place × Entry)) := do
  let s ← get
  return s.files.locate s.directory (pathOf t)

/-- A place as a path from the root. -/
def placeText (place : Place) : Text :=
  if place.isEmpty then ['/'] else place.flatMap fun name => '/' :: ofBytes name

end Run

end Shell

end CliffordT
