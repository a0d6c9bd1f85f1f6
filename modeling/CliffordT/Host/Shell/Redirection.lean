import CliffordT.Host.Shell.Expansion
import CliffordT.Host.Tool.Basic

/-!
# Redirections

A redirection lets a descriptor stand for another stream: a file, a document of the script, or what
another descriptor stands for.

* `Run.redirectAll` : carry out redirections, up to the first one that fails.
-/

namespace CliffordT

namespace Shell

namespace Run

/-- The descriptor that a path of the system stands for. -/
def descriptorPath? (t : Text) : Option Nat :=
  match String.ofList t with
  | "/dev/stdin" => some 0
  | "/dev/stdout" => some 1
  | "/dev/stderr" => some 2
  | _ =>
    if "/dev/fd/".toList.isPrefixOf t then natOf? (t.drop 8) else none

/-- What a refusal of the system says about a path that is not there. -/
def refusal (missing : String) (e : SystemError) : Text :=
  if e = .notFound ∨ e = .notDirectory then missing.toList else Tool.errorText e

/-- A stream for the input from a path, or why there is none. -/
def openInput (t : Text) : Run (Except Text Stream) := do
  match ← locate t with
  | .ok (_, .device d) => return .ok (.device d true false)
  | .ok (place, _) => return .ok (.file place 0 true false false)
  | .error e =>
    return .error ("cannot open ".toList ++ t ++ ": ".toList ++ refusal "No such file" e)

/-- A stream for output to a path, or why there is none. -/
def openOutput (kind : Redirect) (t : Text) : Run (Except Text Stream) := do
  let refuse := fun (reason : Text) =>
    Except.error ("cannot create ".toList ++ t ++ ": ".toList ++ reason)
  let create := fun (place : Place) => do
    modify fun s => { s with files := s.files.put place (.file []) }
  let stream := fun (place : Place) =>
    Stream.file place 0 (kind == .both) true (kind == .append)
  match ← locate t with
  | .ok (_, .directory) => return refuse "Is a directory".toList
  | .ok (_, .program _) => return refuse "Text file busy".toList
  | .ok (_, .device d) => return .ok (.device d (kind == .both) true)
  | .ok (place, .file _) =>
    match kind with
    | .output keepsOld =>
      if keepsOld && (← hasOption 'C') then return refuse "File exists".toList
      else
        create place
        return .ok (stream place)
    | _ => return .ok (stream place)
  | .error e =>
    let s ← get
    match if t.isEmpty then .error e else s.files.vacancy s.directory (pathOf t) with
    | .ok place =>
      create place
      return .ok (stream place)
    | .error e => return refuse (refusal "Directory nonexistent" e)

/-- Let a descriptor stand for what another one stands for, unless that stands for nothing. -/
def copyDescriptor (descriptor source : Nat) : Run (Except Text Unit) := do
  match ← streamNumber? source with
  | some n =>
    redirect descriptor (some n)
    return .ok ()
  | none => return .error (decimal source ++ ": Bad file descriptor".toList)

/-- Carry out a redirection, or tell why it fails. -/
def redirectOne (outputOf : Option Script → Run Text) : Redirection → Run (Except Text Unit)
  | .document descriptor number => do
    let body := ((← get).documents.lookup number).getD []
    let n ← addStream (.source (← text outputOf body))
    redirect descriptor (some n)
    return .ok ()
  | .file descriptor kind target => do
    let t ← text outputOf target
    if kind = .copy then
      match t with
      | ['-'] =>
        redirect descriptor none
        return .ok ()
      | [d] =>
        if d.isDigit then copyDescriptor descriptor (Shell.valueOf 10 [d])
        else abort "Syntax error: Bad fd number".toList
      | _ => abort "Syntax error: Bad fd number".toList
    else
      match descriptorPath? t with
      | some source => copyDescriptor descriptor source
      | none =>
        match ← if kind = .input then openInput t else openOutput kind t with
        | .ok stream =>
          let n ← addStream stream
          redirect descriptor (some n)
          return .ok ()
        | .error fault => return .error fault

/-- Carry out redirections, up to the first one that fails, which is complained of. -/
def redirectAll (outputOf : Option Script → Run Text) : List Redirection → Run Bool
  | [] => return true
  | r :: rest => do
    match ← redirectOne outputOf r with
    | .ok () => redirectAll outputOf rest
    | .error fault =>
      complain fault
      finish 2
      return false

/-- Give the descriptors back what they stood for. -/
def restoreDescriptors (descriptors : List (Nat × Nat)) : Run Unit :=
  modifyProcess fun p => { p with descriptors }

end Run

end Shell

end CliffordT
