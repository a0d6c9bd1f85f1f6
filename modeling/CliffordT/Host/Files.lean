import CliffordT.Host.Path
import CliffordT.Host.SystemError

/-!
# A small file system

The files of a machine: places by the names on the way to them, and what stands there.  Names are
bytes.

* `Files.find` : what stands at a path,
* `Files.put`, `Files.remove` : one file more or less,
* `Files.children` : the names in a directory.
-/

namespace CliffordT

/-- A place of the file system: the names on the way to it from the root. -/
abbrev Place := List (List UInt8)

/-- The devices. -/
inductive Device where
  /-- It swallows output and has no input. -/
  | null
  /-- It swallows output and has endless input of zeros. -/
  | zero
  /-- It refuses output. -/
  | full
deriving DecidableEq

/-- What stands at a place. -/
inductive Entry where
  | directory
  | device (d : Device)
  /-- A program by its name. -/
  | program (name : String)
  | file (content : List UInt8)
deriving DecidableEq

/-- The entries of a file system by their places. -/
abbrev Files := List (Place × Entry)

namespace Files

/-- The bytes of a text. -/
def nameOf (s : String) : List UInt8 := Utf8.encode s.toList

/-- The programs of the machine. -/
def programNames : List String :=
  ["[", "basename", "cat", "cp", "cut", "dirname", "echo", "env", "expr", "false", "grep", "head",
   "ls", "mkdir", "mv", "printenv", "printf", "rev", "rm", "sed", "seq", "sh", "sleep", "sort",
   "tac", "tail", "tee", "test", "touch", "tr", "true", "uniq", "wc", "xargs", "yes"]

/-- The working directory, which is empty at the start. -/
def workingDirectory : Place := [nameOf "work"]

/-- The files of the machine at the start. -/
def initial : Files :=
  ([([], Entry.directory), (["usr", "bin"], .directory), (["usr", "lib"], .directory),
    (["usr", "local"], .directory), (["var", "tmp"], .directory),
    (["dev", "null"], .device .null), (["dev", "zero"], .device .zero),
    (["dev", "full"], .device .full),
    (["etc", "passwd"], .file (nameOf "root:x:0:0:root:/root:/bin/sh\n"))] ++
  (["bin", "boot", "dev", "etc", "home", "lib", "mnt", "opt", "proc", "root", "run", "sbin", "srv",
    "sys", "tmp", "usr", "var", "work"].map fun name => ([name], Entry.directory)) ++
  [["bin"], ["usr", "bin"]].flatMap fun place =>
    programNames.map fun name => (place ++ [name], Entry.program name)).map fun (place, e) =>
      (place.map nameOf, e)

/-! ### Finding -/

/-- Follow names from a place.  Every name but the last must be that of a directory. -/
def follow (files : Files) (place : Place) : List (List UInt8) → Except SystemError (Place × Entry)
  | [] =>
    match files.lookup place with
    | some e => .ok (place, e)
    | none => .error .notFound
  | c :: cs =>
    match files.lookup place with
    | some .directory =>
      if 255 < c.length then .error .nameTooLong
      else if c = [Path.dot, Path.dot] then follow files place.dropLast cs
      else if c.isEmpty ∨ c = [Path.dot] then follow files place cs
      else follow files (place ++ [c]) cs
    | some _ => .error .notDirectory
    | none => .error .notFound

/-- Where a path starts. -/
def start (directory : Place) (p : Path) : Place := if p.isAbsolute then [] else directory

/-- What stands at a path, and the place that it leads to. -/
def locate (files : Files) (directory : Place) (p : Path) : Except SystemError (Place × Entry) :=
  if p.bytes.isEmpty then .error .notFound
  else if 4096 ≤ p.bytes.length then .error .nameTooLong
  else follow files (start directory p) p.pieces

/-- What stands at a path. -/
def find (files : Files) (directory : Place) (p : Path) : Except SystemError Entry :=
  (files.locate directory p).map (·.2)

/-- Whether a name stands before another one, or is equal to it, in the order of bytes. -/
def isUpTo : List UInt8 → List UInt8 → Bool
  | [], _ => true
  | _ :: _, [] => false
  | a :: as, b :: bs => decide (a < b) || (a == b && isUpTo as bs)

/-- The names of a directory's entries, in the order of their bytes. -/
def children (files : Files) (place : Place) : List (List UInt8) :=
  let names := files.filterMap fun (other, _) =>
    match other.getLast? with
    | some name => if other.dropLast = place then some name else none
    | none => none
  (names.mergeSort isUpTo).eraseDups

/-! ### Changing -/

/-- The files with an entry at a place. -/
def put (files : Files) (place : Place) (e : Entry) : Files :=
  (place, e) :: files.filter (·.1 != place)

/-- The files without the entry of a place, and all within it. -/
def remove (files : Files) (place : Place) : Files := files.filter fun (p, _) => !place.isPrefixOf p

/-- The place of a new file at a path: its directory must exist. -/
def vacancy (files : Files) (directory : Place) (p : Path) : Except SystemError Place :=
  match p.pieces.reverse with
  | [] => .error .notFound
  | name :: rest =>
    if name.isEmpty then .error .isDirectory
    else
      match files.follow (start directory p) rest.reverse with
      | .ok (place, .directory) => .ok (place ++ [name])
      | .ok _ => .error .notDirectory
      | .error e => .error e

end Files

end CliffordT
