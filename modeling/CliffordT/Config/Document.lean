import CliffordT.Config.Basic
import CliffordT.Pipeline.Error
import CliffordT.Yaml.Held

/-!
# Configurations from YAML

A configuration document is empty, or a mapping with the keys `program` and `args`.  Both may be
left out, any other key is passed over, and any scalar counts as its text.  The program of a
document may not be empty.
-/

namespace CliffordT

open Yaml

namespace Config

/-! ### Faults -/

/-- Why a document is no configuration. -/
inductive Fault where
  /-- The text holds no single well-formed document. -/
  | malformed
  /-- A value of the wrong type at a path of the document. -/
  | mismatch (path : String) (found : Mismatch) (expected : String)
  /-- A key that occurs twice. -/
  | duplicateField (name : String)
  /-- The program is empty. -/
  | emptyProgram
deriving DecidableEq

/-- The fault in words.  The path of a value comes first, unless it is the whole document. -/
def Fault.message : Fault → String
  | malformed => "invalid oracle config"
  | mismatch path found expected =>
    "invalid oracle config: " ++ (if path = "" then "" else path ++ ": ") ++
      match found with
      | .type held => "invalid type: " ++ held.describe ++ ", expected " ++ expected
      | .tagged text wanted => "invalid value: string " ++ quoted text ++ ", expected " ++ wanted
  | duplicateField name => "invalid oracle config: duplicate field `" ++ name ++ "`"
  | emptyProgram => "oracle program must not be empty"

/-! ### Reading -/

/-- Whether a node is a plain scalar without a text. -/
def isBlankNode : Node → Bool
  | .scalar text .plain _ => text.isEmpty
  | _ => false

/-- The text of a scalar of any style and tag. -/
def readText (d : Yaml.Document) (path expected : String) (node : Node) : Except Fault String :=
  match d.resolve node with
  | .scalar text _ _ => .ok text
  | _ => .error (.mismatch path (d.mismatch node) expected)

/-- The texts of the items of a list at a path, of which the first one has the number `index`. -/
def readItems (d : Yaml.Document) (path : String) (index : Nat) :
    List Node → Except Fault (List String)
  | [] => .ok []
  | item :: items => do
    let text ← readText d (path ++ "[" ++ toString index ++ "]") "a string" item
    return text :: (← readItems d path (index + 1) items)

/-- The arguments; a blank node stands for none. -/
def readArgs (d : Yaml.Document) (path : String) (node : Node) : Except Fault (List String) :=
  match d.resolve node with
  | .sequence items => readItems d path 0 items
  | found =>
    if isBlankNode found then .ok []
    else .error (.mismatch path (d.mismatch node) "a sequence")

/-- The path of the value behind a key.  A key that is a reference has no name there. -/
def pathBehind (key : Node) (name : String) : String :=
  match key with
  | .reference _ => "?"
  | _ => name

/-- The entries of the mapping, read one after the other. -/
def readEntries (d : Yaml.Document) (s : ConfigFields) :
    List (Node × Node) → Except Fault ConfigFields
  | [] => .ok s
  | (key, value) :: entries => do
    let name ← readText d "" "field identifier" key
    if name = "program" then
      if s.program.isSome then throw (.duplicateField name)
      let program ← readText d (pathBehind key name) "path string" value
      readEntries d { s with program := some (.ofString program) } entries
    else if name = "args" then
      if s.args.isSome then throw (.duplicateField name)
      readEntries d { s with args := some (← readArgs d (pathBehind key name) value) } entries
    else readEntries d s entries

/-- The parts of a configuration that a document holds. -/
def readDocument (d : Yaml.Document) : Except Fault ConfigFields :=
  match d.root with
  | none => .ok {}
  | some root =>
    match d.resolve root with
    | .mapping entries => readEntries d {} entries
    | found =>
      if isBlankNode found then .ok {}
      else .error (.mismatch "" (d.mismatch root) "struct OracleConfig")

/-- A configuration with a program. -/
def validate (c : Config) : Except Fault Config :=
  if c.program.bytes.isEmpty then .error .emptyProgram else .ok c

/-- The configuration that a document holds. -/
def ofDocument (d : Yaml.Document) : Except Fault Config :=
  (readDocument d).bind fun s => validate s.toConfig

/-- The configuration that a text holds. -/
def ofText? [Yaml.Reader] (s : String) : Except Fault Config :=
  match Reader.document? s with
  | none => .error .malformed
  | some d => ofDocument d

/-- The configuration of a text.  Every fault is a fault of the configuration. -/
def ofText [Yaml.Reader] (s : String) : Except PipelineError Config :=
  (ofText? s).mapError fun fault => .config fault.message

/-! ### Files -/

/-- The complaint about a file that cannot be read. -/
def unreadable (p : Path) (reason : String) : PipelineError :=
  .config ("failed to read " ++ p.text ++ ": " ++ reason)

/-- The configuration in a file, given a way to read files. -/
def load [Yaml.Reader] (contentOf : Path → Except SystemError (List UInt8)) (p : Path) :
    Except PipelineError Config :=
  match contentOf p with
  | .error e => .error (unreadable p e.message)
  | .ok bytes =>
    match Utf8.decode bytes with
    | .error _ => .error (unreadable p "stream did not contain valid UTF-8")
    | .ok cs => ofText (String.ofList cs)

end Config

end CliffordT
