import CliffordT.Host.Files
import CliffordT.Host.Shell.Text

/-!
# Conditions

The conditions that `test` decides: texts, integers and files, joined by `-a`, `-o`, `!` and
parentheses.  With three or four words the places of the operators decide what they mean; otherwise
an operator that cannot have an operand is a text.

* `Condition.holds` : whether the words are a condition that holds.
-/

namespace CliffordT

namespace Shell

namespace Condition

/-- The part that a word plays. -/
inductive Role where
  /-- No word is left. -/
  | nothing
  | operand
  /-- An operator in front of one operand. -/
  | unary
  /-- An operator between two operands. -/
  | binary
  | not
  | and
  | or
  | opening
  | closing
deriving DecidableEq

/-- The role of an operator. -/
def operatorRole? (word : Text) : Option Role :=
  let s := String.ofList word
  if ["-b", "-c", "-d", "-e", "-f", "-g", "-h", "-k", "-L", "-n", "-O", "-G", "-p", "-r", "-s",
      "-S", "-t", "-u", "-w", "-x", "-z"].contains s then some .unary
  else if ["=", "!=", "<", ">", "-eq", "-ne", "-ge", "-gt", "-le", "-lt", "-nt", "-ot",
      "-ef"].contains s then some .binary
  else if s = "!" then some .not
  else if s = "-a" then some .and
  else if s = "-o" then some .or
  else if s = "(" then some .opening
  else if s = ")" then some .closing
  else none

/-- The role of the first word.  An operator for one operand is itself an operand if none follows,
or if an operator for two operands does. -/
def roleOf : List Text → Role
  | [] => .nothing
  | word :: rest =>
    match operatorRole? word with
    | some .unary =>
      match rest with
      | [] => .operand
      | [_] => .unary
      | next :: _ => if operatorRole? next = some .binary then .operand else .unary
    | some .opening => if rest.isEmpty then .operand else .opening
    | some role => role
    | none => .operand

/-- Why words are no condition. -/
def faultAt (word : Text) (what : String) : Text :=
  (if word.isEmpty then [] else word ++ ": ".toList) ++ what.toList

/-- The integer that an operand stands for. -/
def integer (t : Text) : Except Text Int :=
  match intOf? t with
  | some i => .ok i
  | none => .error ("Illegal number: ".toList ++ t)

/-- Whether a text stands before another one in the order of bytes. -/
def isBefore (a b : Text) : Bool := !Files.isUpTo (toBytes b) (toBytes a)

/-- What the condition can know of files. -/
structure Surroundings where
  files : Files
  directory : Place

/-- What stands at a path. -/
def Surroundings.entry? (s : Surroundings) (t : Text) : Option (Place × Entry) :=
  (s.files.locate s.directory ⟨toBytes t⟩).toOption

/-- Whether an operator holds of one operand. -/
def unaryHolds (s : Surroundings) (op operand : Text) : Except Text Bool :=
  let entry : Option Entry := (s.entry? operand).map (·.2)
  match op with
  | ['-', 'n'] => .ok !operand.isEmpty
  | ['-', 'z'] => .ok operand.isEmpty
  | ['-', 't'] => (integer operand).map fun _ => false
  | ['-', 'd'] => .ok (entry == some .directory)
  | ['-', 'f'] => .ok (match entry with
    | some (.file _) => true
    | some (.program _) => true
    | _ => false)
  | ['-', 'c'] => .ok (match entry with
    | some (.device _) => true
    | _ => false)
  | ['-', 's'] => .ok (match entry with
    | some (.file content) => !content.isEmpty
    | some (.device _) => false
    | some _ => true
    | none => false)
  | ['-', 'x'] => .ok (match entry with
    | some .directory => true
    | some (.program _) => true
    | _ => false)
  | ['-', c] => .ok (['e', 'r', 'w', 'O', 'G'].contains c && entry.isSome)
  | _ => .ok false

/-- Whether an operator holds of two operands. -/
def binaryHolds (s : Surroundings) (op a b : Text) : Except Text Bool :=
  let compare := fun (holds : Int → Int → Bool) => do
    let i ← integer a
    let j ← integer b
    return holds i j
  match String.ofList op with
  | "=" => .ok (a == b)
  | "!=" => .ok (a != b)
  | "<" => .ok (isBefore a b)
  | ">" => .ok (isBefore b a)
  | "-eq" => compare fun i j => i == j
  | "-ne" => compare fun i j => i != j
  | "-ge" => compare fun i j => decide (j ≤ i)
  | "-gt" => compare fun i j => decide (j < i)
  | "-le" => compare fun i j => decide (i ≤ j)
  | "-lt" => compare fun i j => decide (i < j)
  | "-ef" =>
    match s.entry? a, s.entry? b with
    | some x, some y => .ok (x.1 == y.1)
    | _, _ => .ok false
  | _ => .ok false

mutual

/-- Conditions joined by `-o`, from a word with a role.  The words behind the last one that belongs
to them are returned too, with that one in front. -/
def anyHolds (s : Surroundings) : Nat → Role → List Text → Except Text (Bool × List Text)
  | 0, _, ws => .ok (false, ws)
  | n + 1, role, ws => do
    let (a, ws) ← allHold s n role ws
    if roleOf (ws.drop 1) = .or then
      let (b, ws) ← anyHolds s n (roleOf (ws.drop 2)) (ws.drop 2)
      return (a || b, ws)
    else return (a, ws)

/-- Conditions joined by `-a`. -/
def allHold (s : Surroundings) : Nat → Role → List Text → Except Text (Bool × List Text)
  | 0, _, ws => .ok (false, ws)
  | n + 1, role, ws => do
    let (a, ws) ← notHolds s n role ws
    if roleOf (ws.drop 1) = .and then
      let (b, ws) ← allHold s n (roleOf (ws.drop 2)) (ws.drop 2)
      return (a && b, ws)
    else return (a, ws)

/-- A condition with exclamation marks in front. -/
def notHolds (s : Surroundings) : Nat → Role → List Text → Except Text (Bool × List Text)
  | 0, _, ws => .ok (false, ws)
  | n + 1, role, ws => do
    if role = .not then
      let next := roleOf (ws.drop 1)
      let (a, ws) ← notHolds s n next (if next = .nothing then ws else ws.drop 1)
      return (!a, ws)
    else single s n role ws

/-- A condition in parentheses, one about operands, or a text, which holds unless it is empty. -/
def single (s : Surroundings) : Nat → Role → List Text → Except Text (Bool × List Text)
  | 0, _, ws => .ok (false, ws)
  | n + 1, role, ws => do
    match role, ws with
    | .nothing, _ => return (false, ws)
    | .opening, _ =>
      let inner := ws.drop 1
      if roleOf inner = .closing then return (false, inner)
      let (a, ws) ← anyHolds s n (roleOf inner) inner
      if roleOf (ws.drop 1) = .closing then return (a, ws.drop 1)
      else .error "closing paren expected".toList
    | .unary, op :: rest =>
      match rest with
      | operand :: _ => return (← unaryHolds s op operand, rest)
      | [] => .error (faultAt op "argument expected")
    | _, a :: rest =>
      match rest with
      | op :: operands =>
        if roleOf rest = .binary then
          match operands with
          | b :: _ => return (← binaryHolds s op a b, operands)
          | [] => .error (faultAt op "argument expected")
        else return (!a.isEmpty, ws)
      | [] => return (!a.isEmpty, ws)
    | _, [] => return (false, ws)

end

/-- Whether the words are a condition that holds, from a word with a role. -/
def holdsFrom (s : Surroundings) (role : Role) (ws : List Text) : Except Text Bool := do
  let (a, left) ← anyHolds s (8 * ws.length + 8) role ws
  match left with
  | op :: _ :: _ => .error (faultAt op "unexpected operator")
  | _ => return a

/-- Whether the words are a condition that holds.  No words are one that does not. -/
def holds (s : Surroundings) (ws : List Text) : Except Text Bool :=
  match ws with
  | [] => .ok false
  | word :: rest =>
    let isBinary := decide (ws.length = 3) && operatorRole? (rest.headD []) == some .binary
    let isShort := decide (ws.length = 3 ∨ ws.length = 4)
    if isBinary then holdsFrom s .operand ws
    else if isShort && word == ['('] && ws.getLast? == some [')'] then
      holdsFrom s (roleOf rest.dropLast) rest.dropLast
    else if isShort && word == ['!'] then (holds s rest).map (!·)
    else holdsFrom s (roleOf ws) ws

end Condition

end Shell

end CliffordT
