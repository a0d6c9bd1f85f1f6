import CliffordT.Host.Shell.Condition
import CliffordT.Host.Tool.Calculate
import CliffordT.Host.Tool.Edit
import CliffordT.Host.Tool.Lines
import CliffordT.Host.Tool.Names
import CliffordT.Host.Tool.Search

/-!
# The programs of a machine

What the tools are by name; a shell itself runs `sh`, `env` and `xargs`.

* `Tool.action?` : the tool with a name.
-/

namespace CliffordT

namespace Tool

open Shell (Text)

/-- `test` : whether a condition holds.  With the name `[` a closing bracket ends it. -/
def test : Action := fun c =>
  let fault := fun (t : Text) => ({ complaints := c.complaint t, status := 2 } : Answer)
  let decided := fun (words : List Text) =>
    match Shell.Condition.holds ⟨c.files, c.directory⟩ words with
    | .ok holds => { status := if holds then 0 else 1 }
    | .error t => fault t
  if lastPart c.name == ['['] then
    if c.args.getLast? == some [']'] then decided c.args.dropLast else fault "missing ']'".toList
  else decided c.args

/-- What is wrong with an argument, in the words of the tool. -/
def argumentFault (t : Text) : Text :=
  let name := (t.reverse.dropWhile (· != ':')).drop 1 |>.reverse
  let reason := String.ofList (t.drop (name.length + 2))
  Call.quoted name ++ ": ".toList ++
    match reason with
    | "expected numeric value" => "expected a numeric value".toList
    | "not completely converted" => "value not completely converted".toList
    | _ => reason.toList

/-- `printf` : a format filled in with arguments. -/
def printf : Action := fun c =>
  match if c.args.head? == some "--".toList then c.args.tail else c.args with
  | [] => c.refuse 1 "missing operand".toList
  | format :: args =>
    let p := Shell.Printing.run format args
    let faults := p.complaints.map argumentFault ++ p.fault.toList
    { output := p.output
      complaints := (faults.map c.complaint).flatten
      status := if faults.isEmpty then 0 else 1 }

/-- Whether a text is a span of time: a decimal number with a unit. -/
def isSpan (t : Text) : Bool :=
  let body :=
    match t.getLast? with
    | some c => if ['s', 'm', 'h', 'd'].contains c then t.dropLast else t
    | none => t
  (Calculation.places? body).any fun p => decide (0 ≤ p.units)

/-- `sleep` : nothing, for a while. -/
def sleep : Action :=
  withOptions "" "" [] 1 fun c o =>
    if o.operands.isEmpty then c.refuse 1 "missing operand".toList
    else
      let wrong := o.operands.filter fun t => !isSpan t
      let complaints := wrong.map fun t =>
        c.complaint ("invalid time interval ".toList ++ Call.quoted t)
      if wrong.isEmpty then {}
      else { complaints := complaints.flatten ++ c.advice, status := 1 }

/-- `printenv` : the variables, or what some of them hold. -/
def printenv : Action := fun c =>
  match Options.ofArgs [] [] [] false c.args with
  | .error t => c.refuse 2 t
  | .ok o =>
    let all := c.environment.map fun (name, value) => name ++ '=' :: value
    let values := o.operands.filterMap fun name => c.environment.lookup name
    { output := Shell.joinLines (if o.operands.isEmpty then all else values)
      status := if values.length < o.operands.length then 1 else 0 }

/-- The tool with a name. -/
def action? : String → Option Action
  | "[" => some test
  | "basename" => some basename
  | "cat" => some cat
  | "cp" => some cp
  | "cut" => some cut
  | "dirname" => some dirname
  | "echo" => some echo
  | "expr" => some expr
  | "false" => some fun _ => { status := 1 }
  | "grep" => some grep
  | "head" => some head
  | "ls" => some ls
  | "mkdir" => some mkdir
  | "mv" => some mv
  | "printenv" => some printenv
  | "printf" => some printf
  | "rev" => some rev
  | "rm" => some rm
  | "sed" => some sed
  | "seq" => some seq
  | "sleep" => some sleep
  | "sort" => some sort
  | "tac" => some tac
  | "tail" => some tail
  | "tee" => some tee
  | "test" => some test
  | "touch" => some touch
  | "tr" => some tr
  | "true" => some fun _ => {}
  | "uniq" => some uniq
  | "wc" => some wc
  | "yes" => some yes
  | _ => none

end Tool

end CliffordT
