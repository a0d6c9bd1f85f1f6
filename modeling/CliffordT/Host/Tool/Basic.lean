import CliffordT.Host.Files
import CliffordT.Host.Shell.Text

/-!
# Tools

The small programs of a machine.  A tool gets its arguments, the text of its input and the files,
and answers with what it writes and how it ends.

* `Tool.Options` : the options among the arguments, and the operands,
* `Tool.readOperands` : the texts of the files that the operands name.
-/

namespace CliffordT

namespace Tool

open Shell (Text)

/-- What a tool is run with. -/
structure Call where
  name : Text
  args : List Text
  /-- What is left to read at its input. -/
  input : Text
  /-- The size of the file that the input comes from, if it comes from one. -/
  inputSize : Option Nat := none
  /-- There is something to write the output to. -/
  hasOutput : Bool := true
  files : Files
  directory : Place
  /-- The variables that it gets to know. -/
  environment : List (Text × Text) := []

/-- What a tool answers with. -/
structure Answer where
  output : Text := []
  complaints : Text := []
  status : Nat := 0
  /-- The tool has read its input. -/
  readsInput : Bool := false
  /-- The files, if the tool has changed them. -/
  changed : Option Files := none

/-- A tool. -/
abbrev Action := Call → Answer

namespace Call

/-- A complaint, which starts with the name of the tool. -/
def complaint (c : Call) (t : Text) : Text := c.name ++ ": ".toList ++ t ++ ['\n']

/-- A text in single quotes, as complaints name it. -/
def quoted (t : Text) : Text := '\'' :: t ++ ['\'']

/-- Where more can be read about the arguments. -/
def advice (c : Call) : Text :=
  "Try '".toList ++ c.name ++ " --help' for more information.\n".toList

/-- The answer to arguments that make no sense. -/
def refuse (c : Call) (status : Nat) (t : Text) : Answer :=
  { complaints := c.complaint t ++ c.advice, status }

/-- The place of a path. -/
def locate (c : Call) (t : Text) : Except SystemError (Place × Entry) :=
  c.files.locate c.directory ⟨Shell.toBytes t⟩

end Call

/-- The text of a refusal of the system, without its number. -/
def errorText : SystemError → Text
  | .code n => ((errorTexts.lookup n).getD "Unknown error").toList
  | .custom text => text.toList

/-! ### Options -/

/-- The options of a call in the order given, each with its value, and the operands. -/
structure Options where
  given : List (Char × Text) := []
  operands : List Text := []

namespace Options

/-- Whether an option is given. -/
def has (o : Options) (letter : Char) : Bool := o.given.any (·.1 == letter)

/-- The value of an option that is given, the last one if there are several. -/
def value? (o : Options) (letter : Char) : Option Text := o.given.reverse.lookup letter

/-- The options with one more in front. -/
def addFirst (o : Options) (letter : Char) (value : Text) : Options :=
  { o with given := (letter, value) :: o.given }

/-- The options in a group of letters, whether the last one lacks its value, or the letter that
means nothing. -/
def ofLetters (plain valued : List Char) : Text → Except Char (List (Char × Text) × Option Char)
  | [] => .ok ([], none)
  | letter :: rest =>
    if valued.contains letter then
      if rest.isEmpty then .ok ([], some letter) else .ok ([(letter, rest)], none)
    else if plain.contains letter then
      (ofLetters plain valued rest).map fun (more, last) => ((letter, []) :: more, last)
    else .error letter

/-- The options and operands of some arguments.  `plain` are the letters of options without values,
`valued` those of options with them, and `long` are the letters for long names.  Operands may stand
before options where `mixed` holds. -/
def ofArgs (plain valued : List Char) (long : List (String × Char)) (mixed : Bool) :
    List Text → Except Text Options
  | [] => .ok {}
  | arg :: rest =>
    match arg with
    | ['-', '-'] => .ok { operands := rest }
    | '-' :: '-' :: name =>
      let key := String.ofList (name.takeWhile (· != '='))
      match long.lookup key with
      | some letter =>
        let o := ofArgs plain valued long mixed rest
        if valued.contains letter then
          match name.dropWhile (· != '=') with
          | _ :: value => o.map (·.addFirst letter value)
          | [] =>
            match rest with
            | value :: rest => (ofArgs plain valued long mixed rest).map (·.addFirst letter value)
            | [] => .error ("option ".toList ++ Call.quoted arg ++ " requires an argument".toList)
        else o.map (·.addFirst letter [])
      | none => .error ("unrecognized option ".toList ++ Call.quoted arg)
    | '-' :: letter :: letters =>
      match ofLetters plain valued (letter :: letters) with
      | .error bad => .error ("invalid option -- ".toList ++ Call.quoted [bad])
      | .ok (found, none) =>
        (ofArgs plain valued long mixed rest).map fun o => { o with given := found ++ o.given }
      | .ok (found, some last) =>
        match rest with
        | value :: rest =>
          (ofArgs plain valued long mixed rest).map fun o =>
            { o with given := found ++ (last, value) :: o.given }
        | [] => .error ("option requires an argument -- ".toList ++ Call.quoted [last])
    | _ =>
      if mixed then
        (ofArgs plain valued long mixed rest).map fun o => { o with operands := arg :: o.operands }
      else .ok { operands := arg :: rest }

end Options

/-- The answer of a tool whose options make sense, with the status of one whose options do not. -/
def withOptions (plain valued : String) (long : List (String × Char)) (status : Nat)
    (run : Call → Options → Answer) : Action := fun c =>
  match Options.ofArgs plain.toList valued.toList long true c.args with
  | .ok o => run c o
  | .error t => c.refuse status t

/-! ### Input -/

/-- The text of an operand, or what is wrong with it. -/
structure Operand where
  name : Text
  text : Except Text Text

/-- The number of zeros that stand for an endless input. -/
def endlessLength : Nat := 0x20000

/-- The text of a file, or why it cannot be read. -/
def Call.readFile (c : Call) (path : Text) : Except Text Text :=
  match c.locate path with
  | .ok (_, .file content) => .ok (Shell.ofBytes content)
  | .ok (_, .device .null) => .ok []
  | .ok (_, .device _) => .ok (List.replicate endlessLength '\x00')
  | .ok (_, .program _) => .ok ['\x7f', 'E', 'L', 'F']
  | .ok (_, .directory) => .error "Is a directory".toList
  | .error e => .error (errorText e)

/-- Whether an operand names the input: as a dash, or by a path of the system. -/
def isInput (operand : Text) : Bool :=
  ["-", "/dev/stdin", "/dev/fd/0", "/proc/self/fd/0"].contains (String.ofList operand)

/-- Whether there is something that an operand names. -/
def Call.exists (c : Call) (operand : Text) : Bool :=
  isInput operand || (c.locate operand).toOption.isSome

/-- The size of the file that an operand names. -/
def Call.size? (c : Call) (operand : Text) : Option Nat :=
  if isInput operand then c.inputSize
  else
    match c.locate operand with
    | .ok (_, .file content) => some content.length
    | _ => none

/-- The texts of some operands.  The lack of operands is the input.  The input can be read once. -/
def Call.readOperands (c : Call) (operands : List Text) : List Operand :=
  let names := if operands.isEmpty then [['-']] else operands
  (names.foldl
    (fun (found, input) name =>
      if isInput name then (⟨name, .ok input⟩ :: found, [])
      else (⟨name, c.readFile name⟩ :: found, input))
    (([] : List Operand), c.input)).1.reverse

/-- What is said about operands that cannot be read. -/
def Call.faults (c : Call) (found : List Operand) : List Text :=
  found.filterMap fun o =>
    match o.text with
    | .error t => some (c.complaint (o.name ++ ": ".toList ++ t))
    | .ok _ => none

/-- Whether operands name the input. -/
def namesInput (operands : List Text) : Bool := operands.isEmpty || operands.any isInput

/-- The answer of a tool that turns the text of all its operands into another one. -/
def Call.answerText (c : Call) (operands : List Text) (f : Text → Text) : Answer :=
  let found := c.readOperands operands
  let texts := found.filterMap fun o => o.text.toOption
  let faults := c.faults found
  { output := f texts.flatten
    complaints := faults.flatten
    status := if faults.isEmpty then 0 else 1
    readsInput := namesInput operands }

end Tool

end CliffordT
