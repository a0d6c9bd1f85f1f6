import CliffordT.Host.Shell.Format
import CliffordT.Host.Tool.Basic

/-!
# Tools that pass text on

`cat`, `head`, `tail`, `tac`, `rev`, `tee`, `yes` and `echo`: the text that comes out is the one
that went in, or a part of it. -/

namespace CliffordT

namespace Tool

open Shell (Text splitLines joinLines joinWith decimal)

/-- The lines of a text with their ends; the last one may lack its end. -/
def endedLines (t : Text) : List Text :=
  let lines := splitLines t
  if t.getLast? == some '\n' then lines.map (· ++ ['\n'])
  else (lines.dropLast.map (· ++ ['\n'])) ++ lines.getLast?.toList

/-- A number in a column of a given width. -/
def column (width : Nat) (t : Text) : Text := List.replicate (width - t.length) ' ' ++ t

/-! ### `cat` -/

/-- A line as `cat` shows it: ends and tabs may be marked. -/
def showLine (o : Options) (line : Text) : Text :=
  let showsEnds := o.has 'E' || o.has 'A'
  let showsTabs := o.has 'T' || o.has 'A'
  line.flatMap fun c =>
    if c = '\n' ∧ showsEnds then ['$', '\n']
    else if c = '\t' ∧ showsTabs then ['^', 'I']
    else [c]

/-- Lines with their numbers in front; empty ones may go without. -/
def numberLines (skipsEmpty : Bool) : Nat → List Text → List Text
  | _, [] => []
  | n, line :: rest =>
    if skipsEmpty && line == ['\n'] then line :: numberLines skipsEmpty n rest
    else (column 6 (decimal n) ++ '\t' :: line) :: numberLines skipsEmpty (n + 1) rest

/-- Lines with a single empty one in place of several. -/
def squeezeEmpty : List Text → List Text
  | a :: b :: rest =>
    if a == ['\n'] && b == ['\n'] then squeezeEmpty (b :: rest) else a :: squeezeEmpty (b :: rest)
  | lines => lines

/-- `cat` : files one behind the other. -/
def cat : Action :=
  withOptions "nbsuETAv" "" [("number", 'n')] 1 fun c o =>
    if !c.hasOutput then
      { complaints := c.complaint "standard output: Bad file descriptor".toList, status := 1 }
    else
      c.answerText o.operands fun t =>
        if o.given.isEmpty then t
        else
          let lines := if o.has 's' then squeezeEmpty (endedLines t) else endedLines t
          let numbered := if o.has 'n' || o.has 'b' then numberLines (o.has 'b') 1 lines else lines
          (numbered.map (showLine o)).flatten

/-! ### `head` and `tail` -/

/-- The part of each operand that `part` leaves, with the names of the operands in front if there
are several. -/
def eachOperand (c : Call) (o : Options) (part : Text → Text) : Answer :=
  let found := c.readOperands o.operands
  let named := (decide (1 < found.length) || o.has 'v') && !o.has 'q'
  let shown := found.filterMap fun f =>
    let name := if f.name == ['-'] then "standard input".toList else f.name
    let heading := if named then "==> ".toList ++ name ++ " <==\n".toList else []
    match f.text with
    | .ok t => some (heading ++ part t)
    | .error _ => if c.exists f.name then some heading else none
  let faults := found.filterMap fun f =>
    match f.text with
    | .error t =>
      if t == "Is a directory".toList then
        some (c.complaint ("error reading '".toList ++ f.name ++ "': ".toList ++ t))
      else
        some (c.complaint ("cannot open '".toList ++ f.name ++ "' for reading: ".toList ++ t))
    | .ok _ => none
  { output := joinWith (if named then ['\n'] else []) shown
    complaints := faults.flatten
    status := if faults.isEmpty then 0 else 1
    readsInput := namesInput o.operands }

/-- Arguments in which a number in front, as an option, is turned into the option `-n`. -/
def spellCount (args : List Text) : List Text :=
  match args with
  | ('-' :: d :: ds) :: rest =>
    if d.isDigit && ds.all Char.isDigit then ['-', 'n'] :: (d :: ds) :: rest else args
  | _ => args

/-- A count with a sign in front, and a unit behind. -/
def count? (t : Text) : Option (Option Char × Nat) :=
  let (sign, ds) :=
    match t with
    | '-' :: ds => (some '-', ds)
    | '+' :: ds => (some '+', ds)
    | ds => (none, ds)
  let number := ds.takeWhile Char.isDigit
  let factor? :=
    match ds.dropWhile Char.isDigit with
    | [] => some 1
    | ['b'] => some 512
    | ['k'] => some 1024
    | ['K'] => some 1024
    | ['k', 'B'] => some 1000
    | ['M'] => some 1048576
    | _ => none
  (Shell.natOf? number).bind fun n => factor?.map fun f => (sign, n * f)

/-- The count that options ask for, and whether it counts bytes. -/
def countOf (c : Call) (o : Options) : Except Answer (Bool × Option Char × Nat) :=
  match o.given.reverse.find? fun (letter, _) => letter == 'n' || letter == 'c' with
  | none => .ok (false, none, 10)
  | some (letter, t) =>
    match count? t with
    | some (sign, n) => .ok (letter == 'c', sign, n)
    | none =>
      let what := if letter = 'c' then "bytes" else "lines"
      let fault := "invalid number of ".toList ++ what.toList ++ ": ".toList ++ Call.quoted t
      .error { complaints := c.complaint fault, status := 1 }

/-- The start of a list, or all but the end of it. -/
def startOf {α : Type} (sign : Option Char) (n : Nat) (items : List α) : List α :=
  if sign = some '-' then items.take (items.length - n) else items.take n

/-- The end of a list, or all of it from an item on. -/
def endOf {α : Type} (sign : Option Char) (n : Nat) (items : List α) : List α :=
  if sign = some '+' then items.drop (n - 1) else items.drop (items.length - n)

/-- `head` : the first lines or bytes.  An endless device gives as many bytes as are asked for. -/
def head : Action := fun c =>
  withOptions "qvz" "nc" [("lines", 'n'), ("bytes", 'c'), ("quiet", 'q')] 1 (fun c o =>
    match countOf c o with
    | .error answer => answer
    | .ok (isBytes, sign, n) =>
      let isZero := o.operands == ["/dev/zero".toList]
      if isBytes && isZero && sign == none then { output := List.replicate n '\x00' }
      else
        eachOperand c o fun t =>
          if isBytes then startOf sign n t else (startOf sign n (endedLines t)).flatten)
    { c with args := spellCount c.args }

/-- `tail` : the last lines or bytes. -/
def tail : Action := fun c =>
  withOptions "qvzf" "nc" [("lines", 'n'), ("bytes", 'c'), ("quiet", 'q')] 1 (fun c o =>
    match countOf c o with
    | .error answer => answer
    | .ok (isBytes, sign, n) =>
      eachOperand c o fun t =>
        if isBytes then endOf sign n t else (endOf sign n (endedLines t)).flatten)
    { c with args := spellCount c.args }

/-! ### Other order -/

/-- `tac` : the lines in reverse order. -/
def tac : Action :=
  withOptions "" "" [] 1 fun c o => c.answerText o.operands fun t => (endedLines t).reverse.flatten

/-- `rev` : each line in reverse order. -/
def rev : Action :=
  withOptions "" "" [] 1 fun c o =>
    c.answerText o.operands fun t =>
      (endedLines t).flatMap fun line =>
        if line.getLast? == some '\n' then line.dropLast.reverse ++ ['\n'] else line.reverse

/-- `tee` : the input, which goes to files too. -/
def tee : Action :=
  withOptions "ai" "" [("append", 'a')] 1 fun c o =>
    let files := o.operands.foldl
      (fun (files : Files) name =>
        let place :=
          match files.locate c.directory ⟨Shell.toBytes name⟩ with
          | .ok (place, .file _) => some place
          | .ok _ => none
          | .error _ => (files.vacancy c.directory ⟨Shell.toBytes name⟩).toOption
        match place with
        | some place =>
          let old :=
            match files.lookup place with
            | some (.file content) => if o.has 'a' then content else []
            | _ => []
          files.put place (.file (old ++ Shell.toBytes c.input))
        | none => files)
      c.files
    { output := c.input, readsInput := true, changed := some files }

/-! ### Words -/

/-- `yes` : words on one line after another.  Nothing reads more of them than there are here. -/
def yes : Action := fun c =>
  let line := joinWith [' '] (if c.args.isEmpty then [['y']] else c.args) ++ ['\n']
  { output := (List.replicate (endlessLength / line.length + 1) line).flatten }

/-- The character of at most `limit` digits in a base, and the text behind them. -/
def takeCode (base limit : Nat) (t : Text) : Char × Text :=
  let ds := (t.take limit).takeWhile (Shell.isDigitIn base)
  (Shell.byte (Shell.valueOf base ds), t.drop ds.length)

/-- A text with its escapes replaced, and whether output goes on behind it.  Octal numbers may have
a zero in front, and hexadecimal ones start with `x`.  The bound is the length of the text. -/
def unescape : Nat → Text → Text × Bool
  | n + 1, '\\' :: c :: t =>
    let go := fun (d : Char) (rest : Text) =>
      let (more, goesOn) := unescape n rest
      (d :: more, goesOn)
    if c = 'c' then ([], false)
    else if c = '0' then
      let (d, rest) := takeCode 8 3 t
      go d rest
    else if Shell.isDigitIn 8 c then
      let (d, rest) := takeCode 8 3 (c :: t)
      go d rest
    else if c = 'x' ∧ t.head?.any (Shell.isDigitIn 16) then
      let (d, rest) := takeCode 16 2 t
      go d rest
    else
      match Shell.escaped? c with
      | some d => go d t
      | none =>
        let (more, goesOn) := unescape n t
        ('\\' :: c :: more, goesOn)
  | n + 1, c :: t =>
    let (more, goesOn) := unescape n t
    (c :: more, goesOn)
  | _, _ => ([], true)

/-- Whether `echo` takes an argument as options. -/
def isEchoOption : Text → Bool
  | '-' :: c :: cs => (c :: cs).all fun c => ['n', 'e', 'E'].contains c
  | _ => false

/-- `echo` : the arguments.  Their escapes are replaced where an option asks for it. -/
def echo : Action := fun c =>
  let options := (c.args.takeWhile isEchoOption).flatten
  let text := joinWith [' '] (c.args.dropWhile isEchoOption)
  let replaces := (options.filter fun c => c == 'e' || c == 'E').getLast? == some 'e'
  let found := if replaces then unescape (text.length + 1) text else (text, true)
  { output := Shell.closeLine (!options.contains 'n') found }

end Tool

end CliffordT
