import CliffordT.Host.Shell.Condition
import CliffordT.Host.Shell.Expansion
import CliffordT.Host.Shell.Format
import CliffordT.Host.Shell.Signal
import CliffordT.Host.Shell.Source

/-!
# Builtin commands

The commands that the shell carries out itself, as far as they run no scripts.

* `Builtin.action?` : what a command with some arguments does.
-/

namespace CliffordT

namespace Shell

namespace Builtin

open Run

/-- The builtin commands that are not special ones. -/
def regularNames : List String :=
  ["[", "alias", "bg", "cd", "command", "echo", "false", "fg", "getopts", "hash", "jobs", "kill",
   "printf", "pwd", "read", "test", "true", "type", "ulimit", "umask", "unalias", "wait"]

/-- Whether a command is builtin. -/
def isBuiltin (name : Text) : Bool :=
  let s := String.ofList name
  specialBuiltins.contains s || regularNames.contains s

/-- The end with success. -/
def succeed : Run Unit := finish 0

/-- Write to the standard output, and end with a status, or fail if writing is not possible. -/
def sayAndFinish (status : Nat) (t : Text) : Run Unit := do
  if ← write 1 t then finish status
  else
    complain (((← get).builtin.getD []) ++ ": I/O error".toList)
    finish (status ||| 1)

/-- Write to the standard output, and fail if that is not possible. -/
def say (t : Text) : Run Unit := sayAndFinish 0 t

/-- The natural number of an argument, if it is one. -/
def count? (t : Text) : Option Nat :=
  (intOf? t).bind fun i => if 0 ≤ i ∧ i ≤ 0x7fffffff then some i.toNat else none

/-- Refuse an argument that is no number. -/
def refuseNumber (t : Text) : Run Unit := refuse ("Illegal number: ".toList ++ t)

/-- The options at the head of some arguments, and the other ones; or a letter that is no option. -/
def takeOptions (letters : String) : List Text → Except Char (List Char × List Text)
  | [] => .ok ([], [])
  | ['-', '-'] :: rest => .ok ([], rest)
  | ('-' :: c :: cs) :: rest =>
    match (c :: cs).find? fun c => !letters.toList.contains c with
    | some bad => .error bad
    | none => (takeOptions letters rest).map fun (more, args) => (c :: cs ++ more, args)
  | args => .ok ([], args)

/-- Run a command whose options make sense. -/
def withOptions (letters : String) (args : List Text)
    (run : List Char → List Text → Run Unit) : Run Unit :=
  match takeOptions letters args with
  | .ok (options, args) => run options args
  | .error bad => refuse ("Illegal option -".toList ++ [bad])

/-! ### Ends and jumps -/

/-- `exit` : end the process. -/
def exit : List Text → Run Unit
  | [] => throw .exit
  | arg :: _ => do
    match count? arg with
    | some n =>
      finish (n % 256)
      throw .exit
    | none => refuseNumber arg

/-- `return` : leave a function. -/
def leave : List Text → Run Unit
  | [] => throw .leave
  | arg :: _ => do
    match count? arg with
    | some n =>
      finish n
      throw .leave
    | none => refuseNumber arg

/-- `break` and `continue` : leave some loops, but not more than there are. -/
def leaveLoops (jump : Nat → Jump) (args : List Text) : Run Unit := do
  let arg := args.headD ['1']
  match count? arg with
  | some (n + 1) =>
    finish 0
    let loops := (← get).loops
    if 0 < loops then throw (jump (min (n + 1) loops))
  | _ => refuseNumber arg

/-- `shift` : drop arguments. -/
def shift (args : List Text) : Run Unit := do
  let arg := args.headD ['1']
  match count? arg with
  | some n =>
    if (← get).args.length < n then refuse "can't shift that many".toList
    else
      modifyProcess fun p => { p with args := p.args.drop n }
      succeed
  | none => refuseNumber arg

/-! ### Variables -/

/-- The name and the value of an argument that may set a variable. -/
def splitSetting (arg : Text) : Text × Option Text :=
  let name := arg.takeWhile (· != '=')
  match arg.dropWhile (· != '=') with
  | _ :: value => (name, some value)
  | [] => (name, none)

/-- Whether a variable stands before another one. -/
def isUpTo (a b : Text × Option Text) : Bool := Files.isUpTo (toBytes a.1) (toBytes b.1)

/-- Variables, sorted and ready to be set again. -/
def settingLines (head : Text) (settings : List (Text × Option Text)) : Text :=
  joinLines ((settings.mergeSort isUpTo).map fun (name, value) =>
    head ++ name ++ (value.map fun t => '=' :: quotedText t).getD [])

/-- `export` and `readonly` : mark variables, which may be set at the same time. -/
def markNames (head : String) (marked : Process → List Text) (mark : Text → Process → Process)
    (args : List Text) : Run Unit :=
  withOptions "p" args fun options args => do
    if args.isEmpty || options.contains 'p' then
      let s ← get
      let names := (marked s.toProcess).eraseDups
      say (settingLines head.toList (names.map fun name => (name, s.settings.lookup name)))
    else
      for arg in args do
        let (name, value) := splitSetting arg
        if !isName name then refuse (arg ++ ": bad variable name".toList)
        match value with
        | some value =>
          if (← get).locked.contains name then refuse (name ++ ": is read only".toList)
          put name value
        | none => pure ()
        modifyProcess (mark name)
      succeed

/-- `unset` : forget variables or functions. -/
def unsetNames (args : List Text) : Run Unit :=
  withOptions "fv" args fun options args => do
    for name in args do
      if options.contains 'f' then
        modifyProcess fun p => { p with functions := p.functions.filter (·.1 != name) }
      else if !isName name then refuse (name ++ ": bad variable name".toList)
      else if (← get).locked.contains name then refuse (name ++ ": is read only".toList)
      else
        unset name
        modifyProcess fun p => { p with exported := p.exported.filter (· != name) }
    succeed

/-- `local` : variables that get back what they held when the function ends. -/
def declareLocal (args : List Text) : Run Unit := do
  if (← get).calls = 0 then refuse "not in a function".toList
  else
    for arg in args do
      let (name, value) := splitSetting arg
      let held ← hold name
      modifyProcess fun p => { p with shadowed := held :: p.shadowed }
      match value with
      | some value => assign name value
      | none => pure ()
    succeed

/-! ### Options and arguments of the script -/

/-- The options by their letters and names. -/
def optionNames : List (Char × String) :=
  [('e', "errexit"), ('f', "noglob"), ('I', "ignoreeof"), ('i', "interactive"), ('m', "monitor"),
   ('n', "noexec"), ('s', "stdin"), ('x', "xtrace"), ('v', "verbose"), ('V', "vi"), ('E', "emacs"),
   ('C', "noclobber"), ('a', "allexport"), ('b', "notify"), ('u', "nounset"), ('p', "privileged"),
   ('\x01', "nolog"), ('\x02', "debug")]

/-- The state of all options, as a table or as commands. -/
def optionTable (isTable : Bool) (options : List Char) : Text :=
  let lines := optionNames.map fun (c, name) =>
    let isOn := options.contains c
    if isTable then
      name.toList ++ List.replicate (16 - name.length) ' ' ++ (if isOn then "on" else "off").toList
    else "set ".toList ++ (if isOn then '-' else '+') :: "o ".toList ++ name.toList
  joinLines (if isTable then "Current option settings".toList :: lines else lines)

/-- Turn an option on or off. -/
def switch (isOn : Bool) (c : Char) : Run Unit :=
  modifyProcess fun p =>
    let options := p.options.filter (· != c)
    { p with
      options :=
        if isOn then (optionNames.map (·.1)).filter fun d => d == c || options.contains d
        else options }

/-- Turn the options of a word on or off.  Those named by the next word are asked for by `o`. -/
def switchAll (isOn : Bool) : Text → List Text → Run (List Text)
  | [], rest => return rest
  | 'o' :: cs, rest => do
    match rest with
    | [] =>
      let _ ← write 1 (optionTable isOn (← get).options)
      switchAll isOn cs rest
    | name :: rest =>
      match optionNames.find? fun (_, n) => n.toList == name with
      | some (c, _) => switch isOn c
      | none => refuse ("Illegal option -o ".toList ++ name)
      switchAll isOn cs rest
  | c :: cs, rest => do
    if (optionNames.map (·.1)).contains c then switch isOn c
    else refuse ("Illegal option -".toList ++ [c])
    switchAll isOn cs rest

/-- `set` : options, and new arguments of the script behind them.  The bound is the number of
words. -/
def setWords : Nat → List Text → Run Unit
  | 0, _ => succeed
  | _, [] => succeed
  | n + 1, word :: rest => do
    let replace := fun (args : List Text) => do
      modifyProcess fun p => { p with args }
      succeed
    match word with
    | ['-', '-'] => replace rest
    | ['-'] =>
      switch false 'x'
      switch false 'v'
      if rest.isEmpty then succeed else replace rest
    | '-' :: letters =>
      let rest ← switchAll true letters rest
      setWords n rest
    | '+' :: letters =>
      let rest ← switchAll false letters rest
      setWords n rest
    | _ => replace (word :: rest)

/-- `set` without words lists the variables. -/
def set (args : List Text) : Run Unit := do
  if args.isEmpty then
    say (settingLines [] ((← get).settings.map fun (name, value) => (name, some value)))
  else setWords args.length args

/-- `getopts` : the next option among arguments.  `OPTIND` tells where it is looked for. -/
def getOptions (args : List Text) : Run Unit := do
  match args with
  | letters :: name :: given =>
    let s ← get
    let words := if given.isEmpty then s.args else given
    let index := ((s.settings.lookup "OPTIND".toList).bind natOf?).getD 1
    let offset := ((s.settings.lookup "OPTOFF".toList).bind natOf?).getD 1
    let isQuiet := letters.head? == some ':'
    let finishWith := fun (value : Text) (optarg : Option Text) (index offset status : Nat) => do
      put name value
      match optarg with
      | some t => put "OPTARG".toList t
      | none => unset "OPTARG".toList
      put "OPTIND".toList (decimal index)
      put "OPTOFF".toList (decimal offset)
      finish status
    let goesOn := decide (1 < offset)
    let word := words.getD (if goesOn then index - 2 else index - 1) []
    match word.drop offset with
    | [] => finishWith ['?'] none (if word == ['-', '-'] then index + 1 else index) 1 1
    | c :: rest =>
      if word.head? != some '-' then finishWith ['?'] none index 1 1
      else if word == ['-', '-'] then finishWith ['?'] none (index + 1) 1 1
      else
        let next := if goesOn then index else index + 1
        let behind := if rest.isEmpty then 1 else offset + 1
        match (letters.dropWhile fun d => d != c || d == ':') with
        | [] =>
          if isQuiet then finishWith ['?'] (some [c]) next behind 0
          else
            let _ ← write 2 ("Illegal option -".toList ++ [c, '\n'])
            finishWith ['?'] none next behind 0
        | _ :: mark =>
          if mark.head? != some ':' then finishWith [c] (some []) next behind 0
          else if !rest.isEmpty then finishWith [c] (some rest) next 1 0
          else
            match words[next - 1]? with
            | some value => finishWith [c] (some value) (next + 1) 1 0
            | none =>
              if isQuiet then finishWith [':'] (some [c]) next 1 0
              else
                let _ ← write 2 ("No arg for -".toList ++ [c] ++ " option\n".toList)
                finishWith ['?'] none next 1 0
  | _ => refuse "Usage: getopts optstring var [arg...]".toList

/-! ### Input and output -/

/-- `echo` : the arguments. -/
def echo (args : List Text) : Run Unit := say (echoText args)

/-- `printf` : a format filled in with the arguments behind it. -/
def printFormat (args : List Text) : Run Unit :=
  withOptions "" args fun _ args => do
    match args with
    | [] => refuse "usage: printf format [arg ...]".toList
    | format :: args =>
      let p := Printing.run format args
      for complaint in p.complaints do complain complaint
      match p.fault with
      | some fault =>
        refuse fault
        let _ ← write 1 p.output
      | none =>
        sayAndFinish (if p.complaints.isEmpty then 0 else 1) p.output

/-- `test` : whether a condition holds. -/
def test (args : List Text) : Run Unit := do
  let s ← get
  match Condition.holds ⟨s.files, s.directory⟩ args with
  | .ok b => finish (if b then 0 else 1)
  | .error t => refuse t

/-- `[` : a condition and a closing bracket. -/
def bracket (args : List Text) : Run Unit :=
  if args.getLast? == some [']'] then test args.dropLast else refuse "missing ]".toList

/-- A line of the input.  A character behind a backslash is marked as quoted unless `isRaw` holds,
and a line end behind one is dropped.  Behind it stands whether the line has an end, and the number
of characters read. -/
def takeLine (isRaw : Bool) : Text → List Marked × Bool × Nat
  | [] => ([], false, 0)
  | '\n' :: _ => ([], true, 1)
  | '\\' :: '\n' :: t =>
    if isRaw then ([⟨'\\', true⟩], true, 2)
    else
      let (ms, hasEnd, n) := takeLine isRaw t
      (ms, hasEnd, n + 2)
  | '\\' :: c :: t =>
    if isRaw then
      let (ms, hasEnd, n) := takeLine isRaw (c :: t)
      (⟨'\\', false⟩ :: ms, hasEnd, n + 1)
    else
      let (ms, hasEnd, n) := takeLine isRaw t
      (⟨c, true⟩ :: ms, hasEnd, n + 2)
  | c :: t =>
    let (ms, hasEnd, n) := takeLine isRaw t
    (⟨c, false⟩ :: ms, hasEnd, n + 1)

/-- Whether a marked character is white space that separates words. -/
def isSeparatorSpace (separators : Text) (m : Marked) : Bool :=
  !m.isQuoted && isSpace m.char && separators.contains m.char

/-- The first word of a line, and the rest behind its separator: white space, and at most one other
character with white space around it. -/
def takeWord (separators : Text) (ms : List Marked) : List Marked × List Marked :=
  let separates := fun (m : Marked) => !m.isQuoted && separators.contains m.char
  let word := ms.takeWhile fun m => !separates m
  let rest := (ms.drop word.length).dropWhile (isSeparatorSpace separators)
  match rest with
  | m :: more =>
    (word, if separates m then more.dropWhile (isSeparatorSpace separators) else rest)
  | [] => (word, [])

/-- The last word of a line: all of it, without white space at its end, and without one separator if
that leaves a single word. -/
def lastWord (separators : Text) (ms : List Marked) : List Marked :=
  let trim := fun (ms : List Marked) =>
    (ms.reverse.dropWhile (isSeparatorSpace separators)).reverse
  let whole := trim ms
  let (word, rest) := takeWord separators ms
  if rest.isEmpty then word else whole

/-- Set variables to the words of a line; the last one gets what is left. -/
def assignWords (separators : Text) : List Text → List Marked → Run Unit
  | [], _ => pure ()
  | [name], ms => assign name ((lastWord separators ms).map (·.char))
  | name :: names, ms => do
    let (word, rest) := takeWord separators ms
    assign name (word.map (·.char))
    assignWords separators names rest

/-- `read` : a line of the input, as words. -/
def readLine (args : List Text) : Run Unit := do
  let args :=
    match args with
    | ['-', 'p'] :: _ :: rest => rest
    | _ => args
  withOptions "r" args fun options names => do
    match names.find? fun name => !isName name with
    | some bad => refuse (bad ++ ": bad variable name".toList)
    | none =>
      if names.isEmpty then refuse "arg count".toList
      else
        let (ms, hasEnd, n) := takeLine (options.contains 'r') (← peekAll 0)
        consume 0 n
        let separators ← separators
        assignWords separators names (ms.dropWhile (isSeparatorSpace separators))
        finish (if hasEnd then 0 else 1)

/-! ### Places -/

/-- `cd` : another working directory. -/
def changeDirectory (args : List Text) : Run Unit :=
  withOptions "LP" args fun _ args => do
    let s ← get
    let home := (s.settings.lookup "HOME".toList).getD []
    let old := (s.settings.lookup "OLDPWD".toList).getD (placeText s.directory)
    let goesBack := args.head? == some ['-']
    let target := if goesBack then old else args.headD home
    let found : Except SystemError (Place × Entry) ←
      if target.isEmpty then pure (.ok (s.directory, .directory)) else locate target
    match found with
    | .ok (place, .directory) =>
      put "OLDPWD".toList (placeText s.directory)
      put "PWD".toList (placeText place)
      modifyProcess fun p => { p with directory := place }
      if goesBack then say (placeText place ++ ['\n']) else succeed
    | _ => refuse ("can't cd to ".toList ++ target)

/-- `pwd` : the working directory. -/
def printDirectory (args : List Text) : Run Unit :=
  withOptions "LP" args fun _ _ => do say (placeText (← get).directory ++ ['\n'])

/-- The path of the program that a name without a slash stands for, among directories. -/
def programIn? (directories : List Text) (name : Text) : Run (Option Text) := do
  let s ← get
  return directories.findSome? fun directory =>
    let path := if directory.isEmpty then name else directory ++ '/' :: name
    match s.files.find s.directory (pathOf path) with
    | .ok (.program _) => some path
    | _ => none

/-- Whether one of some directories has something by a name, be it a program or not. -/
def isNamed (directories : List Text) (name : Text) : Run Bool := do
  let s ← get
  return directories.any fun directory =>
    (s.files.find s.directory (pathOf (directory ++ '/' :: name))).toOption.isSome

/-- The path of the program that a name without a slash stands for, along the search path, which is
remembered. -/
def programPath? (name : Text) : Run (Option Text) := do
  match ← lookup? "PATH".toList with
  | none => return none
  | some directories =>
    let found ← programIn? (splitAt (· == ':') directories) name
    if found.isSome && !(← get).tracked.contains name then
      modifyProcess fun p => { p with tracked := p.tracked ++ [name] }
    return found

/-- The number of the row that a name belongs to in a table of so many rows. -/
def rowOf (rows : Nat) (name : Text) : Nat :=
  (name.foldl (fun n c => n + c.toNat) ((name.headD '\x00').toNat * 16)) % rows

/-- Names in the order of a table with rows. -/
def inRows (rows : Nat) (names : List Text) : List Text :=
  names.mergeSort fun a b => rowOf rows a ≤ rowOf rows b

/-! ### Names of commands -/

/-- What a name stands for as a command. -/
inductive Meaning where
  | keyword
  | alias (t : Text)
  | special
  | function
  | regular
  /-- A program, whose path may be remembered. -/
  | path (isTracked : Bool) (t : Text)
  | unknown

/-- The meaning of a name. -/
def meaningOf (name : Text) : Run Meaning := do
  let s := String.ofList name
  let state ← get
  if keywords.contains s then return .keyword
  else
    match state.aliases.lookup name with
    | some t => return .alias t
    | none =>
      if specialBuiltins.contains s then return .special
      else if (state.functions.lookup name).isSome then return .function
      else if regularNames.contains s then return .regular
      else if name.contains '/' then
        match ← locate name with
        | .ok (_, .program _) => return .path false name
        | _ => return .unknown
      else
        match ← programPath? name with
        | some path => return .path (state.tracked.contains name) path
        | none => return .unknown

/-- The meaning of a name as a line, in full or in short, and whether there is one. -/
def describeName (inFull : Bool) (name : Text) : Run (Text × Bool) := do
  let meaning ← meaningOf name
  let line :=
    if inFull then
      name ++ match meaning with
        | .keyword => " is a shell keyword".toList
        | .alias t => " is an alias for ".toList ++ t
        | .special => " is a special shell builtin".toList
        | .function => " is a shell function".toList
        | .regular => " is a shell builtin".toList
        | .path true t => " is a tracked alias for ".toList ++ t
        | .path false t => " is ".toList ++ t
        | .unknown => ": not found".toList
    else
      match meaning with
      | .path _ t => t
      | .alias t => "alias ".toList ++ name ++ '=' :: quotedText t
      | _ => name
  match meaning with
  | .unknown => return (if inFull then line ++ ['\n'] else [], false)
  | _ => return (line ++ ['\n'], true)

/-- What names stand for; the status tells whether they all stand for something. -/
def describeNames (inFull : Bool) (names : List Text) : Run Unit := do
  let found ← names.mapM (describeName inFull)
  sayAndFinish (if found.all (·.2) then 0 else 127) (found.flatMap (·.1))

/-- `alias` : texts that stand for commands, which are set or shown. -/
def setAliases (args : List Text) : Run Unit := do
  let line := fun (name text : Text) => name ++ '=' :: quotedText text ++ ['\n']
  let s ← get
  if args.isEmpty then
    let names := inRows 39 (s.aliases.reverse.map (·.1))
    say (names.flatMap fun name => line name ((s.aliases.lookup name).getD []))
  else
    finish 0
    for arg in args do
      match (arg.drop 1).dropWhile (· != '=') with
      | _ :: text =>
        let name := arg.take (arg.length - text.length - 1)
        modifyProcess fun p =>
          { p with
            aliases :=
              if p.aliases.any (·.1 == name) then
                p.aliases.map fun (n, t) => if n == name then (n, text) else (n, t)
              else (name, text) :: p.aliases }
      | [] =>
        match (← get).aliases.lookup arg with
        | some text =>
          let _ ← write 1 (line arg text)
        | none =>
          let _ ← write 2 ("alias: ".toList ++ arg ++ " not found\n".toList)
          finish 1

/-- `unalias` : texts that stand for commands no more. -/
def unsetAliases (args : List Text) : Run Unit :=
  withOptions "a" args fun options names => do
    finish 0
    if options.contains 'a' then modifyProcess fun p => { p with aliases := [] }
    else
      for name in names do
        if (← get).aliases.any (·.1 == name) then
          modifyProcess fun p => { p with aliases := p.aliases.filter (·.1 != name) }
        else
          let _ ← write 2 ("unalias: ".toList ++ name ++ " not found\n".toList)
          finish 1

/-- `hash` : programs whose paths are remembered. -/
def hash (args : List Text) : Run Unit :=
  withOptions "rv" args fun options names => do
    finish 0
    if options.contains 'r' then modifyProcess fun p => { p with tracked := [] }
    else if names.isEmpty then
      let paths ← (inRows 31 (← get).tracked).mapM programPath?
      say (joinLines (paths.filterMap id))
    else
      for name in names do
        match ← meaningOf name with
        | .unknown =>
          complain (name ++ ": not found".toList)
          finish 1
        | _ => pure ()

/-! ### Signals and processes -/

/-- Arrange what is to happen at signals, up to the first word that names none. -/
def arrange (action : Option Text) : List Text → Run Unit
  | [] => finish 0
  | word :: rest => do
    match Signal.number? 0 word with
    | some n =>
      modifyProcess fun p =>
        let others := p.traps.filter (·.1 != n)
        { p with
          traps :=
            match action with
            | some t => (n, t) :: others
            | none => others }
      arrange action rest
    | none =>
      let _ ← write 2 ("trap: ".toList ++ word ++ ": bad trap\n".toList)
      finish 1

/-- `trap` : scripts to run at signals. -/
def trap (args : List Text) : Run Unit :=
  withOptions "" args fun _ args => do
    match args with
    | [] =>
      let traps := (← get).traps
      say (joinLines ((List.range (Signal.names.length + 1)).filterMap fun n =>
        (traps.lookup n).map fun action =>
          "trap -- ".toList ++ quotedText action ++ ' ' :: Signal.name n))
    | first :: rest =>
      if rest.isEmpty || (Signal.number? 0 first).isSome then arrange none args
      else arrange (if first == ['-'] then none else some first) rest

/-- `wait` : the end of commands that nothing waited for; they have all ended. -/
def wait (args : List Text) : Run Unit := do
  match args with
  | [] => succeed
  | arg :: _ =>
    match count? arg with
    | some n => finish (((← get).background.lookup n).getD 127)
    | none => refuseNumber arg

/-- Send a signal to the process with a number, and tell whether there is one.  A signal to the
shell itself for which nothing is arranged ends it at once. -/
def send (signal number : Nat) : Run Bool := do
  let s ← get
  if number = s.number ∧ s.isMain ∧ !Signal.isHarmless signal ∧ (s.traps.lookup signal).isNone then
    throw (.signal signal)
  if number = s.number ∨ s.ancestors.contains number then
    if signal ≠ 0 then modify fun s => { s with raised := (number, signal) :: s.raised }
    return true
  else if s.background.any (·.1 == number) then
    if !Signal.isHarmless signal then
      modifyProcess fun p =>
        { p with
          background := p.background.map fun (n, status) =>
            (n, if n = number then 128 + signal else status) }
    return true
  else return false

/-- Send a signal to processes, and complain of those that do not exist. -/
def sendAll (signal : Nat) : List Text → Run Unit
  | [] => pure ()
  | arg :: rest => do
    match count? arg with
    | none => refuseNumber arg
    | some number =>
      if !(← send signal number) then
        complain "No such process\n".toList
        finish 1
      sendAll signal rest

/-- `kill` : a signal to processes, or the names of signals. -/
def kill (args : List Text) : Run Unit := do
  let usage :=
    refuse ("Usage: kill [-s sigspec | -signum | -sigspec] [pid | job]... or\n".toList ++
      "kill -l [exitstatus]".toList)
  let deliver := fun (signal : Nat) (targets : List Text) => do
    finish 0
    if targets.isEmpty then usage else sendAll signal targets
  let plain := fun (words : List Text) =>
    if words.head? == some ['-', '-'] then words.tail else words
  match args with
  | ('-' :: word) :: rest =>
    match Signal.number? 1 word with
    | some signal => deliver signal rest
    | none =>
      match word with
      | ['l'] =>
        match plain rest with
        | [] => say ('0' :: '\n' :: joinLines (Signal.names.map String.toList))
        | arg :: _ =>
          match count? arg with
          | none => refuseNumber arg
          | some n =>
            let n := if 128 < n then n - 128 else n
            if n = 0 ∨ Signal.names.length < n then
              refuse ("invalid signal number or exit status: ".toList ++ arg)
            else say (Signal.name n ++ ['\n'])
      | ['s'] =>
        match rest with
        | [] => refuse "No arg for -s option".toList
        | name :: rest =>
          match Signal.number? 1 name with
          | some signal => deliver signal (plain rest)
          | none => refuse ("invalid signal number or name: ".toList ++ name)
      | ['-'] => deliver 15 rest
      | c :: _ => refuse ("Illegal option -".toList ++ [c])
      | [] => refuseNumber ['-']
  | _ => deliver 15 args

/-! ### Permissions and resources -/

/-- The letters of permissions, from a digit. -/
def permissionLetters (n : Nat) : Text :=
  (if 4 ≤ n then ['r'] else []) ++ (if 2 ≤ n % 4 then ['w'] else []) ++
    if n % 2 = 1 then ['x'] else []

/-- The digits of permissions for the owner, the group and others. -/
abbrev Permissions := List Nat

/-- The permissions that letters stand for, of a given class; letters of classes stand for what
these have. -/
def lettersDigit (now : Permissions) (letters : Text) : Nat :=
  letters.foldl
    (fun n c =>
      n ||| match c with
        | 'r' => 4
        | 'w' => 2
        | 'x' => 1
        | 'X' => if now.any (· % 2 = 1) then 1 else 0
        | 'u' => now.getD 0 0
        | 'g' => now.getD 1 0
        | 'o' => now.getD 2 0
        | _ => 0)
    0

/-- The permissions after a clause such as `u+x` or `go=r`.  The bound is its length. -/
def applyOperators (classes : Text) : Nat → Text → Permissions → Option Permissions
  | _, [], now => some now
  | 0, _, _ => none
  | n + 1, op :: t, now =>
    let letters := t.takeWhile fun c => "rwxXstugo".toList.contains c
    let digit := lettersDigit now letters
    let isAll := classes.isEmpty || classes.contains 'a'
    let change := fun (old : Nat) =>
      match op with
      | '+' => some (old ||| digit)
      | '-' => some (old &&& (7 - digit))
      | '=' => some digit
      | _ => none
    let changed := (now.zip ['u', 'g', 'o']).mapM fun (old, who) =>
      if isAll || classes.contains who then change old else (change old).map fun _ => old
    changed.bind fun next => applyOperators classes n (t.drop letters.length) next

/-- The permissions after clauses between commas. -/
def applyClauses (t : Text) (now : Permissions) : Option Permissions :=
  (splitAt (· == ',') t).foldlM
    (fun now clause =>
      let classes := clause.takeWhile fun c => "ugoa".toList.contains c
      applyOperators classes (clause.length + 1) (clause.drop classes.length) now)
    now

/-- `umask` : the permissions that new files lack. -/
def umask (args : List Text) : Run Unit :=
  withOptions "S" args fun options args => do
    let mask := (← get).mask
    let kept := mask.map fun d => 7 - d.toNat % 8
    match args with
    | [] =>
      if options.contains 'S' then
        let classes := (['u', 'g', 'o'].zip kept).map fun (who, n) =>
          who :: '=' :: permissionLetters n
        say (joinWith [','] classes ++ ['\n'])
      else say ('0' :: mask ++ ['\n'])
    | arg :: _ =>
      if arg.head?.any Char.isDigit then
        if arg.all (isDigitIn 8) then
          let padded := ['0', '0', '0'] ++ arg
          modifyProcess fun p => { p with mask := padded.drop (padded.length - 3) }
          succeed
        else refuseNumber arg
      else
        match applyClauses arg kept with
        | some next =>
          modifyProcess fun p => { p with mask := next.flatMap fun n => decimal (7 - n) }
          succeed
        | none => refuse ("Illegal mode: ".toList ++ arg)

/-- The resources that have limits: the letters of their options, what they are, and how much there
is. -/
def resources : List (Char × String × String) :=
  [('t', "time(seconds)", "unlimited"), ('f', "file(blocks)", "unlimited"),
   ('d', "data(kbytes)", "unlimited"), ('s', "stack(kbytes)", "8192"),
   ('c', "coredump(blocks)", "0"), ('m', "memory(kbytes)", "unlimited"),
   ('l', "locked memory(kbytes)", "8192"), ('p', "process", "unlimited"),
   ('n', "nofiles", "1024"), ('v', "vmemory(kbytes)", "unlimited"), ('w', "locks", "unlimited"),
   ('r', "rtprio", "0")]

/-- `ulimit` : the limits of resources. -/
def limit (args : List Text) : Run Unit :=
  withOptions "HSatfdscmlpnvwr" args fun options args => do
    let limits := (← get).limits
    let amount := fun (c : Char) (standard : String) => (limits.lookup c).getD standard.toList
    if options.contains 'a' then
      say (resources.flatMap fun (c, name, standard) =>
        name.toList ++ List.replicate (20 - name.length) ' ' ++ ' ' :: amount c standard ++ ['\n'])
    else
      let c := (options.reverse.find? fun c => c != 'H' && c != 'S').getD 'f'
      match args with
      | [] =>
        let standard := ((resources.lookup c).map (·.2)).getD "unlimited"
        say (amount c standard ++ ['\n'])
      | [arg] =>
        if arg == "unlimited".toList || (!arg.isEmpty && arg.all Char.isDigit) then
          modifyProcess fun p => { p with limits := (c, arg) :: p.limits }
          succeed
        else refuse "bad number".toList
      | _ => refuse "too many arguments".toList

/-! ### All of them -/

/-- What a builtin command does, unless it runs scripts. -/
def action? (name : Text) (args : List Text) : Option (Run Unit) :=
  match String.ofList name with
  | ":" => some succeed
  | "true" => some succeed
  | "false" => some (finish 1)
  | "exit" => some (exit args)
  | "return" => some (leave args)
  | "break" => some (leaveLoops .breakLoops args)
  | "continue" => some (leaveLoops .continueLoop args)
  | "shift" => some (shift args)
  | "export" =>
    some (markNames "export " (·.exported) (fun n p => { p with exported := n :: p.exported }) args)
  | "readonly" =>
    some (markNames "readonly " (·.locked) (fun n p => { p with locked := n :: p.locked }) args)
  | "unset" => some (unsetNames args)
  | "local" => some (declareLocal args)
  | "set" => some (set args)
  | "getopts" => some (getOptions args)
  | "echo" => some (echo args)
  | "printf" => some (printFormat args)
  | "test" => some (test args)
  | "[" => some (bracket args)
  | "read" => some (readLine args)
  | "cd" => some (changeDirectory args)
  | "pwd" => some (printDirectory args)
  | "type" => some (describeNames true args)
  | "trap" => some (trap args)
  | "wait" => some (wait args)
  | "kill" => some (kill args)
  | "umask" => some (umask args)
  | "hash" => some (hash args)
  | "times" => some (say "0m0.000000s 0m0.000000s\n0m0.000000s 0m0.000000s\n".toList)
  | "ulimit" => some (limit args)
  | "jobs" => some succeed
  | "alias" => some (setAliases args)
  | "unalias" => some (unsetAliases args)
  | "fg" => some (refuse "No current job".toList)
  | "bg" => some (refuse "No current job".toList)
  | _ => none

end Builtin

end Shell

end CliffordT
