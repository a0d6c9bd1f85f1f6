import CliffordT.Host.Shell.Builtin
import CliffordT.Host.Shell.Parser
import CliffordT.Host.Shell.Redirection
import CliffordT.Host.Tool.Programs

/-!
# Running scripts

Scripts run on the state of a process.  Whatever they ask the machine for, other programs and other
shells included, runs to its end before they go on; the commands of a pipeline run one after the
other, each on the whole output of the one before it.

* `Run.evaluate` : run a script,
* `Run.runProgram` : run a program with arguments.

Every function takes a bound on the depth of its calls.  A script that goes deeper is stopped.
-/

namespace CliffordT

namespace Shell

namespace Run

/-- The greatest number of turns of a loop. -/
def mostTurns : Nat := 0x10000000

/-- The greatest number of function calls in each other. -/
def mostCalls : Nat := 1000

/-- The end of a command whose failure may end the process. -/
def checkFailure (isTested : Bool) : Run Unit := do
  if !isTested && (← hasOption 'e') && (← get).status != 0 then throw .exit

/-- Set a variable for programs, and tell what it was before. -/
def lend (binding : Text × Text) : Run Held := do
  let (name, value) := binding
  let held ← hold name
  assign name value
  modifyProcess fun p => { p with exported := held.marked true p.exported }
  return held

/-- Let variables be what they were before. -/
def giveBack (lent : List Held) : Run Unit := lent.reverse.forM restore

/-- The variables that programs get to know, in the order of a table with 39 rows. -/
def environment : Run (List (Text × Text)) := do
  let s ← get
  let found := s.settings.reverse.filter fun (name, _) => s.exported.contains name
  return found.mergeSort fun a b => Builtin.rowOf 39 a.1 ≤ Builtin.rowOf 39 b.1

/-- Whether words are the start of a command that sets variables, and does not cut the values in its
arguments. -/
def setsVariables (functions : List (Text × Script)) (words : List Text) : Bool :=
  let words :=
    if words.head? == some "command".toList then
      words.tail.dropWhile fun t => t.head? == some '-'
    else words
  match words with
  | name :: _ =>
    ["alias", "export", "local", "readonly"].contains (String.ofList name) &&
      (functions.lookup name).isNone
  | [] => false

/-- The words that the phrases of a command stand for, behind some words. -/
def commandWords (outputOf : Option Script → Run Text) :
    List Text → List Phrase → Run (List Text)
  | words, [] => return words
  | words, p :: rest => do
    let setting :=
      if setsVariables (← get).functions words then Source.assignment? p else none
    let more ←
      match setting with
      | some (.mk name value) => do pure [name ++ '=' :: (← settingText outputOf value)]
      | none => fields outputOf p
    commandWords outputOf (words ++ more) rest

/-- A program that a name stands for, or why it cannot run, with the status for that. -/
def findProgram (name : Text) : Run (Except (Nat × Text) String) := do
  let path ←
    if name.isEmpty then pure none
    else if name.contains '/' then pure (some name)
    else Builtin.programPath? name
  match path with
  | none =>
    let directories := ((← lookup? "PATH".toList).map (splitAt (· == ':'))).getD []
    let isDenied := name.isEmpty || (← Builtin.isNamed directories name)
    return .error (127, (if isDenied then "Permission denied" else "not found").toList)
  | some path =>
    match ← locate path with
    | .ok (_, .program p) => return .ok p
    | .ok _ => return .error (126, "Permission denied".toList)
    | .error e =>
      if e = .notFound ∨ e = .notDirectory then return .error (127, "not found".toList)
      else return .error (126, Tool.errorText e)

/-- Remember the path of the program that a command runs, if its name is written out. -/
def rememberPath : Script → Run Unit
  | .simple _ _ ([.chars false name] :: _) _ => do
    let isProgram :=
      isName name && !Builtin.isBuiltin name && ((← get).functions.lookup name).isNone
    if isProgram then let _ ← Builtin.programPath? name
  | _ => pure ()

/-- Show a command before it runs, on what the error output was before its redirections. -/
def trace (before : List (Nat × Nat)) (words : List Text) : Run Unit := do
  if ← hasOption 'x' then
    let now := (← get).descriptors
    restoreDescriptors before
    let head := (← lookup? "PS4".toList).getD "+ ".toList
    let _ ← write 2 (head ++ joinWith [' '] words ++ ['\n'])
    restoreDescriptors now

/-- Run the commands of a text one by one, each behind the last one.  The bound is on their
number. -/
def runCommands (run : Script → Run Unit) : Nat → Bool → Source → Run Unit
  | 0, _, _ => pure ()
  | n + 1, isFirst, source => do
    let s ← get
    match Source.next { source with count := s.documents.length, aliases := s.aliases } with
    | .ok (some script, source) =>
      modify fun s => { s with documents := source.documents ++ s.documents }
      run script
      runCommands run n false { source with documents := [] }
    | .ok (none, _) => if isFirst then finish 0
    | .error (line, fault) =>
      modifyProcess fun p => { p with line }
      abort ("Syntax error: ".toList ++ fault.message.toList)

/-- Words in groups of a size; the last group may be smaller.  The bound is the number of words. -/
def chunks (size : Nat) : Nat → List Text → List (List Text)
  | 0, ts => [ts]
  | n + 1, ts => if ts.length ≤ size then [ts] else ts.take size :: chunks size n (ts.drop size)

/-- The words of an input, in which quotes and backslashes hide white space. -/
def inputWords : Option Char → Option Text → Text → List Text
  | _, current, [] => current.toList.map List.reverse
  | some quote, current, c :: t =>
    if c = quote then inputWords none current t
    else inputWords (some quote) (some (c :: current.getD [])) t
  | none, current, '\\' :: c :: t => inputWords none (some (c :: current.getD [])) t
  | none, current, c :: t =>
    if c = '\'' ∨ c = '"' then inputWords (some c) (some (current.getD [])) t
    else if isSpace c then current.toList.map List.reverse ++ inputWords none none t
    else inputWords none (some (c :: current.getD [])) t

/-- Replace a text wherever it occurs.  The bound is the length of the text. -/
def replaceAll (old new : Text) : Nat → Text → Text
  | n + 1, c :: t =>
    if !old.isEmpty && old.isPrefixOf (c :: t) then
      new ++ replaceAll old new n ((c :: t).drop old.length)
    else c :: replaceAll old new n t
  | _, t => t

/-- The arguments of the calls that an input asks for: one for each line that replaces a mark, or as
few as possible, with the words of the input behind the given arguments. -/
def inputCalls (o : Tool.Options) (input : Text) : List (List Text) :=
  let given := o.operands.tail
  match o.value? 'I' with
  | some mark =>
    let lines := (splitLines input).map (·.dropWhile isSpace)
    (lines.filter (!·.isEmpty)).map fun line =>
      given.map fun arg => replaceAll mark line (arg.length + 1) arg
  | none =>
    let words :=
      if o.has '0' then (splitAt (· == '\x00') input).filter (!·.isEmpty)
      else inputWords none none input
    if words.isEmpty then (if o.has 'r' then [] else [given])
    else
      let size := ((o.value? 'n').bind natOf?).getD words.length
      (chunks size words.length words).map (given ++ ·)

/-- Turn on or off what the options of a shell ask for.  The words behind them are returned, and
whether the first of these is a script.  The bound is the number of words. -/
def shellOptions : Nat → List Text → Run (Bool × List Text)
  | 0, words => return (false, words)
  | _, [] => return (false, [])
  | n + 1, word :: rest => do
    match word with
    | ['-'] => return (false, rest)
    | ['-', '-'] => return (false, rest)
    | sign :: letters =>
      if sign = '-' ∨ sign = '+' then
        let rest ← Builtin.switchAll (sign == '-') (letters.filter (· != 'c')) rest
        let (hasScript, words) ← shellOptions n rest
        return (letters.contains 'c' || hasScript, words)
      else return (false, word :: rest)
    | [] => return (false, word :: rest)

/-- The variables that a shell starts with, from those of its environment and the number of the
process that runs it. -/
def initialSettings (environment : List (Text × Text)) (parent : Nat) : List (Text × Text) :=
  let path : Text := "/usr/local/sbin:/usr/local/bin:/usr/sbin:/usr/bin:/sbin:/bin".toList
  environment ++
    (if environment.any (·.1 == "PATH".toList) then [] else [("PATH".toList, path)]) ++
    ("PPID".toList, decimal parent) ::
    [("IFS", " \t\n"), ("OPTIND", "1"), ("PS1", "# "), ("PS2", "> "), ("PS4", "+ ")].map
      fun (name, value) => (name.toList, value.toList)

mutual

/-- Run a script.  Where `isTested` holds, a failure is no reason to end the process. -/
def evaluate : Nat → Bool → Script → Run Unit
  | 0, _, _ => throw .exit
  | n + 1, isTested, script => do
    if ← hasOption 'n' then return
    evaluateOne n isTested script
    if !(← get).raised.isEmpty then handleSignals n

/-- Run a script, without regard to signals. -/
def evaluateOne : Nat → Bool → Script → Run Unit
  | 0, _, _ => throw .exit
  | n + 1, isTested, script => do
    match script with
    | .simple line assignments words redirections =>
      modifyProcess fun p => { p with line, outputStatus := none }
      simple n isTested assignments words redirections
      checkFailure isTested
    | .pipeline commands =>
      pipe n isTested (← get).status none commands
      checkFailure isTested
    | .sequence first second =>
      evaluate n isTested first
      evaluate n isTested second
    | .andThen first second =>
      evaluate n true first
      if (← get).status = 0 then evaluate n isTested second
    | .orElse first second =>
      evaluate n true first
      if (← get).status ≠ 0 then evaluate n isTested second
    | .negated body =>
      evaluate n true body
      finish (if (← get).status = 0 then 1 else 0)
    | .background body =>
      inSubshell n do
        let input ← addStream (.source [])
        redirect 0 (some input)
        evaluate n isTested body
      let number := (← get).lastNumber + 1
      modify fun s => { s with lastNumber := number }
      modifyProcess fun p =>
        { p with background := (number, p.status) :: p.background, status := 0 }
    | .subshell line body redirections =>
      modifyProcess fun p => { p with line }
      inSubshell n do
        if ← redirectAll (outputOf n) redirections then evaluate n isTested body
      checkFailure isTested
    | .redirected line body redirections =>
      modifyProcess fun p => { p with line }
      let before := (← get).descriptors
      protect
        (do
          if ← redirectAll (outputOf n) redirections then evaluate n isTested body
          else checkFailure isTested)
        (restoreDescriptors before)
    | .loop untilSuccess condition body =>
      inLoop
        (loop
          (do
            let goesOn ← turn (evaluate n true condition)
            return goesOn && ((← get).status == 0) != untilSuccess)
          (evaluate n isTested body) mostTurns 0)
    | .each line name words body =>
      modifyProcess fun p => { p with line }
      let texts ←
        match words with
        | some ws => pure (← ws.mapM (fields (outputOf n))).flatten
        | none => pure (← get).args
      if texts.isEmpty then finish 0
      inLoop
        (forEach
          (fun t => do
            assign name t
            evaluate n isTested body)
          texts)
    | .conditional condition yes no =>
      evaluate n true condition
      if (← get).status = 0 then evaluate n isTested yes
      else
        match no with
        | some no => evaluate n isTested no
        | none => finish 0
    | .choice line subject branches =>
      modifyProcess fun p => { p with line }
      let t ← text (outputOf n) subject
      choose n isTested t branches
    | .define name body =>
      modifyProcess fun p =>
        { p with functions := (name, body) :: p.functions.filter (·.1 != name) }
      finish 0

/-- Run an action as a loop. -/
def inLoop (body : Run Unit) : Run Unit := do
  let loops := (← get).loops
  modifyProcess fun p => { p with loops := loops + 1 }
  protect body (modifyProcess fun p => { p with loops })

/-- Run the first branch with a pattern that fits a text. -/
def choose : Nat → Bool → Text → List Branch → Run Unit
  | 0, _, _, _ => throw .exit
  | _ + 1, _, _, [] => finish 0
  | n + 1, isTested, t, .mk patterns body :: rest => do
    if ← patterns.anyM fun p => return Glob.fits (← pattern (outputOf n) p) t then
      match body with
      | some body => evaluate n isTested body
      | none => finish 0
    else choose n isTested t rest

/-- Run the scripts that are to run at the signals that have been sent to this shell.  A signal for
which nothing is arranged ends it. -/
def handleSignals : Nat → Run Unit
  | 0 => throw .exit
  | n + 1 => do
    let s ← get
    if s.isMain then
      let own := (s.raised.filter (·.1 = s.number)).reverse
      set { s with raised := s.raised.filter (·.1 ≠ s.number) }
      for (_, signal) in own do
        match (← get).traps.lookup signal with
        | some action =>
          let status := (← get).status
          runText n action
          finish status
        | none => if !Signal.isHarmless signal then throw (.signal signal)

/-- Run an action in a process of its own, of which only the status stays. -/
def inSubshell : Nat → Run Unit → Run Unit
  | 0, _ => throw .exit
  | n + 1, body => do
    let before := (← get).toProcess
    modifyProcess fun p =>
      { p with traps := p.traps.filter (·.2.isEmpty), isMain := false, background := [] }
    let killer ← toEnd n body
    let own := (← get).status % 256
    modifyProcess fun _ => { before with status := (killer.map (128 + ·)).getD own }
    match killer.bind Signal.description? with
    | some text =>
      let _ ← write 2 (text.toList ++ ['\n'])
    | none => pure ()

/-- Run an action to the end of its process, and the script that is to run then.  The result is the
signal that has ended the process, if one has. -/
def toEnd : Nat → Run Unit → Run (Option Nat)
  | 0, _ => throw .exit
  | n + 1, body => do
    let jump ← caught (do
      body
      handleSignals n)
    match jump with
    | some (.signal signal) => return some signal
    | _ =>
      let s ← get
      match s.traps.lookup 0 with
      | some action =>
        modifyProcess fun p => { p with traps := [] }
        match ← caught (runText n action) with
        | some .exit => pure ()
        | some (.signal signal) => return some signal
        | _ => finish s.status
      | none => pure ()
      return none

/-- Run a text as a script. -/
def runText : Nat → Text → Run Unit
  | 0, _ => throw .exit
  | n + 1, t => do
    runCommands (evaluate n false) (t.length + 1) true (Source.ofText t 1)

/-- What a script writes, without the line ends behind it. -/
def outputOf : Nat → Option Script → Run Text
  | 0, _ => throw .exit
  | n + 1, body => do
    let before := (← get).status
    let out ← addStream (.sink [])
    match body with
    | some body =>
      inSubshell n do
        redirect 1 (some out)
        evaluate n false body
    | none => finish 0
    modifyProcess fun p => { p with outputStatus := some p.status, status := before }
    return trimLineEnds ((← written out).filter (· != '\x00'))

/-- Run the commands of a pipeline, each of them with a status to start with.  The first one reads a
stream if one is given. -/
def pipe : Nat → Bool → Nat → Option Nat → List Script → Run Unit
  | 0, _, _, _, _ => throw .exit
  | _ + 1, _, _, _, [] => pure ()
  | n + 1, isTested, status, input, command :: rest => do
    finish status
    rememberPath command
    let connect : Run Unit :=
      match input with
      | some n => redirect 0 (some n)
      | none => pure ()
    if rest.isEmpty then
      inSubshell n do
        connect
        evaluate n isTested command
    else
      let out ← addStream (.sink [])
      inSubshell n do
        connect
        redirect 1 (some out)
        evaluate n isTested command
      let next ← addStream (.source (← written out))
      pipe n isTested status (some next) rest

/-- Run assignments, or a command with its words. -/
def simple : Nat → Bool → List Assignment → List Phrase → List Redirection → Run Unit
  | 0, _, _, _, _ => throw .exit
  | n + 1, isTested, assignments, phrases, redirections => do
    let words ← commandWords (outputOf n) [] phrases
    let before := (← get).descriptors
    let keeps := words == ["exec".toList]
    let isSpecial := specialBuiltins.contains (String.ofList (words.headD []))
    let body : Run Unit := do
      if ← redirectAll (outputOf n) redirections then
        match words with
        | [] =>
          let shown ← assignments.mapM fun (.mk name value) => do
            let t ← settingText (outputOf n) value
            assign name t
            return name ++ '=' :: t
          trace before shown
          finish ((← get).outputStatus.getD 0)
        | name :: args =>
          let bindings ← assignments.mapM fun (.mk name value) => do
            return (name, ← settingText (outputOf n) value)
          trace before (bindings.map (fun (name, t) => name ++ '=' :: t) ++ words)
          command n isTested bindings name args
      else if isSpecial then throw .exit
    if keeps then body else protect body (restoreDescriptors before)

/-- Run a command with its arguments, for which some variables are set. -/
def command : Nat → Bool → List (Text × Text) → Text → List Text → Run Unit
  | 0, _, _, _, _ => throw .exit
  | n + 1, isTested, bindings, name, args => do
    let s := String.ofList name
    if specialBuiltins.contains s then
      for (name, value) in bindings do assign name value
      builtin n true name args
    else
      match (← get).functions.lookup name with
      | some body =>
        let lent ← bindings.mapM lend
        protect (callFunction n isTested body args) (giveBack lent)
      | none =>
        let lent ← bindings.mapM lend
        protect
          (if Builtin.isBuiltin name then builtin n false name args else external n name args)
          (giveBack lent)

/-- Run a builtin command.  Its faults end the process where `isStrict` holds. -/
def builtin : Nat → Bool → Text → List Text → Run Unit
  | 0, _, _, _ => throw .exit
  | n + 1, isStrict, name, args => do
    let before := (← get).toProcess
    modifyProcess fun p => { p with builtin := some name, isStrict }
    let action :=
      match Builtin.action? name args with
      | some action => action
      | none =>
        match String.ofList name with
        | "eval" => runText n (joinWith [' '] args)
        | "exec" => replaceBy n args
        | "command" => plainCommand n args
        | _ => runFile n args
    protect action
      (modifyProcess fun p =>
        { p with builtin := before.builtin, isStrict := before.isStrict })

/-- `exec` : go on as another program. -/
def replaceBy : Nat → List Text → Run Unit
  | 0, _ => throw .exit
  | _ + 1, [] => finish 0
  | n + 1, name :: args => do
    match ← findProgram name with
    | .ok program =>
      modifyProcess fun p => { p with traps := p.traps.filter (·.2.isEmpty) }
      runProgram n program name args
    | .error (status, reason) =>
      complain (name ++ ": ".toList ++ reason)
      finish status
    throw .exit

/-- `command` : run a command that is no function, or tell what it is. -/
def plainCommand : Nat → List Text → Run Unit
  | 0, _ => throw .exit
  | n + 1, args =>
    Builtin.withOptions "pvV" args fun options words => do
      match words with
      | [] => finish 0
      | name :: rest =>
        if options.contains 'v' || options.contains 'V' then
          Builtin.describeNames (options.contains 'V') [name]
        else
          modifyProcess fun p => { p with builtin := none }
          if Builtin.isBuiltin name then builtin n false name rest else external n name rest

/-- `.` : run the commands of a file. -/
def runFile : Nat → List Text → Run Unit
  | 0, _ => throw .exit
  | _ + 1, [] => finish 0
  | n + 1, name :: _ => do
    let hasSlash := name.contains '/'
    match ← locate name with
    | .ok (place, .file content) =>
      if !hasSlash then refuse (name ++ ": not found".toList)
      else
        let t := ofBytes content
        let _ := place
        match ← caught (runText n t) with
        | some .leave => pure ()
        | some j => throw j
        | none => pure ()
    | .ok (_, .device _) => finish 0
    | _ =>
      refuse (if hasSlash then "cannot open ".toList ++ name ++ ": No such file".toList
        else name ++ ": not found".toList)

/-- Call a function. -/
def callFunction : Nat → Bool → Script → List Text → Run Unit
  | 0, _, _, _ => throw .exit
  | n + 1, isTested, body, args => do
    let before := (← get).toProcess
    if mostCalls ≤ before.calls then
      abort "Maximum function recursion depth (1000) reached".toList
    modifyProcess fun p =>
      { p with args, loops := 0, calls := p.calls + 1, shadowed := [] }
    let jump ← caught (evaluate n isTested body)
    (← get).shadowed.forM restore
    modifyProcess fun p =>
      { p with
        args := before.args, loops := before.loops, calls := before.calls
        shadowed := before.shadowed }
    match jump with
    | none => pure ()
    | some .leave => pure ()
    | some j => throw j

/-- Run a program that a name stands for. -/
def external : Nat → Text → List Text → Run Unit
  | 0, _, _ => throw .exit
  | n + 1, name, args => do
    match ← findProgram name with
    | .ok program => runProgram n program name args
    | .error (status, reason) =>
      complain (name ++ ": ".toList ++ reason)
      finish status

/-- Run a program under a name with arguments. -/
def runProgram : Nat → String → Text → List Text → Run Unit
  | 0, _, _, _ => throw .exit
  | n + 1, program, name, args => do
    if program = "sh" then inSubshell n (becomeShell n name args)
    else if program = "env" then runWithEnvironment n args
    else if program = "xargs" then runWithInput n args
    else
      match Tool.action? program with
      | none => finish 0
      | some action =>
        let s ← get
        let answer := action
          { name, args, input := ← peekAll 0, inputSize := ← size? 0
            hasOutput := (← stream? 1).isSome, files := s.files, directory := s.directory
            environment := ← environment }
        if answer.readsInput then let _ ← readAll 0
        match answer.changed with
        | some files => modify fun s => { s with files }
        | none => pure ()
        let _ ← write 2 answer.complaints
        if ← write 1 answer.output then finish answer.status
        else
          let isClosed := (← stream? 1).isNone
          let _ ← write 2 (name ++ ": write error: ".toList ++
            (if isClosed then "Bad file descriptor\n" else "No space left on device\n").toList)
          finish 1

/-- Go on as a new shell, which runs a script behind `-c`, the script in a file, or the one that is
read. -/
def becomeShell : Nat → Text → List Text → Run Unit
  | 0, _, _ => throw .exit
  | n + 1, name, args => do
    let settings ← environment
    let number := (← get).lastNumber + 1
    modify fun s => { s with lastNumber := number }
    modifyProcess fun p =>
      { name, descriptors := p.descriptors, directory := p.directory
        settings := initialSettings settings p.number, exported := settings.map (·.1), line := 0
        traps := p.traps, mask := p.mask, number, ancestors := p.number :: p.ancestors
        isStrict := true }
    let (hasScript, words) ← shellOptions (args.length + 1) args
    modifyProcess fun p => { p with args := words, isStrict := false, line := 1 }
    if hasScript then
      match words with
      | [] =>
        modifyProcess fun p => { p with line := 0 }
        abort "-c requires an argument".toList
      | script :: rest =>
        modifyProcess fun p => { p with name := rest.headD name, args := rest.tail }
        runText n script
    else if words.isEmpty || (← hasOption 's') then
      if words.isEmpty then Builtin.switch true 's'
      runText n (← readAll 0)
    else
      let file := words.headD []
      match ← locate file with
      | .ok (_, .file content) =>
        modifyProcess fun p => { p with name := file, args := words.tail }
        runText n (ofBytes content)
      | .ok _ => pure ()
      | .error e =>
        modifyProcess fun p => { p with line := 0 }
        abort ("cannot open ".toList ++ file ++ ": ".toList ++ refusal "No such file" e)

/-- `env` : run a program with other variables, or show them all. -/
def runWithEnvironment : Nat → List Text → Run Unit
  | 0, _ => throw .exit
  | n + 1, args => do
    let long := [("ignore-environment", 'i'), ("unset", 'u')]
    match Tool.Options.ofArgs ['i'] ['u'] long false args with
    | .error t =>
      let advice := "\nTry 'env --help' for more information.\n".toList
      let _ ← write 2 ("env: ".toList ++ t ++ advice)
      finish 125
    | .ok o =>
      inSubshell n do
        let isBare := o.operands.head? == some ['-']
        let words := if isBare then o.operands.tail else o.operands
        let unsetNames := (o.given.filter (·.1 == 'u')).map (·.2)
        modifyProcess fun p =>
          { p with
            exported :=
              if isBare || o.has 'i' then [] else p.exported.filter (!unsetNames.contains ·) }
        for word in words.takeWhile (·.contains '=') do
          let name := word.takeWhile (· != '=')
          put name ((word.dropWhile (· != '=')).drop 1)
          modifyProcess fun p => { p with exported := name :: p.exported }
        match words.dropWhile (·.contains '=') with
        | name :: rest => launch n "env: '".toList "': ".toList name rest
        | [] =>
          let lines := (← environment).map fun (name, value) => name ++ '=' :: value
          let _ ← write 1 (joinLines lines)
          finish 0

/-- Run a program for another one, which complains if there is none, around its name. -/
def launch : Nat → Text → Text → Text → List Text → Run Unit
  | 0, _, _, _, _ => throw .exit
  | n + 1, before, behind, name, args => do
    let fail := fun (status : Nat) (reason : Text) => do
      let _ ← write 2 (before ++ name ++ behind ++ reason ++ ['\n'])
      finish status
    let directories :=
      splitAt (· == ':') (((← environment).lookup "PATH".toList).getD "/bin:/usr/bin".toList)
    let path ←
      if name.contains '/' then pure (some name) else Builtin.programIn? directories name
    match path with
    | none =>
      if ← Builtin.isNamed directories name then fail 126 "Permission denied".toList
      else fail 127 "No such file or directory".toList
    | some path =>
      match ← locate path with
      | .ok (_, .program p) => runProgram n p name args
      | .ok _ => fail 126 "Permission denied".toList
      | .error e => fail 127 (Tool.errorText e)

/-- `xargs` : run a program on the words or the lines of the input. -/
def runWithInput : Nat → List Text → Run Unit
  | 0, _ => throw .exit
  | n + 1, args => do
    match Tool.Options.ofArgs ['0', 'r', 't'] ['n', 'I', 'L'] [] false args with
    | .error t =>
      let _ ← write 2 ("xargs: ".toList ++ t ++ ['\n'])
      finish 1
    | .ok o =>
      let name := o.operands.headD "echo".toList
      let calls := inputCalls o (← readAll 0)
      let codes ← calls.mapM fun args => do
        inSubshell n do
          let empty ← addStream (.source [])
          redirect 0 (some empty)
          launch n "xargs: ".toList ": ".toList name args
        return (← get).status
      finish (if codes.contains 127 then 127 else if codes.all (· == 0) then 0 else 123)

end

/-- The bound on the depth of calls, which allows for the greatest number of function calls. -/
def depth : Nat := 20000

end Run

end Shell

end CliffordT
