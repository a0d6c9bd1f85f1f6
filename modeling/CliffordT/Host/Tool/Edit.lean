import CliffordT.Host.Tool.Copying
import CliffordT.Host.Tool.Regex

/-!
# Editing lines

`sed` : steps that change, drop and print lines.

* `Edit.Step` : a step and the lines that it is for,
* `Edit.steps` : the steps that a text describes,
* `Edit.run` : the text that steps turn lines into.
-/

namespace CliffordT

namespace Tool

namespace Edit

open Shell (Text splitLines joinLines decimal)

/-! ### Steps -/

/-- Which line is meant. -/
inductive Address where
  | line (n : Nat)
  | lastLine
  | matching (r : Regex)

/-- A piece of the text that stands in place of a match. -/
inductive Piece where
  | character (c : Char)
  /-- The text of a group; that of the match itself has number zero. -/
  | group (n : Nat)

/-- What a step does. -/
inductive Change where
  /-- Put a text in place of the `first`-th match, and of all behind it if `isGlobal` holds. -/
  | substitute (r : Regex) (pieces : List Piece) (first : Nat) (isGlobal isPrinted : Bool)
  | translate (table : List (Char × Char))
  | delete
  | print
  | number
  | quit (isPrinted : Bool) (status : Nat)
  | append (t : Text)
  | insert (t : Text)
  | replace (t : Text)

/-- The lines that a step is for. -/
inductive Scope where
  | all
  | one (a : Address)
  | range (first last : Address)

/-- A step. -/
structure Step where
  scope : Scope
  isNegated : Bool
  change : Change

/-! ### Reading steps -/

/-- Why a text describes no steps, and what was left of it there. -/
abbrev Fault := String × Text

/-- A text up to a delimiter, which a backslash may escape, and what stands behind it.  A backslash
in front of anything else stays.  In an expression the delimiter has no meaning in a set; `inSet`
counts the characters since a set has started. -/
def takeUntil (isExpression : Bool) (delimiter : Char) (inSet : Option Nat) :
    Text → Option (Text × Text)
  | [] => none
  | c :: t =>
    let keep := fun (inSet : Option Nat) =>
      (takeUntil isExpression delimiter inSet t).map fun (found, rest) => (c :: found, rest)
    match inSet with
    | some n =>
      if c = ']' ∧ 0 < n then keep none
      else if c = '^' ∧ n = 0 then keep (some 0)
      else keep (some (n + 1))
    | none =>
      if c = '\\' then
        match t with
        | d :: rest =>
          (takeUntil isExpression delimiter none rest).map fun (found, rest) =>
            (if d = delimiter then d :: found else c :: d :: found, rest)
        | [] => none
      else if c = delimiter then some ([], t)
      else keep (if isExpression && c == '[' then some 0 else none)

/-- The address at the head of a text, if there is one. -/
def takeAddress (isExtended : Bool) (t : Text) : Except Fault (Option Address × Text) :=
  match t with
  | '$' :: rest => .ok (some .lastLine, rest)
  | '/' :: rest =>
    match takeUntil true '/' none rest with
    | none => .error ("unterminated address regex", [])
    | some (body, rest) =>
      let (ignoresCase, rest) :=
        match rest with
        | 'I' :: rest => (true, rest)
        | rest => (false, rest)
      match Regex.ofText { isExtended, ignoresCase } body with
      | some r => .ok (some (.matching r), rest)
      | none => .error ("Invalid preceding regular expression", rest)
  | _ =>
    let ds := t.takeWhile Char.isDigit
    if ds.isEmpty then .ok (none, t)
    else .ok (some (.line (Shell.valueOf 10 ds)), t.drop ds.length)

/-- The lines that a step is for, from the head of a text. -/
def takeScope (isExtended : Bool) (t : Text) : Except Fault (Scope × Text) := do
  let (first, rest) ← takeAddress isExtended t
  match first, rest with
  | none, _ => return (.all, rest)
  | some a, ',' :: rest =>
    match ← takeAddress isExtended (rest.dropWhile Shell.isSpace) with
    | (some b, rest) => return (.range a b, rest)
    | (none, rest) => .error ("unexpected `,'", rest)
  | some a, _ => return (.one a, rest)

/-- The pieces of the text that stands in place of a match. -/
def pieces : Text → List Piece
  | [] => []
  | '\\' :: c :: t =>
    (if c.isDigit then .group (c.toNat - 48)
      else if c = 'n' then .character '\n'
      else if c = 't' then .character '\t'
      else .character c) :: pieces t
  | '&' :: t => .group 0 :: pieces t
  | c :: t => .character c :: pieces t

/-- The end of a step and what stands behind it. -/
def takeEnd (t : Text) : Except Fault Text :=
  match t.dropWhile (· == ' ') with
  | [] => .ok []
  | c :: rest =>
    if c = ';' ∨ c = '\n' then .ok rest
    else .error ("extra characters after command", rest)

/-- A substitution from behind its letter. -/
def takeSubstitution (isExtended : Bool) (t : Text) : Except Fault (Change × Text) := do
  let unterminated : Fault := ("unterminated `s' command", [])
  match t with
  | [] => .error unterminated
  | delimiter :: t =>
    let some (old, t) := takeUntil true delimiter none t | .error unterminated
    let some (new, t) := takeUntil false delimiter none t | .error unterminated
    let flags := t.takeWhile fun c => c.isDigit || ['g', 'p', 'i', 'I'].contains c
    let rest := t.drop flags.length
    match rest.dropWhile (· == ' ') with
    | c :: more =>
      if c ≠ ';' ∧ c ≠ '\n' ∧ c ≠ '\x7d' then .error ("unknown option to `s'", more)
    | [] => pure ()
    let ignoresCase := flags.contains 'i' || flags.contains 'I'
    match Regex.ofText { isExtended, ignoresCase } old with
    | none => .error ("Invalid preceding regular expression", rest)
    | some r =>
      let first := (Shell.natOf? (flags.filter Char.isDigit)).getD 1
      return (.substitute r (pieces new) first (flags.contains 'g') (flags.contains 'p'), rest)

/-- The text of a step that adds lines, from behind its letter. -/
def takeAdded (t : Text) : Text × Text :=
  let body := t.dropWhile (· == ' ')
  let body :=
    match body with
    | '\\' :: '\n' :: rest => rest
    | '\\' :: rest => rest
    | rest => rest
  (body.takeWhile (· != '\n') ++ ['\n'], (body.dropWhile (· != '\n')).drop 1)

/-- What a step does, and the text behind it. -/
def takeChange (isExtended : Bool) (letter : Char) (t : Text) : Except Fault (Change × Text) := do
  let close := fun (change : Change) (rest : Text) => do return (change, ← takeEnd rest)
  let status := Shell.valueOf 10 ((t.dropWhile (· == ' ')).takeWhile Char.isDigit)
  let behind := (t.dropWhile (· == ' ')).dropWhile Char.isDigit
  match letter with
  | 's' =>
    let (change, rest) ← takeSubstitution isExtended t
    close change rest
  | 'd' => close .delete t
  | 'p' => close .print t
  | '=' => close .number t
  | 'q' => close (.quit true status) behind
  | 'Q' => close (.quit false status) behind
  | 'y' =>
    let unterminated : Fault := ("unterminated `y' command", [])
    match t with
    | [] => .error unterminated
    | delimiter :: t =>
      let some (old, t) := takeUntil false delimiter none t | .error unterminated
      let some (new, t) := takeUntil false delimiter none t | .error unterminated
      if old.length = new.length then close (.translate (old.zip new)) t
      else .error ("strings for `y' command are different lengths", t)
  | 'a' =>
    let (text, rest) := takeAdded t
    return (.append text, rest)
  | 'i' =>
    let (text, rest) := takeAdded t
    return (.insert text, rest)
  | 'c' =>
    let (text, rest) := takeAdded t
    return (.replace text, rest)
  | _ => .error ("unknown command: `" ++ String.singleton letter ++ "'", t)

/-- The steps that a text describes.  The bound is its length. -/
def steps (isExtended : Bool) : Nat → Text → Except Fault (List Step)
  | 0, _ => .ok []
  | n + 1, t => do
    let t := t.dropWhile fun c => Shell.isSpace c || c == ';'
    if t.isEmpty || t.head? == some '#' then return []
    let (scope, t) ← takeScope isExtended t
    let t := t.dropWhile Shell.isSpace
    let isNegated := t.head? == some '!'
    match t.dropWhile fun c => c == '!' || c == ' ' with
    | [] => .error ("missing command", [])
    | letter :: rest =>
      let (change, rest) ← takeChange isExtended letter rest
      return { scope, isNegated, change } :: (← steps isExtended n rest)

/-! ### Running steps -/

/-- Whether an address means a line. -/
def Address.holds (a : Address) (number : Nat) (isLast : Bool) (line : Text) : Bool :=
  match a with
  | .line n => n == number
  | .lastLine => isLast
  | .matching r => (r.search line).isSome

/-- Whether a scope holds a line, and whether its range is still open behind that line.  A last
address that is the number of a line above closes the range at once. -/
def Scope.holds (s : Scope) (isOpen : Bool) (number : Nat) (isLast : Bool) (line : Text) :
    Bool × Bool :=
  match s with
  | .all => (true, false)
  | .one a => (a.holds number isLast line, false)
  | .range first last =>
    if isOpen then
      match last with
      | .line n => (decide (number ≤ n), decide (number < n))
      | _ => (true, !last.holds number isLast line)
    else if first.holds number isLast line then
      match last with
      | .line n => (true, decide (number < n))
      | .lastLine => (true, !isLast)
      | .matching _ => (true, true)
    else (false, false)

/-- The text of pieces for a match. -/
def fill (m : Regex.Match) (ps : List Piece) : Text :=
  ps.flatMap fun p =>
    match p with
    | .character c => [c]
    | .group 0 => m.text
    | .group n => (m.groups.lookup n).getD []

/-- A line with matches replaced, and whether there was one.  The matches are counted from one, and
an empty match right behind another one does not count.  The bound is the length of the line. -/
def substituted (r : Regex) (ps : List Piece) (first : Nat) (isGlobal : Bool) (whole : Nat) :
    Nat → Nat → Bool → Option Char → Text → Text × Bool
  | 0, _, _, _, t => (t, false)
  | n + 1, number, isBehind, last, t =>
    match r.searchFrom whole last t with
    | none => (t, false)
    | some m =>
      let next := fun (number : Nat) =>
        match m.text.getLast?, m.behind with
        | some c, rest => substituted r ps first isGlobal whole n number true (some c) rest
        | none, c :: rest =>
          let (more, isDone) := substituted r ps first isGlobal whole n number false (some c) rest
          (c :: more, isDone)
        | none, [] => ([], false)
      if m.text.isEmpty && m.before.isEmpty && isBehind then
        next number
      else if number = first ∨ (isGlobal ∧ first < number) then
        if isGlobal then (m.before ++ fill m ps ++ (next (number + 1)).1, true)
        else (m.before ++ fill m ps ++ m.behind, true)
      else
        let (more, isDone) := next (number + 1)
        (m.before ++ m.text ++ more, isDone)

/-- What has become of a line. -/
structure Progress where
  line : Text
  /-- What has been written. -/
  output : Text := []
  /-- What has been written last is the line itself. -/
  endsInLine : Bool := false
  /-- What is to be written behind the line. -/
  appended : Text := []
  /-- The line is not to be written at the end of the steps. -/
  isDropped : Bool := false
  /-- No more steps for this line. -/
  isDone : Bool := false
  /-- The status to end with. -/
  ended : Option Nat := none

/-- The line is written. -/
def Progress.printed (p : Progress) : Progress :=
  { p with output := p.output ++ p.line ++ ['\n'], endsInLine := true }

/-- A line after a change. -/
def Change.apply (change : Change) (number : Nat) (p : Progress) : Progress :=
  let wrote := fun (t : Text) => { p with output := p.output ++ t, endsInLine := false }
  match change with
  | .substitute r ps first isGlobal isPrinted =>
    let (line, isChanged) :=
      substituted r ps first isGlobal p.line.length (p.line.length + 1) 1 false none p.line
    let changed := { p with line }
    if isChanged && isPrinted then changed.printed else changed
  | .translate table => { p with line := p.line.map fun c => (table.lookup c).getD c }
  | .delete => { p with isDropped := true, isDone := true }
  | .print => p.printed
  | .number => wrote (decimal number ++ ['\n'])
  | .quit isPrinted status =>
    { p with isDropped := !isPrinted, isDone := true, ended := some status }
  | .append t => { p with appended := p.appended ++ t }
  | .insert t => wrote t
  | .replace t => { wrote t with isDropped := true, isDone := true }

/-- A line after all steps, each with whether its range is open. -/
def applySteps (number : Nat) (isLast : Bool) :
    List (Step × Bool) → Progress → List (Step × Bool) × Progress
  | [], p => ([], p)
  | (step, isOpen) :: rest, p =>
    if p.isDone then ((step, isOpen) :: rest, p)
    else
      let (isIn, stays) := step.scope.holds isOpen number isLast p.line
      let p := if isIn != step.isNegated then step.change.apply number p else p
      let (rest, p) := applySteps number isLast rest p
      ((step, stays) :: rest, p)

/-- The text that steps turn lines into, and the status.  The lines are counted from a number.
Where the last of them is `isOpen`, without an end, it is written so if nothing follows it and no
step has quit. -/
def run (isQuiet isOpen : Bool) : List (Step × Bool) → Nat → List Text → Text × Nat
  | _, _, [] => ([], 0)
  | all, number, line :: rest =>
    let (all, p) := applySteps number rest.isEmpty all { line }
    let p := if isQuiet || p.isDropped then p else p.printed
    let quits := p.ended.isSome && !p.isDropped
    let endsOpen :=
      isOpen && rest.isEmpty && p.endsInLine && p.appended.isEmpty && !quits
    let written := if endsOpen then p.output.dropLast else p.output ++ p.appended
    match p.ended with
    | some status => (written, status)
    | none =>
      let (more, status) := run isQuiet isOpen all (number + 1) rest
      (written ++ more, status)

end Edit

/-- What is said where no steps are given. -/
def editUsage : Shell.Text :=
  ("Usage: sed [OPTION]... \x7bscript-only-if-no-other-script\x7d " ++
    "[input-file]...\n").toList

/-- `sed` : lines changed by steps. -/
def sed : Action :=
  withOptions "nEru" "e"
    [("quiet", 'n'), ("silent", 'n'), ("expression", 'e'), ("regexp-extended", 'E')] 1 fun c o =>
    let given := (o.given.filter (·.1 == 'e')).map (·.2)
    let script := Shell.joinWith ['\n'] (if given.isEmpty then o.operands.take 1 else given)
    let operands := if given.isEmpty then o.operands.drop 1 else o.operands
    if given.isEmpty && o.operands.isEmpty then
      { complaints := editUsage, status := 1 }
    else
      match Edit.steps (o.has 'E' || o.has 'r') (script.length + 1) script with
      | .error (text, left) =>
        { complaints := c.complaint ("-e expression #1, char ".toList ++
            Shell.decimal (script.length - left.length) ++ ": ".toList ++ text.toList)
          status := 1 }
      | .ok steps =>
        let found := c.readOperands operands
        let input := (found.filterMap fun f => f.text.toOption).flatten
        let isOpen := !input.isEmpty && input.getLast? != some '\n'
        let (output, status) :=
          Edit.run (o.has 'n') isOpen (steps.map fun s => (s, false)) 1 (Shell.splitLines input)
        let faults := found.filterMap fun f =>
          match f.text with
          | .error t => some (c.complaint ("can't read ".toList ++ f.name ++ ": ".toList ++ t))
          | .ok _ => none
        { output
          complaints := faults.flatten
          status := if faults.isEmpty then status else 2
          readsInput := namesInput operands }

end Tool

end CliffordT
