import CliffordT.Host.Tool.Copying
import CliffordT.Host.Tool.Regex

/-!
# Search

`grep` : the lines that an expression matches, or their number, or the matching parts.

* `Criterion` : what makes a line one of those searched for,
* `parts` : the parts of a line that match, from left to right.
-/

namespace CliffordT

namespace Tool

open Shell (Text splitLines joinLines decimal)

/-- The expression that matches a text and nothing else. -/
def Regex.ofLiteral (ignoresCase : Bool) (t : Text) : Regex :=
  t.foldr (fun c r => .sequence (exactly ignoresCase c) r) .empty

/-- The expression of some patterns, each of which may match. -/
def Regex.ofPatterns (ofPattern : Text → Option Regex) : List Text → Option Regex
  | [] => none
  | [t] => ofPattern t
  | t :: ts => do
    let a ← ofPattern t
    let b ← Regex.ofPatterns ofPattern ts
    return .either a b

/-- What makes a line one of those searched for. -/
structure Criterion where
  expression : Regex
  /-- The match is the whole line. -/
  isWhole : Bool
  /-- The match has no character of a word next to it. -/
  isWord : Bool
  /-- The lines without a match are searched for. -/
  isInverted : Bool

namespace Criterion

/-- The expression with what must hold around it. -/
def full (k : Criterion) : Regex :=
  if k.isWhole then .sequence .start (.sequence k.expression .finish)
  else if k.isWord then
    .sequence (.clear false) (.sequence k.expression (.clear true))
  else k.expression

/-- Whether a line is one of those searched for. -/
def selects (k : Criterion) (line : Text) : Bool :=
  (k.full.search line).isSome != k.isInverted

/-- The parts of a line that match, from left to right; an empty one does not count.  The bound is
the length of the line. -/
def parts (k : Criterion) (whole : Nat) : Nat → Option Char → Text → List Text
  | 0, _, _ => []
  | n + 1, last, t =>
    match k.full.searchFrom whole last t with
    | none => []
    | some m =>
      match m.text.getLast? with
      | some c => m.text :: k.parts whole n (some c) m.behind
      | none =>
        match m.behind with
        | c :: rest => k.parts whole n (some c) rest
        | [] => []

end Criterion

/-- How the lines of one file are shown. -/
structure Listing where
  options : Options
  /-- The name of the file stands in front of each line. -/
  showsName : Bool
  name : Text

namespace Listing

/-- What stands in front of a line, or of the number of lines. -/
def lead (l : Listing) (number : Option Nat) : Text :=
  (if l.showsName then l.name ++ [':'] else []) ++
    match number with
    | some n => if l.options.has 'n' then decimal n ++ [':'] else []
    | none => []

/-- The text that shows the lines of a file. -/
def text (l : Listing) (k : Criterion) (lines : List (Text × Nat)) : Text :=
  let o := l.options
  if o.has 'q' then []
  else if o.has 'l' then (if lines.isEmpty then [] else l.name ++ ['\n'])
  else if o.has 'c' then l.lead none ++ decimal lines.length ++ ['\n']
  else if o.has 'o' then
    lines.flatMap fun (line, n) =>
      if k.isInverted then []
      else
        (k.parts line.length (line.length + 1) none line).flatMap fun part =>
          l.lead (some n) ++ part ++ ['\n']
  else lines.flatMap fun (line, n) => l.lead (some n) ++ line ++ ['\n']

end Listing

/-- What `grep` says where no pattern is given. -/
def grepUsage : Text :=
  "Usage: grep [OPTION]... PATTERNS [FILE]...\nTry 'grep --help' for more information.\n".toList

/-- `grep` : the lines that match.  The status tells whether there are any. -/
def grep : Action :=
  withOptions "vcinqoEFGxwlhHsa" "em"
    [("quiet", 'q'), ("count", 'c'), ("invert-match", 'v'), ("ignore-case", 'i'),
     ("only-matching", 'o'), ("extended-regexp", 'E'), ("fixed-strings", 'F'),
     ("line-number", 'n'), ("line-regexp", 'x'), ("word-regexp", 'w')] 2 fun c o =>
    let given := (o.given.filter (·.1 == 'e')).map (·.2)
    let patterns := if given.isEmpty then o.operands.take 1 else given
    let operands := if given.isEmpty then o.operands.drop 1 else o.operands
    if patterns.isEmpty then { complaints := grepUsage, status := 2 }
    else
      let ignoresCase := o.has 'i'
      let ofPattern := fun (t : Text) =>
        if o.has 'F' then some (Regex.ofLiteral ignoresCase t)
        else Regex.ofText { isExtended := o.has 'E', ignoresCase } t
      match Regex.ofPatterns ofPattern (patterns.flatMap (Shell.splitAt (· == '\n'))) with
      | none =>
        { complaints := c.complaint (Regex.faultText (patterns.headD [])), status := 2 }
      | some expression =>
        let k : Criterion :=
          { expression, isWhole := o.has 'x', isWord := o.has 'w', isInverted := o.has 'v' }
        let limit := (o.value? 'm').bind Shell.natOf?
        let showsName := (o.has 'H' || decide (1 < operands.length)) && !o.has 'h'
        let found : List (Text × Nat) := (c.readOperands operands).map fun f =>
          match f.text with
          | .error _ => ([], 0)
          | .ok t =>
            let all := ((splitLines t).zipIdx 1).filter fun (line, _) => k.selects line
            let lines := all.take (limit.getD all.length)
            let name := if f.name == ['-'] then "(standard input)".toList else f.name
            (Listing.text { options := o, showsName, name } k lines, lines.length)
        let faults := c.faults (c.readOperands operands)
        let isFound := found.any fun (_, n) => 0 < n
        let isFaulty := !faults.isEmpty && !(o.has 'q' && isFound)
        { output := found.flatMap fun (t, _) => t
          complaints := if o.has 's' then [] else faults.flatten
          status := if isFaulty then 2 else if isFound then 0 else 1
          readsInput := namesInput operands }

end Tool

end CliffordT
