import CliffordT.Yaml.Cursor

/-!
# The text of YAML scalars

Scalars are read in one of five styles.  Line breaks inside a scalar are folded: a single one
becomes a blank, and of several ones the first is dropped.  Each reader is given the indentation
that the scalar must keep and returns the text and the place behind it, or nothing where the scalar
is not well-formed.  Bounds are lengths of the text.
-/

namespace CliffordT

namespace Yaml

/-! ### Line breaks -/

/-- Line breaks, and what they become when they are folded: the first break, and those behind it. -/
def foldBreaks (first trailing : List Char) : List Char :=
  if first.head? = some '\n' then (if trailing.isEmpty then [' '] else trailing)
  else first ++ trailing

/-- The blanks and breaks between two pieces of a scalar. -/
structure Gap where
  /-- The blanks before the first break. -/
  blanks : List Char := []
  first : List Char := []
  trailing : List Char := []
  /-- There is a break. -/
  hasBreak : Bool := false

namespace Gap

/-- What the gap counts as. -/
def text (g : Gap) : List Char := if g.hasBreak then foldBreaks g.first g.trailing else g.blanks

/-- The gap with one more break. -/
def addBreak (g : Gap) (b : List Char) : Gap :=
  if g.hasBreak then { g with trailing := g.trailing ++ b }
  else { g with blanks := [], first := b, hasBreak := true }

/-- The gap with one more blank, which counts only before the first break. -/
def addBlank (g : Gap) (b : Char) : Gap :=
  if g.hasBreak then g else { g with blanks := g.blanks ++ [b] }

end Gap

/-- The gap that stands here.  Behind a break, tabs may not stand left of the column `indent`. -/
def takeGap (indent : Nat) : Nat → Gap → Cursor → Option (Gap × Cursor)
  | 0, _, _ => none
  | n + 1, g, c =>
    match c.rest with
    | [] => some (g, c)
    | x :: _ =>
      if isBreak x then takeGap indent n (g.addBreak c.breakText) c.nextLine
      else if isBlankChar x then
        if g.hasBreak ∧ c.column < indent ∧ x = '\t' then none
        else takeGap indent n (g.addBlank x) (c.advance 1)
      else some (g, c)

/-! ### Plain scalars -/

/-- The characters that end plain scalars inside flow collections. -/
def isFlowIndicator (x : Char) : Bool := [',', '[', ']', '\x7b', '\x7d'].contains x

/-- The characters of a plain scalar up to the next gap.  Inside a flow collection, a colon may not
stand directly before an indicator. -/
def takePlainRun (inFlow : Bool) : Nat → Cursor → Option (List Char × Cursor)
  | 0, _ => none
  | n + 1, c =>
    match c.rest with
    | [] => some ([], c)
    | x :: rest =>
      if isBlankChar x || isBreak x then some ([], c)
      else if inFlow && x == ':' && rest.head?.any fun y => y == '?' || isFlowIndicator y then none
      else if x == ':' && c.seesGap 1 then some ([], c)
      else if inFlow && isFlowIndicator x then some ([], c)
      else (takePlainRun inFlow n (c.advance 1)).map fun (run, c) => (x :: run, c)

/-- A plain scalar, with the gap before its next run.  Behind it comes its text, whether a break
stands behind it, and the place. -/
def takePlain (inFlow : Bool) (indent : Nat) :
    Nat → Gap → Cursor → Option (List Char × Bool × Cursor)
  | 0, _, _ => none
  | n + 1, g, c =>
    if c.atDocumentMark || c.sees 0 '#' then some ([], g.hasBreak, c)
    else do
      let (run, c) ← takePlainRun inFlow (n + 1) c
      let text := if run.isEmpty then [] else g.text ++ run
      let pending : Gap := if run.isEmpty then g else {}
      if c.atBlank || c.atBreak then
        let (g, c) ← takeGap indent (n + 1) pending c
        if !inFlow && c.column < indent then return (text, g.hasBreak, c)
        let (more, hasBreak, c) ← takePlain inFlow indent n g c
        return (text ++ more, hasBreak, c)
      else return (text, pending.hasBreak, c)

/-! ### Quoted scalars -/

/-- The number of some hexadecimal digits. -/
def hexNumber? (ds : List Char) : Option Nat :=
  ds.foldlM (fun n d => (hexValue? d).map (n * 16 + ·)) 0

/-- The character with a code that must be that of a character. -/
def charOfCode? (n : Nat) : Option Char :=
  if n < 0xd800 ∨ (0xdfff < n ∧ n ≤ 0x10ffff) then some (Char.ofNat n) else none

/-- The character that stands for an escape by one letter. -/
def simpleEscape? (x : Char) : Option Char :=
  match x with
  | '0' => some '\x00'
  | 'a' => some '\x07'
  | 'b' => some '\x08'
  | 't' => some '\t'
  | '\t' => some '\t'
  | 'n' => some '\n'
  | 'v' => some '\x0b'
  | 'f' => some '\x0c'
  | 'r' => some '\r'
  | 'e' => some '\x1b'
  | ' ' => some ' '
  | '"' => some '"'
  | '/' => some '/'
  | '\\' => some '\\'
  | 'N' => some (Char.ofNat 0x85)
  | '_' => some (Char.ofNat 0xa0)
  | 'L' => some (Char.ofNat 0x2028)
  | 'P' => some (Char.ofNat 0x2029)
  | _ => none

/-- The number of digits behind a letter that escapes a code. -/
def codeLength? (x : Char) : Option Nat :=
  match x with
  | 'x' => some 2
  | 'u' => some 4
  | 'U' => some 8
  | _ => none

/-- The character of an escape behind its backslash, and the length of the escape. -/
def escape? (cs : List Char) : Option (Char × Nat) :=
  match cs with
  | [] => none
  | x :: rest =>
    match simpleEscape? x with
    | some y => some (y, 2)
    | none => do
      let n ← codeLength? x
      if rest.length < n then none
      let code ← hexNumber? (rest.take n)
      return (← charOfCode? code, n + 2)

/-- The characters of a quoted scalar up to the next gap or quote.  An escaped line break ends them
too, and then starts a gap. -/
def takeQuotedRun (single : Bool) : Nat → Cursor → Option (List Char × Bool × Cursor)
  | 0, _ => none
  | n + 1, c =>
    match c.rest with
    | [] => some ([], false, c)
    | x :: rest =>
      if isBlankChar x || isBreak x then some ([], false, c)
      else if single && x == '\'' then
        if rest.head? == some '\'' then
          (takeQuotedRun single n (c.advance 2)).map fun (run, b, c) => ('\'' :: run, b, c)
        else some ([], false, c)
      else if !single && x == '"' then some ([], false, c)
      else if !single && x == '\\' then
        if rest.head?.any isBreak then some ([], true, (c.advance 1).nextLine)
        else do
          let (y, length) ← escape? rest
          let (run, b, c) ← takeQuotedRun single n (c.advance length)
          return (y :: run, b, c)
      else (takeQuotedRun single n (c.advance 1)).map fun (run, b, c) => (x :: run, b, c)

/-- A quoted scalar behind its opening quote, and the place behind its closing one. -/
def takeQuoted (single : Bool) : Nat → Cursor → Option (List Char × Cursor)
  | 0, _ => none
  | n + 1, c => do
    if c.atDocumentMark || c.rest.isEmpty then none
    let (run, escapedBreak, c) ← takeQuotedRun single (n + 1) c
    if c.sees 0 (if single then '\'' else '"') then return (run, c.advance 1)
    let (g, c) ← takeGap 0 (n + 1) { hasBreak := escapedBreak } c
    let (more, c) ← takeQuoted single n c
    return (run ++ g.text ++ more, c)

/-! ### Block scalars -/

/-- What becomes of the line breaks at the end of a block scalar. -/
inductive Chomping where
  /-- All are dropped. -/
  | strip
  /-- One is kept. -/
  | clip
  /-- All are kept. -/
  | keep
deriving DecidableEq

/-- The chomping that a character stands for. -/
def chomping? (x : Char) : Option Chomping :=
  if x = '+' then some .keep else if x = '-' then some .strip else none

/-- The indentation that a digit stands for; zero is none. -/
def indentation? (x : Char) : Option Nat := if x.isDigit then some (x.toNat - '0'.toNat) else none

/-- The head of a block scalar behind its indicator: chomping and indentation in either order.  An
indentation of zero is not allowed. -/
def takeBlockHead (c : Cursor) : Option (Chomping × Option Nat × Cursor) :=
  let head : Chomping × Option Nat × Cursor :=
    match c.rest with
    | x :: rest =>
      match chomping? x, indentation? x with
      | some k, _ =>
        match rest.head?.bind indentation? with
        | some d => (k, some d, c.advance 2)
        | none => (k, none, c.advance 1)
      | _, some d =>
        match rest.head?.bind chomping? with
        | some k => (k, some d, c.advance 2)
        | none => (.clip, some d, c.advance 1)
      | _, _ => (.clip, none, c)
    | [] => (.clip, none, c)
  if head.2.1 = some 0 then none else some head

/-- The empty lines that stand here, as breaks.  Without a known indentation, the greatest column
reached is found too.  A tab may not stand in the indentation. -/
def takeEmptyLines (indent : Option Nat) :
    Nat → Nat → List Char → Cursor → Option (List Char × Nat × Cursor)
  | 0, _, _, _ => none
  | n + 1, widest, breaks, c =>
    let limit := indent.map (· - c.column)
    let blanks := (c.rest.takeWhile (· == ' ')).length
    let c := c.advance (match limit with
      | some k => min k blanks
      | none => blanks)
    let widest := max widest c.column
    let inIndent := match indent with
      | some k => decide (c.column < k)
      | none => true
    if inIndent && c.sees 0 '\t' then none
    else if c.atBreak then takeEmptyLines indent n widest (breaks ++ c.breakText) c.nextLine
    else some (breaks, widest, c)

/-- The lines of a block scalar from one that is not empty.  `first` is the break behind the last
line, `trailing` are the breaks of the empty lines behind it, and `afterBlank` tells whether the
last line started with a blank.  The text ends in the breaks that are left over. -/
def takeBlockLines (literal : Bool) (indent : Nat) :
    Nat → List Char → List Char → Bool → Cursor →
      Option (List Char × List Char × List Char × Cursor)
  | 0, _, _, _, _ => none
  | n + 1, first, trailing, afterBlank, c => do
    if c.column != indent || c.rest.isEmpty then return ([], first, trailing, c)
    let startsBlank := c.atBlank
    let joint :=
      if !literal && first.head? == some '\n' && !afterBlank && !startsBlank then
        (if trailing.isEmpty then [' '] else [])
      else first
    let (line, c) := c.takeWhile fun x => !isBreak x
    let lineBreak := c.breakText
    let (breaks, _, c) ← takeEmptyLines (some indent) (n + 1) 0 [] c.nextLine
    let (more, last, left, c) ← takeBlockLines literal indent n lineBreak breaks startsBlank c
    return (joint ++ trailing ++ line ++ more, last, left, c)

/-- A block scalar behind its indicator, in a collection with the indentation `parent`, which is
negative outside of all collections. -/
def takeBlock (literal : Bool) (parent : Int) (c : Cursor) : Option (List Char × Cursor) := do
  let (chomping, digit, c) ← takeBlockHead c
  let c ← c.endLine?
  let bound := c.rest.length + 1
  let given := digit.map fun d => if 0 ≤ parent then parent.toNat + d else d
  let (breaks, widest, c) ← takeEmptyLines given bound 0 [] c
  let indent := given.getD (max (max widest (parent + 1).toNat) 1)
  let (text, first, trailing, c) ← takeBlockLines literal indent bound [] breaks false c
  let ending :=
    match chomping with
    | .strip => []
    | .clip => first
    | .keep => first ++ trailing
  return (text ++ ending, c)

end Yaml

end CliffordT
