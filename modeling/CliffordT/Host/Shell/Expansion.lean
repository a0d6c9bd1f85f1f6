import CliffordT.Host.Shell.Arithmetic
import CliffordT.Host.Shell.Glob
import CliffordT.Host.Shell.State

/-!
# What words stand for

The pieces of a word are replaced by characters that remember whether they were quoted and whether
they came from a value.  Characters from values outside quotes are cut into words at the separators
that the variable `IFS` holds, and words with bare stars, question marks or sets become the paths
that fit them.

* `Run.fields` : the words that a phrase stands for,
* `Run.text` : the one text that it stands for where words are not cut.
-/

namespace CliffordT

namespace Shell

/-! ### Cutting into words -/

/-- A part of what a phrase stands for. -/
inductive Atom where
  /-- A character.  One that came from a value outside quotes may separate words. -/
  | char (c : Char) (isQuoted canSeparate : Bool)
  /-- A word stands here, even if nothing else does. -/
  | mark
  /-- One word ends here, and another one starts. -/
  | cut
deriving DecidableEq

/-- Words under construction. -/
structure Cutting where
  /-- The finished words, the last one first. -/
  finished : List (List Marked) := []
  /-- The characters of the current word, the last one first, if there is one. -/
  current : Option (List Marked) := none
  /-- White space has just ended a word. -/
  afterSpace : Bool := false

namespace Cutting

/-- The end of the current word. -/
def finish (k : Cutting) (afterSpace : Bool) : Cutting :=
  match k.current with
  | some word => { finished := word.reverse :: k.finished, afterSpace }
  | none => k

/-- One more part, with the characters that separate words.  White space separates words in any
amount; any other separator ends a word, even an empty one, together with the white space around
it. -/
def add (separators : Text) (k : Cutting) : Atom → Cutting
  | .mark => { k with current := some (k.current.getD []), afterSpace := false }
  | .cut => k.finish false
  | .char c isQuoted canSeparate =>
    if canSeparate && separators.contains c then
      if c = ' ' ∨ c = '\t' ∨ c = '\n' then k.finish true
      else if k.current.isSome then k.finish false
      else if k.afterSpace then { k with afterSpace := false }
      else { k with finished := [] :: k.finished }
    else { k with current := some (⟨c, isQuoted⟩ :: k.current.getD []), afterSpace := false }

/-- The words of some parts. -/
def words (separators : Text) (atoms : List Atom) : List (List Marked) :=
  ((atoms.foldl (add separators) {}).finish false).finished.reverse

end Cutting

/-- The characters of a text, all alike. -/
def atomsOf (isQuoted canSeparate : Bool) (t : Text) : List Atom :=
  t.map fun c => .char c isQuoted canSeparate

/-- The text of some parts, with a separator between words. -/
def atomText (separator : Text) (atoms : List Atom) : Text :=
  atoms.flatMap fun
    | .char c _ _ => [c]
    | .mark => []
    | .cut => separator

/-- The marked characters of some parts. -/
def atomMarks (atoms : List Atom) : List Marked :=
  atoms.filterMap fun
    | .char c isQuoted _ => some ⟨c, isQuoted⟩
    | _ => none

/-! ### Parameters -/

/-- The value of a parameter. -/
inductive Value where
  | unset
  | one (t : Text)
  /-- The arguments; they stay apart in quotes where `apart` holds. -/
  | all (apart : Bool) (ts : List Text)
deriving DecidableEq

namespace Run

/-- The value of a parameter by its name. -/
def valueOf (name : Text) : Run Value := do
  let s ← get
  let ofOption := fun (t : Option Text) =>
    match t with
    | some t => Value.one t
    | none => .unset
  match name with
  | ['@'] => return .all true s.args
  | ['*'] => return .all false s.args
  | ['#'] => return .one (decimal s.args.length)
  | ['?'] => return .one (decimal s.status)
  | ['-'] => return .one (s.options.filter Char.isAlpha).reverse
  | ['$'] => return .one (decimal s.number)
  | ['!'] => return ofOption (s.background.head?.map fun (n, _) => decimal n)
  | _ =>
    match natOf? name with
    | some 0 => return .one s.name
    | some (n + 1) => return ofOption s.args[n]?
    | none => return ofOption (s.settings.lookup name)

/-- The characters that separate words. -/
def separators : Run Text := return (← lookup? "IFS".toList).getD " \t\n".toList

/-- What stands between arguments that become one text. -/
def joint : Run Text := return (← separators).take 1

/-- The one text of a value. -/
def joinedValue : Value → Run Text
  | .unset => return []
  | .one t => return t
  | .all _ ts => return joinWith (← joint) ts

/-- The parts of a value. -/
def valueAtoms (inQuotes : Bool) (v : Value) : Run (List Atom) := do
  match v with
  | .all apart ts =>
    if inQuotes && !apart then return atomsOf true false (← joinedValue v)
    else
      let parts := ts.map fun t =>
        (if inQuotes then [Atom.mark] else []) ++ atomsOf inQuotes (!inQuotes) t
      return [Atom.cut].intercalate parts
  | _ => return atomsOf inQuotes (!inQuotes) (← joinedValue v)

/-- Whether a value counts as none. -/
def isMissing (orEmpty : Bool) (v : Value) : Run Bool := do
  match v with
  | .unset => return true
  | .one t => return orEmpty && t.isEmpty
  | .all _ ts => return ts.isEmpty || (orEmpty && (← joinedValue v).isEmpty)

/-- End the process if an unset parameter may not be used. -/
def demandSet (name : Text) (v : Value) : Run Unit := do
  if v = .unset ∧ (← hasOption 'u') then abort (name ++ ": parameter not set".toList)

/-- The value of an arithmetic expression, which may set variables. -/
def calculate (t : Text) : Run Text := do
  let before := (← get).settings
  match (Expression.ofText t).value before with
  | .ok (i, after) =>
    for (name, value) in (after.take (after.length - before.length)).reverse do
      assign name value
    return signedDecimal i.toInt
  | .error fault => abort (fault.message t)

/-! ### Pieces -/

/-- The home directory of a user; no name means the one that the variable `HOME` tells. -/
def homeOf (home : Option Text) (user : Text) : Option Text :=
  if user.isEmpty then home else if user == "root".toList then some "/root".toList else none

/-- Characters put before other pieces. -/
def putFirst (c : Char) : Phrase → Phrase
  | .chars false t :: more => .chars false (c :: t) :: more
  | more => .chars false [c] :: more

/-- Bare text with home directories for the tildes where one may stand: at the start if `canStart`
holds, and in a value behind colons.  The name behind a tilde goes up to a slash, or to a colon in a
value; where other pieces follow, it must end before them.  The bound is the length of the text. -/
def bareText (home : Option Text) (inValue hasMore : Bool) : Nat → Bool → Text → Phrase
  | 0, _, _ => []
  | _, _, [] => []
  | n + 1, canStart, c :: t =>
    let plain := putFirst c (bareText home inValue hasMore n (inValue && c == ':') t)
    if canStart && c == '~' then
      let user := t.takeWhile fun d => d != '/' && !(inValue && d == ':')
      let rest := t.drop user.length
      if rest.isEmpty && hasMore then plain
      else
        match homeOf home user with
        | some h => .chars (!h.isEmpty) h :: bareText home inValue hasMore n false rest
        | none => plain
    else plain

/-- A phrase with home directories for its tildes. -/
def expandTildes (inValue : Bool) (p : Phrase) : Run Phrase := do
  let home := (← get).settings.lookup "HOME".toList
  let rec go : Bool → Phrase → Phrase
    | _, [] => []
    | canStart, .chars false t :: more =>
      bareText home inValue (!more.isEmpty) (t.length + 1) canStart t ++ go false more
    | _, piece :: more => piece :: go false more
  return go true p

/-- The parts that pieces stand for.  The output of scripts comes from `outputOf`.  Inside the
braces of a parameter that is not quoted, bare characters separate words too.  The bound is on the
depth of pieces in each other. -/
def atoms (outputOf : Option Script → Run Text) : Nat → Bool → Phrase → Run (List Atom)
  | 0, _, _ => return []
  | n + 1, inBraces, pieces => do
    let parts ← pieces.mapM fun piece => do
      match piece with
      | .chars inQuotes t =>
        return (if inQuotes then [Atom.mark] else []) ++ atomsOf inQuotes (inBraces && !inQuotes) t
      | .output inQuotes body => return atomsOf inQuotes (!inQuotes) (← outputOf body)
      | .sum inQuotes expression =>
        let t := atomText (← joint) (← atoms outputOf n false expression)
        return atomsOf inQuotes (!inQuotes) (← calculate t)
      | .parameter inQuotes name treatment operand =>
        let v ← valueOf name
        match treatment with
        | .keep =>
          demandSet name v
          valueAtoms inQuotes v
        | .length =>
          demandSet name v
          return atomsOf inQuotes (!inQuotes) (decimal (← joinedValue v).length)
        | .orElse orEmpty =>
          if ← isMissing orEmpty v then
            atoms outputOf n (!inQuotes) (← expandTildes false operand)
          else valueAtoms inQuotes v
        | .andThen orEmpty =>
          if ← isMissing orEmpty v then return []
          else atoms outputOf n (!inQuotes) (← expandTildes false operand)
        | .orSet orEmpty =>
          if ← isMissing orEmpty v then
            if !isName name then abort (name ++ ": bad variable name".toList)
            let t := atomText (← joint) (← atoms outputOf n false operand)
            assign name t
            return atomsOf inQuotes (!inQuotes) t
          else valueAtoms inQuotes v
        | .orComplain orEmpty =>
          if ← isMissing orEmpty v then
            let t := atomText (← joint) (← atoms outputOf n false operand)
            let standard := "parameter not set".toList ++
              if orEmpty then " or null".toList else []
            abort (name ++ ": ".toList ++ if operand.isEmpty then standard else t)
          else valueAtoms inQuotes v
        | .withoutStart longest =>
          demandSet name v
          let gs := Glob.ofMarked (atomMarks (← atoms outputOf n false operand))
          return atomsOf inQuotes (!inQuotes) (Glob.trimStart longest gs (← joinedValue v))
        | .withoutEnd longest =>
          demandSet name v
          let gs := Glob.ofMarked (atomMarks (← atoms outputOf n false operand))
          return atomsOf inQuotes (!inQuotes) (Glob.trimEnd longest gs (← joinedValue v))
        | .invalid => abort "Bad substitution".toList
    return parts.flatten

/-- The deepest nesting of pieces that counts. -/
def deepest : Nat := 1000

/-- The one text that a phrase stands for where words are not cut. -/
def text (outputOf : Option Script → Run Text) (p : Phrase) : Run Text := do
  return atomText (← joint) (← atoms outputOf deepest false (← expandTildes false p))

/-- The text that a phrase stands for as the value of a variable. -/
def settingText (outputOf : Option Script → Run Text) (p : Phrase) : Run Text := do
  return atomText (← joint) (← atoms outputOf deepest false (← expandTildes true p))

/-- The pattern that a phrase stands for. -/
def pattern (outputOf : Option Script → Run Text) (p : Phrase) : Run (List Glob) := do
  return Glob.ofMarked (atomMarks (← atoms outputOf deepest false (← expandTildes false p)))

/-! ### Paths -/

/-- The paths that fit the patterns of their names, from a place that has been reached by a path.
A name that starts with a dot is found only by a pattern that does. -/
def pathsFrom (files : Files) (place : Place) (sofar : Text) : List (List Marked) → List Text
  | [] => if (files.lookup place).isSome then [sofar] else []
  | name :: rest =>
    let plain := toBytes (name.map (·.char))
    let gs := Glob.ofMarked name
    let joined := fun (t : Text) => sofar ++ t ++ if rest.isEmpty then [] else ['/']
    if name.isEmpty then pathsFrom files place (joined []) rest
    else if !gs.any (· matches .star | .any | .oneOf ..) then
      match files.follow place [plain] with
      | .ok (next, _) => pathsFrom files next (joined (ofBytes plain)) rest
      | .error _ => []
    else
      (files.children place).flatMap fun child =>
        let t := ofBytes child
        if Glob.fits gs t && (t.head? != some '.' || gs.head? == some (.exactly '.')) then
          pathsFrom files (place ++ [child]) (joined t) rest
        else []

/-- Marked characters between slashes. -/
def splitMarks (ms : List Marked) : List (List Marked) :=
  ms.foldr
    (fun m pieces =>
      if m.char == '/' then [] :: pieces
      else
        match pieces with
        | piece :: rest => (m :: piece) :: rest
        | [] => [[m]])
    [[]]

/-- The words that a word with marks stands for: the paths that fit it, or its own text. -/
def paths (ms : List Marked) : Run (List Text) := do
  let plain := ms.map (·.char)
  if Glob.isProper (Glob.ofMarked ms) && !(← hasOption 'f') then
    let s ← get
    let place := if plain.head? == some '/' then [] else s.directory
    let found := pathsFrom s.files place [] (splitMarks ms)
    return if found.isEmpty then [plain] else found
  else return [plain]

/-- The words that a phrase stands for. -/
def fields (outputOf : Option Script → Run Text) (p : Phrase) : Run (List Text) := do
  let parts ← atoms outputOf deepest false (← expandTildes false p)
  let found := Cutting.words (← separators) parts
  return (← found.mapM paths).flatten

end Run

end Shell

end CliffordT
