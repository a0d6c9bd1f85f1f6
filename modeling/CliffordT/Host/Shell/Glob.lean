import CliffordT.Host.Shell.Text

/-!
# Patterns

Patterns of texts with stars, question marks and sets of characters.  Characters in quotes stand for
themselves, and so does a character behind a backslash.

* `Glob.ofMarked` : the pattern of characters that are marked as quoted or not,
* `Glob.fits` : whether a text has the form of a pattern,
* `Glob.trimStart`, `Glob.trimEnd` : a text without a start or an end of that form.
-/

namespace CliffordT

namespace Shell

/-- A character, and whether it was quoted. -/
structure Marked where
  char : Char
  isQuoted : Bool
deriving DecidableEq

namespace Marked

/-- Whether it is a given character without quotes. -/
def isBare (m : Marked) (c : Char) : Bool := !m.isQuoted && m.char == c

end Marked

/-- An element of a pattern. -/
inductive Glob where
  /-- Any characters. -/
  | star
  /-- Any one character. -/
  | any
  /-- A character within inclusive ranges, or one outside all of them. -/
  | oneOf (isInverted : Bool) (ranges : List (Char × Char))
  /-- The character itself. -/
  | exactly (c : Char)
deriving DecidableEq

namespace Glob

/-! ### Sets of characters -/

/-- The ranges of a named class of characters. -/
def classRanges? (name : Text) : Option (List (Char × Char)) :=
  [("alnum", [('0', '9'), ('A', 'Z'), ('a', 'z')]),
   ("alpha", [('A', 'Z'), ('a', 'z')]),
   ("blank", [('\t', '\t'), (' ', ' ')]),
   ("cntrl", [('\x00', '\x1f'), ('\x7f', '\x7f')]),
   ("digit", [('0', '9')]),
   ("graph", [('!', '~')]),
   ("lower", [('a', 'z')]),
   ("print", [(' ', '~')]),
   ("punct", [('!', '/'), (':', '@'), ('[', '\x60'), ('\x7b', '~')]),
   ("space", [('\t', '\r'), (' ', ' ')]),
   ("upper", [('A', 'Z')]),
   ("xdigit", [('0', '9'), ('A', 'F'), ('a', 'f')])].lookup (String.ofList name)

/-- Whether a character lies in one of some ranges. -/
def inRanges (ranges : List (Char × Char)) (c : Char) : Bool :=
  ranges.any fun r => r.1 ≤ c && c ≤ r.2

/-- The name and the rest of a class that starts behind its bracket and colon. -/
def takeClass? (ms : List Marked) : Option (List (Char × Char) × List Marked) :=
  let name := ms.takeWhile fun m => m.char.isAlpha
  match ms.dropWhile fun m => m.char.isAlpha with
  | colon :: bracket :: rest =>
    if colon.isBare ':' && bracket.isBare ']' then
      (classRanges? (name.map (·.char))).map fun ranges => (ranges, rest)
    else none
  | _ => none

/-- The ranges of a set up to its closing bracket, and what stands behind it.  A bracket that stands
first is no closing one.  The bound is the length of the pattern. -/
def takeSet : Nat → Bool → List Marked → Option (List (Char × Char) × List Marked)
  | 0, _, _ => none
  | _, _, [] => none
  | n + 1, isFirst, m :: ms =>
    if m.isBare ']' && !isFirst then some ([], ms)
    else
      let inClass :=
        match ms with
        | colon :: rest => if m.isBare '[' && colon.isBare ':' then takeClass? rest else none
        | [] => none
      match inClass with
      | some (ranges, rest) => (takeSet n false rest).map fun (more, r) => (ranges ++ more, r)
      | none =>
        match ms with
        | dash :: last :: rest =>
          if dash.isBare '-' && !last.isBare ']' then
            (takeSet n false rest).map fun (more, r) => ((m.char, last.char) :: more, r)
          else (takeSet n false ms).map fun (more, r) => ((m.char, m.char) :: more, r)
        | _ => (takeSet n false ms).map fun (more, r) => ((m.char, m.char) :: more, r)

/-! ### Patterns -/

/-- The pattern of some characters.  The bound is their number. -/
def ofMarkedWithin : Nat → List Marked → List Glob
  | 0, _ => []
  | _, [] => []
  | n + 1, m :: ms =>
    if m.isBare '*' then .star :: ofMarkedWithin n ms
    else if m.isBare '?' then .any :: ofMarkedWithin n ms
    else if m.isBare '\\' then
      match ms with
      | c :: rest => .exactly c.char :: ofMarkedWithin n rest
      | [] => [.exactly '\\']
    else if m.isBare '[' then
      let (isInverted, body) :=
        match ms with
        | c :: rest => if c.isBare '!' then (true, rest) else (false, ms)
        | [] => (false, ms)
      match takeSet (body.length + 1) true body with
      | some (ranges, rest) => .oneOf isInverted ranges :: ofMarkedWithin n rest
      | none => .exactly '[' :: ofMarkedWithin n ms
    else .exactly m.char :: ofMarkedWithin n ms

/-- The pattern of some characters. -/
def ofMarked (ms : List Marked) : List Glob := ofMarkedWithin ms.length ms

/-- Whether a text has the form of a pattern. -/
def fits : List Glob → Text → Bool
  | [], t => t.isEmpty
  | .star :: gs, [] => fits gs []
  | .star :: gs, c :: cs => fits gs (c :: cs) || fits (.star :: gs) cs
  | .any :: gs, _ :: cs => fits gs cs
  | .oneOf isInverted ranges :: gs, c :: cs => (inRanges ranges c != isInverted) && fits gs cs
  | .exactly e :: gs, c :: cs => e == c && fits gs cs
  | _ :: _, [] => false
termination_by gs t => gs.length + t.length

/-- The lengths of the starts of a text, the shortest or the longest one first. -/
def lengths (longest : Bool) (t : Text) : List Nat :=
  let ascending := List.range (t.length + 1)
  if longest then ascending.reverse else ascending

/-- A text without its shortest or longest start of the form of a pattern. -/
def trimStart (longest : Bool) (gs : List Glob) (t : Text) : Text :=
  match (lengths longest t).find? fun k => fits gs (t.take k) with
  | some k => t.drop k
  | none => t

/-- A text without its shortest or longest end of the form of a pattern. -/
def trimEnd (longest : Bool) (gs : List Glob) (t : Text) : Text :=
  match (lengths (!longest) t).find? fun k => fits gs (t.drop k) with
  | some k => t.take k
  | none => t

/-- Whether the pattern is more than a text. -/
def isProper (gs : List Glob) : Bool :=
  gs.any fun
    | .exactly _ => false
    | _ => true

end Glob

end Shell

end CliffordT
