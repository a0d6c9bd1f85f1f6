import CliffordT.Host.Shell.Glob

/-!
# Regular expressions

Basic and extended expressions as `grep`, `sed` and `expr` read them.  Repeats take as much as they
can, and of two alternatives the one counts that leads to the longer match.

* `Regex.ofText` : the expression that a text holds,
* `Regex.search` : the first match in a text, with what its groups stand for.
-/

namespace CliffordT

namespace Tool

open Shell (Text)

/-- A regular expression. -/
inductive Regex where
  | empty
  | any
  /-- A character within inclusive ranges, or one outside all of them. -/
  | oneOf (isInverted : Bool) (ranges : List (Char × Char))
  /-- The start of the text. -/
  | start
  /-- The end of the text. -/
  | finish
  /-- A place between a character of names and another one, or any other place. -/
  | boundary (isInverted : Bool)
  /-- No character of names stands behind this place, or in front of it. -/
  | clear (isBehind : Bool)
  | sequence (a b : Regex)
  | either (a b : Regex)
  /-- At least `least` times, and at most `most` times if that is given. -/
  | repeated (least : Nat) (most : Option Nat) (a : Regex)
  /-- What stands for a group by its number. -/
  | group (n : Nat) (a : Regex)
  | reference (n : Nat)
deriving DecidableEq

namespace Regex

/-! ### Reading -/

/-- A character by itself, or in either case. -/
def exactly (ignoresCase : Bool) (c : Char) : Regex :=
  if ignoresCase then oneOf false [(c.toLower, c.toLower), (c.toUpper, c.toUpper)]
  else oneOf false [(c, c)]

/-- The ranges of a set up to its closing bracket, and the text behind it.  A backslash stands for
itself.  The bound is the length of the text. -/
def takeSet : Nat → Bool → Text → Option (List (Char × Char) × Text)
  | 0, _, _ => none
  | _, _, [] => none
  | n + 1, isFirst, c :: t =>
    if c = ']' ∧ !isFirst then some ([], t)
    else
      let named :=
        match c, t with
        | '[', ':' :: rest =>
          let name := rest.takeWhile Char.isAlpha
          if ":]".toList.isPrefixOf (rest.drop name.length) then
            (Shell.Glob.classRanges? name).map fun ranges =>
              (ranges, rest.drop (name.length + 2))
          else none
        | _, _ => none
      match named with
      | some (ranges, rest) => (takeSet n false rest).map fun (more, r) => (ranges ++ more, r)
      | none =>
        match t with
        | '-' :: last :: rest =>
          if last = ']' then (takeSet n false t).map fun (more, r) => ((c, c) :: more, r)
          else (takeSet n false rest).map fun (more, r) => ((c, last) :: more, r)
        | _ => (takeSet n false t).map fun (more, r) => ((c, c) :: more, r)

/-- How an expression is written. -/
structure Dialect where
  /-- Parentheses, braces and other signs have their meaning without a backslash. -/
  isExtended : Bool
  ignoresCase : Bool
deriving DecidableEq

/-- What a sign in a text stands for, and the text behind it. -/
inductive Sign where
  | character (c : Char)
  | any
  | opening
  | closing
  | bar
  | star
  | plus
  | option
  | brace
  | start
  | finish
  | reference (n : Nat)
  | boundary (isInverted : Bool)
  /-- A named class of characters, or all others. -/
  | letters (isInverted : Bool) (name : String)
  | set
deriving DecidableEq

/-- The sign at the head of a text. -/
def takeSign (s : Dialect) : Text → Option (Sign × Text)
  | [] => none
  | '\\' :: c :: t =>
    let special : Option Sign :=
      match c with
      | '(' => some .opening
      | ')' => some .closing
      | '|' => some .bar
      | '\x7b' => some .brace
      | '+' => some .plus
      | '?' => some .option
      | _ => none
    match special with
    | some sign => some (if s.isExtended then .character c else sign, t)
    | none =>
      if c = 'n' then some (.character '\n', t)
      else if c = 't' then some (.character '\t', t)
      else if c = 'b' then some (.boundary false, t)
      else if c = 'B' then some (.boundary true, t)
      else if c = '<' ∨ c = '>' then some (.boundary false, t)
      else if c = 'w' ∨ c = 'W' then some (.letters (c == 'W') "alnum", t)
      else if c = 's' ∨ c = 'S' then some (.letters (c == 'S') "space", t)
      else if c.isDigit ∧ c ≠ '0' then some (.reference (c.toNat - 48), t)
      else some (.character c, t)
  | c :: t =>
    let sign : Sign :=
      match c with
      | '.' => .any
      | '*' => .star
      | '[' => .set
      | '^' => .start
      | '$' => .finish
      | _ =>
        if !s.isExtended then .character c
        else
          match c with
          | '(' => .opening
          | ')' => .closing
          | '|' => .bar
          | '\x7b' => .brace
          | '+' => .plus
          | '?' => .option
          | _ => .character c
    some (sign, t)

/-- The bounds of a repeat, from behind the opening brace, and the text behind the closing one. -/
def takeBounds (s : Dialect) (t : Text) : Option (Nat × Option Nat × Text) :=
  let first := t.takeWhile Char.isDigit
  let least := (Shell.natOf? first).getD 0
  let (most, rest) :=
    match t.drop first.length with
    | ',' :: more =>
      let last := more.takeWhile Char.isDigit
      (Shell.natOf? last, more.drop last.length)
    | rest => (some least, rest)
  match rest with
  | '\x7d' :: rest => if s.isExtended then some (least, most, rest) else none
  | '\\' :: '\x7d' :: rest => if s.isExtended then none else some (least, most, rest)
  | _ => none

/-- Whether a text ends here as far as a dollar sign in a basic expression is concerned. -/
def endsHere (s : Dialect) (t : Text) : Bool :=
  s.isExtended || t.isEmpty || "\\)".toList.isPrefixOf t || "\\|".toList.isPrefixOf t

mutual

/-- Alternatives, with the number of groups before them and behind them. -/
def takeEither (s : Dialect) : Nat → Nat → Text → Option (Regex × Nat × Text)
  | 0, _, _ => none
  | n + 1, groups, t => do
    let (a, groups, rest) ← takeSequence s n true groups t
    match takeSign s rest with
    | some (.bar, rest) =>
      let (b, groups, rest) ← takeEither s n groups rest
      return (either a b, groups, rest)
    | _ => return (a, groups, rest)

/-- Parts one behind the other.  At the start a star stands for itself. -/
def takeSequence (s : Dialect) : Nat → Bool → Nat → Text → Option (Regex × Nat × Text)
  | 0, _, _, _ => none
  | n + 1, isFirst, groups, t => do
    match takeSign s t with
    | none => return (empty, groups, t)
    | some (.bar, _) => return (empty, groups, t)
    | some (.closing, _) => return (empty, groups, t)
    | some (sign, rest) =>
      let (a, groups, rest) ← takePart s n isFirst groups sign rest
      let (a, rest) ← takeRepeats s n a rest
      let (b, groups, rest) ← takeSequence s n (isFirst && sign == .start) groups rest
      return (if b = empty then a else sequence a b, groups, rest)

/-- The part that a sign stands for. -/
def takePart (s : Dialect) : Nat → Bool → Nat → Sign → Text → Option (Regex × Nat × Text)
  | 0, _, _, _, _ => none
  | n + 1, isFirst, groups, sign, t => do
    let literal := fun (c : Char) => some (exactly s.ignoresCase c, groups, t)
    match sign with
    | .character c => literal c
    | .any => return (any, groups, t)
    | .opening =>
      let number := groups + 1
      let (a, groups, rest) ← takeEither s n number t
      match takeSign s rest with
      | some (.closing, rest) => return (group number a, groups, rest)
      | _ => none
    | .start => if isFirst || s.isExtended then return (start, groups, t) else literal '^'
    | .finish => if endsHere s t then return (finish, groups, t) else literal '$'
    | .reference k => return (reference k, groups, t)
    | .boundary isInverted => return (boundary isInverted, groups, t)
    | .letters isInverted name =>
      let ranges := (Shell.Glob.classRanges? name.toList).getD []
      let ranges := if name = "alnum" then ('_', '_') :: ranges else ranges
      return (oneOf isInverted ranges, groups, t)
    | .set =>
      let (isInverted, body) :=
        match t with
        | '^' :: body => (true, body)
        | body => (false, body)
      let (ranges, rest) ← takeSet (body.length + 1) true body
      let ranges :=
        if s.ignoresCase then
          ranges ++ ranges.map (fun (a, b) => (a.toLower, b.toLower)) ++
            ranges.map fun (a, b) => (a.toUpper, b.toUpper)
        else ranges
      return (oneOf isInverted ranges, groups, rest)
    | .star => literal '*'
    | .plus => literal '+'
    | .option => literal '?'
    | .brace => literal '\x7b'
    | _ => none

/-- A part with the repeats behind it. -/
def takeRepeats (s : Dialect) : Nat → Regex → Text → Option (Regex × Text)
  | 0, _, _ => none
  | n + 1, a, t => do
    match takeSign s t with
    | some (.star, rest) =>
      if a = start ∧ !s.isExtended then return (a, t)
      else takeRepeats s n (repeated 0 none a) rest
    | some (.plus, rest) => takeRepeats s n (repeated 1 none a) rest
    | some (.option, rest) => takeRepeats s n (repeated 0 (some 1) a) rest
    | some (.brace, rest) =>
      match takeBounds s rest with
      | some (least, most, rest) => takeRepeats s n (repeated least most a) rest
      | none => return (a, t)
    | _ => return (a, t)

end

/-- The expression that a text holds. -/
def ofText (s : Dialect) (t : Text) : Option Regex :=
  match takeEither s (8 * t.length + 16) 0 t with
  | some (r, _, []) => some r
  | _ => none

/-- Why a text is no expression. -/
def faultText (t : Text) : Text :=
  let reason :=
    if t.getLast? == some '\\' then "Trailing backslash"
    else if t.getLast? == some '[' then "Invalid regular expression"
    else if t.contains '(' then "Unmatched ( or \\("
    else if t.contains ')' then "Unmatched ) or \\)"
    else if t.contains '[' then "Unmatched [, [^, [:, [., or [="
    else "Unmatched \\\x7b"
  reason.toList

/-! ### Matching -/

/-- What is still to be matched. -/
inductive Goal where
  | part (r : Regex)
  /-- A group that started before a rest of the text ends here. -/
  | close (n : Nat) (before : Text)
  /-- The text must be shorter than this. -/
  | shorter (length : Nat)

/-- The groups of a match by their numbers. -/
abbrev Groups := List (Nat × Text)

/-- The match that leaves less of the text, the first one if both leave the same. -/
def longer : Option (Text × Groups) → Option (Text × Groups) → Option (Text × Groups)
  | some (t, groups), some (t', groups') =>
    if t'.length < t.length then some (t', groups') else some (t, groups)
  | some found, none => some found
  | none, found => found

/-- Match goals one behind the other, at a rest of a text with the character before it.  The result
is the rest behind the match. -/
def run (whole : Nat) :
    Nat → List Goal → Option Char → Text → Groups → Option (Text × Groups)
  | 0, _, _, _, _ => none
  | _, [], _, t, groups => some (t, groups)
  | n + 1, goal :: goals, last, t, groups =>
    match goal with
    | .shorter length => if t.length < length then run whole n goals last t groups else none
    | .close k before =>
      run whole n goals last t ((k, before.take (before.length - t.length)) :: groups)
    | .part r =>
      match r with
      | empty => run whole n goals last t groups
      | any =>
        match t with
        | c :: rest => run whole n goals (some c) rest groups
        | [] => none
      | oneOf isInverted ranges =>
        match t with
        | c :: rest =>
          if Shell.Glob.inRanges ranges c != isInverted then
            run whole n goals (some c) rest groups
          else none
        | [] => none
      | start => if t.length = whole then run whole n goals last t groups else none
      | finish => if t.isEmpty then run whole n goals last t groups else none
      | boundary isInverted =>
        let isEdge := last.any Shell.isNameChar != t.head?.any Shell.isNameChar
        if isEdge != isInverted then run whole n goals last t groups else none
      | clear isBehind =>
        if (if isBehind then t.head? else last).any Shell.isNameChar then none
        else run whole n goals last t groups
      | sequence a b => run whole n (.part a :: .part b :: goals) last t groups
      | either a b =>
        longer (run whole n (.part a :: goals) last t groups)
          (run whole n (.part b :: goals) last t groups)
      | repeated least most a =>
        if most = some 0 then run whole n goals last t groups
        else if 0 < least then
          run whole n (.part a :: .part (repeated (least - 1) (most.map (· - 1)) a) :: goals)
            last t groups
        else
          let again :=
            run whole n
              (.part a :: .shorter t.length :: .part (repeated 0 (most.map (· - 1)) a) :: goals)
              last t groups
          match again with
          | some found => some found
          | none => run whole n goals last t groups
      | group k a => run whole n (.part a :: .close k t :: goals) last t groups
      | reference k =>
        let old := (groups.lookup k).getD []
        if old.isPrefixOf t then
          run whole n goals (if old.isEmpty then last else old.getLast?) (t.drop old.length) groups
        else none

/-- A match: the text before it, its own text, the text behind it, and its groups. -/
structure Match where
  before : Text
  text : Text
  behind : Text
  groups : Groups

/-- The match that starts at a rest of a text, which is `whole` characters long. -/
def matchAt (r : Regex) (whole : Nat) (last : Option Char) (t : Text) : Option (Text × Groups) :=
  run whole (64 * (t.length + 16)) [.part r] last t []

/-- The first match that starts in a rest of a text. -/
def searchFrom (r : Regex) (whole : Nat) (last : Option Char) : Text → Option Match
  | [] => (matchAt r whole last []).map fun (rest, groups) => ⟨[], [], rest, groups⟩
  | c :: t =>
    match matchAt r whole last (c :: t) with
    | some (rest, groups) =>
      some ⟨[], (c :: t).take (t.length + 1 - rest.length), rest, groups⟩
    | none => (searchFrom r whole (some c) t).map fun m => { m with before := c :: m.before }

/-- The first match in a text. -/
def search (r : Regex) (t : Text) : Option Match := searchFrom r t.length none t

end Regex

end Tool

end CliffordT
