import CliffordT.Host.Tool.Copying
import CliffordT.Host.Tool.Regex

/-!
# Calculation

`expr` and `seq`: arithmetic on words, and rows of numbers.

* `Calculation.takeBinary` : the value of words that operators join,
* `Calculation.row` : numbers from one to another.
-/

namespace CliffordT

namespace Tool

namespace Calculation

open Shell (Text)

/-! ### `expr` -/

/-- Why words have no value, and the status that goes with it. -/
abbrev Fault := Text × Nat

/-- Words that are no expression. -/
def misplaced (t : Text) : Fault := ("syntax error: ".toList ++ t, 2)

/-- The integer that a text is. -/
def integer? (t : Text) : Option Int :=
  match t with
  | '-' :: ds => if ds.isEmpty || !ds.all Char.isDigit then none else some (-(Shell.valueOf 10 ds))
  | ds => if ds.isEmpty || !ds.all Char.isDigit then none else some (Shell.valueOf 10 ds)

/-- Whether a value counts as nothing: an empty text, or zero. -/
def isNothing (t : Text) : Bool :=
  t.isEmpty || (integer? t == some 0)

/-- A truth value. -/
def ofBool (b : Bool) : Text := if b then ['1'] else ['0']

/-- Whether an expression has a group. -/
def hasGroup : Regex → Bool
  | .group _ _ => true
  | .sequence a b => hasGroup a || hasGroup b
  | .either a b => hasGroup a || hasGroup b
  | .repeated _ _ a => hasGroup a
  | _ => false

/-- What matching the start of a text comes to: the text of the first group, or the length of the
match. -/
def matched (t pattern : Text) : Except Fault Text :=
  let body :=
    match pattern with
    | '^' :: rest => rest
    | rest => rest
  match Regex.ofText { isExtended := false, ignoresCase := false } body with
  | none => .error (Regex.faultText body, 2)
  | some r =>
    match r.matchAt t.length none t with
    | some (rest, groups) =>
      if hasGroup r then .ok ((groups.lookup 1).getD [])
      else .ok (Shell.decimal (t.length - rest.length))
    | none => .ok (if hasGroup r then [] else ['0'])

/-- The operators between two values, with their ranks. -/
def operatorRank? (t : Text) : Option Nat :=
  match String.ofList t with
  | "|" => some 0
  | "&" => some 1
  | "<" => some 2
  | "<=" => some 2
  | "=" => some 2
  | "==" => some 2
  | "!=" => some 2
  | ">=" => some 2
  | ">" => some 2
  | "+" => some 3
  | "-" => some 3
  | "*" => some 4
  | "/" => some 4
  | "%" => some 4
  | ":" => some 5
  | _ => none

/-- Whether a comparison holds: of integers by value, of other texts by their bytes. -/
def compared (op : String) (a b : Text) : Bool :=
  let (isLess, isEqual) :=
    match integer? a, integer? b with
    | some x, some y => (decide (x < y), x == y)
    | _, _ => (!Files.isUpTo (Shell.toBytes b) (Shell.toBytes a), a == b)
  match op with
  | "<" => isLess
  | "<=" => isLess || isEqual
  | ">" => !(isLess || isEqual)
  | ">=" => !isLess
  | "!=" => !isEqual
  | _ => isEqual

/-- The value of an operator. -/
def apply (op a b : Text) : Except Fault Text :=
  let arithmetic := fun (f : Int → Int → Except Fault Int) =>
    match integer? a, integer? b with
    | some x, some y => (f x y).map Shell.signedDecimal
    | _, _ => .error ("non-integer argument".toList, 2)
  let divide := fun (f : Int → Int → Int) =>
    arithmetic fun x y => if y = 0 then .error ("division by zero".toList, 2) else .ok (f x y)
  match String.ofList op with
  | "|" => .ok (if !isNothing a then a else if isNothing b then ['0'] else b)
  | "&" => .ok (if isNothing a || isNothing b then ['0'] else a)
  | "+" => arithmetic fun x y => .ok (x + y)
  | "-" => arithmetic fun x y => .ok (x - y)
  | "*" => arithmetic fun x y => .ok (x * y)
  | "/" => divide Int.tdiv
  | "%" => divide Int.tmod
  | ":" => matched a b
  | name => .ok (ofBool (compared name a b))

/-- Whether the value in front of an operator is that of both together. -/
def decides (op a : Text) : Bool :=
  (op == ['|'] && !isNothing a) || (op == ['&'] && isNothing a)

mutual

/-- The value of words that operators of at least a rank join, the word before them, and the words
behind them.  Words whose value does not matter are only read. -/
def takeBinary : Nat → Bool → Nat → Text → List Text → Except Fault (Text × Text × List Text)
  | 0, _, _, last, ws => .ok ([], last, ws)
  | n + 1, matters, rank, last, ws => do
    let (a, last, ws) ← takeOperand n matters last ws
    takeMore n matters rank a last ws

/-- The same, from behind the first operand. -/
def takeMore : Nat → Bool → Nat → Text → Text → List Text → Except Fault (Text × Text × List Text)
  | 0, _, _, a, last, ws => .ok (a, last, ws)
  | n + 1, matters, rank, a, last, ws => do
    match ws with
    | [] => return (a, last, [])
    | op :: rest =>
      match operatorRank? op with
      | none => return (a, last, ws)
      | some found =>
        if found < rank then return (a, last, ws)
        else
          let (b, last, rest) ← takeBinary n (matters && !decides op a) (found + 1) op rest
          takeMore n matters rank (← if matters then apply op a b else pure a) last rest

/-- The value of a word, of words in parentheses, or of a function. -/
def takeOperand : Nat → Bool → Text → List Text → Except Fault (Text × Text × List Text)
  | 0, _, last, ws => .ok ([], last, ws)
  | n + 1, matters, last, ws => do
    match ws with
    | [] => .error (misplaced ("missing argument after ".toList ++ Call.quoted last))
    | word :: rest =>
      match String.ofList word with
      | "(" =>
        let (a, last, rest) ← takeBinary n matters 0 word rest
        match rest with
        | [')'] :: rest => return (a, [')'], rest)
        | [] => .error (misplaced ("expecting ')' after ".toList ++ Call.quoted last))
        | other :: _ => .error (misplaced ("expecting ')' instead of ".toList ++ Call.quoted other))
      | ")" => .error (misplaced "unexpected ')'".toList)
      | "+" =>
        match rest with
        | [] => .error (misplaced ("missing argument after ".toList ++ Call.quoted word))
        | a :: rest => return (a, a, rest)
      | "length" =>
        let (a, last, rest) ← takeOperand n matters word rest
        return (Shell.decimal a.length, last, rest)
      | "match" =>
        let (a, last, rest) ← takeOperand n matters word rest
        let (b, last, rest) ← takeOperand n matters last rest
        return (← if matters then matched a b else pure a, last, rest)
      | "index" =>
        let (a, last, rest) ← takeOperand n matters word rest
        let (b, last, rest) ← takeOperand n matters last rest
        let before := (a.takeWhile fun c => !b.contains c).length
        return (Shell.decimal (if before = a.length then 0 else before + 1), last, rest)
      | "substr" =>
        let (a, last, rest) ← takeOperand n matters word rest
        let (first, last, rest) ← takeOperand n matters last rest
        let (count, last, rest) ← takeOperand n matters last rest
        match integer? first, integer? count with
        | some i, some k =>
          return (if i < 1 ∨ k < 1 then [] else (a.drop (i - 1).toNat).take k.toNat, last, rest)
        | _, _ => return ([], last, rest)
      | _ => return (word, word, rest)

end

/-- The value of words. -/
def value (ws : List Text) : Except Fault Text := do
  match ← takeBinary (8 * ws.length + 8) true 0 [] ws with
  | (a, _, []) => return a
  | (_, _, word :: _) => .error (misplaced ("unexpected argument ".toList ++ Call.quoted word))

/-! ### `seq` -/

/-- A decimal number, as a whole number of its last places. -/
structure Places where
  units : Int
  places : Nat

/-- The decimal number that a text is. -/
def places? (t : Text) : Option Places :=
  let (isNegative, body) :=
    match t with
    | '-' :: ds => (true, ds)
    | '+' :: ds => (false, ds)
    | ds => (false, ds)
  let whole := body.takeWhile Char.isDigit
  let fraction :=
    match body.dropWhile Char.isDigit with
    | [] => some []
    | '.' :: ds => if ds.all Char.isDigit then some ds else none
    | _ => none
  match fraction with
  | none => none
  | some fraction =>
    if whole.isEmpty && fraction.isEmpty then none
    else
      let n : Int := Shell.valueOf 10 (whole ++ fraction)
      some ⟨if isNegative then -n else n, fraction.length⟩

/-- A one with zeros behind it. -/
def powerOfTen (zeros : Nat) : Int := Shell.valueOf 10 ('1' :: List.replicate zeros '0')

/-- A number in units of more places. -/
def Places.inUnits (p : Places) (places : Nat) : Int :=
  p.units * powerOfTen (places - p.places)

/-- The text of a number of units. -/
def placesText (places : Nat) (i : Int) : Text :=
  let ds := Shell.decimal i.natAbs
  let ds := List.replicate (places + 1 - ds.length) '0' ++ ds
  (if i < 0 then ['-'] else []) ++
    if places = 0 then ds else ds.take (ds.length - places) ++ '.' :: ds.drop (ds.length - places)

/-- Numbers from one up or down to another.  The bound is the greatest number of them. -/
def row (step last : Int) : Nat → Int → List Int
  | 0, _ => []
  | n + 1, i =>
    if (0 < step ∧ last < i) ∨ (step < 0 ∧ i < last) then [] else i :: row step last n (i + step)

/-- A number with zeros in front, behind its sign. -/
def widened (width : Nat) (t : Text) : Text :=
  match t with
  | '-' :: ds => '-' :: List.replicate (width - t.length) '0' ++ ds
  | ds => List.replicate (width - t.length) '0' ++ ds

/-- The operands among the arguments of `seq`, where a negative number is no option, with the text
between numbers, and whether all are to be equally wide. -/
def rowOptions : List Text → Text × Bool × List Text
  | [] => (['\n'], false, [])
  | ['-', '-'] :: rest => (['\n'], false, rest)
  | ['-', 'w'] :: rest =>
    let (separator, _, operands) := rowOptions rest
    (separator, true, operands)
  | ('-' :: 's' :: c :: t) :: rest =>
    let (_, isWide, operands) := rowOptions rest
    (c :: t, isWide, operands)
  | [['-', 's']] => (['\n'], false, [])
  | ['-', 's'] :: t :: rest =>
    let (_, isWide, operands) := rowOptions rest
    (t, isWide, operands)
  | operands => (['\n'], false, operands)

end Calculation

/-- `expr` : the value of an expression.  The status tells whether it is nothing. -/
def expr : Action := fun c =>
  let words := if c.args.head? == some "--".toList then c.args.tail else c.args
  if words.isEmpty then c.refuse 2 "missing operand".toList
  else
    match Calculation.value words with
    | .ok t => { output := t ++ ['\n'], status := if Calculation.isNothing t then 1 else 0 }
    | .error (t, status) => { complaints := c.complaint t, status }

/-- The greatest number of numbers that `seq` writes. -/
def longestRow : Nat := 0x100000

/-- `seq` : numbers from one to another. -/
def seq : Action := fun c =>
  let (separator, isWide, operands) := Calculation.rowOptions c.args
  match operands.find? fun t => (Calculation.places? t).isNone with
  | some t => c.refuse 1 ("invalid floating point argument: ".toList ++ Call.quoted t)
  | none =>
    let answer := fun (first step last : Calculation.Places) =>
      if step.units = 0 then
        c.refuse 1 "invalid Zero increment value: '0'".toList
      else
        let shown := max first.places step.places
        let places := max shown last.places
        let numbers := Calculation.row (step.inUnits places) (last.inUnits places) longestRow
          (first.inUnits places)
        let texts := numbers.map fun i =>
          Calculation.placesText shown (i.tdiv (Calculation.powerOfTen (places - shown)))
        let width := texts.foldl (fun n t => max n t.length) 0
        let texts := if isWide then texts.map (Calculation.widened width) else texts
        ({ output := if texts.isEmpty then [] else Shell.joinWith separator texts ++ ['\n'] } :
          Answer)
    match operands.filterMap Calculation.places? with
    | [last] => answer ⟨1, 0⟩ ⟨1, 0⟩ last
    | [first, last] => answer first ⟨1, 0⟩ last
    | [first, step, last] => answer first step last
    | [] => c.refuse 1 "missing operand".toList
    | _ => c.refuse 1 ("extra operand ".toList ++ Call.quoted (operands.getD 3 []))

end Tool

end CliffordT
