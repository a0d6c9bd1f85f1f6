import CliffordT.Number.Decimal
import CliffordT.Text.Quoted
import CliffordT.Yaml.Node

/-!
# The types of YAML scalars

A plain scalar without a tag has the type that its text suggests: nothing, a truth value, an
integer, a real number or a text.  Quoted scalars are texts, and a tag of the standard types names
the type.
-/

namespace CliffordT

namespace Yaml

/-- What a node holds, by its type. -/
inductive Held where
  | nothing
  | bool (b : Bool)
  | integer (i : Int)
  | real (x : Binary64)
  | text (s : String)
  | sequence
  | mapping
deriving DecidableEq

namespace Held

/-- The text of a real number, with a point if it is finite. -/
def realText (x : Binary64) : String :=
  if x.isFinite && !x.plainChars.contains '.' then x.plain ++ ".0" else x.plain

/-- The held value in words.  Integers beyond sixty-four bits are marked by their width. -/
def describe : Held → String
  | nothing => "unit value"
  | bool b => "boolean `" ++ toString b ++ "`"
  | integer i =>
    "integer `" ++ toString i ++ "`" ++
      if i < -0x8000000000000000 then " as i128"
      else if (UInt64.size : Int) ≤ i then " as u128"
      else ""
  | real x => "floating point `" ++ realText x ++ "`"
  | text s => "string " ++ quoted s
  | sequence => "sequence"
  | mapping => "map"

end Held

/-! ### Plain scalars -/

/-- The truth value that a text stands for. -/
def boolOf? (cs : List Char) : Option Bool :=
  let s := String.ofList cs
  if ["true", "True", "TRUE"].contains s then some true
  else if ["false", "False", "FALSE"].contains s then some false
  else none

/-- Whether a text stands for nothing. -/
def isNullText (cs : List Char) : Bool :=
  ["~", "null", "Null", "NULL"].contains (String.ofList cs)

/-- Whether a text is a number with superfluous zeros in front, which counts as a text. -/
def hasLeadingZeros (cs : List Char) : Bool :=
  let ds :=
    match cs with
    | '-' :: cs => cs
    | '+' :: cs => cs
    | cs => cs
  decide (1 < ds.length) && ds.head? == some '0' && ds.all Char.isDigit

/-- The number of some digits in a base, of which there must be at least one. -/
def digitsIn? (base : Nat) (ds : List Char) : Option Nat :=
  if ds.isEmpty then none
  else
    ds.foldlM
      (fun n d => (hexValue? d).bind fun v => if v < base then some (n * base + v) else none) 0

/-- The number of a text with the mark of its base in front, or in base ten. -/
def naturalOf? (cs : List Char) : Option Nat :=
  match cs with
  | '0' :: 'x' :: ds => digitsIn? 16 ds
  | '0' :: 'o' :: ds => digitsIn? 8 ds
  | '0' :: 'b' :: ds => digitsIn? 2 ds
  | ds => digitsIn? 10 ds

/-- The number of naturals of 128 bits. -/
def integerLimit : Nat := UInt64.size * UInt64.size

/-- The integer of a text, within 128 bits. -/
def integerOf? (cs : List Char) : Option Int :=
  if hasLeadingZeros cs then none
  else
    match cs with
    | '-' :: cs =>
      (naturalOf? cs).bind fun n => if 2 * n ≤ integerLimit then some (-(n : Int)) else none
    | '+' :: cs => (naturalOf? cs).bind fun n => if n < integerLimit then some (n : Int) else none
    | cs => (naturalOf? cs).bind fun n => if n < integerLimit then some (n : Int) else none

/-- The exponent of a real number, where one may stand. -/
def exponentOf? : List Char → Option Int
  | [] => some 0
  | c :: cs =>
    if c = 'e' ∨ c = 'E' then
      match cs with
      | '-' :: ds => (digitsIn? 10 ds).map fun n => -(n : Int)
      | '+' :: ds => (digitsIn? 10 ds).map fun n => (n : Int)
      | ds => (digitsIn? 10 ds).map fun n => (n : Int)
    else none

/-- The decimal of a text without a sign: digits with at most one point, and an exponent. -/
def decimalOf? (cs : List Char) : Option Decimal := do
  let whole := cs.takeWhile Char.isDigit
  let rest := cs.dropWhile Char.isDigit
  let (fraction, rest) :=
    match rest with
    | '.' :: rest => (rest.takeWhile Char.isDigit, rest.dropWhile Char.isDigit)
    | rest => ([], rest)
  let digits ← digitsIn? 10 (whole ++ fraction)
  let exponent ← exponentOf? rest
  return ⟨digits, exponent - fraction.length⟩

/-- The finite double nearest to the decimal of a text. -/
def finiteOf? (negative : Bool) (cs : List Char) : Option Binary64 :=
  (decimalOf? cs).bind fun d =>
    if d.magnitude < Binary64.infiniteMagnitude then some (.ofMagnitude negative d.magnitude)
    else none

/-- The real number of a text: infinite, not a number, or finite. -/
def realOf? (cs : List Char) : Option Binary64 :=
  let s := String.ofList cs
  if [".inf", ".Inf", ".INF", "+.inf", "+.Inf", "+.INF"].contains s then
    some (.ofMagnitude false Binary64.infiniteMagnitude)
  else if ["-.inf", "-.Inf", "-.INF"].contains s then
    some (.ofMagnitude true Binary64.infiniteMagnitude)
  else if [".nan", ".NaN", ".NAN"].contains s then some .nan
  else
    match cs with
    | '-' :: cs => finiteOf? true cs
    | '+' :: cs => finiteOf? false cs
    | cs => finiteOf? false cs

/-- What a plain scalar without a tag holds. -/
def heldByText (cs : List Char) : Held :=
  if cs.isEmpty || isNullText cs then .nothing
  else
    match boolOf? cs with
    | some b => .bool b
    | none =>
      match integerOf? cs with
      | some i => .integer i
      | none =>
        match if hasLeadingZeros cs then none else realOf? cs with
        | some x => .real x
        | none => .text (String.ofList cs)

/-! ### Nodes -/

/-- Why a node does not hold the expected value. -/
inductive Mismatch where
  /-- A value of another type. -/
  | type (held : Held)
  /-- A text that is none of the type that its tag names. -/
  | tagged (text wanted : String)
deriving DecidableEq

/-- What a scalar holds. -/
def heldByScalar (text : String) (style : Style) (tag : Option TagBytes) : Mismatch :=
  let cs := text.toList
  let orTagged := fun (held : Option Held) (wanted : String) =>
    match held with
    | some h => .type h
    | none => .tagged text wanted
  match tag with
  | none => .type (if style = .plain then heldByText cs else .text text)
  | some t =>
    if t = .standard "bool".toList then orTagged ((boolOf? cs).map .bool) "a boolean"
    else if t = .standard "int".toList then orTagged ((integerOf? cs).map .integer) "an integer"
    else if t = .standard "float".toList then orTagged ((realOf? cs).map .real) "a float"
    else if t = .standard "null".toList then
      orTagged (if isNullText cs then some .nothing else none) "null"
    else if t.head? == TagBytes.mark.head? && style = .plain then .type (heldByText cs)
    else .type (.text text)

/-- What a node holds; a reference holds what its node holds. -/
def Document.mismatch (d : Document) (node : Node) : Mismatch :=
  match d.resolve node with
  | .scalar text style tag => heldByScalar text style tag
  | .mapping _ => .type .mapping
  | _ => .type .sequence

end Yaml

end CliffordT
