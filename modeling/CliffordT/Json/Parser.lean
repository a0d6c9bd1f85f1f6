import CliffordT.Json.Tree
import CliffordT.Text.Hex

/-!
# Reading JSON

A text becomes a tree.  Numerals and strings are read whole; a string is first read as a list of
code units, so that the halves of surrogate pairs that it names can be joined.

Each function returns what is left of the text.  It is left empty behind a fault, so a fault ends
the tree.
-/

namespace CliffordT

namespace Json

/-- The white space of JSON. -/
def isSpace (c : Char) : Bool := c == ' ' || c == '\t' || c == '\n' || c == '\r'

/-- The text from its first character that is not white space. -/
def skipSpace (cs : List Char) : List Char := cs.dropWhile isSpace

/-! ### Numerals -/

/-- The digits at the head of the text, and the rest. -/
def takeDigits (cs : List Char) : List Char × List Char :=
  (cs.takeWhile Char.isDigit, cs.dropWhile Char.isDigit)

/-- The digits before the point.  A zero stands alone. -/
def takeWhole (cs : List Char) : Option (List Char × List Char) :=
  match takeDigits cs with
  | ([], _) => none
  | (c :: ds, rest) => if c = '0' ∧ ds ≠ [] then none else some (c :: ds, rest)

/-- The digits behind the point, if there is a point. -/
def takeFraction : List Char → Option (List Char × List Char)
  | '.' :: cs =>
    match takeDigits cs with
    | ([], _) => none
    | found => some found
  | cs => some ([], cs)

/-- The digits of an exponent. -/
def takeExponentDigits (negative : Bool) (cs : List Char) : Option (Option Int × List Char) :=
  match takeDigits cs with
  | ([], _) => none
  | (ds, rest) =>
    some (some (if negative then -(digitsValue ds : Int) else digitsValue ds), rest)

/-- The exponent, if there is one. -/
def takeExponent : List Char → Option (Option Int × List Char)
  | c :: cs =>
    if c = 'e' ∨ c = 'E' then
      match cs with
      | '-' :: ds => takeExponentDigits true ds
      | '+' :: ds => takeExponentDigits false ds
      | ds => takeExponentDigits false ds
    else some (none, c :: cs)
  | [] => some (none, [])

/-- The numeral without a sign at the head of the text. -/
def takeUnsigned (negative : Bool) (cs : List Char) : Option (Numeral × List Char) := do
  let (whole, cs) ← takeWhole cs
  let (fraction, cs) ← takeFraction cs
  let (exponent, cs) ← takeExponent cs
  return (⟨negative, whole, fraction, exponent⟩, cs)

/-- The numeral at the head of the text. -/
def takeNumeral : List Char → Option (Numeral × List Char)
  | '-' :: cs => takeUnsigned true cs
  | cs => takeUnsigned false cs

/-! ### Strings -/

/-- The character that a letter stands for behind a backslash. -/
def unescape? (c : Char) : Option Char :=
  match c with
  | '"' => some '"'
  | '\\' => some '\\'
  | '/' => some '/'
  | 'b' => some '\x08'
  | 'f' => some '\x0c'
  | 'n' => some '\n'
  | 'r' => some '\r'
  | 't' => some '\t'
  | _ => none

/-- The code units of a string up to its closing quote, and the text behind it.  Control characters
must be escaped. -/
def takeUnits : List Char → Option (List Nat × List Char)
  | [] => none
  | '"' :: cs => some ([], cs)
  | '\\' :: 'u' :: a :: b :: c :: d :: cs => do
    let unit := ((← hexValue? a) * 16 + (← hexValue? b)) * 256 +
      ((← hexValue? c) * 16 + (← hexValue? d))
    let (units, rest) ← takeUnits cs
    return (unit :: units, rest)
  | '\\' :: c :: cs => do
    let c ← unescape? c
    let (units, rest) ← takeUnits cs
    return (c.toNat :: units, rest)
  | c :: cs =>
    if c = '\\' ∨ c.toNat < 32 then none
    else do
      let (units, rest) ← takeUnits cs
      return (c.toNat :: units, rest)

/-- A unit that opens a surrogate pair. -/
def isHighHalf (n : Nat) : Bool := decide (0xd800 ≤ n) && decide (n < 0xdc00)

/-- A unit that closes a surrogate pair. -/
def isLowHalf (n : Nat) : Bool := decide (0xdc00 ≤ n) && decide (n < 0xe000)

/-- The characters of code units; none if half of a pair stands alone. -/
def joinPairs : List Nat → Option (List Char)
  | [] => some []
  | high :: rest =>
    if isHighHalf high then
      match rest with
      | low :: rest =>
        if isLowHalf low then
          (joinPairs rest).map
            (Char.ofNat ((high - 0xd800) * 0x400 + (low - 0xdc00) + 0x10000) :: ·)
        else none
      | [] => none
    else if isLowHalf high then none
    else (joinPairs rest).map (Char.ofNat high :: ·)

/-- The string behind its opening quote. -/
def takeString (cs : List Char) : Option (Option String × List Char) :=
  (takeUnits cs).map fun (units, rest) => ((joinPairs units).map String.ofList, rest)

/-! ### Trees -/

/-- The text behind a given word. -/
def afterWord? : List Char → List Char → Option (List Char)
  | [], cs => some cs
  | w :: ws, c :: cs => if c = w then afterWord? ws cs else none
  | _ :: _, [] => none

/-- The value of a literal whose remaining letters must follow. -/
def parseWord (letters : List Char) (v : Value) (cs : List Char) : Value × List Char :=
  match afterWord? letters cs with
  | some rest => (v, rest)
  | none => (.broken, [])

mutual

/-- The value at the head of the text.  Every call uses up a character, so a bound of the text's
length is never reached. -/
def parseValue : Nat → List Char → Value × List Char
  | 0, _ => (.broken, [])
  | bound + 1, cs =>
    match skipSpace cs with
    | 'n' :: cs => parseWord "ull".toList .null cs
    | 't' :: cs => parseWord "rue".toList (.bool true) cs
    | 'f' :: cs => parseWord "alse".toList (.bool false) cs
    | '"' :: cs =>
      match takeString cs with
      | some (s, rest) => (.text s, rest)
      | none => (.broken, [])
    | '[' :: cs =>
      match skipSpace cs with
      | ']' :: rest => (.array .noItem, rest)
      | cs =>
        let (items, rest) := parseItems bound cs
        (.array items, rest)
    | '\x7b' :: cs =>
      match skipSpace cs with
      | '\x7d' :: rest => (.object .noMember, rest)
      | '"' :: cs =>
        let (members, rest) := parseMembers bound cs
        (.object members, rest)
      | _ => (.object .broken, [])
    | c :: cs =>
      if c = '-' ∨ c.isDigit then
        match takeNumeral (c :: cs) with
        | some (n, rest) => (.number n, rest)
        | none => (.broken, [])
      else (.broken, [])
    | [] => (.broken, [])

/-- The items of an array, from the first character of one of them. -/
def parseItems : Nat → List Char → Tree .items × List Char
  | 0, _ => (.broken, [])
  | bound + 1, cs =>
    let (head, rest) := parseValue bound cs
    match skipSpace rest with
    | ']' :: rest => (.item head .noItem, rest)
    | ',' :: cs =>
      let (items, rest) := parseItems bound cs
      (.item head items, rest)
    | _ => (.item head .broken, [])

/-- The members of an object, from behind the opening quote of a key. -/
def parseMembers : Nat → List Char → Tree .members × List Char
  | 0, _ => (.broken, [])
  | bound + 1, cs =>
    match takeString cs with
    | none => (.broken, [])
    | some (key, rest) =>
      match skipSpace rest with
      | ':' :: cs =>
        let (value, rest) := parseValue bound cs
        match skipSpace rest with
        | '\x7d' :: rest => (.member key value .noMember, rest)
        | ',' :: cs =>
          match skipSpace cs with
          | '"' :: cs =>
            let (members, rest) := parseMembers bound cs
            (.member key value members, rest)
          | _ => (.member key value .broken, [])
        | _ => (.member key value .broken, [])
      | _ => (.member key .broken .broken, [])

end

section Branches

variable {cs cs' : List Char}

theorem parseValue_quote (h : skipSpace cs = '"' :: cs') (bound : Nat) :
    parseValue (bound + 1) cs =
      match takeString cs' with
      | some (s, rest) => (.text s, rest)
      | none => (.broken, []) := by
  rw [parseValue, h]
  rfl

theorem parseValue_bracket (h : skipSpace cs = '[' :: cs') (bound : Nat) :
    parseValue (bound + 1) cs =
      match skipSpace cs' with
      | ']' :: rest => (.array .noItem, rest)
      | cs => (.array (parseItems bound cs).1, (parseItems bound cs).2) := by
  rw [parseValue, h]
  rfl

theorem parseValue_brace (h : skipSpace cs = '\x7b' :: cs') (bound : Nat) :
    parseValue (bound + 1) cs =
      match skipSpace cs' with
      | '\x7d' :: rest => (.object .noMember, rest)
      | '"' :: cs => (.object (parseMembers bound cs).1, (parseMembers bound cs).2)
      | _ => (.object .broken, []) := by
  rw [parseValue, h]
  rfl

end Branches

/-- A tree, and whether anything but white space follows it. -/
structure Document where
  root : Value
  isWhole : Bool
deriving DecidableEq

/-- The document that a text holds. -/
def Document.ofText (s : String) : Document :=
  let cs := s.toList
  let (root, rest) := parseValue (cs.length + 1) cs
  ⟨root, (skipSpace rest).isEmpty⟩

end Json

end CliffordT
