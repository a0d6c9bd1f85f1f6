import CliffordT.Text.Hex
import CliffordT.Text.Utf8

/-!
# Texts of the shell

The shell works on bytes and knows nothing of encodings.  It keeps a byte as the character of the
same number, so that the bytes of ASCII characters read as these characters.

* `ofBytes`, `toBytes` : texts and bytes,
* `decimal`, `natOf?`, `intOf?` : numbers in base ten,
* `leadingInteger` : the integer at the head of a text, with marks of its base,
* `splitLines` : the lines of a text.
-/

namespace CliffordT

namespace Shell

/-- A string of bytes, each of which is kept as the character of its number. -/
abbrev Text := List Char

/-! ### Bytes -/

/-- The text of some bytes. -/
def ofBytes (bs : List UInt8) : Text := bs.map fun b => Char.ofNat b.toNat

/-- The bytes of a text. -/
def toBytes (t : Text) : List UInt8 := t.map fun c => c.toNat.toUInt8

/-- The text whose bytes are those of a string. -/
def ofString (s : String) : Text := ofBytes (Utf8.encode s.toList)

/-- The byte of a number, which counts modulo 256. -/
def byte (n : Nat) : Char := Char.ofNat (n % 256)

/-! ### Classes of characters -/

/-- White space: blank, tab, line feed, vertical tab, form feed and carriage return. -/
def isSpace (c : Char) : Bool := c == ' ' || (9 ≤ c.toNat && c.toNat ≤ 13)

/-- A character that may start a name. -/
def isNameStart (c : Char) : Bool := c.isAlpha || c == '_'

/-- A character that may be part of a name. -/
def isNameChar (c : Char) : Bool := c.isAlphanum || c == '_'

/-- Whether a text is the name of a variable. -/
def isName : Text → Bool
  | c :: cs => isNameStart c && cs.all isNameChar
  | [] => false

/-! ### Numbers -/

/-- A natural number in base ten. -/
def decimal (n : Nat) : Text := Nat.toDigits 10 n

/-- An integer in base ten. -/
def signedDecimal (i : Int) : Text := if i < 0 then '-' :: decimal i.natAbs else decimal i.natAbs

/-- The number of some digits in a base. -/
def valueOf (base : Nat) (ds : Text) : Nat :=
  ds.foldl (fun n d => n * base + (hexValue? d).getD 0) 0

/-- Whether a character is a digit in a base. -/
def isDigitIn (base : Nat) (c : Char) : Bool := (hexValue? c).any (· < base)

/-- The natural number that a text of digits stands for. -/
def natOf? (t : Text) : Option Nat :=
  if t.isEmpty || !t.all Char.isDigit then none else some (valueOf 10 t)

/-- An integer at the head of a text. -/
structure Leading where
  value : Int
  /-- What stands behind it. -/
  rest : Text
  /-- There is no integer; the value is zero. -/
  isMissing : Bool := false

/-- The natural number at the head of a text: hexadecimal behind `0x`, octal behind a zero, and
decimal otherwise. -/
def leadingNat : Text → Leading
  | '0' :: x :: d :: ds =>
    if (x == 'x' || x == 'X') && isDigitIn 16 d then
      ⟨valueOf 16 ((d :: ds).takeWhile (isDigitIn 16)), (d :: ds).dropWhile (isDigitIn 16), false⟩
    else inBase 8 (x :: d :: ds)
  | '0' :: ds => inBase 8 ds
  | t =>
    if t.head?.any Char.isDigit then inBase 10 t
    else ⟨0, t, true⟩
where
  /-- The digits at the head of a text; there may be none. -/
  inBase (base : Nat) (t : Text) : Leading :=
    ⟨valueOf base (t.takeWhile (isDigitIn base)), t.dropWhile (isDigitIn base), false⟩

/-- The integer at the head of a text, behind white space and a sign.  Its base is shown by what it
starts with, or is ten. -/
def leadingInteger (anyBase : Bool) (t : Text) : Leading :=
  let body := t.dropWhile isSpace
  let read := fun (ds : Text) =>
    if anyBase then leadingNat ds
    else if ds.head?.any Char.isDigit then leadingNat.inBase 10 ds
    else ⟨0, ds, true⟩
  let found :=
    match body with
    | '-' :: ds => { read ds with value := -(read ds).value }
    | '+' :: ds => read ds
    | ds => read ds
  if found.isMissing then ⟨0, t, true⟩ else found

/-- The least integer of sixty-four bits. -/
def leastInteger : Int := -0x8000000000000000

/-- The greatest integer of sixty-four bits. -/
def greatestInteger : Int := 0x7fffffffffffffff

/-- The integer nearest to another one among those of sixty-four bits. -/
def clampInteger (i : Int) : Int := min greatestInteger (max leastInteger i)

/-- The integer of sixty-four bits that a text in base ten stands for, with white space around
it. -/
def intOf? (t : Text) : Option Int :=
  let found := leadingInteger false t
  if found.isMissing || !found.rest.all isSpace || clampInteger found.value != found.value then none
  else some found.value

/-! ### Parts of texts -/

/-- Texts with a separator between them. -/
def joinWith (separator : Text) (ts : List Text) : Text := separator.intercalate ts

/-- The pieces between the characters that satisfy a condition. -/
def splitAt (p : Char → Bool) (t : Text) : List Text :=
  t.foldr
    (fun c pieces =>
      if p c then [] :: pieces
      else
        match pieces with
        | piece :: rest => (c :: piece) :: rest
        | [] => [[c]])
    [[]]

/-- The lines of a text, without the line feeds that end them.  The last line may lack its end. -/
def splitLines (t : Text) : List Text :=
  let pieces := splitAt (· == '\n') t
  if pieces.getLast? == some [] then pieces.dropLast else pieces

/-- Lines, each with a line feed behind it. -/
def joinLines (lines : List Text) : Text := lines.flatMap (· ++ ['\n'])

/-- A text without the line feeds at its end. -/
def trimLineEnds (t : Text) : Text := (t.reverse.dropWhile (· == '\n')).reverse

/-- A text in quotes that stands for itself in scripts: runs of single quotes stand in double
quotes, and what is between them in single ones.  The bound is the length of the text. -/
def quotedRuns : Nat → Text → Text
  | 0, _ => []
  | n + 1, t =>
    let plain := t.takeWhile (· != '\'')
    let rest := t.drop plain.length
    let quotes := rest.takeWhile (· == '\'')
    let behind := rest.drop quotes.length
    ['\''] ++ plain ++ ['\''] ++ (if quotes.isEmpty then [] else ['"'] ++ quotes ++ ['"']) ++
      if behind.isEmpty then [] else quotedRuns n behind

/-- A text in quotes that stands for itself in scripts. -/
def quotedText (t : Text) : Text := quotedRuns (t.length + 1) t

end Shell

end CliffordT
