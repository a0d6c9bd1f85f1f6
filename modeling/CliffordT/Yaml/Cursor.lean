import CliffordT.Text.Hex

/-!
# Positions in YAML texts

A cursor is the rest of a text together with its place: the number of bytes and lines before it, and
its column, which counts characters.  The characters that have a meaning of their own in YAML are
named here.
-/

namespace CliffordT

namespace Yaml

/-! ### Characters -/

/-- A blank or a tab. -/
def isBlankChar (c : Char) : Bool := c == ' ' || c == '\t'

/-- A line break. -/
def isBreak (c : Char) : Bool :=
  c == '\n' || c == '\r' || c.toNat == 0x85 || c.toNat == 0x2028 || c.toNat == 0x2029

/-- A character of names: ASCII letters and digits, underscores and dashes. -/
def isNameChar (c : Char) : Bool := c.isAlphanum || c == '_' || c == '-'

/-- A character that may stand in a YAML text at all. -/
def isPrintable (c : Char) : Bool :=
  let n := c.toNat
  n == 0x9 || n == 0xa || n == 0xd || (0x20 ≤ n && n ≤ 0x7e) || n == 0x85 ||
    (0xa0 ≤ n && n ≤ 0xd7ff) || (0xe000 ≤ n && n ≤ 0xfffd) || 0x10000 ≤ n

/-! ### Cursors -/

/-- The number of bytes that some characters take. -/
def byteCount (cs : List Char) : Nat := cs.foldr (fun x n => x.utf8Size + n) 0

/-- A place in a text. -/
structure Cursor where
  rest : List Char
  /-- The number of bytes before this place. -/
  index : Nat := 0
  line : Nat := 0
  column : Nat := 0

namespace Cursor

/-- The character that stands `k` places on. -/
def peek (c : Cursor) (k : Nat) : Option Char := c.rest[k]?

/-- Whether a given character stands `k` places on. -/
def sees (c : Cursor) (k : Nat) (x : Char) : Bool := c.peek k == some x

/-- Whether the text ends, or a blank or line break stands, `k` places on. -/
def seesGap (c : Cursor) (k : Nat) : Bool :=
  match c.peek k with
  | none => true
  | some x => isBlankChar x || isBreak x

/-- Whether the text ends, or a line break stands here. -/
def atLineEnd (c : Cursor) : Bool :=
  match c.rest with
  | [] => true
  | x :: _ => isBreak x

/-- Whether a blank or a tab stands here. -/
def atBlank (c : Cursor) : Bool :=
  match c.rest with
  | [] => false
  | x :: _ => isBlankChar x

/-- Whether a line break stands here. -/
def atBreak (c : Cursor) : Bool :=
  match c.rest with
  | [] => false
  | x :: _ => isBreak x

/-- Some characters on, on the same line. -/
def advance (c : Cursor) (n : Nat) : Cursor :=
  { c with
    rest := c.rest.drop n
    index := c.index + byteCount (c.rest.take n)
    column := c.column + n }

/-- Behind the line break that stands here.  A carriage return and a line feed are one break. -/
def nextLine (c : Cursor) : Cursor :=
  match c.rest with
  | '\r' :: '\n' :: rest => ⟨rest, c.index + 2, c.line + 1, 0⟩
  | x :: rest => ⟨rest, c.index + x.utf8Size, c.line + 1, 0⟩
  | [] => c

/-- The break that stands here as it counts in a scalar: a line feed, except that the separators of
lines and paragraphs stay what they are.  Nothing at the end of the text. -/
def breakText (c : Cursor) : List Char :=
  match c.rest with
  | [] => []
  | x :: _ => if x.toNat = 0x2028 ∨ x.toNat = 0x2029 then [x] else if isBreak x then ['\n'] else []

/-- Behind the characters that satisfy a condition, and these characters. -/
def takeWhile (c : Cursor) (p : Char → Bool) : List Char × Cursor :=
  let found := c.rest.takeWhile p
  (found, c.advance found.length)

/-- Behind the characters that satisfy a condition. -/
def skipWhile (c : Cursor) (p : Char → Bool) : Cursor := (c.takeWhile p).2

/-- At the end of the line. -/
def toLineEnd (c : Cursor) : Cursor := c.skipWhile fun x => !isBreak x

/-- Behind the blanks and the comment that may end a line, which must end here. -/
def endLine? (c : Cursor) : Option Cursor :=
  let c := c.skipWhile isBlankChar
  let c := if c.sees 0 '#' then c.toLineEnd else c
  if c.atLineEnd then some (if c.atBreak then c.nextLine else c) else none

/-- Whether a line here starts with the mark of a document's start or end. -/
def atDocumentMark (c : Cursor) : Bool :=
  c.column == 0 && c.seesGap 3 &&
    ['-', '.'].any fun x => c.sees 0 x && c.sees 1 x && c.sees 2 x

end Cursor

end Yaml

end CliffordT
