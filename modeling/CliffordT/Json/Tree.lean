import CliffordT.Json.Numeral

/-!
# JSON trees

A tree is a JSON text as far as it can be read.  Where the text goes wrong the tree ends in
`Tree.broken`, and what follows in the text is not looked at.  Walking a tree from left to right
therefore meets the faults of a document, of its form and of its content alike, in the order of the
text.

* `Tree.isSound` : no part of the tree is broken,
* `Tree.render` : the compact text of a tree.
-/

namespace CliffordT

namespace Json

/-! ### Trees -/

/-- The three kinds of tree: a value, what is left of an array, what is left of an object. -/
inductive Part where
  | value
  | items
  | members

/-- A JSON text, read as far as it can be. -/
inductive Tree : Part → Type where
  | null : Tree .value
  | bool (b : Bool) : Tree .value
  | number (n : Numeral) : Tree .value
  /-- A string; `none` where it names half of a surrogate pair alone. -/
  | text (s : Option String) : Tree .value
  | array (items : Tree .items) : Tree .value
  | object (members : Tree .members) : Tree .value
  /-- The end of an array. -/
  | noItem : Tree .items
  | item (head : Tree .value) (rest : Tree .items) : Tree .items
  /-- The end of an object. -/
  | noMember : Tree .members
  | member (key : Option String) (value : Tree .value) (rest : Tree .members) : Tree .members
  /-- The text is not well-formed from here on. -/
  | broken {p : Part} : Tree p
deriving DecidableEq

/-- A whole JSON value. -/
abbrev Value := Tree .value

namespace Tree

/-- The array of some values. -/
def ofItems (vs : List Value) : Value := .array (vs.foldr .item .noItem)

/-- The object of some named values. -/
def ofMembers (ms : List (String × Value)) : Value :=
  .object (ms.foldr (fun m rest => .member (some m.1) m.2 rest) .noMember)

/-- The string value. -/
def ofString (s : String) : Value := .text (some s)

/-- The natural number as a value. -/
def ofNat (n : Nat) : Value := .number (.ofNat n)

/-- No part of the tree is broken.  Strings may hold halves of surrogate pairs. -/
def isSound {p : Part} : Tree p → Bool
  | array items => items.isSound
  | object members => members.isSound
  | item head rest => head.isSound && rest.isSound
  | member _ value rest => value.isSound && rest.isSound
  | broken => false
  | _ => true

end Tree

/-! ### Texts -/

/-- The digit for a number below sixteen. -/
def hexDigit (n : Nat) : Char := Nat.digitChar n

/-- A character as it stands in a string: quotes, backslashes and control characters are escaped. -/
def escape (c : Char) : List Char :=
  if c = '"' then ['\\', '"']
  else if c = '\\' then ['\\', '\\']
  else if c.toNat = 8 then ['\\', 'b']
  else if c.toNat = 9 then ['\\', 't']
  else if c.toNat = 10 then ['\\', 'n']
  else if c.toNat = 12 then ['\\', 'f']
  else if c.toNat = 13 then ['\\', 'r']
  else if c.toNat < 32 then ['\\', 'u', '0', '0', hexDigit (c.toNat / 16), hexDigit (c.toNat % 16)]
  else [c]

/-- The string in quotes. -/
def quote (s : String) : List Char := '"' :: (s.toList.flatMap escape ++ ['"'])

namespace Tree

/-- The text of a tree, without blanks.  The parts of an array or object end in its bracket; a comma
stands before each of them but the first. -/
def render {p : Part} (first : Bool) : Tree p → List Char
  | null => "null".toList
  | bool true => "true".toList
  | bool false => "false".toList
  | number n => n.render
  | text s => quote (s.getD "")
  | array items => '[' :: items.render true
  | object members => '\x7b' :: members.render true
  | noItem => [']']
  | item head rest => (if first then [] else [',']) ++ head.render true ++ rest.render false
  | noMember => ['\x7d']
  | member key value rest =>
    (if first then [] else [',']) ++ quote (key.getD "") ++ ':' :: value.render true ++
      rest.render false
  | broken => []

/-- The text of a value. -/
def compact (v : Value) : String := String.ofList (v.render true)

end Tree

end Json

end CliffordT
