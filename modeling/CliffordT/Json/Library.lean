import CliffordT.Json.Parser

/-!
# The JSON library

Reading and writing JSON is the work of a library.  What is read from a tree, and which tree is
written for a value, does not depend on which library that is.

* `Json.Library` : a reader and a writer of texts, and what the numerals of doubles are;
* `Json.Library.standard` : the library that is used unless another one is given.  It reads numerals
  as the nearest double and writes doubles with the fewest digits.
-/

namespace CliffordT

namespace Json

/-- A JSON library. -/
class Library where
  /-- The text of a value. -/
  write : Value → String
  /-- The document that a text holds. -/
  read : String → Document
  /-- The numeral of a finite double. -/
  numeral : Binary64 → Numeral
  /-- The double that a numeral stands for. -/
  toBinary64 : Numeral → Binary64

/-- The library that is used unless another one is given. -/
instance Library.standard : Library where
  write := Tree.compact
  read := Document.ofText
  numeral := Binary64.numeral
  toBinary64 := Numeral.toBinary64

end Json

end CliffordT
