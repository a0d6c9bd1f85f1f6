/-!
# Tokens of YAML documents

The tokens that a YAML text is cut into.  Block collections have no brackets in the text; their
tokens follow from the indentation.
-/

namespace CliffordT

namespace Yaml

/-- How a scalar is written. -/
inductive Style where
  | plain
  | singleQuoted
  | doubleQuoted
  | literal
  | folded
deriving DecidableEq

/-- The bytes of a tag.  Escapes in tags stand for bytes, of any value. -/
abbrev TagBytes := List UInt8

/-- The bytes that count: those before the first zero. -/
def TagBytes.counted (t : TagBytes) : TagBytes := t.takeWhile (· != 0)

/-- The exclamation mark, which as a tag counts as none. -/
def TagBytes.mark : TagBytes := [33]

/-- The tag of a standard type. -/
def TagBytes.standard (name : List Char) : TagBytes :=
  ("tag:yaml.org,2002:".toList ++ name).map (·.toNat.toUInt8)

/-- A token of a document. -/
inductive Token where
  /-- The version that a document is written for. -/
  | version (major minor : Nat)
  /-- A shorthand for the start of tags. -/
  | tagShorthand (handle : List Char) (start : TagBytes)
  | documentStart
  | documentEnd
  | blockSequenceStart
  | blockMappingStart
  | blockEnd
  | flowSequenceStart
  | flowSequenceEnd
  | flowMappingStart
  | flowMappingEnd
  /-- The dash before an item of a block sequence. -/
  | blockEntry
  /-- The comma between the entries of a flow collection. -/
  | flowEntry
  /-- A key follows. -/
  | key
  /-- The value of a key follows. -/
  | value
  /-- The node that is named elsewhere. -/
  | reference (name : List Char)
  /-- A name for the node that follows. -/
  | anchor (name : List Char)
  /-- A tag: a handle, and what it is followed by. -/
  | tag (handle : List Char) (suffix : TagBytes)
  | scalar (text : List Char) (style : Style)
  /-- The end of the text. -/
  | streamEnd
deriving DecidableEq

namespace Token

/-- The token ends a document or belongs to the head of the next one. -/
def isBoundary : Token → Bool
  | version .. => true
  | tagShorthand .. => true
  | documentStart => true
  | documentEnd => true
  | streamEnd => true
  | _ => false

end Token

end Yaml

end CliffordT
