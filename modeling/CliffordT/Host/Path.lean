import CliffordT.Text.Utf8

/-!
# Paths

A path is a list of bytes.  Two paths are the same place when their components agree, so repeated
and trailing slashes and inner dots do not count (`Path.samePlace`).
-/

namespace CliffordT

/-- A path of the file system, as its bytes. -/
structure Path where
  bytes : List UInt8
deriving DecidableEq

namespace Path

/-- The path written as a text. -/
def ofString (s : String) : Path := ⟨Utf8.encode s.toList⟩

/-- The path as a text, with U+FFFD for what is not valid UTF-8. -/
def text (p : Path) : String := String.ofList (Utf8.lossy p.bytes)

/-- The path as a text, if its bytes are valid UTF-8. -/
def text? (p : Path) : Option String := (Utf8.decode p.bytes).toOption.map String.ofList

/-- The slash. -/
def separator : UInt8 := 47

/-- The dot. -/
def dot : UInt8 := 46

/-- The pieces between slashes, empty ones included. -/
def split : List UInt8 → List (List UInt8)
  | [] => [[]]
  | b :: bs =>
    if b = separator then [] :: split bs
    else
      match split bs with
      | piece :: rest => (b :: piece) :: rest
      | [] => [[b]]

/-- The pieces of the path. -/
def pieces (p : Path) : List (List UInt8) := split p.bytes

/-- Whether the path starts at the root. -/
def isAbsolute (p : Path) : Bool := p.bytes.head? == some separator

/-- The components: the pieces that are neither empty nor a dot, except that a dot at the head of a
relative path counts. -/
def components (p : Path) : List (List UInt8) :=
  let named := p.pieces.filter fun c => !c.isEmpty && c != [dot]
  if p.pieces.head? == some [dot] then [dot] :: named else named

/-- Equality by components. -/
def samePlace (p q : Path) : Bool := p.isAbsolute == q.isAbsolute && p.components == q.components

end Path

end CliffordT
