import CliffordT.Yaml.Scalar
import CliffordT.Yaml.Token

/-!
# Cutting YAML texts into tokens

The lexer walks over a text and keeps the indentations of the open block collections.  A key of a
block mapping is recognized only at the colon behind it, so the lexer remembers where a key may
have started, one place for each open flow collection, and inserts the tokens of the key there.
-/

namespace CliffordT

namespace Yaml

/-- A place where the key of a mapping may have started. -/
structure KeyPlace where
  /-- A key must have started here, since it stands at the indentation of a block mapping. -/
  required : Bool
  /-- The number of tokens before the key. -/
  tokens : Nat
  index : Nat
  line : Nat
  column : Nat

/-- The state of the lexer. -/
structure Lexer where
  place : Cursor
  /-- The tokens so far. -/
  tokens : Array Token := #[]
  /-- The column of the innermost block collection; negative outside of all. -/
  indent : Int := -1
  /-- The columns of the collections around it. -/
  outer : List Int := []
  /-- Where a key may have started: in the innermost flow collection, … , outside of all. -/
  keys : List (Option KeyPlace) := [none]
  /-- A key may start at the next token. -/
  keyAllowed : Bool := true

namespace Lexer

/-- Whether a flow collection is open. -/
def inFlow (s : Lexer) : Bool := decide (1 < s.keys.length)

/-- One more token. -/
def push (s : Lexer) (t : Token) : Lexer := { s with tokens := s.tokens.push t }

/-- A token behind the first `n` ones. -/
def insertAt (s : Lexer) (n : Nat) (t : Token) : Lexer :=
  { s with tokens := s.tokens.insertIdxIfInBounds n t }

/-- Some characters on. -/
def advance (s : Lexer) (n : Nat) : Lexer := { s with place := s.place.advance n }

/-! ### Gaps between tokens -/

/-- Whether a byte order mark stands here, which is a blank at the start of a line only. -/
def atOrderMark (c : Cursor) : Bool := c.column == 0 && (c.peek 0).any (·.toNat == 0xfeff)

/-- Behind blanks, comments and line breaks.  A tab is a blank only where no key may start.  In
block context a key may start on a new line.  The bound is the length of the text. -/
def skipGap : Nat → Lexer → Lexer
  | 0, s => s
  | n + 1, s =>
    match s.place.rest with
    | [] => s
    | x :: _ =>
      if x == ' ' || (x == '\t' && (s.inFlow || !s.keyAllowed)) || atOrderMark s.place then
        skipGap n (s.advance 1)
      else if x == '#' then skipGap n { s with place := s.place.toLineEnd }
      else if isBreak x then
        skipGap n
          { s with place := s.place.nextLine, keyAllowed := s.keyAllowed || !s.inFlow }
      else s

/-! ### Places of keys -/

/-- A key ends on the line it started on, and within 1024 bytes. -/
def isStale (c : Cursor) (k : KeyPlace) : Bool :=
  decide (k.line < c.line) || decide (k.index + 1024 < c.index)

/-- Forget the places that are too far back.  A key may not be missing where it is required. -/
def dropStale (s : Lexer) : Option Lexer :=
  if s.keys.any fun k => k.any (isStale s.place) then
    if s.keys.any fun k => k.any fun k => isStale s.place k && k.required then none
    else some { s with keys := s.keys.map fun k => k.filter fun k => !isStale s.place k }
  else some s

/-- Forget the place of the innermost collection. -/
def dropKey (s : Lexer) : Option Lexer :=
  match s.keys with
  | some k :: rest => if k.required then none else some { s with keys := none :: rest }
  | _ => some s

/-- Remember that a key may start here. -/
def saveKey (s : Lexer) : Option Lexer :=
  if s.keyAllowed then do
    let required := !s.inFlow && s.indent == s.place.column
    let s' ← s.dropKey
    let k : KeyPlace :=
      ⟨required, s.tokens.size, s.place.index, s.place.line, s.place.column⟩
    return { s' with keys := some k :: s'.keys.tail }
  else some s

/-! ### Indentation -/

/-- Close the block collections to the right of a column. -/
def closeBlocks (column : Int) : List Int → Int → Array Token → List Int × Int × Array Token
  | [], indent, ts =>
    if column < indent then ([], -1, ts.push .blockEnd) else ([], indent, ts)
  | i :: is, indent, ts =>
    if column < indent then closeBlocks column is i (ts.push .blockEnd) else (i :: is, indent, ts)

/-- Close the block collections to the right of a column.  Flow collections know no indentation. -/
def unroll (s : Lexer) (column : Int) : Lexer :=
  if s.inFlow then s
  else
    let (outer, indent, tokens) := closeBlocks column s.outer s.indent s.tokens
    { s with outer, indent, tokens }

/-- Open a block collection at a column to the right of the current one, with its token behind the
first `n` ones. -/
def roll (s : Lexer) (column n : Nat) (t : Token) : Lexer :=
  if s.inFlow || decide ((column : Int) ≤ s.indent) then s
  else { s.insertAt n t with outer := s.indent :: s.outer, indent := column }

/-! ### Indicators -/

/-- The mark of a document's start or end. -/
def documentMark (s : Lexer) (t : Token) : Option Lexer := do
  let s ← (s.unroll (-1)).dropKey
  return { s.advance 3 with keyAllowed := false }.push t

/-- The start of a flow collection. -/
def openFlow (s : Lexer) (t : Token) : Option Lexer := do
  let s ← s.saveKey
  return { s.advance 1 with keys := none :: s.keys, keyAllowed := true }.push t

/-- The end of a flow collection. -/
def closeFlow (s : Lexer) (t : Token) : Option Lexer := do
  let s ← s.dropKey
  let keys := if s.inFlow then s.keys.tail else s.keys
  return { s.advance 1 with keys, keyAllowed := false }.push t

/-- The comma between the entries of a flow collection. -/
def flowEntry (s : Lexer) : Option Lexer := do
  let s ← s.dropKey
  return { s.advance 1 with keyAllowed := true }.push .flowEntry

/-- The dash before an item. -/
def blockEntry (s : Lexer) : Option Lexer := do
  if !s.inFlow && !s.keyAllowed then none
  let s ← (s.roll s.place.column s.tokens.size .blockSequenceStart).dropKey
  return { s.advance 1 with keyAllowed := true }.push .blockEntry

/-- The question mark before a key. -/
def explicitKey (s : Lexer) : Option Lexer := do
  if !s.inFlow && !s.keyAllowed then none
  let s ← (s.roll s.place.column s.tokens.size .blockMappingStart).dropKey
  return { s.advance 1 with keyAllowed := !s.inFlow }.push .key

/-- The colon before a value.  If a key may have started before it, that is where the key is. -/
def valueMark (s : Lexer) : Option Lexer :=
  match s.keys with
  | some k :: rest =>
    let s := (s.insertAt k.tokens .key).roll k.column k.tokens .blockMappingStart
    some ({ s.advance 1 with keys := none :: rest, keyAllowed := false }.push .value)
  | _ =>
    if !s.inFlow && !s.keyAllowed then none
    else
      let s := s.roll s.place.column s.tokens.size .blockMappingStart
      some ({ s.advance 1 with keyAllowed := !s.inFlow }.push .value)

/-! ### Names and tags -/

/-- The name behind the indicator of an anchor or a reference, and the place behind it. -/
def takeName (c : Cursor) : Option (List Char × Cursor) :=
  let (name, c) := (c.advance 1).takeWhile isNameChar
  let ends := c.seesGap 0 || ['?', ':', ',', ']', '\x7d', '%', '@', '\x60'].any (c.sees 0)
  if name.isEmpty || !ends then none else some (name, c)

/-- A percent escape of a byte, and the place behind it. -/
def takeEscapedByte (c : Cursor) : Option (Nat × Cursor) := do
  if !c.sees 0 '%' then none
  let byte := (← hexValue? (← c.peek 1)) * 16 + (← hexValue? (← c.peek 2))
  return (byte, c.advance 3)

/-- Some bytes that go on with a character. -/
def takeContinuation : Nat → Cursor → Option (TagBytes × Cursor)
  | 0, c => some ([], c)
  | n + 1, c => do
    let (byte, c) ← takeEscapedByte c
    if byte / 64 != 2 then none
    let (bytes, c) ← takeContinuation n c
    return (byte.toUInt8 :: bytes, c)

/-- The bytes of a character written in percent escapes.  The first byte tells how many follow;
whether they are the bytes of a character is not asked. -/
def takeEscapedChar (c : Cursor) : Option (TagBytes × Cursor) := do
  let (lead, c) ← takeEscapedByte c
  let (bytes, c) ←
    if lead < 0x80 then some ([], c)
    else if lead / 32 = 6 then takeContinuation 1 c
    else if lead / 16 = 14 then takeContinuation 2 c
    else if lead / 8 = 30 then takeContinuation 3 c
    else none
  return (lead.toUInt8 :: bytes, c)

/-- A character of tags.  Between angle brackets, commas and brackets are allowed too. -/
def isTagChar (verbatim : Bool) (x : Char) : Bool :=
  isNameChar x || ";/?:@&=+$.!~*'()".toList.contains x || (verbatim && [',', '[', ']'].contains x)

/-- The bytes of a tag that stand here.  The bound is the length of the text. -/
def takeTagBytes (verbatim : Bool) : Nat → Cursor → Option (TagBytes × Cursor)
  | 0, _ => none
  | n + 1, c =>
    match c.rest with
    | [] => some ([], c)
    | x :: _ =>
      if x == '%' then do
        let (bytes, c) ← takeEscapedChar c
        let (more, c) ← takeTagBytes verbatim n c
        return (bytes ++ more, c)
      else if isTagChar verbatim x then
        (takeTagBytes verbatim n (c.advance 1)).map fun (more, c) =>
          (x.toNat.toUInt8 :: more, c)
      else some ([], c)

/-- A handle: an exclamation mark, and a name if another mark ends it.  Behind it stands whether
that mark is there. -/
def takeHandle (c : Cursor) : Option (List Char × Bool × Cursor) :=
  if c.sees 0 '!' then
    let (name, c) := (c.advance 1).takeWhile isNameChar
    if c.sees 0 '!' then some ('!' :: name ++ ['!'], true, c.advance 1)
    else some ('!' :: name, false, c)
  else none

/-- A tag: between angle brackets, behind a handle, or behind a single exclamation mark, which is
the whole tag if no byte behind it counts. -/
def takeTag (inFlow : Bool) (c : Cursor) : Option (Token × Cursor) := do
  let bound := c.rest.length + 1
  let (token, c) ←
    if c.sees 1 '<' then do
      let (text, c) ← takeTagBytes true bound (c.advance 2)
      if text.isEmpty || !c.sees 0 '>' then none
      pure (Token.tag [] text, c.advance 1)
    else do
      let (handle, closed, c) ← takeHandle c
      let (text, c) ← takeTagBytes false bound c
      if closed then
        if text.isEmpty then none
        pure (Token.tag handle text, c)
      else
        let suffix : TagBytes := handle.tail.map (·.toNat.toUInt8) ++ text
        pure (if suffix.counted.isEmpty then Token.tag [] .mark else Token.tag ['!'] suffix, c)
  if c.seesGap 0 || (inFlow && c.sees 0 ',') then return (token, c) else none

/-! ### Directives -/

/-- A number of at most nine digits. -/
def takeVersionNumber (c : Cursor) : Option (Nat × Cursor) :=
  let (ds, c) := c.takeWhile Char.isDigit
  if ds.isEmpty || decide (9 < ds.length) then none
  else some (ds.foldl (fun n d => n * 10 + (d.toNat - '0'.toNat)) 0, c)

/-- A directive: a version, or a shorthand of tags.  There are no others. -/
def takeDirective (c : Cursor) : Option (Token × Cursor) := do
  let (name, c) := (c.advance 1).takeWhile isNameChar
  if !c.seesGap 0 then none
  let c := c.skipWhile isBlankChar
  if name = "YAML".toList then
    let (major, c) ← takeVersionNumber c
    if !c.sees 0 '.' then none
    let (minor, c) ← takeVersionNumber (c.advance 1)
    return (.version major minor, ← c.endLine?)
  else if name = "TAG".toList then
    let (handle, closed, c) ← takeHandle c
    if !closed && handle != ['!'] then none
    if !c.atBlank then none
    let c := c.skipWhile isBlankChar
    let (start, c) ← takeTagBytes true (c.rest.length + 1) c
    if start.isEmpty || !c.seesGap 0 then none
    return (.tagShorthand handle start, ← c.endLine?)
  else none

/-! ### Scanning -/

/-- A token that may be the start of a key, read by `take`. -/
def node (s : Lexer) (take : Cursor → Option (Token × Cursor)) : Option Lexer := do
  let s ← s.saveKey
  let (t, c) ← take s.place
  return { s with place := c, keyAllowed := false }.push t

/-- A block scalar. -/
def blockScalar (s : Lexer) (literal : Bool) : Option Lexer := do
  let s ← s.dropKey
  let (text, c) ← takeBlock literal s.indent (s.place.advance 1)
  return { s with place := c, keyAllowed := true }.push
    (.scalar text (if literal then .literal else .folded))

/-- A plain scalar.  A key may start behind it if it ends in a line break. -/
def plainScalar (s : Lexer) : Option Lexer := do
  let s ← s.saveKey
  let bound := s.place.rest.length + 1
  let (text, hasBreak, c) ← takePlain s.inFlow (s.indent + 1).toNat bound {} s.place
  return { s with place := c, keyAllowed := hasBreak }.push (.scalar text .plain)

/-- A quoted scalar. -/
def quotedScalar (s : Lexer) (single : Bool) : Option Lexer :=
  s.node fun c => do
    let (text, c) ← takeQuoted single (c.rest.length + 1) (c.advance 1)
    return (.scalar text (if single then .singleQuoted else .doubleQuoted), c)

/-- Whether a plain scalar may start with a character here. -/
def startsPlain (s : Lexer) (x : Char) : Bool :=
  let indicators :=
    ['-', '?', ':', ',', '[', ']', '\x7b', '\x7d', '#', '&', '*', '!', '|', '>', '\'', '"', '%',
     '@', '\x60']
  !(s.place.seesGap 0 || indicators.contains x) ||
    (x == '-' && !(s.place.peek 1).any isBlankChar) ||
    (!s.inFlow && (x == '?' || x == ':') && !s.place.seesGap 1)

/-- The next token that starts with the character `x`. -/
def step (s : Lexer) (x : Char) : Option Lexer :=
  let c := s.place
  if c.column == 0 && x == '%' then do
    let s ← (s.unroll (-1)).dropKey
    let (t, c) ← takeDirective c
    return { s with place := c, keyAllowed := false }.push t
  else if c.atDocumentMark then s.documentMark (if x == '-' then .documentStart else .documentEnd)
  else if x == '[' then s.openFlow .flowSequenceStart
  else if x == '\x7b' then s.openFlow .flowMappingStart
  else if x == ']' then s.closeFlow .flowSequenceEnd
  else if x == '\x7d' then s.closeFlow .flowMappingEnd
  else if x == ',' then s.flowEntry
  else if x == '-' && c.seesGap 1 then s.blockEntry
  else if x == '?' && (s.inFlow || c.seesGap 1) then s.explicitKey
  else if x == ':' && (s.inFlow || c.seesGap 1) then s.valueMark
  else if x == '*' then s.node fun c => (takeName c).map fun (n, c) => (.reference n, c)
  else if x == '&' then s.node fun c => (takeName c).map fun (n, c) => (.anchor n, c)
  else if x == '!' then s.node (takeTag s.inFlow)
  else if x == '|' && !s.inFlow then s.blockScalar true
  else if x == '>' && !s.inFlow then s.blockScalar false
  else if x == '\'' then s.quotedScalar true
  else if x == '"' then s.quotedScalar false
  else if s.startsPlain x then s.plainScalar
  else none

/-- All tokens.  Each step uses up a character, so a bound of the text's length is never reached. -/
def run : Nat → Lexer → Option (Array Token)
  | 0, _ => none
  | n + 1, s => do
    let s ← (skipGap (n + 1) s).dropStale
    let s := s.unroll s.place.column
    match s.place.rest with
    | [] =>
      let s ← (s.unroll (-1)).dropKey
      return s.tokens.push .streamEnd
    | x :: _ => run n (← s.step x)

end Lexer

/-- The tokens of a text, unless it is not well-formed. -/
def tokens? (s : String) : Option (List Token) :=
  let cs := s.toList
  if cs.all isPrintable then ((Lexer.run (cs.length + 1) { place := { rest := cs } }).map
    Array.toList)
  else none

end Yaml

end CliffordT
