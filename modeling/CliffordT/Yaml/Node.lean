import CliffordT.Yaml.Token.Lexer

/-!
# Nodes of YAML documents

A document is a tree of scalars, sequences and mappings.  A node may have an anchor, and other
places of the tree may refer to it.  An anchor's number is the number of names in use before it,
and a reference means, of the anchored nodes with the number of its name, the one that starts last.

Finding the document of a text is the work of a library.  What is read from a document does not
depend on which library found it.

* `Yaml.Node`, `Yaml.Document` : the tree of a document;
* `Yaml.Document.ofText` : the document of a text;
* `Yaml.Reader` : a library, and the one that is used unless another one is given.
-/

namespace CliffordT

namespace Yaml

/-- A node of a document. -/
inductive Node where
  | scalar (text : String) (style : Style) (tag : Option TagBytes)
  | sequence (items : List Node)
  | mapping (entries : List (Node × Node))
  /-- The node of the anchor with a number. -/
  | reference (anchor : Nat)

namespace Node

/-- The node of an absent value. -/
def empty : Node := scalar "" .plain none

mutual

/-- Whether two nodes are the same. -/
def same : Node → Node → Bool
  | scalar text style tag, scalar text' style' tag' =>
    decide (text = text' ∧ style = style' ∧ tag = tag')
  | sequence items, sequence items' => sameItems items items'
  | mapping entries, mapping entries' => sameEntries entries entries'
  | reference anchor, reference anchor' => decide (anchor = anchor')
  | _, _ => false

/-- Whether two lists hold the same items. -/
def sameItems : List Node → List Node → Bool
  | [], [] => true
  | item :: items, item' :: items' => item.same item' && sameItems items items'
  | _, _ => false

/-- Whether two lists hold the same entries. -/
def sameEntries : List (Node × Node) → List (Node × Node) → Bool
  | [], [] => true
  | (key, value) :: entries, (key', value') :: entries' =>
    key.same key' && value.same value' && sameEntries entries entries'
  | _, _ => false

end

mutual

theorem same_iff : ∀ {a b : Node}, a.same b ↔ a = b
  | scalar .., b => by cases b <;> simp [same]
  | sequence items, b => by cases b <;> simp [same, sameItems_iff]
  | mapping entries, b => by cases b <;> simp [same, sameEntries_iff]
  | reference anchor, b => by cases b <;> simp [same]

theorem sameItems_iff : ∀ {items items' : List Node}, sameItems items items' ↔ items = items'
  | [], items' => by cases items' <;> simp [sameItems]
  | item :: items, items' => by cases items' <;> simp [sameItems, same_iff, sameItems_iff]

theorem sameEntries_iff :
    ∀ {entries entries' : List (Node × Node)}, sameEntries entries entries' ↔ entries = entries'
  | [], entries' => by cases entries' <;> simp [sameEntries]
  | (key, value) :: entries, entries' => by
    rcases entries' with _ | ⟨⟨key', value'⟩, entries'⟩ <;>
      simp [sameEntries, same_iff, sameEntries_iff]

end

instance : DecidableEq Node := fun _ _ => decidable_of_iff _ same_iff

end Node

/-- A document. -/
structure Document where
  /-- The node of the document; none for a text without a document. -/
  root : Option Node
  /-- The numbers of the anchors with the places of their nodes in the order of the text, the last
  one first. -/
  anchors : List (Nat × Nat)
  /-- The anchored nodes by these places. -/
  anchored : List (Nat × Node)
deriving DecidableEq

/-- Follow a reference to its node. -/
def Document.resolve (d : Document) : Node → Node
  | .reference n => ((d.anchors.lookup n).bind (d.anchored.lookup ·)).getD .empty
  | node => node

/-! ### Reading nodes -/

/-- The state of reading a document from its tokens. -/
structure Reading where
  tokens : List Token
  /-- The shorthands of tags. -/
  shorthands : List (List Char × TagBytes) := []
  /-- The numbers of the anchors by their names. -/
  names : List (List Char × Nat) := []
  /-- The anchors so far: their numbers, and the places of their nodes in the order of the text, the
  last one first. -/
  anchors : List (Nat × Nat) := []
  /-- The anchored nodes that are complete, by these places. -/
  anchored : List (Nat × Node) := []

namespace Reading

/-- The next token. -/
def next (r : Reading) : Token := r.tokens.headD .streamEnd

/-- Behind the next token. -/
def skip (r : Reading) : Reading := { r with tokens := r.tokens.tail }

/-- The shorthands that every document has. -/
def standardShorthands : List (List Char × TagBytes) :=
  [(['!'], .mark), (['!', '!'], TagBytes.standard [])]

/-- The whole tag of a handle and a suffix, of both of which only the bytes before a zero count. -/
def wholeTag (r : Reading) (handle : List Char) (suffix : TagBytes) : Option TagBytes :=
  if handle.isEmpty then some suffix.counted
  else
    ((r.shorthands ++ standardShorthands).lookup handle).map fun start =>
      start.counted ++ suffix.counted

/-- A name for the node that comes next. -/
def bind (r : Reading) (name : List Char) : Reading :=
  { r with
    names := (name, r.names.length) :: r.names.filter (·.1 != name)
    anchors := (r.names.length, r.anchors.length) :: r.anchors }

/-- The anchored node of a place is complete. -/
def complete (r : Reading) (place : Option Nat) (node : Node) : Reading :=
  match place with
  | some n => { r with anchored := (n, node) :: r.anchored }
  | none => r

/-- The anchor that may stand before a node. -/
def takeAnchor (r : Reading) : Option (List Char) × Reading :=
  match r.next with
  | .anchor name => (some name, r.skip)
  | _ => (none, r)

/-- The tag that may stand before a node. -/
def takeTag (r : Reading) : Option (Option TagBytes × Reading) :=
  match r.next with
  | .tag handle suffix => (r.wholeTag handle suffix).map fun tag => (some tag, r.skip)
  | _ => some (none, r)

/-- The anchor and the tag that may stand before a node, in either order. -/
def takeProperties (r : Reading) : Option (Option (List Char) × Option TagBytes × Reading) := do
  let (anchor, r) := r.takeAnchor
  let (tag, r) ← r.takeTag
  match anchor with
  | some _ => return (anchor, tag, r)
  | none =>
    if tag.isNone then return (none, none, r)
    let (anchor, r) := r.takeAnchor
    return (anchor, tag, r)

/-- The node of a scalar token.  The tag `!` counts as none. -/
def scalarNode (text : List Char) (style : Style) (tag : Option TagBytes) : Node :=
  .scalar (String.ofList text) style (if tag = some .mark then none else tag)

mutual

/-- A node.  Block collections are read only where `block` holds, and a sequence at the indentation
of the mapping around it only where `indentless` holds. -/
def node : Nat → Bool → Bool → Reading → Option (Node × Reading)
  | 0, _, _, _ => none
  | n + 1, block, indentless, r => do
    match r.next with
    | .reference name => return (.reference (← r.names.lookup name), r.skip)
    | _ =>
      let (anchor, tag, r) ← r.takeProperties
      let place := anchor.map fun _ => r.anchors.length
      let r :=
        match anchor with
        | some name => r.bind name
        | none => r
      let (node, r) ←
        match r.next with
        | .scalar text style => some (scalarNode text style tag, r.skip)
        | .flowSequenceStart => do
          let (items, r) ← flowItems n true r.skip
          some (.sequence items, r)
        | .flowMappingStart => do
          let (entries, r) ← flowEntries n true r.skip
          some (.mapping entries, r)
        | .blockSequenceStart =>
          if block then do
            let (items, r) ← blockItems n r.skip
            some (.sequence items, r)
          else absent anchor tag r
        | .blockMappingStart =>
          if block then do
            let (entries, r) ← blockEntries n r.skip
            some (.mapping entries, r)
          else absent anchor tag r
        | .blockEntry =>
          if indentless then do
            let (items, r) ← indentlessItems n r
            some (.sequence items, r)
          else absent anchor tag r
        | _ => absent anchor tag r
      return (node, r.complete place node)

/-- The items of a block sequence, up to its end. -/
def blockItems : Nat → Reading → Option (List Node × Reading)
  | 0, _ => none
  | n + 1, r =>
    match r.next with
    | .blockEnd => some ([], r.skip)
    | .blockEntry => do
      let r := r.skip
      let (item, r) ←
        match r.next with
        | .blockEntry => some (.empty, r)
        | .blockEnd => some (.empty, r)
        | _ => node n true false r
      let (items, r) ← blockItems n r
      return (item :: items, r)
    | _ => none

/-- The items of a sequence at the indentation of the mapping around it. -/
def indentlessItems : Nat → Reading → Option (List Node × Reading)
  | 0, _ => none
  | n + 1, r =>
    match r.next with
    | .blockEntry => do
      let r := r.skip
      let (item, r) ←
        match r.next with
        | .blockEntry => some (.empty, r)
        | .key => some (.empty, r)
        | .value => some (.empty, r)
        | .blockEnd => some (.empty, r)
        | _ => node n true false r
      let (items, r) ← indentlessItems n r
      return (item :: items, r)
    | _ => some ([], r)

/-- The entries of a block mapping, up to its end. -/
def blockEntries : Nat → Reading → Option (List (Node × Node) × Reading)
  | 0, _ => none
  | n + 1, r =>
    match r.next with
    | .blockEnd => some ([], r.skip)
    | .key => do
      let (key, r) ← blockPart n r.skip
      let (value, r) ←
        match r.next with
        | .value => blockPart n r.skip
        | _ => some (.empty, r)
      let (entries, r) ← blockEntries n r
      return ((key, value) :: entries, r)
    | _ => none

/-- A key or a value of a block mapping, which may be absent. -/
def blockPart : Nat → Reading → Option (Node × Reading)
  | 0, _ => none
  | n + 1, r =>
    match r.next with
    | .key => some (.empty, r)
    | .value => some (.empty, r)
    | .blockEnd => some (.empty, r)
    | _ => node n true true r

/-- The items of a flow sequence, up to its end.  A comma stands before each item but the first. -/
def flowItems : Nat → Bool → Reading → Option (List Node × Reading)
  | 0, _, _ => none
  | n + 1, first, r =>
    match r.next with
    | .flowSequenceEnd => some ([], r.skip)
    | _ => do
      let r ← if first then some r else match r.next with
        | .flowEntry => some r.skip
        | _ => none
      match r.next with
      | .flowSequenceEnd => return ([], r.skip)
      | .key =>
        let (item, r) ← singlePair n r.skip
        let (items, r) ← flowItems n false r
        return (item :: items, r)
      | _ =>
        let (item, r) ← node n false false r
        let (items, r) ← flowItems n false r
        return (item :: items, r)

/-- A mapping of one entry that is an item of a flow sequence, from behind the mark of its key.
Where the key is absent, the token that stands in its place is passed over. -/
def singlePair : Nat → Reading → Option (Node × Reading)
  | 0, _ => none
  | n + 1, r => do
    let (key, r) ←
      match r.next with
      | .value => some (.empty, r.skip)
      | .flowEntry => some (.empty, r.skip)
      | .flowSequenceEnd => some (.empty, r.skip)
      | _ => node n false false r
    match r.next with
    | .value =>
      let r := r.skip
      let (value, r) ←
        match r.next with
        | .flowEntry => some (.empty, r)
        | .flowSequenceEnd => some (.empty, r)
        | _ => node n false false r
      return (.mapping [(key, value)], r)
    | _ => return (.mapping [(key, .empty)], r)

/-- The entries of a flow mapping, up to its end. -/
def flowEntries : Nat → Bool → Reading → Option (List (Node × Node) × Reading)
  | 0, _, _ => none
  | n + 1, first, r =>
    match r.next with
    | .flowMappingEnd => some ([], r.skip)
    | _ => do
      let r ← if first then some r else match r.next with
        | .flowEntry => some r.skip
        | _ => none
      match r.next with
      | .flowMappingEnd => return ([], r.skip)
      | .key =>
        let (key, r) ← flowPart n r.skip
        let (value, r) ←
          match r.next with
          | .value => flowPart n r.skip
          | _ => some (.empty, r)
        let (entries, r) ← flowEntries n false r
        return ((key, value) :: entries, r)
      | _ =>
        let (key, r) ← node n false false r
        let (entries, r) ← flowEntries n false r
        return ((key, .empty) :: entries, r)

/-- A key or a value of a flow mapping, which may be absent. -/
def flowPart : Nat → Reading → Option (Node × Reading)
  | 0, _ => none
  | n + 1, r =>
    match r.next with
    | .value => some (.empty, r)
    | .flowEntry => some (.empty, r)
    | .flowMappingEnd => some (.empty, r)
    | _ => node n false false r

/-- The node of nothing but an anchor or a tag. -/
def absent (anchor : Option (List Char)) (tag : Option TagBytes) (r : Reading) :
    Option (Node × Reading) :=
  if anchor.isSome || tag.isSome then some (.scalar "" .plain tag, r) else none

end

/-! ### Documents -/

/-- The directives before a document.  One version at most, which must be a supported one, and each
shorthand once. -/
def directives : Bool → Reading → List Token → Option Reading
  | seenVersion, r, .version major minor :: ts =>
    if seenVersion || major != 1 || (minor != 1 && minor != 2) then none
    else directives true r ts
  | seenVersion, r, .tagShorthand handle start :: ts =>
    if (r.shorthands.lookup handle).isSome then none
    else directives seenVersion { r with shorthands := (handle, start) :: r.shorthands } ts
  | _, r, ts => some { r with tokens := ts }

/-- The document that starts at the next token. -/
def document (r : Reading) : Option (Node × Reading) := do
  let bound := 4 * r.tokens.length + 16
  if r.next.isBoundary && r.next != .documentEnd then
    let r ← directives false r r.tokens
    match r.next with
    | .documentStart =>
      let r := r.skip
      if r.next.isBoundary then return (.empty, r) else node bound true false r
    | _ => none
  else node bound true false r

/-- Whether nothing but ends of documents is left. -/
def isAtEnd : List Token → Bool
  | .documentEnd :: ts => isAtEnd ts
  | .streamEnd :: _ => true
  | _ => false

end Reading

/-- The one document of a text.  There is none where the text is not well-formed, where it refers to
an unknown anchor, or where it holds more than one document. -/
def Document.ofText (s : String) : Option Document := do
  let tokens ← tokens? s
  if tokens = [.streamEnd] then return ⟨none, [], []⟩
  let (root, r) ← Reading.document { tokens }
  if Reading.isAtEnd r.tokens then return ⟨some root, r.anchors, r.anchored⟩ else none

/-! ### Libraries -/

/-- A YAML library: the document that it finds in a text, if any. -/
class Reader where
  document? : String → Option Document

/-- The library that is used unless another one is given. -/
instance Reader.standard : Reader := ⟨Document.ofText⟩

end Yaml

end CliffordT
