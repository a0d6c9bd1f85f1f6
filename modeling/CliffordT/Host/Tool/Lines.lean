import CliffordT.Host.Shell.Glob
import CliffordT.Host.Tool.Copying

/-!
# Tools that work on lines

`wc`, `cut`, `sort`, `uniq` and `tr`: text is counted, cut into columns, put in order, or translated
character by character.
-/

namespace CliffordT

namespace Tool

open Shell (Text splitLines splitAt joinLines joinWith decimal isSpace)

/-! ### `wc` -/

/-- The number of words in a text. -/
def wordCount (t : Text) : Nat :=
  ((splitAt isSpace t).filter (!·.isEmpty)).length

/-- The greatest number of columns that a line of a text takes.  A tab goes to the next multiple of
eight, and signs that are not shown take none. -/
def widest (t : Text) : Nat :=
  let columns := (splitLines t).map fun line =>
    line.foldl
      (fun n c => if c = '\t' then (n / 8 + 1) * 8 else if ' ' ≤ c ∧ c ≤ '~' then n + 1 else n) 0
  columns.foldl max 0

/-- The counts of a text that options ask for: lines, words, characters and bytes, the longest
line. -/
def counts (o : Options) (t : Text) : List Nat :=
  let isDefault := o.given.isEmpty
  let bytes := if o.has 'c' || isDefault then [t.length] else []
  let chars := if o.has 'm' then [t.length] else []
  (if o.has 'l' || isDefault then [(t.filter (· == '\n')).length] else []) ++
    (if o.has 'w' || isDefault then [wordCount t] else []) ++ chars ++ bytes ++
    if o.has 'L' then [widest t] else []

/-- `wc` : lines, words and bytes.  A column is as wide as the number of all bytes in files, and at
least seven wide where something else than a file is counted, unless one number is all there is. -/
def wc : Action :=
  withOptions "lwcmL" ""
    [("lines", 'l'), ("words", 'w'), ("bytes", 'c'), ("chars", 'm')] 1 fun c o =>
    let found := c.readOperands o.operands
    let isSingle := decide (found.length = 1 ∧ o.given.length = 1)
    let texts := found.filterMap fun f => f.text.toOption
    let total := texts.flatten
    let width :=
      if isSingle then 1
      else
        let sizes := found.map fun f => c.size? f.name
        let own := (decimal ((sizes.filterMap id).foldl (· + ·) 0)).length
        if found.any fun f => (c.size? f.name).isNone && c.exists f.name then max own 7 else own
    let line := fun (ns : List Nat) (name : Text) =>
      joinWith [' '] (ns.map fun n => column width (decimal n)) ++
        (if name.isEmpty then [] else ' ' :: name) ++ ['\n']
    let shown := found.filterMap fun f =>
      match f.text with
      | .ok t => some (line (counts o t) (if o.operands.isEmpty then [] else f.name))
      | .error _ => if c.exists f.name then some (line (counts o []) f.name) else none
    let faults := c.faults found
    let sums := if 1 < found.length then line (counts o total) "total".toList else []
    { output := shown.flatten ++ sums
      complaints := faults.flatten
      status := if faults.isEmpty then 0 else 1
      readsInput := namesInput o.operands }

/-! ### `cut` -/

/-- The ranges of a list such as `1,3-5,7-`. -/
def ranges? (t : Text) : Option (List (Nat × Option Nat)) :=
  (splitAt (· == ',') t).mapM fun part =>
    match splitAt (· == '-') part with
    | [a] => (Shell.natOf? a).map fun n => (n, some n)
    | [a, b] =>
      let first := if a.isEmpty then some 1 else Shell.natOf? a
      if b.isEmpty then (if a.isEmpty then none else first.map fun n => (n, none))
      else first.bind fun n => (Shell.natOf? b).map fun m => (n, some m)
    | _ => none

/-- The items whose numbers from one lie in ranges, or do not. -/
def pick {α : Type} (isInverted : Bool) (ranges : List (Nat × Option Nat)) (items : List α) :
    List α :=
  (items.zipIdx 1).filterMap fun (a, n) =>
    let isIn := ranges.any fun (first, last) => first ≤ n && last.all (n ≤ ·)
    if isIn != isInverted then some a else none

/-- `cut` : some columns of each line. -/
def cut : Action :=
  withOptions "ns" "bcdf"
    [("delimiter", 'd'), ("fields", 'f'), ("characters", 'c'), ("bytes", 'b'),
     ("only-delimited", 's'), ("complement", 'C'), ("output-delimiter", 'O')] 1 fun c o =>
    let byFields := o.value? 'f'
    match byFields.or ((o.value? 'c').or (o.value? 'b')) with
    | none =>
      c.refuse 1 "you must specify a list of bytes, characters, or fields".toList
    | some list =>
      match ranges? list with
      | none => c.refuse 1 "invalid field range".toList
      | some ranges =>
        let delimiter := ((o.value? 'd').bind List.head?).getD '\t'
        let isInverted := o.has 'C'
        c.answerText o.operands fun t =>
          joinLines ((splitLines t).filterMap fun line =>
            if byFields.isNone then some (pick isInverted ranges line)
            else if !line.contains delimiter then (if o.has 's' then none else some line)
            else
              some (joinWith ((o.value? 'O').getD [delimiter])
                (pick isInverted ranges (splitAt (· == delimiter) line))))

/-! ### `sort` and `uniq` -/

/-- A part of lines to compare: from a field to another one, or to the end of the line. -/
structure SortKey where
  first : Nat := 1
  last : Option Nat := none
  /-- The letters of its own options. -/
  letters : List Char := []

/-- The key that the value of an option describes. -/
def sortKey? (t : Text) : Option SortKey := do
  let field := fun (part : Text) => do
    let n ← Shell.natOf? (part.takeWhile Char.isDigit)
    let behind := part.dropWhile Char.isDigit
    let letters :=
      match behind with
      | '.' :: more => more.dropWhile Char.isDigit
      | more => more
    return (n, letters)
  match splitAt (· == ',') t with
  | [a] =>
    let (n, letters) ← field a
    return { first := n, letters }
  | [a, b] =>
    let (n, letters) ← field a
    let (m, more) ← field b
    return { first := n, last := some m, letters := letters ++ more }
  | _ => none

/-- The fields of a line: between delimiters, or each with the blanks in front of it. -/
def sortFields (delimiter : Option Char) (line : Text) : List Text :=
  match delimiter with
  | some d => splitAt (· == d) line
  | none => blankFields (line.length + 1) line
where
  /-- Fields with the blanks in front of them.  The bound is the length of the line. -/
  blankFields : Nat → Text → List Text
    | 0, _ => []
    | _, [] => []
    | n + 1, t =>
      let blanks := t.takeWhile isSpace
      let word := (t.drop blanks.length).takeWhile fun c => !isSpace c
      (blanks ++ word) :: blankFields n (t.drop (blanks.length + word.length))

/-- The part of a line that a key compares. -/
def SortKey.part (k : SortKey) (delimiter : Option Char) (line : Text) : Text :=
  let fields := (sortFields delimiter line).drop (k.first - 1)
  let fields :=
    match k.last with
    | some last => fields.take (last + 1 - k.first)
    | none => fields
  joinWith delimiter.toList fields

/-- The number at the head of a text, as thousandths of thousandths. -/
def numericValue (t : Text) : Int :=
  let body := t.dropWhile isSpace
  let (isNegative, body) :=
    match body with
    | '-' :: ds => (true, ds)
    | ds => (false, ds)
  let whole := body.takeWhile Char.isDigit
  let fraction :=
    match body.dropWhile Char.isDigit with
    | '.' :: ds => ds.takeWhile Char.isDigit
    | _ => []
  let places := (fraction ++ List.replicate 18 '0').take 18
  let n : Int := Shell.valueOf 10 (whole ++ places)
  if isNegative then -n else n

/-- The text of a part as it is compared. -/
def comparedText (letters : List Char) (t : Text) : List UInt8 :=
  let body := if letters.contains 'b' then t.dropWhile isSpace else t
  Shell.toBytes (if letters.contains 'f' then body.map Char.toUpper else body)

/-- The order of two texts by value. -/
def compareValues (a b : Text) : Ordering :=
  let x := numericValue a
  let y := numericValue b
  if x < y then .lt else if x = y then .eq else .gt

/-- The order of two texts by their bytes. -/
def compareTexts (letters : List Char) (a b : Text) : Ordering :=
  let x := comparedText letters a
  let y := comparedText letters b
  if x == y then .eq else if Files.isUpTo x y then .lt else .gt

/-- The order of two texts under options. -/
def compareParts (letters : List Char) (a b : Text) : Ordering :=
  let found :=
    if letters.contains 'n' || letters.contains 'g' then compareValues a b
    else compareTexts letters a b
  if letters.contains 'r' then found.swap else found

/-- The order of two lines by keys, the first one that tells them apart. -/
def compareByKeys (keys : List SortKey) (letters : List Char) (delimiter : Option Char)
    (a b : Text) : Ordering :=
  keys.foldl
    (fun found k =>
      match found with
      | .eq =>
        compareParts (if k.letters.isEmpty then letters else k.letters)
          (k.part delimiter a) (k.part delimiter b)
      | _ => found)
    .eq

/-- The first line of each run of lines that a condition takes for equal. -/
def dropRepeats (isSame : Text → Text → Bool) : List Text → List Text
  | a :: b :: rest =>
    if isSame a b then dropRepeats isSame (a :: rest) else a :: dropRepeats isSame (b :: rest)
  | lines => lines
termination_by lines => lines.length

/-- `sort` : the lines in order.  Lines that keys do not tell apart are in the order of their bytes,
unless they are to stay in their own order or to be dropped. -/
def sort : Action :=
  withOptions "nrufbgs" "kt"
    [("reverse", 'r'), ("numeric-sort", 'n'), ("unique", 'u'), ("key", 'k'),
     ("field-separator", 't'), ("ignore-case", 'f'), ("stable", 's')] 2 fun c o =>
    let letters := o.given.filterMap fun (l, _) =>
      if ['n', 'r', 'f', 'b', 'g'].contains l then some l else none
    let delimiter := (o.value? 't').bind List.head?
    let given := (o.given.filter (·.1 == 'k')).filterMap fun (_, t) => sortKey? t
    let keys : List SortKey := if given.isEmpty then [{}] else given
    let byKeys := compareByKeys keys letters delimiter
    let isLast := o.has 'u' || o.has 's'
    let order := fun (a b : Text) =>
      if isLast then byKeys a b
      else (byKeys a b).then (compareParts (letters.filter (· == 'r')) a b)
    c.answerText o.operands fun t =>
      let sorted := (splitLines t).mergeSort fun a b => order a b != .gt
      joinLines (if o.has 'u' then dropRepeats (fun a b => byKeys a b == .eq) sorted else sorted)

/-- Runs of equal lines, with their lengths. -/
def runs (isSame : Text → Text → Bool) : List Text → List (Text × Nat)
  | [] => []
  | a :: rest =>
    match runs isSame rest with
    | (b, n) :: more => if isSame a b then (a, n + 1) :: more else (a, 1) :: (b, n) :: more
    | [] => [(a, 1)]

/-- `uniq` : one line in place of several equal ones that follow each other. -/
def uniq : Action :=
  withOptions "cdui" "" [("count", 'c'), ("repeated", 'd'), ("unique", 'u')] 1 fun c o =>
    let key := fun (t : Text) => if o.has 'i' then t.map Char.toLower else t
    c.answerText (o.operands.take 1) fun t =>
      joinLines ((runs (fun a b => key a == key b) (splitLines t)).filterMap fun (line, n) =>
        if (o.has 'd' && n = 1) || (o.has 'u' && 1 < n) then none
        else if o.has 'c' then some (column 7 (decimal n) ++ ' ' :: line)
        else some line)

/-! ### `tr` -/

/-- A character of a set, which a backslash may escape, and what stands behind it. -/
def takeSetChar : Text → Option (Char × Text)
  | [] => none
  | '\\' :: d :: t =>
    if Shell.isDigitIn 8 d then some (takeCode 8 3 (d :: t))
    else
      match Shell.escaped? d with
      | some e => if d = 'e' then some (d, t) else some (e, t)
      | none => some (d, t)
  | c :: t => some (c, t)

/-- The characters of an inclusive range. -/
def charRange (a b : Char) : Text :=
  (List.range (b.toNat + 1 - a.toNat)).map fun i => Char.ofNat (a.toNat + i)

/-- The characters of a set, in its order.  The bound is the length of its text. -/
def setChars : Nat → Text → Text
  | 0, _ => []
  | n + 1, t =>
    let named :=
      match t with
      | '[' :: ':' :: rest =>
        let name := rest.takeWhile Char.isAlpha
        if ":]".toList.isPrefixOf (rest.drop name.length) then
          (Shell.Glob.classRanges? name).map fun ranges =>
            (ranges.flatMap fun (a, b) => charRange a b, rest.drop (name.length + 2))
        else none
      | _ => none
    match named with
    | some (cs, rest) => cs ++ setChars n rest
    | none =>
      match takeSetChar t with
      | none => []
      | some (a, rest) =>
        match rest with
        | '-' :: more =>
          match takeSetChar more with
          | some (b, rest) => charRange a b ++ setChars n rest
          | none => a :: '-' :: []
        | _ => a :: setChars n rest

/-- A text without repeats of the characters of a set. -/
def squeeze (isIn : Char → Bool) : Text → Text
  | a :: b :: rest =>
    if a = b ∧ isIn a then squeeze isIn (b :: rest) else a :: squeeze isIn (b :: rest)
  | t => t

/-- `tr` : characters in place of others, or without some of them. -/
def tr : Action := fun c =>
  match Options.ofArgs "cCdst".toList [] [] false c.args with
  | .error t => c.refuse 1 t
  | .ok o =>
    match o.operands with
    | [] => c.refuse 1 "missing operand".toList
    | first :: others =>
      let isInverted := o.has 'c' || o.has 'C'
      let one := setChars (first.length + 1) first
      let second := others.head?.map fun t => setChars (t.length + 1) t
      let isIn := fun (x : Char) => one.contains x != isInverted
      let reads := fun (t : Text) => ({ output := t, readsInput := true } : Answer)
      if o.has 'd' then
        let left := c.input.filter fun x => !isIn x
        match o.has 's', second with
        | true, some two => reads (squeeze two.contains left)
        | _, _ => reads left
      else
        match second with
        | none =>
          if o.has 's' then reads (squeeze isIn c.input)
          else
            c.refuse 1 ("missing operand after ".toList ++ Call.quoted first ++
              "\nTwo strings must be given when translating.".toList)
        | some two =>
          let last := two.getLast?.getD ' '
          let source := if isInverted then (charRange '\x00' 'ÿ').filter isIn else one
          let targets := two ++ List.replicate (source.length - two.length) last
          let table := (source.zip targets).reverse
          let translated := c.input.map fun x => (table.lookup x).getD x
          reads (if o.has 's' then squeeze two.contains translated else translated)

end Tool

end CliffordT
