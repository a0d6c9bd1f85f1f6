import CliffordT.Host.Shell.Text
import CliffordT.Number.Places

/-!
# Formatted output

The texts that `echo` and `printf` write.

* `echoText` : words with their escapes replaced,
* `Printing.run` : a format filled in with arguments, as often as there are arguments left.
-/

namespace CliffordT

namespace Shell

/-! ### Escapes -/

/-- The character that a letter stands for behind a backslash. -/
def escaped? : Char → Option Char
  | '\\' => some '\\'
  | 'a' => some '\x07'
  | 'b' => some '\x08'
  | 'e' => some '\x1b'
  | 'f' => some '\x0c'
  | 'n' => some '\n'
  | 'r' => some '\r'
  | 't' => some '\t'
  | 'v' => some '\x0b'
  | _ => none

/-- The character of at most `limit` octal digits at the head of a text, and the rest. -/
def takeOctal (limit : Nat) (t : Text) : Char × Text :=
  let ds := (t.take limit).takeWhile (isDigitIn 8)
  (byte (valueOf 8 ds), t.drop ds.length)

/-- What stands behind a backslash: a character, which may be given by three octal digits.  A
backslash that escapes nothing stands for itself. -/
def takeEscape (t : Text) : Char × Text :=
  match t with
  | c :: rest =>
    if isDigitIn 8 c then takeOctal 3 t
    else
      match escaped? c with
      | some e => (e, rest)
      | none => ('\\', t)
  | [] => ('\\', [])

/-- A text with its escapes replaced, and whether output goes on behind it: `\c` ends all output.
An octal number may have a zero in front.  The bound is the length of the text. -/
def unescaped : Nat → Text → Text × Bool
  | n + 1, '\\' :: t =>
    match t with
    | 'c' :: _ => ([], false)
    | _ =>
      let digits :=
        match t with
        | '0' :: rest => if rest.head?.any (isDigitIn 8) then rest else t
        | _ => t
      let (c, rest) := takeEscape digits
      let (more, goesOn) := unescaped n rest
      (c :: more, goesOn)
  | n + 1, c :: t =>
    let (more, goesOn) := unescaped n t
    (c :: more, goesOn)
  | _, _ => ([], true)

/-- A text and the line end behind it, if output goes on. -/
def closeLine (hasEnd : Bool) (found : Text × Bool) : Text :=
  if hasEnd && found.2 then found.1 ++ ['\n'] else found.1

/-- What `echo` writes.  The word `-n` in front keeps the line open. -/
def echoText (args : List Text) : Text :=
  let isOpen := args.head? == some "-n".toList
  let text := joinWith [' '] (if isOpen then args.tail else args)
  closeLine (!isOpen) (unescaped (text.length + 1) text)

/-! ### Conversions -/

/-- A conversion of a format. -/
structure Conversion where
  leftAligned : Bool := false
  zeroPadded : Bool := false
  plusSign : Bool := false
  blankSign : Bool := false
  alternate : Bool := false
  width : Nat := 0
  precision : Option Nat := none
  letter : Char := 's'

namespace Conversion

/-- The flags at the head of a conversion. -/
def takeFlags (c : Conversion) : Text → Conversion × Text
  | '-' :: t => takeFlags { c with leftAligned := true } t
  | '0' :: t => takeFlags { c with zeroPadded := true } t
  | '+' :: t => takeFlags { c with plusSign := true } t
  | ' ' :: t => takeFlags { c with blankSign := true } t
  | '#' :: t => takeFlags { c with alternate := true } t
  | t => (c, t)

/-- A sign and a body filled up to the width. -/
def pad (c : Conversion) (sign body : Text) (zeros : Bool) : Text :=
  let missing := c.width - (sign.length + body.length)
  if c.leftAligned then sign ++ body ++ List.replicate missing ' '
  else if zeros then sign ++ List.replicate missing '0' ++ body
  else List.replicate missing ' ' ++ sign ++ body

/-- The sign of a number. -/
def signOf (c : Conversion) (isNegative : Bool) : Text :=
  if isNegative then ['-']
  else if c.plusSign then ['+']
  else if c.blankSign then [' ']
  else []

/-- A text, of which the precision is the greatest length. -/
def layoutText (c : Conversion) (t : Text) : Text :=
  let clipped :=
    match c.precision with
    | some n => t.take n
    | none => t
  c.pad [] clipped false

/-- Letters in upper case where the letter of the conversion is. -/
def inCase (c : Conversion) (t : Text) : Text := if c.letter.isUpper then t.map Char.toUpper else t

/-- The digits of a natural number, as many as the precision asks for at least. -/
def digits (c : Conversion) (base n : Nat) : Text :=
  let ds := if n = 0 ∧ c.precision = some 0 then [] else Nat.toDigits base n
  List.replicate (c.precision.getD 1 - ds.length) '0' ++ ds

/-- An integer with its sign. -/
def layoutSigned (c : Conversion) (i : Int) : Text :=
  c.pad (c.signOf (i < 0)) (c.digits 10 i.natAbs) (c.zeroPadded && c.precision.isNone)

/-- A natural number in base eight, ten or sixteen. -/
def layoutUnsigned (c : Conversion) (n : Nat) : Text :=
  let zeros := c.zeroPadded && c.precision.isNone
  if c.letter = 'u' then c.pad [] (c.digits 10 n) zeros
  else if c.letter = 'o' then
    let ds := c.digits 8 n
    c.pad [] (if c.alternate && ds.head? != some '0' then '0' :: ds else ds) zeros
  else
    let mark := if c.alternate && n != 0 then "0x".toList else []
    c.pad (c.inCase mark) (c.inCase (c.digits 16 n)) zeros

/-- A finite magnitude with a power of ten behind its digits. -/
def exponential (c : Conversion) (places m : Nat) : Text :=
  let (ds, e) := Binary64.scientific places m
  Binary64.withPoint c.alternate places ds ++ Binary64.exponentText 'e' e

/-- A finite magnitude with as many digits as the precision, in whichever way is shorter. -/
def general (c : Conversion) (m : Nat) : Text :=
  let wanted := max (c.precision.getD 6) 1
  let (_, e) := Binary64.scientific (wanted - 1) m
  let trim := fun (cs : Text) => if c.alternate then cs else Binary64.dropZeros cs
  if e < -4 ∨ (wanted : Int) ≤ e then
    let (ds, e) := Binary64.scientific (wanted - 1) m
    trim (Binary64.withPoint c.alternate (wanted - 1) ds) ++ Binary64.exponentText 'e' e
  else trim (Binary64.fixed c.alternate ((wanted : Int) - 1 - e).toNat m)

/-- A finite magnitude in base sixteen, from behind its mark, with a power of two behind its digits.
The first digit is one, or zero if the magnitude has fewer bits than others. -/
def binary (c : Conversion) (m : Nat) : Text :=
  let field := m / Binary64.exponentWeight
  let part := m % Binary64.exponentWeight
  let e : Int := if field = 0 then (if part = 0 then 0 else -1022) else field - 1023
  let whole := if field = 0 then part else part + Binary64.exponentWeight
  let places := c.precision.getD 13
  let rounded :=
    if places < 13 then Binary64.divHalfEven whole (1 <<< (4 * (13 - places)))
    else whole <<< (4 * (places - 13))
  let ds := Nat.toDigits 16 rounded
  let ds := List.replicate (places + 1 - ds.length) '0' ++ ds
  let fraction := ds.drop (ds.length - places)
  let shown :=
    if c.precision.isSome then fraction else (fraction.reverse.dropWhile (· == '0')).reverse
  ds.take (ds.length - places) ++ (if shown.isEmpty && !c.alternate then [] else '.' :: shown) ++
    'p' :: (if e < 0 then '-' else '+') :: decimal e.natAbs

/-- A double. -/
def layoutReal (c : Conversion) (x : Binary64) : Text :=
  let sign := c.signOf x.isNegative
  if x.isNaN then c.pad sign (c.inCase "nan".toList) false
  else if !x.isFinite then c.pad sign (c.inCase "inf".toList) false
  else
    let letter := c.letter.toLower
    let mark := if letter = 'a' then "0x".toList else []
    let body :=
      if letter = 'f' then Binary64.fixed c.alternate (c.precision.getD 6) x.magnitude
      else if letter = 'e' then c.exponential (c.precision.getD 6) x.magnitude
      else if letter = 'a' then c.binary x.magnitude
      else c.general x.magnitude
    c.pad (sign ++ c.inCase mark) (c.inCase body) c.zeroPadded

end Conversion

/-! ### Arguments -/

/-- A number at the head of an argument. -/
structure ReadNumber (α : Type) where
  value : α
  /-- What is wrong with the argument, if anything is. -/
  complaint : Option String := none

/-- What is wrong with an argument of which a number has been read. -/
def leftover (isMissing isBeyond : Bool) (rest : Text) : Option String :=
  if isMissing && !rest.isEmpty then some "expected numeric value"
  else if !rest.isEmpty then some "not completely converted"
  else if isBeyond then some "Numerical result out of range"
  else none

/-- The number of the character behind a quote. -/
def quotedChar? : Text → Option Nat
  | '\'' :: t => some ((t.head?.map Char.toNat).getD 0)
  | '"' :: t => some ((t.head?.map Char.toNat).getD 0)
  | _ => none

/-- An argument as an integer between two limits. -/
def readInteger (least greatest : Int) (t : Text) : ReadNumber Int :=
  match quotedChar? t with
  | some n => ⟨n, none⟩
  | none =>
    let found := leadingInteger true t
    let value := min greatest (max least found.value)
    ⟨value, leftover found.isMissing (value != found.value) found.rest⟩

/-- Whether a magnitude is not the decimal number that it has been rounded from, and has fewer bits
than others. -/
def isTooSmall (d : Decimal) (m : Nat) : Bool :=
  decide (m < Binary64.exponentWeight) && d.digits != 0 &&
    (m = 0 || (d.digits <<< 1074) != m * Decimal.tenTo (-d.exponent).toNat)

/-- The magnitude at the head of a text without a sign, whether it lies beyond all doubles, and the
rest. -/
def leadingMagnitude (t : Text) : Option (Nat × Bool × Text) :=
  let lower := t.map Char.toLower
  if "infinity".toList.isPrefixOf lower then some (Binary64.infiniteMagnitude, false, t.drop 8)
  else if "inf".toList.isPrefixOf lower then some (Binary64.infiniteMagnitude, false, t.drop 3)
  else if "nan".toList.isPrefixOf lower then some (Binary64.nan.magnitude, false, t.drop 3)
  else
    let whole := t.takeWhile Char.isDigit
    let rest := t.dropWhile Char.isDigit
    let (fraction, rest) :=
      match rest with
      | '.' :: ds =>
        if whole.isEmpty && !ds.head?.any Char.isDigit then ([], rest)
        else (ds.takeWhile Char.isDigit, ds.dropWhile Char.isDigit)
      | _ => ([], rest)
    if whole.isEmpty && fraction.isEmpty then none
    else if whole = ['0'] ∧ (lower.drop 1).head? = some 'x' ∧ (t.drop 2).head?.any (isDigitIn 16)
    then
      let ds := (t.drop 2).takeWhile (isDigitIn 16)
      let m := Binary64.roundUnits (valueOf 16 ds <<< 1074) 1
      some (m, m == Binary64.infiniteMagnitude, t.drop (2 + ds.length))
    else
      let (exponent, rest) :=
        match rest with
        | e :: more =>
          let found := leadingInteger false more
          if (e = 'e' ∨ e = 'E') ∧ !found.isMissing ∧ !more.head?.any isSpace then
            (found.value, found.rest)
          else (0, rest)
        | [] => (0, rest)
      let d : Decimal := ⟨valueOf 10 (whole ++ fraction), exponent - fraction.length⟩
      let m := d.magnitude
      some (m, m == Binary64.infiniteMagnitude || isTooSmall d m, rest)

/-- An argument as a double. -/
def readReal (t : Text) : ReadNumber Binary64 :=
  match quotedChar? t with
  | some n => ⟨.ofMagnitude false (Decimal.magnitude ⟨n, 0⟩), none⟩
  | none =>
    let body := t.dropWhile isSpace
    let (isNegative, body) :=
      match body with
      | '-' :: ds => (true, ds)
      | '+' :: ds => (false, ds)
      | ds => (false, ds)
    match leadingMagnitude body with
    | some (m, isBeyond, rest) => ⟨.ofMagnitude isNegative m, leftover false isBeyond rest⟩
    | none => ⟨.zero, leftover true false t⟩

/-! ### Formats -/

/-- What filling in a format has come to. -/
structure Printing where
  /-- The arguments that are left. -/
  args : List Text
  output : Text := []
  /-- What was wrong with arguments. -/
  complaints : List Text := []
  /-- The fault of the format, which ends all output. -/
  fault : Option Text := none
  /-- An argument has ended all output. -/
  isOver : Bool := false

namespace Printing

/-- More output. -/
def write (p : Printing) (t : Text) : Printing := { p with output := p.output ++ t }

/-- The next argument, which is empty where none is left. -/
def arg (p : Printing) : Text := p.args.headD []

/-- Behind the next argument. -/
def skip (p : Printing) : Printing := { p with args := p.args.tail }

/-- A complaint about the next argument, and behind it. -/
def complain (p : Printing) : Option String → Printing
  | some complaint =>
    { p.skip with complaints := p.complaints ++ [p.arg ++ ": ".toList ++ complaint.toList] }
  | none => p.skip

/-- A number of a conversion: digits, or the next argument where a star stands. -/
def takeCount (p : Printing) (t : Text) : Int × Printing × Text :=
  match t with
  | '*' :: rest =>
    let found := readInteger leastInteger greatestInteger p.arg
    (found.value, p.complain found.complaint, rest)
  | _ => (valueOf 10 (t.takeWhile Char.isDigit), p, t.dropWhile Char.isDigit)

/-- The conversion behind a percent sign, and the rest of the format, which starts with its letter.
A negative width aligns to the left, and a negative precision is none. -/
def takeConversion (p : Printing) (t : Text) : Conversion × Printing × Text :=
  let (c, t) := Conversion.takeFlags {} t
  let (width, p, t) := p.takeCount t
  let c := { c with width := width.natAbs, leftAligned := c.leftAligned || width < 0 }
  match t with
  | '.' :: t =>
    let (precision, p, t) := p.takeCount t
    ({ c with precision := if precision < 0 then none else some precision.toNat }, p, t)
  | _ => (c, p, t)

/-- An argument laid out by a conversion, unless its letter has no meaning. -/
def convert? (p : Printing) (c : Conversion) : Option Printing :=
  if c.letter = 's' then some (p.write (c.layoutText p.arg)).skip
  else if c.letter = 'b' then
    let (text, goesOn) := unescaped (p.arg.length + 1) p.arg
    some { (p.write (c.layoutText text)).skip with isOver := !goesOn }
  else if c.letter = 'c' then some (p.write (c.pad [] [p.arg.headD '\x00'] false)).skip
  else if c.letter = 'd' ∨ c.letter = 'i' then
    let found := readInteger leastInteger greatestInteger p.arg
    some ((p.write (c.layoutSigned found.value)).complain found.complaint)
  else if ['o', 'u', 'x', 'X'].contains c.letter then
    let limit : Int := UInt64.size
    let found := readInteger (1 - limit) (limit - 1) p.arg
    some ((p.write (c.layoutUnsigned (found.value % limit).toNat)).complain found.complaint)
  else if ['a', 'A', 'e', 'E', 'f', 'F', 'g', 'G'].contains c.letter then
    let found := readReal p.arg
    some ((p.write (c.layoutReal found.value)).complain found.complaint)
  else none

/-- One pass over a format.  The bound is the length of the format. -/
def pass (n : Nat) (format : Text) (p : Printing) : Printing :=
  match n, format with
  | 0, _ => p
  | _, [] => p
  | n + 1, '\\' :: t =>
    let (c, rest) := takeEscape t
    pass n rest (p.write [c])
  | n + 1, '%' :: '%' :: t => pass n t (p.write ['%'])
  | n + 1, '%' :: t =>
    let (c, q, rest) := p.takeConversion t
    match rest with
    | [] => { q with fault := some "missing format character".toList }
    | letter :: rest =>
      match q.convert? { c with letter } with
      | some q => if q.isOver then q else pass n rest q
      | none =>
        let directive := '%' :: t.take (t.length - rest.length)
        { q with fault := some (directive ++ ": invalid directive".toList) }
  | n + 1, c :: t => pass n t (p.write [c])

/-- Passes over a format until no arguments are left, or a pass uses none.  The bound is the number
of arguments. -/
def passes (n : Nat) (format : Text) (p : Printing) : Printing :=
  let q := pass (format.length + 1) format p
  match n with
  | n + 1 =>
    if q.fault.isSome || q.isOver || q.args.isEmpty || q.args.length == p.args.length then q
    else passes n format q
  | 0 => q

/-- A format filled in with arguments. -/
def run (format : Text) (args : List Text) : Printing := passes args.length format { args }

end Printing

end Shell

end CliffordT
