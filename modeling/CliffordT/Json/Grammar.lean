import CliffordT.Json.Tree
import CliffordT.Text.Hex

/-!
# The grammar of JSON

Which texts are JSON, and the tree that each of them stands for.  Nothing here reads a text: the
grammar says how texts of values are put together from texts of their parts.

* `Json.IsBlank` : white space;
* `Json.Numeral.IsSpelled` : the texts of a numeral;
* `Json.SpellsUnits`, `Json.Joins`, `Json.SpellsString` : the texts of a string, its code units, and
  the characters that these make up;
* `Json.Denotes` : the texts of a tree;
* `Json.IsJson` : the text of some value.
-/

namespace CliffordT

namespace Json

/-- White space: blanks, tabs and ends of lines. -/
def IsBlank (cs : List Char) : Prop := ∀ c ∈ cs, c = ' ' ∨ c = '\t' ∨ c = '\n' ∨ c = '\r'

/-! ### Numerals -/

/-- The parts of a numeral as they may be written. -/
structure Numeral.IsWellFormed (n : Numeral) : Prop where
  whole_ne_nil : n.whole ≠ []
  isDigit_whole : ∀ c ∈ n.whole, c.isDigit
  /-- A leading zero stands alone. -/
  leading : n.whole.head? = some '0' → n.whole = ['0']
  isDigit_fraction : ∀ c ∈ n.fraction, c.isDigit

/-- The point of a numeral and the digits behind it, unless there are none. -/
def renderFraction (ds : List Char) : List Char := if ds = [] then [] else '.' :: ds

/-- The texts of an exponent, which may be left out.  A plus sign may be left out, too, and zeros
may stand in front. -/
inductive SpellsExponent : List Char → Option Int → Prop
  | absent : SpellsExponent [] none
  | positive {e : Char} {sign ds : List Char} (he : e = 'e' ∨ e = 'E')
      (hsign : sign = [] ∨ sign = ['+']) (hne : ds ≠ []) (hds : ∀ d ∈ ds, d.isDigit) :
      SpellsExponent (e :: (sign ++ ds)) (some (digitsValue ds))
  | negative {e : Char} {ds : List Char} (he : e = 'e' ∨ e = 'E') (hne : ds ≠ [])
      (hds : ∀ d ∈ ds, d.isDigit) : SpellsExponent (e :: '-' :: ds) (some (-(digitsValue ds : Int)))

/-- The texts of a numeral: a minus sign or none, digits, a point with digits behind it or none, and
an exponent or none. -/
def Numeral.IsSpelled (n : Numeral) (cs : List Char) : Prop :=
  n.IsWellFormed ∧ ∃ exponent, SpellsExponent exponent n.exponent ∧
    cs = (if n.negative then ['-'] else []) ++
      (n.whole ++ (renderFraction n.fraction ++ exponent))

/-! ### Strings -/

/-- The letters behind a backslash, and what they stand for. -/
inductive StandsFor : Char → Char → Prop
  | quote : StandsFor '"' '"'
  | backslash : StandsFor '\\' '\\'
  | slash : StandsFor '/' '/'
  | backspace : StandsFor 'b' '\x08'
  | formFeed : StandsFor 'f' '\x0c'
  | lineFeed : StandsFor 'n' '\n'
  | carriageReturn : StandsFor 'r' '\r'
  | tab : StandsFor 't' '\t'

/-- The texts between the quotes of a string, and the units that they spell: a character by itself,
behind a backslash, or as four digits.  Control characters do not stand by themselves. -/
inductive SpellsUnits : List Char → List Nat → Prop
  | nil : SpellsUnits [] []
  | plain {c : Char} {cs : List Char} {us : List Nat} (hquote : c ≠ '"') (hbackslash : c ≠ '\\')
      (hcontrol : 32 ≤ c.toNat) (h : SpellsUnits cs us) : SpellsUnits (c :: cs) (c.toNat :: us)
  | letter {d c : Char} {cs : List Char} {us : List Nat} (hd : StandsFor d c)
      (h : SpellsUnits cs us) : SpellsUnits ('\\' :: d :: cs) (c.toNat :: us)
  | digits {a b c d : Char} {i j k l : Nat} {cs : List Char} {us : List Nat}
      (ha : hexValue? a = some i) (hb : hexValue? b = some j) (hc : hexValue? c = some k)
      (hd : hexValue? d = some l) (h : SpellsUnits cs us) :
      SpellsUnits ('\\' :: 'u' :: a :: b :: c :: d :: cs)
        (((i * 16 + j) * 256 + (k * 16 + l)) :: us)

/-- The characters that units make up: each by itself, but the two halves of a surrogate pair as the
one character beyond `0xffff` that they stand for. -/
inductive Joins : List Nat → List Char → Prop
  | nil : Joins [] []
  | single {n : Nat} {us : List Nat} {cs : List Char} (hn : n < 0xd800 ∨ 0xe000 ≤ n)
      (h : Joins us cs) : Joins (n :: us) (Char.ofNat n :: cs)
  | pair {high low : Nat} {us : List Nat} {cs : List Char} (hhigh : 0xd800 ≤ high)
      (hhigh' : high < 0xdc00) (hlow : 0xdc00 ≤ low) (hlow' : low < 0xe000) (h : Joins us cs) :
      Joins (high :: low :: us)
        (Char.ofNat ((high - 0xd800) * 0x400 + (low - 0xdc00) + 0x10000) :: cs)

/-- The string of some units; none where half of a pair stands alone. -/
def IsStringOf (us : List Nat) : Option String → Prop
  | some s => Joins us s.toList
  | none => ∀ cs, ¬ Joins us cs

/-- The texts of a string, in quotes. -/
def SpellsString (cs : List Char) (s : Option String) : Prop :=
  ∃ body us, cs = '"' :: (body ++ ['"']) ∧ SpellsUnits body us ∧ IsStringOf us s

/-! ### Trees -/

/-- The texts of a tree.  White space may surround every value and every key.  The texts of items
and of members end in the bracket that closes them, and there is one of them at least. -/
inductive Denotes : {p : Part} → List Char → Tree p → Prop
  | null : Denotes "null".toList .null
  | boolTrue : Denotes "true".toList (.bool true)
  | boolFalse : Denotes "false".toList (.bool false)
  | number {n : Numeral} {cs : List Char} (h : n.IsSpelled cs) : Denotes cs (.number n)
  | text {s : Option String} {cs : List Char} (h : SpellsString cs s) : Denotes cs (.text s)
  | emptyArray {b : List Char} (hb : IsBlank b) : Denotes ('[' :: (b ++ [']'])) (.array .noItem)
  | array {cs : List Char} {items : Tree .items} (h : Denotes cs items) :
      Denotes ('[' :: cs) (.array items)
  | emptyObject {b : List Char} (hb : IsBlank b) :
      Denotes ('\x7b' :: (b ++ ['\x7d'])) (.object .noMember)
  | object {cs : List Char} {members : Tree .members} (h : Denotes cs members) :
      Denotes ('\x7b' :: cs) (.object members)
  | padded {b cs b' : List Char} {v : Value} (hb : IsBlank b) (hb' : IsBlank b')
      (h : Denotes cs v) : Denotes (b ++ (cs ++ b')) v
  | lastItem {cs : List Char} {head : Value} (hhead : Denotes cs head) :
      Denotes (cs ++ [']']) (.item head .noItem)
  | item {cs more : List Char} {head : Value} {rest : Tree .items} (hhead : Denotes cs head)
      (hrest : Denotes more rest) : Denotes (cs ++ ',' :: more) (.item head rest)
  | lastMember {ks cs : List Char} {key : Option String} {value : Value}
      (hkey : Denotes ks (.text key)) (hvalue : Denotes cs value) :
      Denotes (ks ++ ':' :: (cs ++ ['\x7d'])) (.member key value .noMember)
  | member {ks cs more : List Char} {key : Option String} {value : Value} {rest : Tree .members}
      (hkey : Denotes ks (.text key)) (hvalue : Denotes cs value) (hrest : Denotes more rest) :
      Denotes (ks ++ ':' :: (cs ++ ',' :: more)) (.member key value rest)

/-- The text is that of a value. -/
def IsJson (text : String) : Prop := ∃ v : Value, Denotes text.toList v

end Json

end CliffordT
