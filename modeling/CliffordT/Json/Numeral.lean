import CliffordT.Number.Decimal

/-!
# JSON numerals

A number as it is written: sign, digits before and behind the point, exponent.  A numeral stands for
the nearest double (`Numeral.toBinary64`), and a finite double has a numeral with the fewest digits
(`Binary64.numeral`).
-/

namespace CliffordT

namespace Json

/-- A number as it is written. -/
structure Numeral where
  /-- A minus sign stands in front. -/
  negative : Bool := false
  /-- The digits before the point. -/
  whole : List Char
  /-- The digits behind the point; none if there is no point. -/
  fraction : List Char := []
  /-- The exponent, if there is one. -/
  exponent : Option Int := none
deriving DecidableEq

/-- The number that some digits stand for. -/
def digitsValue (ds : List Char) : Nat := ds.foldl (fun n c => n * 10 + (c.toNat - '0'.toNat)) 0

namespace Numeral

/-- The value without its sign. -/
def decimal (n : Numeral) : Decimal :=
  ⟨digitsValue (n.whole ++ n.fraction), n.exponent.getD 0 - n.fraction.length⟩

/-- The nearest double. -/
def toBinary64 (n : Numeral) : Binary64 := .ofMagnitude n.negative n.decimal.magnitude

/-- The numeral's text.  The sign of an exponent is always written. -/
def render (n : Numeral) : List Char :=
  (if n.negative then ['-'] else []) ++ n.whole ++
    (if n.fraction = [] then [] else '.' :: n.fraction) ++
    match n.exponent with
    | none => []
    | some e => 'e' :: (if e < 0 then '-' else '+') :: Decimal.digitsOf e.natAbs

/-- The numeral of a natural number. -/
def ofNat (n : Nat) : Numeral := { whole := Decimal.digitsOf n }

end Numeral

end Json

/-- The numeral of a decimal: positional where the leading digit stands between `10^-5` and `10^15`,
with an exponent otherwise.  Either way it has a point or an exponent, unless it is an exponent
behind a single digit. -/
def Decimal.numeral (negative : Bool) (d : Decimal) : Json.Numeral :=
  let ds := digitsOf d.digits
  let places := (-d.exponent).toNat
  if -5 < d.scale ∧ d.scale ≤ 16 then
    if 0 ≤ d.exponent then
      { negative, whole := ds ++ List.replicate d.exponent.toNat '0', fraction := ['0'] }
    else if places < ds.length then
      { negative, whole := ds.take (ds.length - places), fraction := ds.drop (ds.length - places) }
    else
      { negative, whole := ['0'], fraction := List.replicate (places - ds.length) '0' ++ ds }
  else { negative, whole := ds.take 1, fraction := ds.drop 1, exponent := some (d.scale - 1) }

/-- A finite double as a numeral with the fewest digits; of two equally near ones, the one with an
even last digit. -/
def Binary64.numeral (x : Binary64) : Json.Numeral :=
  if x.magnitude = 0 then { negative := x.isNegative, whole := ['0'], fraction := ['0'] }
  else (shortest .even x.magnitude).numeral x.isNegative

end CliffordT
