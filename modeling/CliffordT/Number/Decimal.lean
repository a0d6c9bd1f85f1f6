import CliffordT.Number.Binary64

/-!
# Decimal numerals of doubles

A finite double is written with the fewest decimal digits that read back to it, and of two such
numerals with the nearer one.

* `Decimal.magnitude` : the magnitude a decimal rounds to, so reading is correctly rounded,
* `Binary64.shortest` : the digits chosen for a magnitude,
* `Binary64.plain` : the double in digits and at most one point, never with an exponent.
-/

namespace CliffordT

/-- The decimal `digits * 10 ^ exponent`. -/
structure Decimal where
  /-- The digits, read as one number. -/
  digits : Nat
  /-- The power of ten they are multiplied by. -/
  exponent : Int
deriving DecidableEq

namespace Decimal

/-- The digits of a natural number, without leading zeros. -/
def digitsOf (n : Nat) : List Char := Nat.toDigits 10 n

/-- A power of ten. -/
def tenTo (k : Nat) : Nat := Nat.pow 10 k

/-- The power of ten just above the leading digit. -/
def scale (d : Decimal) : Int := d.exponent + (digitsOf d.digits).length

/-- The magnitude of the double nearest to the decimal.  Decimals from `10^310` on round to
infinity and those below `10^-330` to zero, whatever their digits are. -/
def magnitude (d : Decimal) : Nat :=
  if d.digits = 0 ∨ d.scale < -330 then 0
  else if 310 < d.scale then Binary64.infiniteMagnitude
  else
    Binary64.roundUnits ((d.digits * tenTo d.exponent.toNat) <<< 1074) (tenTo (-d.exponent).toNat)

/-- The same number without trailing zeros in its digits. -/
def strip (d : Decimal) : Decimal :=
  if 0 < d.digits ∧ d.digits % 10 = 0 then strip ⟨d.digits / 10, d.exponent + 1⟩ else d
termination_by d.digits
decreasing_by
  rename_i h
  exact Nat.div_lt_self h.1 (by decide)

/-- Digits with the point set among them, or with zeros filled in up to the point. -/
def positional (d : Decimal) : List Char :=
  let ds := digitsOf d.digits
  let places := (-d.exponent).toNat
  if 0 ≤ d.exponent then ds ++ List.replicate d.exponent.toNat '0'
  else if places < ds.length then
    ds.take (ds.length - places) ++ '.' :: ds.drop (ds.length - places)
  else '0' :: '.' :: List.replicate (places - ds.length) '0' ++ ds

end Decimal

namespace Binary64

/-- Where two decimals with equally many digits are equally near. -/
inductive Tie where
  /-- The larger one is taken. -/
  | up
  /-- The one with an even last digit is taken. -/
  | even
deriving DecidableEq

/-- A power of ten that leaves at least seventeen digits before the point of every positive
double. -/
def headroom : Nat := 342

/-- The exact decimal value of a finite magnitude. -/
def exactDecimal (m : Nat) : Decimal := ⟨units m * Nat.pow 5 1074, -1074⟩

/-- The decimal on the grid of step `10 ^ (k - headroom)` that is nearest to the magnitude among
the two neighbours of its value there, if it reads back to the magnitude. -/
def onGrid? (tie : Tie) (m k : Nat) : Option Decimal :=
  let num := units m * Decimal.tenTo headroom
  let den := Decimal.tenTo k <<< 1074
  let lower : Decimal := ⟨num / den, (k : Int) - headroom⟩
  let upper : Decimal := ⟨num / den + 1, (k : Int) - headroom⟩
  let twice := 2 * (num % den)
  if lower.magnitude = m then
    if upper.magnitude = m ∧
        (den < twice ∨ (den = twice ∧ (tie = .up ∨ lower.digits % 2 = 1))) then some upper
    else some lower
  else if upper.magnitude = m then some upper
  else none

/-- The shortest decimal that reads back to the finite positive magnitude `m`: the first hit on the
grids of one, two, … seventeen digits.  The exact value stands in should none of them read back. -/
def shortest (tie : Tie) (m : Nat) : Decimal :=
  let length := (Decimal.digitsOf ((units m * Decimal.tenTo headroom) >>> 1074)).length
  let hit := (List.range 17).findSome? fun n => onGrid? tie m (length - (n + 1))
  (hit.getD (exactDecimal m)).strip

/-! ### Texts -/

/-- A minus sign for the doubles with the sign bit, zero included. -/
def signText (x : Binary64) : List Char := if x.isNegative then ['-'] else []

/-- The double in digits and at most one point.  A tie goes up, and no sign is written before
`NaN`. -/
def plainChars (x : Binary64) : List Char :=
  if x.isNaN then "NaN".toList
  else x.signText ++
    if x.magnitude = infiniteMagnitude then "inf".toList
    else if x.magnitude = 0 then ['0']
    else (shortest .up x.magnitude).positional

/-- `plainChars` as a string. -/
def plain (x : Binary64) : String := String.ofList x.plainChars

end Binary64

end CliffordT
