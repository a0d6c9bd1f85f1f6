import CliffordT.Number.Decimal

/-!
# Doubles with a given number of places

A finite double is an exact decimal, which is rounded to a number of places behind the point or
behind the leading digit.  A half goes to the even neighbour.

* `Binary64.fixed` : the magnitude with places behind the point,
* `Binary64.scientific` : digits of the magnitude, and the power of ten of the first one.
-/

namespace CliffordT

namespace Binary64

/-- A point set before the last `places` digits of a number.  It stands at the end where
`keepsPoint` holds and there are no places. -/
def withPoint (keepsPoint : Bool) (places : Nat) (ds : List Char) : List Char :=
  let ds := List.replicate (places + 1 - ds.length) '0' ++ ds
  let point := if places = 0 ∧ !keepsPoint then [] else ['.']
  ds.take (ds.length - places) ++ point ++ ds.drop (ds.length - places)

/-- A finite magnitude with a number of places behind the point. -/
def fixed (keepsPoint : Bool) (places m : Nat) : List Char :=
  withPoint keepsPoint places
    (Decimal.digitsOf (divHalfEven (units m * Decimal.tenTo places) (1 <<< 1074)))

/-- The first `places + 1` digits of a finite magnitude, rounded, and the power of ten that the
first one counts. -/
def scientific (places m : Nat) : List Char × Int :=
  if m = 0 then (List.replicate (places + 1) '0', 0)
  else
    let exact := exactDecimal m
    let length := (Decimal.digitsOf exact.digits).length
    let rounded :=
      if places + 1 ≤ length then divHalfEven exact.digits (Decimal.tenTo (length - (places + 1)))
      else exact.digits * Decimal.tenTo (places + 1 - length)
    let ds := Decimal.digitsOf rounded
    (ds.take (places + 1), exact.scale - 1 + (ds.length - (places + 1) : Nat))

/-- Digits without the zeros at the end, and without a point that these stood behind. -/
def dropZeros (cs : List Char) : List Char :=
  if cs.contains '.' then
    let short := cs.reverse.dropWhile (· == '0')
    (if short.head? == some '.' then short.tail else short).reverse
  else cs

/-- A power of ten as it stands behind digits: a sign, and at least two digits. -/
def exponentText (mark : Char) (e : Int) : List Char :=
  let ds := Decimal.digitsOf e.natAbs
  mark :: (if e < 0 then '-' else '+') :: List.replicate (2 - ds.length) '0' ++ ds

end Binary64

end CliffordT
