/-!
# Doubles as bit patterns

A double is its 64 bits.  Finite magnitudes are counted in units of `2^-1074`, the least positive
double, so that every finite double is a natural number of units and arithmetic on doubles is
arithmetic on naturals:

* `Binary64.units` : the number of units of a magnitude,
* `Binary64.roundUnits` : the magnitude nearest to a fraction of units, ties to the even one,
* `Binary64.reduce` : the remainder by a positive period, moved into `[0, period]`.

Equality of `Binary64` is equality of bits; `Binary64.sameValue` is equality as numbers.
-/

namespace CliffordT

/-- A double, given by its bits. -/
structure Binary64 where
  /-- Sign, eleven exponent bits and fifty-two fraction bits, from the top. -/
  bits : UInt64
deriving DecidableEq

namespace Binary64

/-! ### Parts of a double -/

/-- The weight of the sign bit. -/
def signWeight : Nat := 0x8000000000000000

/-- The weight of the lowest exponent bit. -/
def exponentWeight : Nat := 0x10000000000000

/-- The sign bit. -/
def isNegative (x : Binary64) : Bool := decide (signWeight ≤ x.bits.toNat)

/-- The bits below the sign.  Magnitudes are ordered as the absolute values they stand for. -/
def magnitude (x : Binary64) : Nat := x.bits.toNat % signWeight

/-- The magnitude of infinity; the magnitudes above it are those of the NaNs. -/
def infiniteMagnitude : Nat := 2047 * exponentWeight

/-- The double with the given sign and magnitude. -/
def ofMagnitude (negative : Bool) (m : Nat) : Binary64 :=
  ⟨UInt64.ofNat (m + if negative then signWeight else 0)⟩

/-- Neither infinite nor a NaN. -/
def isFinite (x : Binary64) : Bool := decide (x.magnitude < infiniteMagnitude)

/-- Not a number. -/
def isNaN (x : Binary64) : Bool := decide (infiniteMagnitude < x.magnitude)

/-- The NaN with an empty payload. -/
def nan : Binary64 := ⟨0x7ff8000000000000⟩

/-- Positive zero. -/
def zero : Binary64 := ⟨0⟩

/-- Equality as numbers: a NaN differs from itself, and the two zeros are equal. -/
def sameValue (x y : Binary64) : Bool :=
  !x.isNaN && !y.isNaN && (x == y || (x.magnitude == 0 && y.magnitude == 0))

/-- The units (of `2^-1074`) in a finite magnitude. -/
def units (m : Nat) : Nat :=
  if m / exponentWeight = 0 then m
  else (exponentWeight + m % exponentWeight) <<< (m / exponentWeight - 1)

/-! ### Rounding -/

/-- The quotient rounded to the nearest natural number, a half going to the even one. -/
def divHalfEven (num den : Nat) : Nat :=
  if 2 * (num % den) < den then num / den
  else if den < 2 * (num % den) then num / den + 1
  else num / den + num / den % 2

/-- The magnitude nearest to `num / den` units, a tie going to the even one.  The shift `s` leaves
a significand of fifty-three bits, and a significand that rounds up to the next power of two carries
into the exponent by itself.  Values beyond the largest finite double give infinity. -/
def roundUnits (num den : Nat) : Nat :=
  let s := (num / den).log2 - 52
  min infiniteMagnitude (s * exponentWeight + divHalfEven num (den <<< s))

/-! ### Reduction by a period -/

/-- The remainder of `x` by the period with magnitude `p`, as a double that is never negative: the
exact remainder, to which the period is added (with one rounding) where it is negative.  What is
not finite has no remainder. -/
def reduce (p : Nat) (x : Binary64) : Binary64 :=
  if x.isFinite then
    let r := units x.magnitude % units p
    if x.isNegative && r != 0 then ofMagnitude false (roundUnits (units p - r) 1)
    else ofMagnitude false (roundUnits r 1)
  else nan

end Binary64

end CliffordT
