import CliffordT.Proofs.Rounding
import Mathlib.Algebra.Order.Field.Rat
import Mathlib.Algebra.Order.Ring.Abs
import Mathlib.Tactic.FieldSimp
import Mathlib.Tactic.Linarith
import Mathlib.Tactic.Positivity

/-!
# Exact values

Finite doubles and decimals stand for rational numbers.  Rounding a rational number gives the
nearest finite double, a tie going to the even one, and reading a decimal rounds its exact value.

* `Binary64.value`, `Decimal.value` : the rational numbers that doubles and decimals stand for;
* `Binary64.IsRounding` : a finite double is a nearest one, and the even one in a tie;
* `Binary64.isRounding_of_nearest` : the nearest magnitude makes the nearest double;
* `Decimal.isRounding_magnitude` : **reading a decimal rounds its exact value.**
-/

namespace CliffordT

namespace Binary64

variable {x y : Binary64} {num den m r : Nat} {q : ℚ}

/-- The least positive double. -/
def unit : ℚ := 1 / 2 ^ 1074

theorem unit_pos : 0 < unit := one_div_pos.2 (pow_pos two_pos _)

/-- The exact value of a finite double. -/
def value (x : Binary64) : ℚ := (if x.isNegative then -1 else 1) * (units x.magnitude * unit)

/-- The finite double `x` is nearest to `q`, and if another value is as near, then `x` is even. -/
structure IsRounding (q : ℚ) (x : Binary64) : Prop where
  finite : x.isFinite
  nearest : ∀ y : Binary64, y.isFinite → |x.value - q| ≤ |y.value - q|
  even : ∀ y : Binary64, y.isFinite → |x.value - q| = |y.value - q| → y.value ≠ x.value →
    x.magnitude % 2 = 0

/-! ### Values of doubles -/

theorem value_of_nonneg (h : x.isNegative = false) : x.value = units x.magnitude * unit := by
  rw [value, h, if_neg (by decide), one_mul]

theorem value_of_negative (h : x.isNegative) : x.value = -(units x.magnitude * unit) := by
  rw [value, h, if_pos rfl, neg_one_mul]

theorem units_mul_unit_nonneg (m : Nat) : 0 ≤ units m * unit :=
  mul_nonneg (Nat.cast_nonneg _) unit_pos.le

theorem value_ofMagnitude (hm : m < signWeight) : (ofMagnitude false m).value = units m * unit := by
  rw [value_of_nonneg (isNegative_ofMagnitude false hm), magnitude_ofMagnitude false hm]

theorem lt_signWeight (hm : m < infiniteMagnitude) : m < signWeight := hm.trans (by decide)

@[simp] theorem units_zero : units 0 = 0 := rfl

/-! ### Distances -/

theorem cast_dist (a b : Nat) : (Nat.dist a b : ℚ) = |(b : ℚ) - a| := by
  rcases Nat.le_total a b with h | h
  · rw [Nat.dist_eq_sub_of_le h, Nat.cast_sub h, abs_of_nonneg (sub_nonneg.2 (Nat.cast_le.2 h))]
  · rw [Nat.dist_eq_sub_of_le_right h, Nat.cast_sub h, abs_sub_comm,
      abs_of_nonneg (sub_nonneg.2 (Nat.cast_le.2 h))]

theorem abs_units_sub (hden : 0 < den) (num m : Nat) :
    |units m * unit - num / den * unit| = Nat.dist num (units m * den) * (unit / den) := by
  have hden' : (0 : ℚ) < den := Nat.cast_pos.2 hden
  have hscale : (units m * unit - num / den * unit : ℚ) =
      ((units m * den : Nat) - num) * (unit / den) := by
    push_cast
    field_simp
  rw [hscale, abs_mul, abs_of_pos (div_pos unit_pos hden'), cast_dist]

theorem abs_sub_of_negative (hq : 0 ≤ q) (hy : y.isNegative) :
    |y.value - q| = units y.magnitude * unit + q := by
  rw [value_of_negative hy, ← neg_add', abs_neg,
    abs_of_nonneg (add_nonneg (units_mul_unit_nonneg _) hq)]

/-- Among the doubles of a magnitude, the one that is not negative is nearer to such a number. -/
theorem abs_units_sub_le (hq : 0 ≤ q) (y : Binary64) :
    |units y.magnitude * unit - q| ≤ |y.value - q| := by
  have hy := units_mul_unit_nonneg y.magnitude
  by_cases hsign : y.isNegative
  · rw [abs_sub_of_negative hq hsign, abs_le]
    constructor <;> linarith
  · rw [value_of_nonneg (Bool.eq_false_iff.2 hsign)]

/-- **The nearest magnitude makes the nearest double.** -/
theorem isRounding_of_nearest (hden : 0 < den) (hr : r < infiniteMagnitude)
    (h : IsNearest num den r) : IsRounding (num / den * unit) (ofMagnitude false r) := by
  have hden' : (0 : ℚ) < den := Nat.cast_pos.2 hden
  have hscale : 0 < unit / den := div_pos unit_pos hden'
  have hq : 0 ≤ num / den * unit := mul_nonneg (by positivity) unit_pos.le
  have hvalue := value_ofMagnitude (lt_signWeight hr)
  have hmagnitude := magnitude_ofMagnitude false (lt_signWeight hr)
  -- distances of values are those of magnitudes on another scale
  have hnear : ∀ m, |(ofMagnitude false r).value - num / den * unit| ≤
      |units m * unit - num / den * unit| := by
    intro m
    rw [hvalue, abs_units_sub hden, abs_units_sub hden]
    exact mul_le_mul_of_nonneg_right (Nat.cast_le.2 (h m).1) hscale.le
  refine ⟨isFinite_ofMagnitude false hr, fun y _ => (hnear _).trans (abs_units_sub_le hq y), ?_⟩
  intro y _ htie hne
  rw [hmagnitude]
  have htie' := le_antisymm (hnear y.magnitude) ((abs_units_sub_le hq y).trans htie.ge)
  by_cases hmr : y.magnitude = r
  · -- only the negative of the double has its magnitude and another value
    have hneg : y.isNegative := by
      by_contra hsign
      rw [value_of_nonneg (Bool.eq_false_iff.2 hsign), hmr, hvalue] at hne
      exact hne rfl
    have hzero := hnear 0
    have hpos := units_mul_unit_nonneg r
    rw [units_zero, Nat.cast_zero, zero_mul, zero_sub, abs_neg, abs_of_nonneg hq, htie,
      abs_sub_of_negative hq hneg, hmr] at hzero
    rw [value_of_negative hneg, hmr, hvalue] at hne
    exact absurd (by linarith) hne
  · rw [hvalue, abs_units_sub hden, abs_units_sub hden] at htie'
    have hdist : Nat.dist num (units r * den) = Nat.dist num (units y.magnitude * den) :=
      Nat.cast_injective (mul_right_cancel₀ hscale.ne' htie')
    exact (h y.magnitude).2 hdist hmr

end Binary64

/-! ### Decimals -/

namespace Decimal

/-- The exact value of a decimal. -/
def value (d : Decimal) : ℚ := d.digits * 10 ^ d.exponent

theorem cast_tenTo (k : Nat) : (tenTo k : ℚ) = 10 ^ k := by
  rw [tenTo, Nat.pow_eq, Nat.cast_pow, Nat.cast_ofNat]

theorem cast_shiftLeft (n k : Nat) : ((n <<< k : Nat) : ℚ) = n * 2 ^ k := by
  rw [Nat.shiftLeft_eq, Nat.cast_mul, Nat.cast_pow, Nat.cast_ofNat]

theorem value_eq (d : Decimal) :
    d.value = (d.digits * tenTo d.exponent.toNat : Nat) / (tenTo (-d.exponent).toNat : Nat) := by
  rw [value, Nat.cast_mul, cast_tenTo, cast_tenTo]
  rcases Int.le_total 0 d.exponent with h | h
  · rw [Int.toNat_of_nonpos (by omega : -d.exponent ≤ 0), pow_zero, div_one]
    congr 1
    rw [← zpow_natCast, Int.toNat_of_nonneg h]
  · rw [Int.toNat_of_nonpos h, pow_zero, mul_one, div_eq_mul_inv, ← zpow_natCast, ← zpow_neg,
      Int.toNat_of_nonneg (by omega : 0 ≤ -d.exponent), Int.neg_neg]

/-- **Reading a decimal rounds its exact value.** -/
theorem isRounding_magnitude {d : Decimal} (h : d.magnitude < Binary64.infiniteMagnitude) :
    Binary64.IsRounding d.value (.ofMagnitude false d.magnitude) := by
  have hround := Binary64.isRounding_of_nearest (tenTo_pos _) h (magnitude_nearest h)
  rw [cast_shiftLeft, mul_div_right_comm, ← value_eq, Binary64.unit, mul_assoc,
    mul_one_div_cancel (pow_ne_zero _ two_ne_zero), mul_one] at hround
  exact hround

end Decimal

end CliffordT
