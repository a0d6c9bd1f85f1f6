import CliffordT.Number.Decimal
import Mathlib.Algebra.Order.Group.Nat
import Mathlib.Data.Nat.Dist
import Mathlib.Order.Monotone.Basic
import Mathlib.Tactic.Ring

/-!
# Rounding to doubles

Rounding gives a nearest magnitude, a tie going to the even one, and reading a decimal rounds its
value and depends on nothing else of it.  So the shortest digits of a double read back to it.

* `Binary64.units_strictMono` : magnitudes are ordered as what they stand for;
* `Binary64.IsNearest.unique` : one magnitude is the nearest, if ties go to the even one;
* `Binary64.roundUnits_nearest` : **rounding is to the nearest magnitude, ties to the even one;**
* `Binary64.roundUnits_eq_infinite_iff` : which values round to infinity;
* `Binary64.roundUnits_units` : a finite magnitude is its own rounding;
* `Decimal.magnitude_eq` : a decimal is read as the rounding of its exact value;
* `Decimal.magnitude_nearest` : **reading a decimal is correctly rounded;**
* `Decimal.magnitude_mul_tenTo` : zeros behind the digits count as a power of ten;
* `Decimal.magnitude_strip`, `Binary64.magnitude_exactDecimal` : two decimals of one value;
* `Decimal.magnitude_natural_lt` : integers of a machine word are finite;
* `Binary64.magnitude_shortest` : **the digits chosen for a magnitude read back to it.**
-/

namespace CliffordT

namespace Binary64

variable {num den m c k q s : Nat}

/-! ### Quotients -/

theorem divHalfEven_mul (num den : Nat) (hc : 0 < c) :
    divHalfEven (c * num) (c * den) = divHalfEven num den := by
  have hlow : 2 * (c * (num % den)) < c * den ↔ 2 * (num % den) < den := by
    rw [Nat.mul_left_comm, Nat.mul_lt_mul_left hc]
  have hhigh : c * den < 2 * (c * (num % den)) ↔ den < 2 * (num % den) := by
    rw [Nat.mul_left_comm, Nat.mul_lt_mul_left hc]
  simp only [divHalfEven, Nat.mul_div_mul_left _ _ hc, Nat.mul_mod_mul_left, hlow, hhigh]

theorem divHalfEven_cases (num den : Nat) :
    divHalfEven num den = num / den ∧ 2 * (num % den) ≤ den ∧
        (2 * (num % den) = den → num / den % 2 = 0) ∨
      divHalfEven num den = num / den + 1 ∧ den ≤ 2 * (num % den) ∧
        (2 * (num % den) = den → (num / den + 1) % 2 = 0) := by
  unfold divHalfEven
  split_ifs <;> omega

/-- **The quotient is a nearest whole number, and a tie has gone to the even one.** -/
theorem divHalfEven_nearest (num : Nat) (hden : 0 < den) (k : Nat) :
    Nat.dist num (divHalfEven num den * den) ≤ Nat.dist num (k * den) ∧
      (Nat.dist num (divHalfEven num den * den) = Nat.dist num (k * den) →
        k ≠ divHalfEven num den → divHalfEven num den % 2 = 0) := by
  have hdiv : num / den * den + num % den = num := Nat.div_add_mod' num den
  have hmod : num % den < den := Nat.mod_lt num hden
  have hnext : (num / den + 1) * den = num / den * den + den := Nat.succ_mul _ _
  -- `k` is one of the two, or its multiple lies beyond theirs
  have hside : k * den + den ≤ num / den * den ∨ k = num / den ∨ k = num / den + 1 ∨
      num / den * den + 2 * den ≤ k * den := by
    obtain h | h := Nat.lt_or_ge k (num / den)
    · exact .inl (Nat.succ_mul k den ▸ Nat.mul_le_mul_right den h)
    · obtain h' | h' := Nat.lt_or_ge (num / den + 1) k
      · exact .inr (.inr (.inr (Nat.add_mul _ 2 den ▸ Nat.mul_le_mul_right den h')))
      · omega
  unfold Nat.dist
  obtain ⟨h, hhalf, heven⟩ | ⟨h, hhalf, heven⟩ := divHalfEven_cases num den
  · rw [h]
    obtain hbelow | rfl | rfl | habove := hside
    · omega
    · exact ⟨le_rfl, fun _ hne => absurd rfl hne⟩
    · rw [hnext]
      omega
    · omega
  · rw [h, hnext]
    obtain hbelow | rfl | rfl | habove := hside
    · omega
    · omega
    · rw [hnext]
      exact ⟨le_rfl, fun _ hne => absurd rfl hne⟩
    · omega

/-! ### Significands -/

theorem units_shifted (hq : q ≤ 2 * exponentWeight) (hnormal : s = 0 ∨ exponentWeight ≤ q) :
    units (s * exponentWeight + q) = q * 2 ^ s := by
  have hpos : 0 < exponentWeight := by decide
  have hdiv : (s * exponentWeight + q) / exponentWeight = s + q / exponentWeight := by
    rw [Nat.add_comm, Nat.add_mul_div_right _ _ hpos, Nat.add_comm]
  have hmod : (s * exponentWeight + q) % exponentWeight = q % exponentWeight := by
    rw [Nat.add_comm, Nat.add_mul_mod_self_right]
  unfold units
  rw [hdiv, hmod]
  -- subnormal, normal, or rounded up to the next power of two
  obtain hlt | hge := Nat.lt_or_ge q exponentWeight
  · obtain rfl := hnormal.resolve_right (Nat.not_le.2 hlt)
    rw [Nat.div_eq_of_lt hlt, if_pos rfl, Nat.zero_mul, Nat.zero_add, Nat.pow_zero, Nat.mul_one]
  · obtain hlt | rfl := Nat.lt_or_eq_of_le hq
    · have hone : q / exponentWeight = 1 :=
        Nat.div_eq_of_lt_le (Nat.one_mul _ ▸ hge) hlt
      have hdrop : exponentWeight + q % exponentWeight = q := by
        have := Nat.div_add_mod q exponentWeight
        rwa [hone, Nat.mul_one] at this
      rw [hone, if_neg (Nat.succ_ne_zero s), hdrop, Nat.add_sub_cancel, Nat.shiftLeft_eq]
    · rw [Nat.mul_div_cancel _ hpos, Nat.mul_mod_left, if_neg (Nat.succ_ne_zero _), Nat.add_zero,
        show s + 2 - 1 = s + 1 from rfl, Nat.shiftLeft_eq, Nat.pow_succ']
      ring

theorem exists_shifted (m : Nat) : ∃ s q, m = s * exponentWeight + q ∧
    q < 2 * exponentWeight ∧ (s = 0 ∨ exponentWeight ≤ q) := by
  have hdiv := Nat.div_add_mod' m exponentWeight
  have hmod : m % exponentWeight < exponentWeight := Nat.mod_lt m (by decide)
  cases h : m / exponentWeight with
  | zero =>
    rw [h] at hdiv
    exact ⟨0, m, by omega, by omega, .inl rfl⟩
  | succ s =>
    rw [h, Nat.succ_mul] at hdiv
    exact ⟨s, exponentWeight + m % exponentWeight, by omega, by omega, .inr (by omega)⟩

/-- Magnitudes are ordered as what they stand for. -/
theorem units_strictMono : StrictMono units := by
  refine strictMono_nat_of_lt_succ fun m => ?_
  obtain ⟨s, q, rfl, hq, hnormal⟩ := exists_shifted m
  rw [Nat.add_assoc, units_shifted hq.le hnormal,
    units_shifted hq (hnormal.imp_right fun h => h.trans q.le_succ)]
  exact Nat.mul_lt_mul_of_pos_right q.lt_succ_self (Nat.two_pow_pos s)

/-- Units are whole multiples of a step, or fewer than any significand of that step stands for. -/
theorem units_onGrid (m s : Nat) :
    (∃ k, units m = k * 2 ^ s) ∨ (0 < s ∧ units m < exponentWeight * 2 ^ s) := by
  obtain ⟨j, q, rfl, hq, hnormal⟩ := exists_shifted m
  rw [units_shifted hq.le hnormal]
  obtain hlt | hle := Nat.lt_or_ge j s
  · refine .inr ⟨Nat.zero_lt_of_lt hlt, ?_⟩
    calc q * 2 ^ j < 2 * exponentWeight * 2 ^ j :=
          Nat.mul_lt_mul_of_pos_right hq (Nat.two_pow_pos j)
      _ = exponentWeight * 2 ^ (j + 1) := by rw [Nat.pow_succ']; ring
      _ ≤ exponentWeight * 2 ^ s := Nat.mul_le_mul_left _ (Nat.pow_le_pow_right (by decide) hlt)
  · refine .inl ⟨q * 2 ^ (j - s), ?_⟩
    rw [Nat.mul_assoc, ← Nat.pow_add, Nat.sub_add_cancel hle]

theorem units_pos (hm : 0 < m) : 0 < units m := units_strictMono hm

/-! ### Nearest -/

/-- The rounding before it is cut off at infinity. -/
def roundUncapped (num den : Nat) : Nat :=
  let s := (num / den).log2 - 52
  s * exponentWeight + divHalfEven num (den <<< s)

theorem roundUnits_eq (num den : Nat) :
    roundUnits num den = min infiniteMagnitude (roundUncapped num den) := rfl

theorem quotient_shifted (num den : Nat) :
    let s := (num / den).log2 - 52
    num / (den <<< s) < 2 * exponentWeight ∧ (s = 0 ∨ exponentWeight ≤ num / (den <<< s)) := by
  intro s
  have hquotient : num / (den <<< s) = num / den / 2 ^ s := by
    rw [Nat.shiftLeft_eq, Nat.div_div_eq_div_mul]
  have hweight : exponentWeight * 2 ^ s = 2 ^ (52 + s) := (Nat.pow_add 2 52 s).symm
  rw [hquotient, Nat.div_lt_iff_lt_mul (Nat.two_pow_pos s),
    Nat.le_div_iff_mul_le (Nat.two_pow_pos s), Nat.mul_assoc, hweight, ← Nat.pow_succ']
  -- a quotient with more than fifty-three bits is shifted to as many
  constructor
  · exact Nat.lt_log2_self.trans_le (Nat.pow_le_pow_right (by decide) (by omega))
  · by_cases hzero : num / den = 0
    · exact .inl (by simp only [s, hzero, Nat.log2_zero, Nat.zero_sub])
    · obtain hs | hs := Nat.eq_zero_or_pos s
      · exact .inl hs
      · rw [← Nat.le_log2 hzero]
        exact .inr (by omega)

/-- No magnitude is nearer to `num / den` units than `r`, and another is as near only if `r` is the
even one. -/
def IsNearest (num den r : Nat) : Prop :=
  ∀ m, Nat.dist num (units r * den) ≤ Nat.dist num (units m * den) ∧
    (Nat.dist num (units r * den) = Nat.dist num (units m * den) → m ≠ r → r % 2 = 0)

/-- **There is one nearest magnitude.**  Between two even ones there is another, which is nearer to
what lies halfway. -/
theorem IsNearest.unique (hden : 0 < den) {r r' : Nat} (h : IsNearest num den r)
    (h' : IsNearest num den r') : r = r' := by
  wlog hlt : r < r' generalizing r r'
  · obtain heq | hgt := Nat.eq_or_lt_of_not_lt hlt
    · exact heq
    · exact (this h' h hgt).symm
  have hdist := Nat.le_antisymm (h r').1 (h' r).1
  have heven := (h r').2 hdist hlt.ne'
  have heven' := (h' r).2 hdist.symm hlt.ne
  -- both are even, so a magnitude between them would be nearer
  have hbetween := (h (r + 1)).1
  have hlow : units r * den < units (r + 1) * den :=
    Nat.mul_lt_mul_of_pos_right (units_strictMono r.lt_succ_self) hden
  have hhigh : units (r + 1) * den < units r' * den :=
    Nat.mul_lt_mul_of_pos_right (units_strictMono (by omega)) hden
  unfold Nat.dist at hdist hbetween
  omega

theorem roundUncapped_nearest (num : Nat) (hden : 0 < den) :
    IsNearest num den (roundUncapped num den) := by
  intro m
  obtain ⟨hhigh, hlow⟩ := quotient_shifted num den
  unfold roundUncapped
  set s := (num / den).log2 - 52
  set q := divHalfEven num (den <<< s)
  have hpos : 0 < den <<< s := by
    rw [Nat.shiftLeft_eq]
    exact Nat.mul_pos hden (Nat.two_pow_pos s)
  have hround : num / (den <<< s) ≤ q ∧ q ≤ num / (den <<< s) + 1 := by
    obtain ⟨h, -⟩ | ⟨h, -⟩ := divHalfEven_cases num (den <<< s)
    · exact ⟨h.ge, h.le.trans (Nat.le_succ _)⟩
    · exact ⟨(Nat.le_succ _).trans h.ge, h.le⟩
  have hunits : units (s * exponentWeight + q) = q * 2 ^ s :=
    units_shifted (hround.2.trans hhigh) (hlow.imp_right fun h => h.trans hround.1)
  have hscale : ∀ k, k * 2 ^ s * den = k * (den <<< s) := fun k => by
    rw [Nat.shiftLeft_eq, Nat.mul_assoc, Nat.mul_comm den]
  have hparity : (s * exponentWeight + q) % 2 = q % 2 := by
    unfold exponentWeight
    omega
  rw [hunits, hscale, hparity]
  obtain ⟨k, hk⟩ | ⟨hs, hbelow⟩ := units_onGrid m s
  · rw [hk, hscale]
    obtain ⟨hnear, htie⟩ := divHalfEven_nearest num hpos k
    refine ⟨hnear, fun heq hne => htie heq fun hkq => hne (units_strictMono.injective ?_)⟩
    rw [hk, hunits, hkq]
  · -- the least significand of the step lies between the magnitude and the number
    have hleast : Nat.dist num (q * (den <<< s)) ≤ Nat.dist num (exponentWeight * (den <<< s)) :=
      (divHalfEven_nearest num hpos exponentWeight).1
    have hbetween : exponentWeight * (den <<< s) ≤ num :=
      (Nat.le_div_iff_mul_le hpos).1 (hlow.resolve_left hs.ne')
    have hfar : units m * den < exponentWeight * (den <<< s) := by
      rw [← hscale]
      exact Nat.mul_lt_mul_of_pos_right hbelow hden
    unfold Nat.dist at hleast ⊢
    omega

/-- **Rounding is to the nearest magnitude, ties to the even one.** -/
theorem roundUnits_nearest (hden : 0 < den) (hfinite : roundUnits num den < infiniteMagnitude) :
    IsNearest num den (roundUnits num den) := by
  have huncapped : roundUnits num den = roundUncapped num den := by
    rw [roundUnits_eq] at hfinite ⊢
    omega
  rw [huncapped]
  exact roundUncapped_nearest num hden

/-- **What lies halfway beyond the largest finite magnitude rounds to infinity**, and nothing below
does. -/
theorem roundUnits_eq_infinite_iff (num : Nat) (hden : 0 < den) :
    roundUnits num den = infiniteMagnitude ↔
      (units (infiniteMagnitude - 1) + units infiniteMagnitude) * den ≤ 2 * num := by
  have hcap : roundUnits num den = infiniteMagnitude ↔
      infiniteMagnitude ≤ roundUncapped num den := by
    rw [roundUnits_eq]
    omega
  obtain ⟨hlargest, -⟩ := roundUncapped_nearest num hden (infiniteMagnitude - 1)
  obtain ⟨hinfinite, htie⟩ := roundUncapped_nearest num hden infiniteMagnitude
  have hstep : units (infiniteMagnitude - 1) * den < units infiniteMagnitude * den :=
    Nat.mul_lt_mul_of_pos_right (units_strictMono (by decide)) hden
  rw [hcap, Nat.add_mul]
  unfold Nat.dist at hlargest hinfinite htie
  constructor
  · intro hge
    have hbeyond : units infiniteMagnitude * den ≤ units (roundUncapped num den) * den :=
      Nat.mul_le_mul_right den (units_strictMono.monotone hge)
    omega
  · intro hhalf
    by_contra hlt
    obtain hlt | heq := Nat.lt_or_eq_of_le (Nat.le_sub_one_of_lt (Nat.lt_of_not_le hlt))
    · have hbelow : units (roundUncapped num den) * den < units (infiniteMagnitude - 1) * den :=
        Nat.mul_lt_mul_of_pos_right (units_strictMono hlt) hden
      omega
    · -- the largest finite magnitude is odd, so a tie does not go to it
      have hodd : roundUncapped num den % 2 = 1 := heq ▸ rfl
      rw [heq] at hinfinite htie
      omega

/-- A finite magnitude is its own rounding. -/
theorem roundUnits_units (hm : m < infiniteMagnitude) (hk : 0 < k) :
    roundUnits (units m * k) k = m := by
  obtain ⟨hnear, -⟩ := roundUncapped_nearest (units m * k) hk m
  rw [Nat.dist_self, Nat.le_zero] at hnear
  have hround : roundUncapped (units m * k) k = m :=
    units_strictMono.injective (Nat.eq_of_mul_eq_mul_right hk (Nat.eq_of_dist_eq_zero hnear).symm)
  rw [roundUnits_eq, hround, Nat.min_eq_right hm.le]

theorem roundUnits_eq_zero (h : 2 * num < den) : roundUnits num den = 0 := by
  have hlt : num < den := by omega
  rw [roundUnits_eq, roundUncapped, Nat.div_eq_of_lt hlt, Nat.log2_zero, Nat.zero_sub,
    Nat.zero_mul, Nat.zero_add, Nat.shiftLeft_zero, divHalfEven, Nat.mod_eq_of_lt hlt, if_pos h,
    Nat.div_eq_of_lt hlt, Nat.min_zero]

theorem roundUnits_mul (num den : Nat) (hc : 0 < c) :
    roundUnits (c * num) (c * den) = roundUnits num den := by
  simp only [roundUnits, Nat.mul_div_mul_left _ _ hc, Nat.shiftLeft_eq, Nat.mul_assoc,
    divHalfEven_mul _ _ hc]

end Binary64

/-! ### Decimals -/

namespace Decimal

variable {d : Decimal} {n : Nat}

theorem tenTo_succ (k : Nat) : tenTo (k + 1) = 10 * tenTo k := Nat.mul_comm _ _

theorem tenTo_pos (k : Nat) : 0 < tenTo k := Nat.pow_pos (by decide)

theorem tenTo_add (j k : Nat) : tenTo (j + k) = tenTo j * tenTo k := Nat.pow_add 10 j k

theorem tenTo_le_tenTo {j k : Nat} (h : j ≤ k) : tenTo j ≤ tenTo k :=
  Nat.pow_le_pow_right (by decide) h

theorem length_digitsOf_le_iff {k : Nat} (hk : 0 < k) :
    (digitsOf n).length ≤ k ↔ n < tenTo k := Nat.length_toDigits_le_iff (by decide) hk

theorem lt_tenTo_length (n : Nat) : n < tenTo (digitsOf n).length :=
  (length_digitsOf_le_iff (List.length_pos_iff.2 Nat.toDigits_ne_nil)).1 le_rfl

theorem tenTo_length_le (hn : 0 < n) : tenTo ((digitsOf n).length - 1) ≤ n := by
  obtain hzero | hpos := Nat.eq_zero_or_pos ((digitsOf n).length - 1)
  · rw [hzero]
    exact hn
  · by_contra hlt
    have := (length_digitsOf_le_iff hpos).2 (Nat.lt_of_not_le hlt)
    omega

theorem value_lt_of_scale (h : d.scale < -330) :
    d.digits * tenTo d.exponent.toNat * tenTo 330 < tenTo (-d.exponent).toNat := by
  unfold scale at h
  have hwhole : d.exponent.toNat = 0 := by omega
  calc d.digits * tenTo d.exponent.toNat * tenTo 330
      = d.digits * tenTo 330 := by rw [hwhole, show tenTo 0 = 1 from rfl, Nat.mul_one]
    _ < tenTo (digitsOf d.digits).length * tenTo 330 :=
        Nat.mul_lt_mul_of_pos_right (lt_tenTo_length _) (tenTo_pos _)
    _ = tenTo ((digitsOf d.digits).length + 330) := (tenTo_add _ _).symm
    _ ≤ tenTo (-d.exponent).toNat := tenTo_le_tenTo (by omega)

theorem le_value_of_scale (hdigits : 0 < d.digits) (h : 310 < d.scale) :
    tenTo 310 * tenTo (-d.exponent).toNat ≤ d.digits * tenTo d.exponent.toNat := by
  unfold scale at h
  calc tenTo 310 * tenTo (-d.exponent).toNat
      = tenTo (310 + (-d.exponent).toNat) := (tenTo_add _ _).symm
    _ ≤ tenTo ((digitsOf d.digits).length - 1 + d.exponent.toNat) := tenTo_le_tenTo (by omega)
    _ = tenTo ((digitsOf d.digits).length - 1) * tenTo d.exponent.toNat := tenTo_add _ _
    _ ≤ d.digits * tenTo d.exponent.toNat := Nat.mul_le_mul_right _ (tenTo_length_le hdigits)

/-- **A decimal is read as the rounding of its exact value**, however large or small it is. -/
theorem magnitude_eq (d : Decimal) : d.magnitude =
    Binary64.roundUnits ((d.digits * tenTo d.exponent.toNat) <<< 1074)
      (tenTo (-d.exponent).toNat) := by
  unfold magnitude
  split_ifs with hsmall hlarge
  · -- less than half of the least magnitude
    refine (Binary64.roundUnits_eq_zero ?_).symm
    obtain hzero | hscale := hsmall
    · rw [hzero, Nat.zero_mul, Nat.zero_shiftLeft]
      exact tenTo_pos _
    · have hbound : 2 * 1 <<< 1074 ≤ tenTo 330 := by decide +kernel
      calc 2 * ((d.digits * tenTo d.exponent.toNat) <<< 1074)
          = d.digits * tenTo d.exponent.toNat * (2 * 1 <<< 1074) := by
            rw [Nat.shiftLeft_eq, Nat.one_shiftLeft, Nat.mul_left_comm]
        _ ≤ d.digits * tenTo d.exponent.toNat * tenTo 330 := Nat.mul_le_mul_left _ hbound
        _ < tenTo (-d.exponent).toNat := value_lt_of_scale hscale
  · -- beyond the middle between the largest double and the next power of two
    refine ((Binary64.roundUnits_eq_infinite_iff _ (tenTo_pos _)).2 ?_).symm
    have hbound : Binary64.units (Binary64.infiniteMagnitude - 1) +
        Binary64.units Binary64.infiniteMagnitude ≤ 2 * tenTo 310 <<< 1074 := by decide +kernel
    have hvalue := le_value_of_scale (Nat.pos_of_ne_zero fun h => hsmall (.inl h)) hlarge
    calc _ ≤ 2 * tenTo 310 <<< 1074 * tenTo (-d.exponent).toNat := Nat.mul_le_mul_right _ hbound
      _ = 2 * ((tenTo 310 * tenTo (-d.exponent).toNat) <<< 1074) := by
        rw [Nat.shiftLeft_eq, Nat.shiftLeft_eq, Nat.mul_assoc, Nat.mul_right_comm]
      _ ≤ _ := by
        rw [Nat.shiftLeft_eq, Nat.shiftLeft_eq]
        exact Nat.mul_le_mul_left 2 (Nat.mul_le_mul_right _ hvalue)
  · rfl

/-- **Reading a decimal is correctly rounded.** -/
theorem magnitude_nearest (hfinite : d.magnitude < Binary64.infiniteMagnitude) :
    Binary64.IsNearest ((d.digits * tenTo d.exponent.toNat) <<< 1074) (tenTo (-d.exponent).toNat)
      d.magnitude := by
  rw [magnitude_eq] at hfinite ⊢
  exact Binary64.roundUnits_nearest (tenTo_pos _) hfinite

theorem magnitude_mul_ten (n : Nat) (e : Int) :
    magnitude ⟨10 * n, e⟩ = magnitude ⟨n, e + 1⟩ := by
  simp only [magnitude_eq]
  generalize 1074 = k
  -- the power of ten stands above or below the line of the fraction
  obtain he | he := Int.lt_or_le e 0
  · have hfraction : (-e).toNat = (-(e + 1)).toNat + 1 := by omega
    rw [hfraction, Int.toNat_of_nonpos he.le, Int.toNat_of_nonpos (Int.add_one_le_of_lt he),
      tenTo_succ, Nat.mul_assoc, Nat.shiftLeft_eq, Nat.shiftLeft_eq, Nat.mul_assoc 10,
      Binary64.roundUnits_mul _ _ (by decide)]
  · have hwhole : (e + 1).toNat = e.toNat + 1 := by omega
    have hfraction : (-e).toNat = (-(e + 1)).toNat := by omega
    rw [hwhole, hfraction, tenTo_succ, Nat.mul_comm 10 n, Nat.mul_assoc]

/-- Zeros behind the digits count as a power of ten. -/
theorem magnitude_mul_tenTo (n k : Nat) (e : Int) :
    magnitude ⟨n * tenTo k, e⟩ = magnitude ⟨n, e + k⟩ := by
  induction k generalizing e with
  | zero =>
    rw [Int.natCast_zero, Int.add_zero]
    exact congrArg (fun d => magnitude ⟨d, e⟩) (Nat.mul_one n)
  | succ k ih =>
    rw [tenTo_succ, Nat.mul_left_comm, magnitude_mul_ten, ih, Int.natCast_succ, Int.add_assoc,
      Int.add_comm 1]

theorem magnitude_strip (d : Decimal) : d.strip.magnitude = d.magnitude := by
  induction d using strip.induct with
  | case1 d h ih =>
    rw [strip, if_pos h, ih, ← magnitude_mul_ten,
      Nat.mul_div_cancel' (Nat.dvd_of_mod_eq_zero h.2)]
  | case2 d h => rw [strip, if_neg h]

theorem digits_pos_of_magnitude (h : 0 < d.magnitude) : 0 < d.digits := by
  refine Nat.pos_of_ne_zero fun hzero => ?_
  rw [magnitude, if_pos (.inl hzero)] at h
  exact Nat.lt_irrefl 0 h

/-- An integer of sixty-five bits is far below the values that round to infinity. -/
theorem magnitude_natural_lt (hn : n < 2 ^ 65) :
    magnitude ⟨n, 0⟩ < Binary64.infiniteMagnitude := by
  refine Nat.lt_of_le_of_ne (magnitude_eq _ ▸ Nat.min_le_left _ _) ?_
  have hbound : 2 * (2 ^ 65) <<< 1074 ≤ Binary64.units (Binary64.infiniteMagnitude - 1) +
      Binary64.units Binary64.infiniteMagnitude := by decide +kernel
  have hshift : ∀ k, n <<< k < (2 ^ 65) <<< k := fun k => by
    rw [Nat.shiftLeft_eq, Nat.shiftLeft_eq]
    exact Nat.mul_lt_mul_of_pos_right hn (Nat.two_pow_pos k)
  rw [magnitude_eq, Binary64.roundUnits_eq_infinite_iff _ (tenTo_pos _), Nat.not_le]
  calc 2 * (n * tenTo 0) <<< 1074
      = 2 * n <<< 1074 := by rw [show tenTo 0 = 1 from rfl, Nat.mul_one]
    _ < 2 * (2 ^ 65) <<< 1074 := Nat.mul_lt_mul_of_pos_left (hshift 1074) (by decide)
    _ ≤ _ := hbound
    _ = _ := (Nat.mul_one _).symm

end Decimal

/-! ### The shortest digits -/

namespace Binary64

variable {m : Nat}

/-- The exact value of a magnitude reads back to it. -/
theorem magnitude_exactDecimal (hfinite : m < infiniteMagnitude) :
    (exactDecimal m).magnitude = m := by
  -- five and two to one power are ten to that power
  have hround : ∀ k, roundUnits ((units m * Nat.pow 5 k * Decimal.tenTo 0) <<< k)
      (Decimal.tenTo k) = m := by
    intro k
    have hten : 5 ^ k * 2 ^ k = 10 ^ k := (Nat.mul_pow 5 2 k).symm
    have hvalue : (units m * Nat.pow 5 k * Decimal.tenTo 0) <<< k = units m * Decimal.tenTo k :=
      calc (units m * Nat.pow 5 k * Decimal.tenTo 0) <<< k
          = units m * 5 ^ k * 1 * 2 ^ k := Nat.shiftLeft_eq _ _
        _ = units m * (5 ^ k * 2 ^ k) := by rw [Nat.mul_one, Nat.mul_assoc]
        _ = units m * Decimal.tenTo k := congrArg (units m * ·) hten
    rw [hvalue]
    exact roundUnits_units hfinite (Decimal.tenTo_pos k)
  rw [Decimal.magnitude_eq]
  exact hround 1074

theorem magnitude_of_onGrid? {tie : Tie} {k : Nat} {d : Decimal} (h : onGrid? tie m k = some d) :
    d.magnitude = m := by
  unfold onGrid? at h
  simp only at h
  split_ifs at h with hlower htie hupper <;> obtain rfl := Option.some.inj h
  · exact htie.1
  · exact hlower
  · exact hupper

/-- **The digits chosen for a finite magnitude read back to it.** -/
theorem magnitude_shortest (tie : Tie) (hfinite : m < infiniteMagnitude) :
    (shortest tie m).magnitude = m := by
  unfold shortest
  simp only
  rw [Decimal.magnitude_strip]
  generalize hhit : List.findSome? _ (List.range 17) = hit
  cases hit with
  | none => exact magnitude_exactDecimal hfinite
  | some d =>
    obtain ⟨n, -, hn⟩ := List.exists_of_findSome?_eq_some hhit
    exact magnitude_of_onGrid? hn

/-! ### Signs -/

theorem bits_ofMagnitude (negative : Bool) (hm : m < signWeight) :
    (ofMagnitude negative m).bits.toNat = m + if negative then signWeight else 0 := by
  have hweight : signWeight + signWeight = UInt64.size := rfl
  refine UInt64.toNat_ofNat_of_lt' ?_
  split_ifs <;> omega

@[simp] theorem magnitude_ofMagnitude (negative : Bool) (hm : m < signWeight) :
    (ofMagnitude negative m).magnitude = m := by
  rw [magnitude, bits_ofMagnitude negative hm]
  split_ifs
  · rw [Nat.add_mod_right, Nat.mod_eq_of_lt hm]
  · exact Nat.mod_eq_of_lt hm

theorem isNegative_ofMagnitude (negative : Bool) (hm : m < signWeight) :
    (ofMagnitude negative m).isNegative = negative := by
  rw [isNegative, bits_ofMagnitude negative hm]
  cases negative with
  | true => exact decide_eq_true (Nat.le_add_left _ _)
  | false => exact decide_eq_false (Nat.not_le.2 hm)

theorem ofMagnitude_magnitude (x : Binary64) : ofMagnitude x.isNegative x.magnitude = x := by
  have hlt : x.bits.toNat < signWeight + signWeight := x.bits.toNat_lt
  have hbits : x.magnitude + (if x.isNegative then signWeight else 0) = x.bits.toNat := by
    simp only [magnitude, isNegative, decide_eq_true_eq]
    split_ifs with h
    · rw [Nat.mod_eq_sub_mod h, Nat.mod_eq_of_lt (Nat.sub_lt_left_of_lt_add h hlt),
        Nat.sub_add_cancel h]
    · exact Nat.mod_eq_of_lt (Nat.lt_of_not_le h)
  rw [ofMagnitude, hbits, UInt64.ofNat_toNat]

theorem isFinite_ofMagnitude (negative : Bool) (hm : m < infiniteMagnitude) :
    (ofMagnitude negative m).isFinite := by
  rw [isFinite, magnitude_ofMagnitude negative (hm.trans (by decide)), decide_eq_true_eq]
  exact hm

end Binary64

end CliffordT
