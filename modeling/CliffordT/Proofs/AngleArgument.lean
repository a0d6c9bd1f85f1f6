import CliffordT.Pipeline.ProcessOracle
import CliffordT.Proofs.ExactValue
import CliffordT.Proofs.PlainNumerals

/-!
# Angles as arguments

The angle of a rotation is reduced by the period and printed without a sign.  The remainder is
exact; only where it is negative, and the period is added, is the sum rounded.

* `Binary64.exists_units_mod` : the remainder of a double by a double is a double;
* `Binary64.reduce_of_exact`, `Binary64.reduce_of_negative` : what is done with a remainder;
* `Binary64.isMultiple_iff` : which doubles are multiples of a period;
* `Binary64.reduce_ofMagnitude` : reducing again changes nothing, unless the sum was rounded up to
  the period;
* `Binary64.ReadsAs` : a text of digits and at most one point that reads back to a double;
* `angleArgument_names_rotation` : **the argument never looks like an option, and reads back to an
  angle that differs by periods.**
-/

namespace CliffordT

namespace Binary64

variable {m p s q r : Nat} {x : Binary64}

/-! ### Exact remainders -/

theorem exists_units_eq (s : Nat) (hq : q ≤ 2 * exponentWeight) :
    ∃ m, units m = q * 2 ^ s := by
  induction s generalizing q with
  | zero => exact ⟨0 * exponentWeight + q, units_shifted hq (.inl rfl)⟩
  | succ s ih =>
    by_cases hnormal : exponentWeight ≤ q
    · exact ⟨(s + 1) * exponentWeight + q, units_shifted hq (.inr hnormal)⟩
    · obtain ⟨m, hm⟩ := ih (q := 2 * q) (by omega)
      refine ⟨m, hm.trans ?_⟩
      rw [Nat.pow_succ', Nat.mul_left_comm, Nat.mul_assoc]

/-- **The remainder of a double by a double is a double.** -/
theorem exists_units_mod (m : Nat) (hp : 0 < p) : ∃ r < p, units r = units m % units p := by
  have hlt : units m % units p < units p := Nat.mod_lt _ (units_pos hp)
  suffices h : ∃ r, units r = units m % units p by
    obtain ⟨r, hr⟩ := h
    exact ⟨r, units_strictMono.lt_iff_lt.1 (hr ▸ hlt), hr⟩
  obtain ⟨s, q, rfl, hq, hnormal⟩ := exists_shifted p
  rw [units_shifted hq.le hnormal] at hlt ⊢
  obtain ⟨k, hk⟩ | ⟨hs, hbelow⟩ := units_onGrid m s
  · -- both are whole multiples of the period's step
    rw [hk, Nat.mul_mod_mul_right] at hlt ⊢
    exact exists_units_eq s ((Nat.lt_of_mul_lt_mul_right hlt).le.trans hq.le)
  · have hsmall : units m < q * 2 ^ s :=
      hbelow.trans_le (Nat.mul_le_mul_right _ (hnormal.resolve_left hs.ne'))
    exact ⟨m, (Nat.mod_eq_of_lt hsmall).symm⟩

theorem roundUnits_le (hp : p < infiniteMagnitude) (hpos : 0 < m) (hm : m ≤ units p) :
    0 < roundUnits m 1 ∧ roundUnits m 1 ≤ p ∧ IsNearest m 1 (roundUnits m 1) := by
  have hnear := roundUncapped_nearest m Nat.one_pos
  have hle : roundUncapped m 1 ≤ p := by
    -- `p` would be nearer
    by_contra hlt
    have hbeyond := units_strictMono (Nat.lt_of_not_le hlt)
    have hdist := (hnear p).1
    unfold Nat.dist at hdist
    omega
  have hround : roundUnits m 1 = roundUncapped m 1 := by
    rw [roundUnits_eq, Nat.min_eq_right (hle.trans hp.le)]
  refine ⟨?_, hround.trans_le hle, hround ▸ hnear⟩
  rw [hround, Nat.pos_iff_ne_zero]
  -- the least magnitude would be nearer
  intro hzero
  have hone : units 1 = 1 := rfl
  have hdist := (hnear 1).1
  rw [hzero, units_zero, hone] at hdist
  unfold Nat.dist at hdist
  omega

/-! ### Reduction -/

/-- A remainder that is not negative is the reduced double. -/
theorem reduce_of_exact (hx : x.isFinite) (hp : 0 < p) (hfinite : p < infiniteMagnitude)
    (h : x.isNegative = false ∨ units x.magnitude % units p = 0) :
    ∃ r < p, units r = units x.magnitude % units p ∧ reduce p x = ofMagnitude false r := by
  obtain ⟨r, hr, hunits⟩ := exists_units_mod x.magnitude hp
  refine ⟨r, hr, hunits, ?_⟩
  have hround : roundUnits (units r) 1 = r := by
    have := roundUnits_units (hr.trans hfinite) Nat.one_pos
    rwa [Nat.mul_one] at this
  have hbranch : ¬ (x.isNegative && units x.magnitude % units p != 0) := by
    rcases h with h | h <;> simp [h]
  unfold reduce
  dsimp only
  rw [if_pos hx, if_neg hbranch, ← hunits, hround]

/-- To a negative remainder the period is added, and the sum is rounded. -/
theorem reduce_of_negative (hx : x.isFinite) (hp : 0 < p) (hfinite : p < infiniteMagnitude)
    (hsign : x.isNegative) (h : units x.magnitude % units p ≠ 0) :
    ∃ r, 0 < r ∧ r ≤ p ∧ IsNearest (units p - units x.magnitude % units p) 1 r ∧
      reduce p x = ofMagnitude false r := by
  have hlt : units x.magnitude % units p < units p := Nat.mod_lt _ (units_pos hp)
  obtain ⟨hpos, hle, hnear⟩ := roundUnits_le hfinite (Nat.sub_pos_of_lt hlt) (Nat.sub_le _ _)
  refine ⟨_, hpos, hle, hnear, ?_⟩
  have hbranch : x.isNegative && units x.magnitude % units p != 0 := by simp [hsign, h]
  unfold reduce
  dsimp only
  rw [if_pos hx, if_pos hbranch]

theorem exists_reduce_eq (hx : x.isFinite) (hp : 0 < p) (hfinite : p < infiniteMagnitude) :
    ∃ r ≤ p, reduce p x = ofMagnitude false r := by
  by_cases h : x.isNegative = false ∨ units x.magnitude % units p = 0
  · obtain ⟨r, hr, -, hreduce⟩ := reduce_of_exact hx hp hfinite h
    exact ⟨r, hr.le, hreduce⟩
  · obtain ⟨hsign, hne⟩ := not_or.1 h
    obtain ⟨r, -, hr, -, hreduce⟩ :=
      reduce_of_negative hx hp hfinite (Bool.not_eq_false _ ▸ hsign) hne
    exact ⟨r, hr, hreduce⟩

/-- **Reducing again changes nothing, unless the sum was rounded up to the period.**  Then it gives
zero. -/
theorem reduce_ofMagnitude (hp : 0 < p) (hfinite : p < infiniteMagnitude) (hr : r ≤ p) :
    reduce p (ofMagnitude false r) = if r = p then zero else ofMagnitude false r := by
  have hrfinite := hr.trans_lt hfinite
  obtain ⟨k, -, hunits, hreduce⟩ := reduce_of_exact (isFinite_ofMagnitude false hrfinite) hp hfinite
    (.inl (isNegative_ofMagnitude false (lt_signWeight hrfinite)))
  rw [magnitude_ofMagnitude false (lt_signWeight hrfinite)] at hunits
  rw [hreduce]
  split_ifs with heq
  · rw [heq, Nat.mod_self] at hunits
    obtain rfl : k = 0 := units_strictMono.injective hunits
    rfl
  · rw [Nat.mod_eq_of_lt (units_strictMono (lt_of_le_of_ne hr heq))] at hunits
    rw [units_strictMono.injective hunits]

/-! ### Reduction of values -/

theorem units_mul_unit_eq (m p : Nat) : (units m * unit : ℚ) =
    (units m / units p : Nat) * (units p * unit) + (units m % units p : Nat) * unit := by
  have hdiv : (units m : ℚ) = (units m / units p : Nat) * units p + (units m % units p : Nat) := by
    rw [← Nat.cast_mul, ← Nat.cast_add, Nat.div_add_mod']
  calc (units m * unit : ℚ)
      = ((units m / units p : Nat) * units p + (units m % units p : Nat)) * unit := by rw [← hdiv]
    _ = _ := by ring

/-- A double is a multiple of a period if and only if it leaves no remainder. -/
theorem isMultiple_iff (x : Binary64) (p : Nat) :
    (∃ k : ℤ, x.value = k * (units p * unit)) ↔ units x.magnitude % units p = 0 := by
  have hunit : unit ≠ 0 := unit_pos.ne'
  constructor
  · rintro ⟨k, hk⟩
    -- the units of a multiple are a multiple, whatever the signs are
    rw [← mul_assoc] at hk
    by_cases hsign : x.isNegative
    · rw [value_of_negative hsign, ← neg_mul, mul_left_inj' hunit, neg_eq_iff_eq_neg] at hk
      have hint : (units x.magnitude : ℤ) = -k * units p := by
        rw [neg_mul]
        exact_mod_cast hk
      exact Nat.mod_eq_zero_of_dvd (Int.natCast_dvd_natCast.1 ⟨-k, hint.trans (mul_comm _ _)⟩)
    · rw [value_of_nonneg (Bool.eq_false_iff.2 hsign), mul_left_inj' hunit] at hk
      have hint : (units x.magnitude : ℤ) = k * units p := by exact_mod_cast hk
      exact Nat.mod_eq_zero_of_dvd (Int.natCast_dvd_natCast.1 ⟨k, hint.trans (mul_comm _ _)⟩)
  · intro h
    have hsplit := units_mul_unit_eq x.magnitude p
    rw [h, Nat.cast_zero, zero_mul, add_zero] at hsplit
    generalize units x.magnitude / units p = k at hsplit
    by_cases hsign : x.isNegative
    · exact ⟨-k, by rw [value_of_negative hsign, hsplit, Int.cast_neg, Int.cast_natCast, neg_mul]⟩
    · exact ⟨k, by rw [value_of_nonneg (Bool.eq_false_iff.2 hsign), hsplit, Int.cast_natCast]⟩

/-! ### Texts -/

/-- The text has digits and at most one point, and is read as `x`, to which its exact value
rounds. -/
structure ReadsAs (text : String) (x : Binary64) : Prop where
  isDigit : ∀ c ∈ text.toList, c.isDigit ∨ c = '.'
  point : text.toList.count '.' ≤ 1
  read : ∃ n : Json.Numeral, Json.takeNumeral text.toList = some (n, []) ∧ n.negative = false ∧
    n.toBinary64 = x ∧ IsRounding n.decimal.value x

theorem readsAs_plain (h : x.isFinite) (hsign : x.isNegative = false) : ReadsAs x.plain x := by
  have hwell := plainNumeral_wellFormed h
  have hnegative : x.plainNumeral.negative = false := x.negative_plainNumeral.trans hsign
  have htext : x.plain.toList = x.plainNumeral.render := by
    rw [plain, String.toList_ofList, render_plainNumeral h]
  have hmagnitude := magnitude_plainNumeral h
  have hx : ofMagnitude false x.magnitude = x := hsign ▸ ofMagnitude_magnitude x
  refine ⟨fun c hc => ?_, ?_, x.plainNumeral, ?_, hnegative, toBinary64_plainNumeral h, ?_⟩
  · rw [htext, Json.Numeral.render_of_none x.exponent_plainNumeral, hnegative] at hc
    exact Json.Numeral.isDigit_of_mem hwell hc
  · rw [htext]
    exact Json.Numeral.count_point_render hwell x.exponent_plainNumeral
  · rw [plain, String.toList_ofList, ← takeNumeral_plainChars h Json.endsNumeral_nil,
      List.append_nil]
  · have hround := Decimal.isRounding_magnitude (hmagnitude.trans_lt (of_decide_eq_true h))
    rwa [hmagnitude, hx] at hround

end Binary64

/-! ### Arguments -/

open Binary64

/-- The angle that is printed: the angle of the rotation, reduced by the period. -/
def reducedAngle (a : Binary64) : Binary64 := reduce rotationPeriod.magnitude a

theorem angleArgument_eq (a : Binary64) : angleArgument a = (reducedAngle a).plain := rfl

theorem reducedAngle_of_not_finite {a : Binary64} (h : a.isFinite = false) :
    reducedAngle a = nan := by
  rw [reducedAngle, reduce, h]
  rfl

section Period

variable {a : Binary64}

theorem rotationPeriod_bounds :
    0 < rotationPeriod.magnitude ∧ rotationPeriod.magnitude < infiniteMagnitude := by decide

theorem value_rotationPeriod : rotationPeriod.value = units rotationPeriod.magnitude * unit :=
  value_of_nonneg (by decide)

theorem exists_reducedAngle_eq (h : a.isFinite) :
    ∃ r ≤ rotationPeriod.magnitude, reducedAngle a = ofMagnitude false r :=
  exists_reduce_eq h rotationPeriod_bounds.1 rotationPeriod_bounds.2

theorem isFinite_reducedAngle (h : a.isFinite) : (reducedAngle a).isFinite := by
  obtain ⟨r, hr, hreduced⟩ := exists_reducedAngle_eq h
  rw [hreduced]
  exact isFinite_ofMagnitude false (hr.trans_lt rotationPeriod_bounds.2)

theorem isNegative_reducedAngle (h : a.isFinite) : (reducedAngle a).isNegative = false := by
  obtain ⟨r, hr, hreduced⟩ := exists_reducedAngle_eq h
  rw [hreduced]
  exact isNegative_ofMagnitude false (lt_signWeight (hr.trans_lt rotationPeriod_bounds.2))

theorem value_reducedAngle_of_nonneg (h : a.isFinite) (ha : 0 ≤ a.value) :
    ∃ k : ℕ, a.value = k * rotationPeriod.value + (reducedAngle a).value ∧
      0 ≤ (reducedAngle a).value ∧ (reducedAngle a).value < rotationPeriod.value := by
  obtain ⟨hpos, hfinite⟩ := rotationPeriod_bounds
  have habs : a.value = units a.magnitude * unit ∧
      (a.isNegative = false ∨ units a.magnitude % units rotationPeriod.magnitude = 0) := by
    by_cases hsign : a.isNegative
    · -- negative zero
      have hvalue := value_of_negative hsign
      have hunits := units_mul_unit_nonneg a.magnitude
      have hzero : (units a.magnitude : ℚ) * unit = 0 := by linarith
      have hnone : units a.magnitude = 0 :=
        Nat.cast_eq_zero.1 ((mul_eq_zero.1 hzero).resolve_right unit_pos.ne')
      rw [hvalue, hzero, neg_zero, hnone, Nat.zero_mod]
      exact ⟨rfl, .inr rfl⟩
    · exact ⟨value_of_nonneg (Bool.eq_false_iff.2 hsign), .inl (Bool.eq_false_iff.2 hsign)⟩
  obtain ⟨r, hr, hunits, hreduce⟩ := reduce_of_exact h hpos hfinite habs.2
  have hvalue : (reducedAngle a).value = units r * unit := by
    rw [reducedAngle, hreduce, value_ofMagnitude (lt_signWeight (hr.trans hfinite))]
  refine ⟨units a.magnitude / units rotationPeriod.magnitude, ?_, ?_, ?_⟩
  · rw [hvalue, hunits, value_rotationPeriod, habs.1]
    exact units_mul_unit_eq _ _
  · rw [hvalue]
    exact units_mul_unit_nonneg r
  · rw [hvalue, value_rotationPeriod]
    exact mul_lt_mul_of_pos_right (Nat.cast_lt.2 (units_strictMono hr)) unit_pos

theorem value_reducedAngle_of_multiple (h : a.isFinite)
    (hmultiple : ∃ k : ℤ, a.value = k * rotationPeriod.value) : (reducedAngle a).value = 0 := by
  obtain ⟨hpos, hfinite⟩ := rotationPeriod_bounds
  rw [value_rotationPeriod, isMultiple_iff] at hmultiple
  obtain ⟨r, hr, hunits, hreduce⟩ := reduce_of_exact h hpos hfinite (.inr hmultiple)
  rw [reducedAngle, hreduce, value_ofMagnitude (lt_signWeight (hr.trans hfinite)), hunits,
    hmultiple, Nat.cast_zero, zero_mul]

/-- Any other negative angle is whole periods below a negative remainder, and the remainder and one
period are rounded. -/
theorem isRounding_reducedAngle (h : a.isFinite) (ha : a.value < 0)
    (hmultiple : ¬ ∃ k : ℤ, a.value = k * rotationPeriod.value) :
    ∃ (k : ℕ) (r : ℚ), a.value = r - k * rotationPeriod.value ∧
      -rotationPeriod.value < r ∧ r < 0 ∧
      IsRounding (r + rotationPeriod.value) (reducedAngle a) ∧
      0 < (reducedAngle a).value ∧ (reducedAngle a).value ≤ rotationPeriod.value := by
  obtain ⟨hpos, hfinite⟩ := rotationPeriod_bounds
  have hsign : a.isNegative := by
    by_contra hsign
    have hvalue := value_of_nonneg (Bool.eq_false_iff.2 hsign)
    have hunits := units_mul_unit_nonneg a.magnitude
    linarith
  rw [value_rotationPeriod, isMultiple_iff] at hmultiple
  have hlt := Nat.mod_lt (units a.magnitude) (units_pos hpos)
  obtain ⟨r, hr, hle, hnear, hreduce⟩ := reduce_of_negative h hpos hfinite hsign hmultiple
  have hvalue : (reducedAngle a).value = units r * unit := by
    rw [reducedAngle, hreduce, value_ofMagnitude (lt_signWeight (hle.trans_lt hfinite))]
  have hround := isRounding_of_nearest Nat.one_pos (hle.trans_lt hfinite) hnear
  rw [Nat.cast_one, div_one, Nat.cast_sub hlt.le, sub_mul, ← hreduce,
    ← value_rotationPeriod] at hround
  -- the remainder has the sign of the angle, as in a division towards zero
  refine ⟨units a.magnitude / units rotationPeriod.magnitude,
    -((units a.magnitude % units rotationPeriod.magnitude : ℕ) * unit), ?_, ?_, ?_, ?_, ?_, ?_⟩
  · rw [value_of_negative hsign, units_mul_unit_eq a.magnitude rotationPeriod.magnitude,
      value_rotationPeriod]
    ring
  · rw [value_rotationPeriod, neg_lt_neg_iff]
    exact mul_lt_mul_of_pos_right (Nat.cast_lt.2 hlt) unit_pos
  · exact neg_neg_of_pos (mul_pos (Nat.cast_pos.2 (Nat.pos_of_ne_zero hmultiple)) unit_pos)
  · rwa [neg_add_eq_sub]
  · rw [hvalue]
    exact mul_pos (Nat.cast_pos.2 (units_pos hr)) unit_pos
  · rw [hvalue, value_rotationPeriod]
    exact mul_le_mul_of_nonneg_right (Nat.cast_le.2 (units_strictMono.monotone hle)) unit_pos.le

/-- **Printing the printed angle again gives the same text, unless it is the period.** -/
theorem angleArgument_reducedAngle_iff (h : a.isFinite) :
    angleArgument (reducedAngle a) = angleArgument a ↔
      (reducedAngle a).value ≠ rotationPeriod.value := by
  obtain ⟨hpos, hfinite⟩ := rotationPeriod_bounds
  obtain ⟨r, hr, hreduced⟩ := exists_reducedAngle_eq h
  have hrsign := lt_signWeight (hr.trans_lt hfinite)
  have hperiod : (reducedAngle a).value = rotationPeriod.value ↔ r = rotationPeriod.magnitude := by
    rw [hreduced, value_ofMagnitude hrsign, value_rotationPeriod, mul_left_inj' unit_pos.ne',
      Nat.cast_inj, units_strictMono.injective.eq_iff]
  -- in the range of the reduction only the period itself is reduced further
  have hagain : reducedAngle (reducedAngle a) =
      if r = rotationPeriod.magnitude then zero else reducedAngle a := by
    rw [hreduced]
    exact reduce_ofMagnitude hpos hfinite hr
  rw [ne_eq, hperiod, angleArgument_eq, angleArgument_eq, hagain]
  split_ifs with heq
  · refine iff_of_false (fun htext => ?_) (not_not.2 heq)
    have hzero : zero = reducedAngle a := by
      refine plainChars_injective (by decide) ?_ (String.ofList_injective htext)
      rw [hreduced, heq]
      decide
    rw [hreduced, heq] at hzero
    exact absurd hzero (by decide)
  · exact iff_of_true rfl heq

end Period

/-- **The argument never looks like an option and names the same rotation.**  It does not begin with
a minus sign, and what is not finite gives `NaN`.  A finite angle is reduced to the double that the
text reads back to: for an angle that is not negative the exact remainder by the period; for a
negative one zero if it is a multiple of the period, and otherwise the exact negative remainder and
one period, rounded once.  Only that sum can reach the period, and only then does the argument
change if it is taken for the angle. -/
theorem angleArgument_names_rotation (a : Binary64) :
    (angleArgument a).toList.head? ≠ some '-' ∧
    (a.isFinite = false → angleArgument a = "NaN") ∧
    (a.isFinite →
      ReadsAs (angleArgument a) (reducedAngle a) ∧
      (0 ≤ a.value → ∃ k : ℕ, a.value = k * rotationPeriod.value + (reducedAngle a).value ∧
        0 ≤ (reducedAngle a).value ∧ (reducedAngle a).value < rotationPeriod.value) ∧
      (a.value < 0 → (∃ k : ℤ, a.value = k * rotationPeriod.value) →
        (reducedAngle a).value = 0) ∧
      (a.value < 0 → (¬ ∃ k : ℤ, a.value = k * rotationPeriod.value) →
        ∃ (k : ℕ) (r : ℚ), a.value = r - k * rotationPeriod.value ∧
          -rotationPeriod.value < r ∧ r < 0 ∧
          IsRounding (r + rotationPeriod.value) (reducedAngle a) ∧
          0 < (reducedAngle a).value ∧ (reducedAngle a).value ≤ rotationPeriod.value) ∧
      ((reducedAngle a).value = rotationPeriod.value → a.value < 0) ∧
      (angleArgument (reducedAngle a) = angleArgument a ↔
        (reducedAngle a).value ≠ rotationPeriod.value)) := by
  have hnan : a.isFinite = false → angleArgument a = "NaN" := by
    intro h
    rw [angleArgument_eq, reducedAngle_of_not_finite h]
    rfl
  have hreads : a.isFinite → ReadsAs (angleArgument a) (reducedAngle a) := fun h =>
    readsAs_plain (isFinite_reducedAngle h) (isNegative_reducedAngle h)
  refine ⟨?_, hnan, fun h => ⟨hreads h, value_reducedAngle_of_nonneg h, fun _ =>
    value_reducedAngle_of_multiple h, isRounding_reducedAngle h, fun hperiod => ?_,
    angleArgument_reducedAngle_iff h⟩⟩
  · intro hdash
    by_cases h : a.isFinite
    · exact absurd ((hreads h).isDigit '-' (List.mem_of_mem_head? hdash)) (by decide)
    · rw [hnan (Bool.eq_false_iff.2 h)] at hdash
      exact absurd hdash (by decide)
  · by_contra hnonneg
    obtain ⟨-, -, -, hlt⟩ := value_reducedAngle_of_nonneg h (not_lt.1 hnonneg)
    exact hlt.ne hperiod

/-- The least negative angle is rounded up to the period, and printed again it is zero. -/
theorem angleArgument_names_rotation_least :
    (⟨0x8000000000000001⟩ : Binary64).isFinite ∧
    (⟨0x8000000000000001⟩ : Binary64).value < 0 ∧
    ReadsAs (angleArgument ⟨0x8000000000000001⟩) rotationPeriod ∧
    angleArgument rotationPeriod ≠ angleArgument ⟨0x8000000000000001⟩ ∧
    angleArgument nan = "NaN" := by
  have hreduced : reducedAngle ⟨0x8000000000000001⟩ = rotationPeriod := by decide +kernel
  have hvalue : (⟨0x8000000000000001⟩ : Binary64).value < 0 := by
    have hunits : units (⟨0x8000000000000001⟩ : Binary64).magnitude = 1 := by decide
    rw [value_of_negative (by decide), hunits, Nat.cast_one, one_mul]
    exact neg_neg_of_pos unit_pos
  obtain ⟨-, -, hfinite⟩ := angleArgument_names_rotation ⟨0x8000000000000001⟩
  obtain ⟨hreads, -, -, -, -, hagain⟩ := hfinite (by decide)
  rw [hreduced] at hreads hagain
  exact ⟨by decide, hvalue, hreads, fun h => hagain.1 h rfl,
    (angleArgument_names_rotation nan).2.1 (by decide)⟩

end CliffordT
