import CliffordT.Json.Decode
import CliffordT.Proofs.JsonGrammar
import CliffordT.Proofs.Rounding
import Mathlib.Data.List.Basic

/-!
# What numerals stand for

A numeral stands for the nearest double, and a double has a numeral that stands for it.

* `Json.Numeral.RoundsTo` : a double is the nearest one to a numeral, a tie going to the even one;
* `Json.Numeral.toBinary64_of_roundsTo`, `Json.Numeral.roundsTo_toBinary64` : a numeral is read as
  the one double that it rounds to;
* `Json.Numeral.number?_ofNat` : a natural number of sixty-four bits is read as that integer;
* `Json.Numeral.binary64OfInt_of_number?` : an integer counts as the double nearest to it;
* `Decimal.numeral_wellFormed`, `Decimal.magnitude_numeral` : in each of the four layouts the
  numeral of a decimal is well-formed and stands for the same value;
* `Binary64.toBinary64_numeral` : **the numeral of a finite double stands for it, bit for bit.**
-/

namespace CliffordT

open Decimal (digitsOf)

/-! ### Digits -/

namespace Json

theorem digitsValue_zeros_append (k : Nat) (ds : List Char) :
    digitsValue (List.replicate k '0' ++ ds) = digitsValue ds := by
  rw [digitsValue_eq, digitsValue_eq, Nat.ofDigitChars_append, Nat.ofDigitChars_replicate_zero,
    Nat.mul_zero]

theorem digitsValue_append_zeros (ds : List Char) (k : Nat) :
    digitsValue (ds ++ List.replicate k '0') = digitsValue ds * Decimal.tenTo k := by
  rw [digitsValue_eq, digitsValue_eq, Nat.ofDigitChars_append, Nat.ofDigitChars_replicate_zero,
    Nat.mul_comm]
  rfl

end Json

namespace Decimal

theorem digitsOf_head {n : Nat} (h : (digitsOf n).head? = some '0') : n = 0 := by
  induction n using Nat.strongRecOn with
  | _ n ih =>
    rw [digitsOf, Nat.toDigits_eq_if (by decide)] at h
    split_ifs at h with hn
    · rw [List.head?_cons, Option.some.injEq, Nat.digitChar_eq_zero] at h
      exact h
    · rw [List.head?_append_of_ne_nil _ Nat.toDigits_ne_nil] at h
      have := ih (n / 10) (by omega) h
      omega

end Decimal

namespace Json

namespace Numeral

variable {n : Numeral} {x : Binary64}

/-! ### Rounding -/

/-- The finite double `x` is the one that the numeral `n` rounds to: it has the sign of the numeral,
and no magnitude is nearer to the numeral's value, a tie going to the even one. -/
structure RoundsTo (n : Numeral) (x : Binary64) : Prop where
  finite : x.isFinite
  sign : x.isNegative = n.negative
  nearest : Binary64.IsNearest
    ((n.decimal.digits * Decimal.tenTo n.decimal.exponent.toNat) <<< 1074)
    (Decimal.tenTo (-n.decimal.exponent).toNat) x.magnitude

theorem RoundsTo.magnitude_eq (h : n.RoundsTo x) : n.decimal.magnitude = x.magnitude := by
  have hfinite : x.magnitude < Binary64.infiniteMagnitude := by
    simpa [Binary64.isFinite] using h.finite
  have hnearest := Binary64.roundUncapped_nearest
    ((n.decimal.digits * Decimal.tenTo n.decimal.exponent.toNat) <<< 1074)
    (Decimal.tenTo_pos (-n.decimal.exponent).toNat)
  rw [Decimal.magnitude_eq, Binary64.roundUnits_eq,
    hnearest.unique (Decimal.tenTo_pos _) h.nearest, Nat.min_eq_right hfinite.le]

/-- A numeral is read as the double that it rounds to. -/
theorem toBinary64_of_roundsTo (h : n.RoundsTo x) : n.toBinary64 = x := by
  rw [toBinary64, h.magnitude_eq, ← h.sign, Binary64.ofMagnitude_magnitude]

/-- A numeral rounds to the double that it is read as, unless it is too large. -/
theorem roundsTo_toBinary64 (h : n.toBinary64.isFinite) : n.RoundsTo n.toBinary64 := by
  have hle : n.decimal.magnitude ≤ Binary64.infiniteMagnitude := by
    rw [Decimal.magnitude_eq]
    exact Nat.min_le_left _ _
  have hlt : n.decimal.magnitude < Binary64.signWeight := hle.trans_lt (by decide)
  have hmagnitude : n.toBinary64.magnitude = n.decimal.magnitude :=
    Binary64.magnitude_ofMagnitude n.negative hlt
  refine ⟨h, Binary64.isNegative_ofMagnitude n.negative hlt, ?_⟩
  rw [Binary64.isFinite, hmagnitude, decide_eq_true_eq] at h
  rw [hmagnitude]
  exact Decimal.magnitude_nearest h

/-! ### Numbers -/

theorem ofNat_wellFormed (k : Nat) : (ofNat k).IsWellFormed where
  whole_ne_nil := Decimal.digitsOf_ne_nil k
  isDigit_whole := fun _ => Decimal.isDigit_of_mem_digitsOf
  leading := by
    intro h
    obtain rfl := Decimal.digitsOf_head h
    rfl
  isDigit_fraction := fun _ h => by cases h

variable [Library]

/-- A natural number of sixty-four bits is read as that integer. -/
theorem number?_ofNat {k : Nat} (h : k < UInt64.size) : (ofNat k).number? = some (.integer k) := by
  have hvalue : digitsValue (ofNat k).whole = k := digitsValue_digitsOf k
  unfold number?
  rw [hvalue]
  exact if_pos ⟨rfl, rfl, rfl, h⟩

theorem natAbs_lt_of_number? {i : Int} (h : n.number? = some (.integer i)) :
    i.natAbs < 2 ^ 65 := by
  have hsize : UInt64.size = 2 ^ 64 := rfl
  unfold number? at h
  dsimp only at h
  split_ifs at h with hwhole hnegative
  · obtain rfl := Number.integer.inj (Option.some.inj h)
    omega
  · obtain rfl := Number.integer.inj (Option.some.inj h)
    omega
  · cases h

/-- An integer counts as the nearest double, as its numeral does. -/
theorem binary64OfInt_of_number? {i : Int} (h : n.number? = some (.integer i)) :
    binary64OfInt i = n.toBinary64 := by
  unfold number? at h
  dsimp only at h
  split_ifs at h with hwhole hnegative
  · obtain rfl := Number.integer.inj (Option.some.inj h)
    obtain ⟨hfraction, hexponent, hsign, -⟩ := hwhole
    rw [Bool.not_eq_true'] at hsign
    have hi : ¬ ((digitsValue n.whole : Int) < 0) := Int.not_lt.2 (Int.natCast_nonneg _)
    rw [binary64OfInt, toBinary64, decimal, hfraction, hexponent, hsign, decide_eq_false hi,
      Int.natAbs_natCast, List.append_nil]
    rfl
  · obtain rfl := Number.integer.inj (Option.some.inj h)
    obtain ⟨hfraction, hexponent, hsign, hpos, -⟩ := hnegative
    have hi : -(digitsValue n.whole : Int) < 0 := by omega
    rw [binary64OfInt, toBinary64, decimal, hfraction, hexponent, hsign, decide_eq_true hi,
      Int.natAbs_neg, Int.natAbs_natCast, List.append_nil]
    rfl
  · cases h

theorem real_of_number? (h : n.number? = some (.real x)) :
    x = Library.toBinary64 n ∧ x.isFinite := by
  unfold number? at h
  dsimp only at h
  split_ifs at h with hwhole hnegative hfinite
  · cases h
  · cases h
  · obtain rfl := Number.real.inj (Option.some.inj h)
    exact ⟨rfl, hfinite⟩

theorem isFinite_of_number?_eq_none (h : n.number? = none) :
    (Library.toBinary64 n).isFinite = false := by
  unfold number? at h
  dsimp only at h
  split_ifs at h with hwhole hnegative hfinite
  exact Bool.eq_false_iff.2 hfinite

end Numeral

end Json

/-! ### The layouts of a decimal -/

namespace Decimal

open Json

variable {d : Decimal}

theorem head_ne_zero (h : 0 < d.digits) : (digitsOf d.digits).head? ≠ some '0' := fun hzero =>
  Nat.ne_of_gt h (digitsOf_head hzero)

theorem wellFormed_take_drop (h : 0 < d.digits) (negative : Bool) (exponent : Option Int) {k : Nat}
    (hk : 0 < k) :
    Numeral.IsWellFormed ⟨negative, (digitsOf d.digits).take k, (digitsOf d.digits).drop k,
      exponent⟩ where
  whole_ne_nil := by
    rw [ne_eq, List.take_eq_nil_iff, not_or]
    exact ⟨Nat.ne_of_gt hk, digitsOf_ne_nil _⟩
  isDigit_whole := fun _ hc => isDigit_of_mem_digitsOf (List.mem_of_mem_take hc)
  leading := by
    intro hzero
    rw [List.head?_take, if_neg (Nat.ne_of_gt hk)] at hzero
    exact absurd hzero (head_ne_zero h)
  isDigit_fraction := fun _ hc => isDigit_of_mem_digitsOf (List.mem_of_mem_drop hc)

theorem isDigit_of_mem_zeros {k : Nat} {c : Char} (h : c ∈ List.replicate k '0') : c.isDigit := by
  rw [List.eq_of_mem_replicate h]
  decide

theorem wellFormed_append_zeros (h : 0 < d.digits) (negative : Bool) (k : Nat)
    {fraction : List Char} (hfraction : ∀ c ∈ fraction, c.isDigit) :
    Numeral.IsWellFormed ⟨negative, digitsOf d.digits ++ List.replicate k '0', fraction, none⟩ where
  whole_ne_nil := List.append_ne_nil_of_left_ne_nil (digitsOf_ne_nil _) _
  isDigit_whole := fun _ hc =>
    (List.mem_append.1 hc).elim isDigit_of_mem_digitsOf isDigit_of_mem_zeros
  leading := by
    intro hzero
    rw [List.head?_append_of_ne_nil _ (digitsOf_ne_nil _)] at hzero
    exact absurd hzero (head_ne_zero h)
  isDigit_fraction := hfraction

theorem wellFormed_zeros_append (d : Decimal) (negative : Bool) (k : Nat) :
    Numeral.IsWellFormed ⟨negative, ['0'], List.replicate k '0' ++ digitsOf d.digits, none⟩ where
  whole_ne_nil := List.cons_ne_nil _ _
  isDigit_whole := fun _ hc => isDigit_of_mem_zeros (k := 1) hc
  leading := fun _ => rfl
  isDigit_fraction := fun _ hc =>
    (List.mem_append.1 hc).elim isDigit_of_mem_zeros isDigit_of_mem_digitsOf

theorem numeral_wellFormed (h : 0 < d.digits) (negative : Bool) :
    (d.numeral negative).IsWellFormed := by
  unfold numeral
  dsimp only
  split_ifs with hscale hwhole hplaces
  · exact wellFormed_append_zeros h negative _ fun c hc => isDigit_of_mem_zeros (k := 1) hc
  · exact wellFormed_take_drop h negative none (Nat.sub_pos_of_lt hplaces)
  · exact wellFormed_zeros_append d negative _
  · exact wellFormed_take_drop h negative _ Nat.one_pos

theorem negative_numeral (d : Decimal) (negative : Bool) :
    (d.numeral negative).negative = negative := by
  unfold numeral
  dsimp only
  split_ifs <;> rfl

theorem decimal_take_drop (d : Decimal) (negative : Bool) (exponent : Option Int) (k : Nat) :
    Numeral.decimal ⟨negative, (digitsOf d.digits).take k, (digitsOf d.digits).drop k, exponent⟩ =
      ⟨d.digits, exponent.getD 0 - ((digitsOf d.digits).length - k : Nat)⟩ := by
  rw [Numeral.decimal, List.take_append_drop, digitsValue_digitsOf, List.length_drop]

theorem decimal_zeros_append (d : Decimal) (negative : Bool) (k : Nat) :
    Numeral.decimal ⟨negative, ['0'], List.replicate k '0' ++ digitsOf d.digits, none⟩ =
      ⟨d.digits, -(k + (digitsOf d.digits).length : Nat)⟩ := by
  rw [Numeral.decimal, List.singleton_append, ← List.cons_append, ← List.replicate_succ,
    digitsValue_zeros_append, digitsValue_digitsOf, List.length_append, List.length_replicate,
    Option.getD_none, Int.zero_sub]

/-- Every layout has the value of the decimal. -/
theorem magnitude_numeral (d : Decimal) (negative : Bool) :
    (d.numeral negative).decimal.magnitude = d.magnitude := by
  have hpos : 0 < (digitsOf d.digits).length := List.length_pos_of_ne_nil (digitsOf_ne_nil _)
  unfold numeral
  dsimp only
  split_ifs with hscale hwhole hplaces
  · -- zeros up to the point and one behind it
    have hvalue : digitsValue (digitsOf d.digits ++ List.replicate d.exponent.toNat '0' ++ ['0']) =
        d.digits * tenTo (d.exponent.toNat + 1) := by
      rw [List.append_assoc, ← List.replicate_succ', digitsValue_append_zeros, digitsValue_digitsOf]
    unfold Numeral.decimal
    dsimp only
    rw [hvalue, magnitude_mul_tenTo]
    congr 2
    simp
    omega
  · -- a point among the digits
    rw [decimal_take_drop, Option.getD_none]
    congr 2
    omega
  · -- zeros behind the point
    rw [decimal_zeros_append]
    congr 2
    omega
  · -- an exponent
    rw [decimal_take_drop, Option.getD_some, scale]
    congr 2
    omega

end Decimal

/-! ### Doubles -/

namespace Binary64

variable {x : Binary64}

theorem numeral_wellFormed (h : x.isFinite) : x.numeral.IsWellFormed := by
  rw [isFinite, decide_eq_true_eq] at h
  unfold numeral
  split_ifs with hzero
  · have hdigit : ∀ c ∈ ['0'], c.isDigit := fun c hc => Decimal.isDigit_of_mem_zeros (k := 1) hc
    exact ⟨List.cons_ne_nil _ _, hdigit, fun _ => rfl, hdigit⟩
  · refine Decimal.numeral_wellFormed (Decimal.digits_pos_of_magnitude ?_) _
    rw [magnitude_shortest .even h]
    exact Nat.pos_of_ne_zero hzero

/-- **The numeral of a finite double stands for it, bit for bit.** -/
theorem toBinary64_numeral (h : x.isFinite) : x.numeral.toBinary64 = x := by
  rw [isFinite, decide_eq_true_eq] at h
  have hx := ofMagnitude_magnitude x
  unfold numeral
  split_ifs with hzero
  · rw [hzero] at hx
    exact hx
  · rw [Json.Numeral.toBinary64, Decimal.negative_numeral, Decimal.magnitude_numeral,
      magnitude_shortest .even h]
    exact hx

theorem roundsTo_numeral (h : x.isFinite) : x.numeral.RoundsTo x := by
  have hx := toBinary64_numeral h
  have hrounds := Json.Numeral.roundsTo_toBinary64 (hx.symm ▸ h)
  rwa [hx] at hrounds

theorem isFinite_of_decodeBinary64 [Json.Library] {v : Json.Value}
    (h : Json.decodeBinary64 v = .ok x) : x.isFinite := by
  unfold Json.decodeBinary64 at h
  split at h
  · rename_i n
    split at h
    · rename_i i hnumber
      obtain rfl := Except.ok.inj h
      have hi : i.natAbs < 2 ^ 65 := Json.Numeral.natAbs_lt_of_number? hnumber
      exact isFinite_ofMagnitude _ (Decimal.magnitude_natural_lt hi)
    · rename_i y hnumber
      obtain rfl := Except.ok.inj h
      exact (Json.Numeral.real_of_number? hnumber).2
    · cases h
  · cases h

end Binary64

end CliffordT
