import CliffordT.Proofs.JsonTokens
import CliffordT.Proofs.Numerals

/-!
# Plain texts of doubles read back

A finite double is written in digits and at most one point behind its sign.  That text is a numeral
without an exponent, so it is read back, and no two doubles that are numbers have the same text.

* `Decimal.plain` : the numeral that the digits and the point of a decimal are;
* `Decimal.render_plain`, `Decimal.magnitude_plain` : it is written as the decimal is, and has the
  same value;
* `Binary64.plainNumeral` : the numeral that a finite double is written as;
* `Binary64.takeNumeral_plainChars` : **the plain text of a finite double is read back bit for
  bit;**
* `Binary64.plainChars_injective` : doubles that are numbers are told apart by their plain texts.
-/

namespace CliffordT

open Decimal (digitsOf)

/-! ### Decimals -/

namespace Decimal

open Json

variable {d : Decimal}

/-- The numeral of a decimal without an exponent: digits with the point set among them, or with
zeros filled in up to the point. -/
def plain (negative : Bool) (d : Decimal) : Numeral :=
  let ds := digitsOf d.digits
  let places := (-d.exponent).toNat
  if 0 ≤ d.exponent then ⟨negative, ds ++ List.replicate d.exponent.toNat '0', [], none⟩
  else if places < ds.length then
    ⟨negative, ds.take (ds.length - places), ds.drop (ds.length - places), none⟩
  else ⟨negative, ['0'], List.replicate (places - ds.length) '0' ++ ds, none⟩

theorem plain_wellFormed (h : 0 < d.digits) (negative : Bool) :
    (d.plain negative).IsWellFormed := by
  unfold plain
  dsimp only
  split_ifs with hwhole hplaces
  · exact wellFormed_append_zeros h negative _ fun _ hc => absurd hc List.not_mem_nil
  · exact wellFormed_take_drop h negative none (Nat.sub_pos_of_lt hplaces)
  · exact wellFormed_zeros_append d negative _

/-- The numeral has the value of the decimal. -/
theorem magnitude_plain (d : Decimal) (negative : Bool) :
    (d.plain negative).decimal.magnitude = d.magnitude := by
  have hpos : 0 < (digitsOf d.digits).length := List.length_pos_of_ne_nil (digitsOf_ne_nil _)
  unfold plain
  dsimp only
  split_ifs with hwhole hplaces
  · unfold Numeral.decimal
    dsimp only
    rw [List.append_nil, digitsValue_append_zeros, digitsValue_digitsOf, magnitude_mul_tenTo]
    congr 2
    simp
    omega
  · rw [decimal_take_drop, Option.getD_none]
    congr 2
    omega
  · rw [decimal_zeros_append]
    congr 2
    omega

theorem negative_plain (d : Decimal) (negative : Bool) :
    (d.plain negative).negative = negative := by
  unfold plain
  dsimp only
  split_ifs <;> rfl

theorem exponent_plain (d : Decimal) (negative : Bool) : (d.plain negative).exponent = none := by
  unfold plain
  dsimp only
  split_ifs <;> rfl

end Decimal

/-! ### Doubles -/

namespace Json

variable {n : Numeral}

theorem Numeral.render_of_none (h : n.exponent = none) :
    n.render = (if n.negative then ['-'] else []) ++ (n.whole ++ renderFraction n.fraction) := by
  unfold render renderFraction
  rw [h, List.append_nil, List.append_assoc]

theorem Numeral.isDigit_of_mem (hn : n.IsWellFormed) {c : Char}
    (hc : c ∈ n.whole ++ renderFraction n.fraction) : c.isDigit ∨ c = '.' := by
  obtain hwhole | hfraction := List.mem_append.1 hc
  · exact .inl (hn.isDigit_whole c hwhole)
  · unfold renderFraction at hfraction
    split_ifs at hfraction
    · exact absurd hfraction List.not_mem_nil
    · obtain rfl | hc := List.mem_cons.1 hfraction
      · exact .inr rfl
      · exact .inl (hn.isDigit_fraction c hc)

theorem count_point {ds : List Char} (h : ∀ c ∈ ds, c.isDigit) : ds.count '.' = 0 :=
  List.count_eq_zero.2 fun hc => absurd (h '.' hc) (by decide)

theorem Numeral.count_point_render (hn : n.IsWellFormed) (h : n.exponent = none) :
    n.render.count '.' ≤ 1 := by
  have hsign : (if n.negative then ['-'] else []).count '.' = 0 := by
    split_ifs <;> rfl
  have hfraction : (renderFraction n.fraction).count '.' ≤ 1 := by
    unfold renderFraction
    split_ifs
    · exact Nat.zero_le 1
    · rw [List.count_cons_self, count_point hn.isDigit_fraction]
  rw [render_of_none h, List.count_append, List.count_append, hsign,
    count_point hn.isDigit_whole]
  omega

end Json

/-- Digits with their point are the text of the numeral. -/
theorem Decimal.render_plain (d : Decimal) (negative : Bool) :
    (d.plain negative).render = (if negative then ['-'] else []) ++ d.positional := by
  rw [Json.Numeral.render_of_none (exponent_plain d negative), negative_plain,
    Json.renderFraction]
  have hpos : 0 < (digitsOf d.digits).length := List.length_pos_of_ne_nil (digitsOf_ne_nil _)
  congr 1
  unfold plain positional
  dsimp only
  split_ifs with hwhole hfraction hplaces hnil hnil
  · exact List.append_nil _
  · exact absurd rfl hfraction
  · rw [List.drop_eq_nil_iff] at hnil
    omega
  · rfl
  · exact absurd (List.append_eq_nil_iff.1 hnil).2 (digitsOf_ne_nil _)
  · rfl

namespace Binary64

variable {x y : Binary64}

/-- The numeral that a finite double is written as. -/
def plainNumeral (x : Binary64) : Json.Numeral :=
  if x.magnitude = 0 then ⟨x.isNegative, ['0'], [], none⟩
  else (shortest .up x.magnitude).plain x.isNegative

theorem exponent_plainNumeral (x : Binary64) : x.plainNumeral.exponent = none := by
  unfold plainNumeral
  split_ifs
  · rfl
  · exact Decimal.exponent_plain _ _

theorem negative_plainNumeral (x : Binary64) : x.plainNumeral.negative = x.isNegative := by
  unfold plainNumeral
  split_ifs
  · rfl
  · exact Decimal.negative_plain _ _

theorem plainNumeral_wellFormed (h : x.isFinite) : x.plainNumeral.IsWellFormed := by
  rw [isFinite, decide_eq_true_eq] at h
  unfold plainNumeral
  split_ifs with hzero
  · exact ⟨List.cons_ne_nil _ _, fun c hc => Decimal.isDigit_of_mem_zeros (k := 1) hc,
      fun _ => rfl, fun _ hc => absurd hc List.not_mem_nil⟩
  · refine Decimal.plain_wellFormed (Decimal.digits_pos_of_magnitude ?_) _
    rw [magnitude_shortest .up h]
    exact Nat.pos_of_ne_zero hzero

theorem render_plainNumeral (h : x.isFinite) : x.plainNumeral.render = x.plainChars := by
  have hlt : x.magnitude < infiniteMagnitude := of_decide_eq_true h
  have hnumber : ¬ x.isNaN := by
    rw [isNaN, decide_eq_true_eq, Nat.not_lt]
    exact hlt.le
  have hsign : x.signText = if x.plainNumeral.negative then ['-'] else [] := by
    rw [negative_plainNumeral, signText]
  unfold plainChars
  rw [if_neg hnumber, if_neg hlt.ne, hsign]
  unfold plainNumeral
  by_cases hzero : x.magnitude = 0
  · rw [if_pos hzero, if_pos hzero, Json.Numeral.render_of_none rfl]
    rfl
  · rw [if_neg hzero, if_neg hzero, Decimal.render_plain, Decimal.negative_plain]

theorem magnitude_plainNumeral (h : x.isFinite) :
    x.plainNumeral.decimal.magnitude = x.magnitude := by
  unfold plainNumeral
  split_ifs with hzero
  · rw [hzero]
    rfl
  · rw [Decimal.magnitude_plain, magnitude_shortest .up (of_decide_eq_true h)]

theorem toBinary64_plainNumeral (h : x.isFinite) : x.plainNumeral.toBinary64 = x := by
  rw [Json.Numeral.toBinary64, negative_plainNumeral, magnitude_plainNumeral h,
    ofMagnitude_magnitude]

/-- **The plain text of a finite double is read back**, whatever ends the numeral behind it. -/
theorem takeNumeral_plainChars (h : x.isFinite) {rest : List Char} (hrest : Json.EndsNumeral rest) :
    Json.takeNumeral (x.plainChars ++ rest) = some (x.plainNumeral, rest) := by
  rw [← render_plainNumeral h]
  exact Json.takeNumeral_append (Json.Numeral.isSpelled_render (plainNumeral_wellFormed h)) hrest

/-! ### Telling doubles apart -/

theorem plainChars_of_infinite (hnumber : x.isNaN = false) (h : x.isFinite = false) :
    x.magnitude = infiniteMagnitude ∧ x.plainChars = x.signText ++ ['i', 'n', 'f'] := by
  have hinfinite : x.magnitude = infiniteMagnitude :=
    Nat.le_antisymm (Nat.le_of_not_lt (decide_eq_false_iff_not.1 hnumber))
      (Nat.le_of_not_lt (decide_eq_false_iff_not.1 h))
  refine ⟨hinfinite, ?_⟩
  unfold plainChars
  rw [hnumber, if_neg (by decide), if_pos hinfinite]
  rfl

theorem of_mem_plainChars (h : x.isFinite) {c : Char} (hc : c ∈ x.plainChars) :
    c = '-' ∧ x.isNegative ∨ c.isDigit ∨ c = '.' := by
  rw [← render_plainNumeral h, Json.Numeral.render_of_none x.exponent_plainNumeral,
    negative_plainNumeral] at hc
  obtain hsign | hbody := List.mem_append.1 hc
  · split_ifs at hsign with hnegative
    · exact .inl ⟨List.mem_singleton.1 hsign, hnegative⟩
    · exact absurd hsign List.not_mem_nil
  · exact .inr (Json.Numeral.isDigit_of_mem (plainNumeral_wellFormed h) hbody)

theorem not_mem_plainChars (h : x.isFinite) : 'i' ∉ x.plainChars := by
  intro hi
  rcases of_mem_plainChars h hi with ⟨hsign, -⟩ | hdigit | hpoint
  · exact absurd hsign (by decide)
  · exact absurd hdigit (by decide)
  · exact absurd hpoint (by decide)

/-- **Doubles that are numbers are told apart by their plain texts**, the two zeros and the two
infinities included. -/
theorem plainChars_injective (hx : x.isNaN = false) (hy : y.isNaN = false)
    (h : x.plainChars = y.plainChars) : x = y := by
  by_cases hxfinite : x.isFinite
  · by_cases hyfinite : y.isFinite
    · -- the numeral is read back from the text, and stands for the double
      have hread := takeNumeral_plainChars hxfinite Json.endsNumeral_nil
      rw [h, takeNumeral_plainChars hyfinite Json.endsNumeral_nil] at hread
      have hnumeral : y.plainNumeral = x.plainNumeral := congrArg Prod.fst (Option.some.inj hread)
      rw [← toBinary64_plainNumeral hxfinite, ← hnumeral, toBinary64_plainNumeral hyfinite]
    · -- only an infinity is written with an `i`
      have hi := not_mem_plainChars hxfinite
      rw [h, (plainChars_of_infinite hy (Bool.eq_false_iff.2 hyfinite)).2] at hi
      exact absurd (List.mem_append_right _ (by decide)) hi
  · obtain ⟨hxinfinite, hxtext⟩ := plainChars_of_infinite hx (Bool.eq_false_iff.2 hxfinite)
    by_cases hyfinite : y.isFinite
    · have hi := not_mem_plainChars hyfinite
      rw [← h, hxtext] at hi
      exact absurd (List.mem_append_right _ (by decide)) hi
    · obtain ⟨hyinfinite, hytext⟩ := plainChars_of_infinite hy (Bool.eq_false_iff.2 hyfinite)
      rw [hxtext, hytext, List.append_left_inj] at h
      have hsign : x.isNegative = y.isNegative := by
        unfold signText at h
        cases hxs : x.isNegative <;> cases hys : y.isNegative <;> simp [hxs, hys] at h ⊢
      rw [← ofMagnitude_magnitude x, ← ofMagnitude_magnitude y, hsign, hxinfinite, hyinfinite]

end Binary64

end CliffordT
