import CliffordT.Host.Shell.Text
import CliffordT.Proofs.Numerals
import CliffordT.Proofs.Utf8
import Mathlib.Data.List.TakeWhile

/-!
# Texts, numbers and lines

What goes out as bytes comes back as the same text, and so do numbers and lines.

* `toBytes_ofBytes`, `ofBytes_toBytes` : bytes,
* `natOf?_decimal`, `intOf?_signedDecimal` : numbers in base ten,
* `joinWith_splitAt`, `splitLines_joinLines` : pieces and lines.
-/

namespace CliffordT

namespace Shell

/-! ### Bytes -/

theorem toNat_ofNat_byte {n : Nat} (h : n < 256) : (Char.ofNat n).toNat = n := by
  exact Utf8.val_ofNat (.inl (by omega))

theorem toBytes_ofBytes (bs : List UInt8) : toBytes (ofBytes bs) = bs := by
  simp only [toBytes, ofBytes, List.map_map]
  refine List.map_id'' (fun b => ?_) bs
  simp [toNat_ofNat_byte b.toNat_lt]

/-- A text of characters that stand for bytes. -/
def IsBytes (t : Text) : Prop := ∀ c ∈ t, c.toNat < 256

theorem isBytes_ofBytes (bs : List UInt8) : IsBytes (ofBytes bs) := by
  intro c hc
  obtain ⟨b, -, rfl⟩ := List.mem_map.mp hc
  rw [toNat_ofNat_byte b.toNat_lt]
  exact b.toNat_lt

theorem ofBytes_toBytes {t : Text} (h : IsBytes t) : ofBytes (toBytes t) = t := by
  induction t with
  | nil => rfl
  | cons c t ih =>
    have hc := h c List.mem_cons_self
    have ht := ih fun d hd => h d (List.mem_cons_of_mem _ hd)
    simp only [toBytes, ofBytes, List.map_cons] at ht ⊢
    rw [ht]
    congr 1
    rw [Nat.toUInt8, UInt8.toNat_ofNat', Nat.mod_eq_of_lt hc, Char.ofNat_toNat]

@[simp]
theorem toBytes_append (t u : Text) : toBytes (t ++ u) = toBytes t ++ toBytes u :=
  List.map_append

@[simp]
theorem toBytes_ofString (s : String) : toBytes (ofString s) = Utf8.encode s.toList :=
  toBytes_ofBytes _

theorem mem_of_mem_ofString {s : String} {c : Char} (hc : c.toNat < 0x80) (h : c ∈ ofString s) :
    c ∈ s.toList := by
  obtain ⟨b, hb, rfl⟩ := List.mem_map.mp h
  obtain ⟨d, hd, hbyte⟩ := List.mem_flatMap.mp hb
  rw [toNat_ofNat_byte b.toNat_lt] at hc
  rw [← Utf8.of_mem_utf8EncodeChar hc hbyte, Char.ofNat_toNat]
  exact hd

theorem head?_of_head?_ofString {s : String} {c : Char} (hc : c.toNat < 0x80)
    (h : (ofString s).head? = some c) : s.toList.head? = some c := by
  unfold ofString at h
  cases hs : s.toList with
  | nil => simp [hs, ofBytes, Utf8.encode] at h
  | cons d ds =>
    obtain ⟨lead, front, hlead, hencode⟩ := Utf8.exists_encode_cons d ds
    rw [hs, hencode] at h
    obtain rfl : Char.ofNat lead.toNat = c := Option.some.inj h
    rw [toNat_ofNat_byte lead.toNat_lt] at hc
    have hd : d.toNat = lead.toNat :=
      Utf8.of_mem_utf8EncodeChar hc (by rw [hlead]; exact List.mem_cons_self)
    rw [← hd, Char.ofNat_toNat]
    rfl

theorem map_intercalate {α β : Type} {f : List α → List β} (hnil : f [] = [])
    (happend : ∀ a b, f (a ++ b) = f a ++ f b) (separator : List α) (ts : List (List α)) :
    f (separator.intercalate ts) = (f separator).intercalate (ts.map f) := by
  induction ts with
  | nil => exact hnil
  | cons t ts ih =>
    cases ts with
    | nil => simp
    | cons u ts =>
      rw [List.intercalate_cons_cons, happend, happend, ih]
      simp [List.intercalate_cons_cons]

theorem toBytes_joinWith_ofString (s : String) (ss : List String) :
    toBytes (joinWith (ofString s) (ss.map ofString)) = Utf8.encode (s.intercalate ss).toList := by
  rw [joinWith, map_intercalate (f := toBytes) rfl toBytes_append, String.toList_intercalate,
    map_intercalate (f := Utf8.encode) rfl Utf8.encode_append]
  simp [Function.comp_def]

/-! ### Numbers -/

theorem hexValue?_of_isDigit {c : Char} (h : c.isDigit) :
    hexValue? c = some (c.toNat - '0'.toNat) := by
  unfold hexValue?
  rw [if_pos (by simpa [Char.isDigit, Char.le_def] using h)]

theorem isDigit_of_mem_decimal {n : Nat} {c : Char} (h : c ∈ decimal n) : c.isDigit :=
  Nat.isDigit_of_mem_toDigits (by decide) (by decide) h

theorem decimal_ne_nil (n : Nat) : decimal n ≠ [] := Nat.toDigits_ne_nil

theorem valueOf_eq {ds : Text} (h : ∀ c ∈ ds, c.isDigit) :
    valueOf 10 ds = Nat.ofDigitChars 10 ds 0 := by
  rw [Nat.ofDigitChars_eq_foldl, valueOf]
  refine List.foldl_ext _ _ _ fun n c hc => ?_
  rw [hexValue?_of_isDigit (h c hc), Option.getD_some, Nat.mul_comm]

theorem valueOf_decimal (n : Nat) : valueOf 10 (decimal n) = n := by
  rw [valueOf_eq fun c => isDigit_of_mem_decimal]
  exact Nat.ofDigitChars_ten_toDigits

theorem natOf?_decimal (n : Nat) : natOf? (decimal n) = some n := by
  have hdigits : (decimal n).all Char.isDigit = true :=
    List.all_eq_true.mpr fun c => isDigit_of_mem_decimal
  have hempty : (decimal n).isEmpty = false := by
    simpa using decimal_ne_nil n
  rw [natOf?, hdigits, hempty, valueOf_decimal]
  rfl

theorem toNat_of_isDigit {c : Char} (h : c.isDigit) :
    '0'.toNat ≤ c.toNat ∧ c.toNat ≤ '9'.toNat := by
  simpa [Char.isDigit, UInt32.le_iff_toNat_le] using h

theorem isDigitIn_of_isDigit {c : Char} (h : c.isDigit) : isDigitIn 10 c = true := by
  have hc : c.toNat - '0'.toNat < 10 := by
    have := toNat_of_isDigit h
    simp at this ⊢
    omega
  simpa [isDigitIn, hexValue?_of_isDigit h] using hc

theorem isSpace_of_isDigit {c : Char} (h : c.isDigit) : isSpace c = false := by
  have hc := toNat_of_isDigit h
  rw [Bool.eq_false_iff]
  intro hspace
  simp only [isSpace, Bool.or_eq_true, beq_iff_eq, Bool.and_eq_true, decide_eq_true_eq] at hspace
  rcases hspace with rfl | ⟨-, hle⟩
  · cases h
  · have : '0'.toNat = 48 := rfl
    omega

theorem inBase_digits {ds : Text} (h : ∀ c ∈ ds, c.isDigit) :
    leadingNat.inBase 10 ds = ⟨valueOf 10 ds, [], false⟩ := by
  have hall : ∀ c ∈ ds, isDigitIn 10 c = true := fun c hc => isDigitIn_of_isDigit (h c hc)
  rw [leadingNat.inBase, List.takeWhile_eq_self_iff.mpr hall, List.dropWhile_eq_nil_iff.mpr hall]

theorem leadingNat_digits {d : Char} {ds : Text} (h : ∀ c ∈ d :: ds, c.isDigit)
    (hzero : d = '0' → ds = []) : leadingNat (d :: ds) = ⟨valueOf 10 (d :: ds), [], false⟩ := by
  by_cases hd : d = '0'
  · rw [hd, hzero hd]
    rfl
  · have hdigit : d.isDigit := h d List.mem_cons_self
    unfold leadingNat
    split
    · rename_i heq
      exact absurd (List.cons.inj heq).1 hd
    · rename_i heq
      exact absurd (List.cons.inj heq).1 hd
    · rw [List.head?_cons, Option.any_some, if_pos hdigit, inBase_digits h]

section Leading

variable {d : Char} {ds : Text} (anyBase : Bool)

theorem leadingInteger_digits (h : ∀ c ∈ d :: ds, c.isDigit) (hzero : d = '0' → ds = []) :
    leadingInteger anyBase (d :: ds) = ⟨valueOf 10 (d :: ds), [], false⟩ := by
  have hd := h d List.mem_cons_self
  have hbody : (d :: ds).dropWhile isSpace = d :: ds := by
    rw [List.dropWhile_cons_of_neg (by simp [isSpace_of_isDigit hd])]
  unfold leadingInteger
  simp only [hbody]
  split
  · rename_i heq
    obtain ⟨rfl, rfl⟩ := List.cons.inj heq
    cases hd
  · rename_i heq
    obtain ⟨rfl, rfl⟩ := List.cons.inj heq
    cases hd
  · cases anyBase <;> simp [hd, leadingNat_digits h hzero, inBase_digits h]

theorem leadingInteger_negative (h : ∀ c ∈ d :: ds, c.isDigit) (hzero : d = '0' → ds = []) :
    leadingInteger anyBase ('-' :: d :: ds) = ⟨-valueOf 10 (d :: ds), [], false⟩ := by
  have hd := h d List.mem_cons_self
  have hbody : ('-' :: d :: ds).dropWhile isSpace = '-' :: d :: ds := rfl
  unfold leadingInteger
  cases anyBase <;> simp [hbody, hd, leadingNat_digits h hzero, inBase_digits h]

theorem leadingInteger_signedDecimal (i : Int) :
    leadingInteger anyBase (signedDecimal i) = ⟨i, [], false⟩ := by
  obtain ⟨d, ds, hd⟩ := List.exists_cons_of_ne_nil (decimal_ne_nil i.natAbs)
  have hdigits : ∀ c ∈ d :: ds, c.isDigit := fun c hc => isDigit_of_mem_decimal (hd ▸ hc)
  have hvalue : valueOf 10 (d :: ds) = i.natAbs := by rw [← hd, valueOf_decimal]
  -- a zero in front would show another base, but only the number zero has one
  have hzero : d = '0' → ds = [] := by
    rintro rfl
    have hnone : i.natAbs = 0 := Decimal.digitsOf_head (congrArg List.head? hd)
    rw [hnone] at hd
    exact (List.cons.inj hd).2.symm
  unfold signedDecimal
  split
  · rw [hd, leadingInteger_negative anyBase hdigits hzero, hvalue]
    congr 1
    omega
  · rw [hd, leadingInteger_digits anyBase hdigits hzero, hvalue]
    congr 1
    omega

end Leading

theorem intOf?_signedDecimal {i : Int} (h : leastInteger ≤ i) (h' : i ≤ greatestInteger) :
    intOf? (signedDecimal i) = some i := by
  have hclamp : clampInteger i = i := by
    unfold clampInteger
    omega
  simp [intOf?, leadingInteger_signedDecimal, hclamp]

/-! ### Pieces -/

theorem splitAt_cons_of_pos {p : Char → Bool} {c : Char} {t : Text} (h : p c) :
    splitAt p (c :: t) = [] :: splitAt p t := by
  simp [splitAt, h]

theorem splitAt_cons_of_neg {p : Char → Bool} {c : Char} {t piece : Text} {rest : List Text}
    (h : p c = false) (ht : splitAt p t = piece :: rest) :
    splitAt p (c :: t) = (c :: piece) :: rest := by
  simp only [splitAt, List.foldr_cons] at ht ⊢
  simp [h, ht]

theorem exists_splitAt (p : Char → Bool) (t : Text) :
    ∃ piece rest, splitAt p t = piece :: rest := by
  induction t with
  | nil => exact ⟨[], [], rfl⟩
  | cons c t ih =>
    obtain ⟨piece, rest, h⟩ := ih
    cases hc : p c with
    | true => exact ⟨_, _, splitAt_cons_of_pos hc⟩
    | false => exact ⟨_, _, splitAt_cons_of_neg hc h⟩

/-- The pieces of a text with the separator between them are the text. -/
theorem joinWith_splitAt (c : Char) (t : Text) : joinWith [c] (splitAt (· == c) t) = t := by
  unfold joinWith
  induction t with
  | nil => rfl
  | cons d t ih =>
    obtain ⟨piece, rest, h⟩ := exists_splitAt (· == c) t
    rw [h] at ih
    cases hd : d == c with
    | true =>
      obtain rfl := beq_iff_eq.mp hd
      rw [splitAt_cons_of_pos (p := (· == d)) hd, h, List.intercalate_cons_cons, ih]
      rfl
    | false =>
      rw [splitAt_cons_of_neg (p := (· == c)) hd h]
      cases rest with
      | nil =>
        simp only [List.intercalate_singleton] at ih ⊢
        rw [ih]
      | cons other rest =>
        simp only [List.intercalate_cons_cons, List.cons_append] at ih ⊢
        rw [ih]

theorem of_mem_splitAt {p : Char → Bool} {t piece : Text} (h : piece ∈ splitAt p t) {c : Char}
    (hc : c ∈ piece) : p c = false := by
  induction t generalizing piece with
  | nil =>
    obtain rfl := List.mem_singleton.mp h
    cases hc
  | cons d t ih =>
    obtain ⟨first, rest, ht⟩ := exists_splitAt p t
    cases hd : p d with
    | true =>
      rw [splitAt_cons_of_pos hd] at h
      rcases List.mem_cons.mp h with rfl | h
      · cases hc
      · exact ih h hc
    | false =>
      rw [ht] at ih
      rw [splitAt_cons_of_neg hd ht] at h
      rcases List.mem_cons.mp h with rfl | h
      · rcases List.mem_cons.mp hc with rfl | hc
        · exact hd
        · exact ih List.mem_cons_self hc
      · exact ih (List.mem_cons_of_mem _ h) hc

theorem splitAt_eq_self {p : Char → Bool} {t : Text} (h : ∀ c ∈ t, p c = false) :
    splitAt p t = [t] := by
  induction t with
  | nil => rfl
  | cons c t ih =>
    have ht := ih fun c hc => h c (List.mem_cons_of_mem _ hc)
    exact splitAt_cons_of_neg (h c List.mem_cons_self) ht

/-! ### Lines -/

theorem splitAt_append {p : Char → Bool} {line : Text} (h : ∀ c ∈ line, p c = false) {d : Char}
    (hd : p d) (t : Text) : splitAt p (line ++ d :: t) = line :: splitAt p t := by
  induction line with
  | nil => exact splitAt_cons_of_pos hd
  | cons c line ih =>
    have hline := ih fun c hc => h c (List.mem_cons_of_mem _ hc)
    exact splitAt_cons_of_neg (h c List.mem_cons_self) hline

theorem splitAt_joinLines {lines : List Text} (h : ∀ line ∈ lines, '\n' ∉ line) :
    splitAt (· == '\n') (joinLines lines) = lines ++ [[]] := by
  induction lines with
  | nil => rfl
  | cons line lines ih =>
    have hline : ∀ c ∈ line, (c == '\n') = false := by
      intro c hc
      rw [beq_eq_false_iff_ne]
      rintro rfl
      exact h line List.mem_cons_self hc
    have hlines := ih fun line hmem => h line (List.mem_cons_of_mem _ hmem)
    rw [joinLines, List.flatMap_cons, List.append_assoc]
    rw [List.singleton_append, splitAt_append hline rfl]
    exact congrArg (line :: ·) hlines

/-- Lines that are written out are read as the same lines. -/
theorem splitLines_joinLines {lines : List Text} (h : ∀ line ∈ lines, '\n' ∉ line) :
    splitLines (joinLines lines) = lines := by
  rw [splitLines, splitAt_joinLines h]
  simp

end Shell
end CliffordT
