import CliffordT.Json.Parser
import CliffordT.Proofs.JsonGrammar

/-!
# Numerals and strings are read by the grammar

The parser takes white space, numerals and strings off the head of a text.  It takes what the
grammar spells, and nothing else.

* `Json.skipSpace_append`, `Json.exists_blank` : white space is skipped, and nothing else is;
* `Json.takeUnits_append`, `Json.exists_of_takeUnits` : the units of a string;
* `Json.joinPairs_eq_some_iff` : the characters that units make up;
* `Json.takeString_of_spells`, `Json.exists_of_takeString` : **strings;**
* `Json.EndsNumeral` : what may stand behind a numeral for it to end there;
* `Json.takeNumeral_append`, `Json.exists_of_takeNumeral` : **numerals.**
-/

namespace CliffordT

namespace Json

variable {b cs ds rest : List Char} {c : Char}

/-! ### White space -/

theorem isSpace_iff : isSpace c ↔ c = ' ' ∨ c = '\t' ∨ c = '\n' ∨ c = '\r' := by
  simp [isSpace, or_assoc]

theorem skipSpace_cons (h : isSpace c = false) (rest : List Char) :
    skipSpace (c :: rest) = c :: rest := List.dropWhile_cons_of_neg (by rw [h]; decide)

theorem skipSpace_append (hb : IsBlank b) (cs : List Char) : skipSpace (b ++ cs) = skipSpace cs :=
  List.dropWhile_append_of_pos fun c hc => isSpace_iff.2 (hb c hc)

theorem skipSpace_of_isBlank (hb : IsBlank b) : skipSpace b = [] := by
  have hskip := skipSpace_append hb []
  rwa [List.append_nil] at hskip

/-- White space is skipped, and nothing else. -/
theorem exists_blank (cs : List Char) : ∃ b, IsBlank b ∧ cs = b ++ skipSpace cs :=
  ⟨cs.takeWhile isSpace, fun c hc => isSpace_iff.1 (List.all_eq_true.1 List.all_takeWhile c hc),
    List.takeWhile_append_dropWhile.symm⟩

theorem skipSpace_skipSpace (cs : List Char) : skipSpace (skipSpace cs) = skipSpace cs := by
  obtain ⟨b, hb, hcs⟩ := exists_blank cs
  have hskip := skipSpace_append hb (skipSpace cs)
  rw [← hcs] at hskip
  exact hskip.symm

/-! ### Strings -/

theorem unescape?_eq_some_iff {d : Char} : unescape? d = some c ↔ StandsFor d c := by
  constructor
  · intro h
    unfold unescape? at h
    split at h <;> cases h <;> constructor
  · intro h
    cases h <;> rfl

theorem takeUnits_plain (hquote : c ≠ '"') (hbackslash : c ≠ '\\') (hc : 32 ≤ c.toNat)
    (rest : List Char) :
    takeUnits (c :: rest) = (takeUnits rest).map fun r => (c.toNat :: r.1, r.2) := by
  rw [takeUnits]
  · rw [if_neg (not_or.2 ⟨hbackslash, Nat.not_lt.2 hc⟩)]
    cases takeUnits rest <;> rfl
  all_goals simp_all

theorem takeUnits_letter {d : Char} (hd : StandsFor d c) (rest : List Char) :
    takeUnits ('\\' :: d :: rest) = (takeUnits rest).map fun r => (c.toNat :: r.1, r.2) := by
  have hu : d ≠ 'u' := by
    rintro rfl
    cases hd
  rw [takeUnits]
  · rw [unescape?_eq_some_iff.2 hd]
    cases takeUnits rest <;> rfl
  · simp_all

/-- The unit that four digits spell. -/
def unitOf? (a b c d : Char) : Option Nat := do
  return ((← hexValue? a) * 16 + (← hexValue? b)) * 256 +
    ((← hexValue? c) * 16 + (← hexValue? d))

theorem unitOf?_eq_some_iff {a b c d : Char} {n : Nat} : unitOf? a b c d = some n ↔
    ∃ i j k l, hexValue? a = some i ∧ hexValue? b = some j ∧ hexValue? c = some k ∧
      hexValue? d = some l ∧ n = (i * 16 + j) * 256 + (k * 16 + l) := by
  unfold unitOf?
  simp only [Option.bind_eq_bind, Option.bind_eq_some_iff, Option.pure_def, Option.some.injEq]
  constructor
  · rintro ⟨i, hi, j, hj, k, hk, l, hl, rfl⟩
    exact ⟨i, j, k, l, hi, hj, hk, hl, rfl⟩
  · rintro ⟨i, j, k, l, hi, hj, hk, hl, rfl⟩
    exact ⟨i, hi, j, hj, k, hk, l, hl, rfl⟩

theorem takeUnits_digits (a b c d : Char) (rest : List Char) :
    takeUnits ('\\' :: 'u' :: a :: b :: c :: d :: rest) =
      (unitOf? a b c d).bind fun n => (takeUnits rest).map fun r => (n :: r.1, r.2) := by
  rw [takeUnits, unitOf?]
  simp only [Option.bind_eq_bind, Option.bind_assoc, Option.pure_def, Option.bind_some,
    Option.map_eq_bind, Function.comp_def]

/-- The units of a string are taken up to its closing quote. -/
theorem takeUnits_append {us : List Nat} (h : SpellsUnits cs us) (rest : List Char) :
    takeUnits (cs ++ '"' :: rest) = some (us, rest) := by
  induction h with
  | nil => rfl
  | plain hquote hbackslash hcontrol _ ih =>
    rw [List.cons_append, takeUnits_plain hquote hbackslash hcontrol, ih]
    rfl
  | letter hd _ ih =>
    rw [List.cons_append, List.cons_append, takeUnits_letter hd, ih]
    rfl
  | digits ha hb hc hd _ ih =>
    simp only [List.cons_append]
    rw [takeUnits_digits, unitOf?_eq_some_iff.2 ⟨_, _, _, _, ha, hb, hc, hd, rfl⟩, ih]
    rfl

/-- What is taken as the units of a string spells them, up to a closing quote. -/
theorem exists_of_takeUnits {us : List Nat} (h : takeUnits cs = some (us, rest)) :
    ∃ body, SpellsUnits body us ∧ cs = body ++ '"' :: rest := by
  induction cs using takeUnits.induct generalizing us rest with
  | case1 => cases h
  | case2 cs =>
    obtain ⟨rfl, rfl⟩ := Prod.mk.inj (Option.some.inj h)
    exact ⟨[], .nil, rfl⟩
  | case3 a b c d cs ih =>
    rw [takeUnits_digits] at h
    obtain ⟨n, hn, hmap⟩ := Option.bind_eq_some_iff.1 h
    obtain ⟨⟨us', rest'⟩, hunits, hcons⟩ := Option.map_eq_some_iff.1 hmap
    obtain ⟨rfl, rfl⟩ := Prod.mk.inj hcons
    obtain ⟨body, hbody, rfl⟩ := ih hunits
    obtain ⟨i, j, k, l, ha, hb, hc, hd, rfl⟩ := unitOf?_eq_some_iff.1 hn
    exact ⟨_, .digits ha hb hc hd hbody, rfl⟩
  | case4 d cs hu ih =>
    cases hd : unescape? d with
    | none =>
      -- among them is the letter `u` with too few characters behind it
      rw [takeUnits, hd] at h
      · cases h
      · exact hu
    | some c =>
      rw [takeUnits_letter (unescape?_eq_some_iff.1 hd)] at h
      obtain ⟨⟨us', rest'⟩, hunits, hcons⟩ := Option.map_eq_some_iff.1 h
      obtain ⟨rfl, rfl⟩ := Prod.mk.inj hcons
      obtain ⟨body, hbody, rfl⟩ := ih hunits
      exact ⟨_, .letter (unescape?_eq_some_iff.1 hd) hbody, rfl⟩
  | case5 c cs hquote hu hbackslash hc =>
    rw [takeUnits, if_pos hc] at h
    · cases h
    all_goals assumption
  | case6 c cs hquote _ _ hc ih =>
    obtain ⟨hbackslash, hcontrol⟩ := not_or.1 hc
    have hcontrol := Nat.le_of_not_lt hcontrol
    rw [takeUnits_plain hquote hbackslash hcontrol] at h
    obtain ⟨⟨us', rest'⟩, hunits, hcons⟩ := Option.map_eq_some_iff.1 h
    obtain ⟨rfl, rfl⟩ := Prod.mk.inj hcons
    obtain ⟨body, hbody, rfl⟩ := ih hunits
    exact ⟨_, .plain hquote hbackslash hcontrol hbody, rfl⟩

theorem isHighHalf_iff {n : Nat} : isHighHalf n ↔ 0xd800 ≤ n ∧ n < 0xdc00 := by
  simp [isHighHalf]

theorem isLowHalf_iff {n : Nat} : isLowHalf n ↔ 0xdc00 ≤ n ∧ n < 0xe000 := by
  simp [isLowHalf]

/-- Units are joined as the grammar joins them. -/
theorem joinPairs_eq_some_iff {us : List Nat} : joinPairs us = some cs ↔ Joins us cs := by
  constructor
  · intro h
    -- a half without its other half makes the reader fail, so two cases are left
    fun_induction joinPairs us generalizing cs with
    | case1 =>
      obtain rfl := Option.some.inj h
      exact .nil
    | case2 high hhigh low us hlow ih =>
      obtain ⟨cs', hcs', rfl⟩ := Option.map_eq_some_iff.1 h
      rw [isHighHalf_iff] at hhigh
      rw [isLowHalf_iff] at hlow
      exact .pair hhigh.1 hhigh.2 hlow.1 hlow.2 (ih hcs')
    | case6 n us hhigh hlow ih =>
      obtain ⟨cs', hcs', rfl⟩ := Option.map_eq_some_iff.1 h
      rw [isHighHalf_iff] at hhigh
      rw [isLowHalf_iff] at hlow
      exact .single (by omega) (ih hcs')
    | _ => cases h
  · intro h
    induction h with
    | nil => rfl
    | @single n us cs hn _ ih =>
      have hhigh : isHighHalf n = false := Bool.eq_false_iff.2 (mt isHighHalf_iff.1 (by omega))
      have hlow : isLowHalf n = false := Bool.eq_false_iff.2 (mt isLowHalf_iff.1 (by omega))
      rw [joinPairs.eq_def]
      simp only [hhigh, hlow, ih, Option.map_some, Bool.false_eq_true, if_false]
    | pair hhigh hhigh' hlow hlow' _ ih =>
      rw [joinPairs.eq_def]
      simp only [isHighHalf_iff.2 ⟨hhigh, hhigh'⟩, isLowHalf_iff.2 ⟨hlow, hlow'⟩, ih,
        Option.map_some, if_true]

theorem isStringOf_iff {us : List Nat} {s : Option String} :
    IsStringOf us s ↔ (joinPairs us).map String.ofList = s := by
  cases s with
  | none =>
    rw [Option.map_eq_none_iff, Option.eq_none_iff_forall_ne_some]
    exact forall_congr' fun cs => not_congr joinPairs_eq_some_iff.symm
  | some s =>
    rw [IsStringOf, ← joinPairs_eq_some_iff, Option.map_eq_some_iff]
    constructor
    · exact fun h => ⟨_, h, String.ofList_toList⟩
    · rintro ⟨cs, hcs, rfl⟩
      rwa [String.toList_ofList]

/-- A string is taken from behind its opening quote. -/
theorem takeString_of_spells {quoted : List Char} {s : Option String} (h : SpellsString quoted s)
    (rest : List Char) :
    ∃ cs, quoted ++ rest = '"' :: cs ∧ takeString cs = some (s, rest) := by
  obtain ⟨body, us, rfl, hunits, hs⟩ := h
  refine ⟨body ++ '"' :: rest, by simp, ?_⟩
  rw [takeString, takeUnits_append hunits, ← isStringOf_iff.1 hs]
  rfl

/-- What is taken as a string spells it, from behind the opening quote. -/
theorem exists_of_takeString {s : Option String} (h : takeString cs = some (s, rest)) :
    ∃ front, SpellsString ('"' :: front) s ∧ cs = front ++ rest := by
  obtain ⟨⟨us, rest'⟩, hunits, hfound⟩ := Option.map_eq_some_iff.1 h
  obtain ⟨hs, rfl⟩ : (joinPairs us).map String.ofList = s ∧ rest' = rest := Prod.mk.inj hfound
  obtain ⟨body, hbody, rfl⟩ := exists_of_takeUnits hunits
  exact ⟨body ++ ['"'], ⟨body, us, rfl, hbody, isStringOf_iff.2 hs⟩, by simp⟩

/-! ### Numerals -/

/-- The text does not go on with a numeral that stands before it. -/
def EndsNumeral (rest : List Char) : Prop :=
  ∀ c ∈ rest.head?, c.isDigit = false ∧ c ≠ '.' ∧ c ≠ 'e' ∧ c ≠ 'E'

theorem endsNumeral_nil : EndsNumeral [] := fun _ h => by cases h

theorem endsNumeral_cons (h : c.isDigit = false ∧ c ≠ '.' ∧ c ≠ 'e' ∧ c ≠ 'E') :
    EndsNumeral (c :: rest) :=
  fun _ hc => Option.some.inj hc ▸ h

theorem EndsNumeral.append (h : EndsNumeral rest) (hb : IsBlank b) : EndsNumeral (b ++ rest) := by
  cases b with
  | nil => exact h
  | cons c b =>
    refine endsNumeral_cons ?_
    obtain rfl | rfl | rfl | rfl := hb c List.mem_cons_self <;> decide

theorem EndsNumeral.isDigit (h : EndsNumeral rest) : ∀ c ∈ rest.head?, c.isDigit = false :=
  fun c hc => (h c hc).1

theorem takeDigits_append (hds : ∀ c ∈ ds, c.isDigit)
    (hrest : ∀ c ∈ rest.head?, c.isDigit = false) : takeDigits (ds ++ rest) = (ds, rest) := by
  have hstop : rest.takeWhile Char.isDigit = [] ∧ rest.dropWhile Char.isDigit = rest := by
    cases rest with
    | nil => exact ⟨rfl, rfl⟩
    | cons c rest => simp [hrest c rfl]
  rw [takeDigits, List.takeWhile_append_of_pos hds, List.dropWhile_append_of_pos hds, hstop.1,
    hstop.2, List.append_nil]

theorem of_takeDigits (h : takeDigits cs = (ds, rest)) :
    (∀ d ∈ ds, d.isDigit) ∧ cs = ds ++ rest := by
  obtain ⟨rfl, rfl⟩ := Prod.mk.inj h
  exact ⟨List.all_eq_true.1 List.all_takeWhile, List.takeWhile_append_dropWhile.symm⟩

theorem takeWhole_append (hne : ds ≠ []) (hds : ∀ c ∈ ds, c.isDigit)
    (hleading : ds.head? = some '0' → ds = ['0']) (hrest : ∀ c ∈ rest.head?, c.isDigit = false) :
    takeWhole (ds ++ rest) = some (ds, rest) := by
  rw [takeWhole, takeDigits_append hds hrest]
  cases ds with
  | nil => exact absurd rfl hne
  | cons c ds =>
    refine if_neg fun ⟨hc, hlong⟩ => hlong ?_
    subst hc
    exact (List.cons.inj (hleading rfl)).2

theorem of_takeWhole (h : takeWhole cs = some (ds, rest)) :
    ds ≠ [] ∧ (∀ d ∈ ds, d.isDigit) ∧ (ds.head? = some '0' → ds = ['0']) ∧ cs = ds ++ rest := by
  rw [takeWhole] at h
  split at h
  · cases h
  · rename_i c ds' rest' hdigits
    obtain ⟨hds, hcs⟩ := of_takeDigits hdigits
    split_ifs at h with hzero
    obtain ⟨rfl, rfl⟩ := Prod.mk.inj (Option.some.inj h)
    refine ⟨List.cons_ne_nil _ _, hds, fun hhead => ?_, hcs⟩
    obtain rfl := Option.some.inj hhead
    rw [Classical.not_not.1 fun hne => hzero ⟨rfl, hne⟩]

theorem takeFraction_of_ne (h : ∀ c ∈ cs.head?, c ≠ '.') : takeFraction cs = some ([], cs) := by
  unfold takeFraction
  split
  · exact absurd rfl (h '.' rfl)
  · rfl

theorem takeFraction_append (hds : ∀ c ∈ ds, c.isDigit)
    (hrest : ∀ c ∈ rest.head?, c.isDigit = false ∧ c ≠ '.') :
    takeFraction (renderFraction ds ++ rest) = some (ds, rest) := by
  unfold renderFraction
  split_ifs with h
  · rw [h, List.nil_append]
    exact takeFraction_of_ne fun c hc => (hrest c hc).2
  · rw [List.cons_append, takeFraction, takeDigits_append hds fun c hc => (hrest c hc).1]
    split
    · rename_i heq
      exact absurd (congrArg Prod.fst heq) h
    · rfl

theorem of_takeFraction (h : takeFraction cs = some (ds, rest)) :
    (∀ d ∈ ds, d.isDigit) ∧ cs = renderFraction ds ++ rest := by
  unfold takeFraction at h
  split at h
  · rename_i cs'
    split at h
    · cases h
    · rename_i hne
      obtain ⟨hds, rfl⟩ := of_takeDigits (Option.some.inj h)
      have hnil : ds ≠ [] := by
        rintro rfl
        exact hne rest (Option.some.inj h)
      exact ⟨hds, by rw [renderFraction, if_neg hnil]; rfl⟩
  · obtain ⟨rfl, rfl⟩ := Prod.mk.inj (Option.some.inj h)
    exact ⟨fun _ hd => absurd hd List.not_mem_nil, rfl⟩

theorem takeExponentDigits_append (negative : Bool) (hne : ds ≠ []) (hds : ∀ c ∈ ds, c.isDigit)
    (hrest : ∀ c ∈ rest.head?, c.isDigit = false) :
    takeExponentDigits negative (ds ++ rest) =
      some (some (if negative then -(digitsValue ds : Int) else digitsValue ds), rest) := by
  rw [takeExponentDigits, takeDigits_append hds hrest]
  split
  · rename_i heq
    exact absurd (congrArg Prod.fst heq) hne
  · rename_i heq
    obtain ⟨rfl, rfl⟩ := Prod.mk.inj heq
    rfl

theorem of_takeExponentDigits {negative : Bool} {e : Option Int}
    (h : takeExponentDigits negative cs = some (e, rest)) :
    ∃ ds, ds ≠ [] ∧ (∀ d ∈ ds, d.isDigit) ∧ cs = ds ++ rest ∧
      e = some (if negative then -(digitsValue ds : Int) else digitsValue ds) := by
  rw [takeExponentDigits] at h
  split at h
  · cases h
  · rename_i ds rest' hne hdigits
    obtain ⟨rfl, rfl⟩ := Prod.mk.inj (Option.some.inj h)
    obtain ⟨hds, hcs⟩ := of_takeDigits hdigits
    exact ⟨ds, hne, hds, hcs, rfl⟩

theorem takeExponent_cons (hc : c = 'e' ∨ c = 'E') (cs : List Char) : takeExponent (c :: cs) =
    match cs with
    | '-' :: ds => takeExponentDigits true ds
    | '+' :: ds => takeExponentDigits false ds
    | ds => takeExponentDigits false ds :=
  if_pos hc

theorem takeExponent_of_ne (hc : ¬ (c = 'e' ∨ c = 'E')) (cs : List Char) :
    takeExponent (c :: cs) = some (none, c :: cs) := if_neg hc

theorem takeExponent_append {exponent : List Char} {e : Option Int}
    (h : SpellsExponent exponent e) (hrest : EndsNumeral rest) :
    takeExponent (exponent ++ rest) = some (e, rest) := by
  cases h with
  | absent =>
    cases rest with
    | nil => rfl
    | cons c rest => exact takeExponent_of_ne (not_or.2 (hrest c rfl).2.2) rest
  | negative hc hne hds =>
    exact (takeExponent_cons hc _).trans (takeExponentDigits_append true hne hds hrest.isDigit)
  | @positive c sign ds hc hsign hne hds =>
    rw [List.cons_append, takeExponent_cons hc]
    obtain rfl | rfl := hsign
    · have hdigits := takeExponentDigits_append false hne hds hrest.isDigit
      obtain ⟨d, ds, rfl⟩ := List.exists_cons_of_ne_nil hne
      have hd : d.isDigit := hds d List.mem_cons_self
      -- the first digit is no sign
      split
      · rename_i heq
        obtain rfl := (List.cons.inj heq).1
        exact absurd hd (by decide)
      · rename_i heq
        obtain rfl := (List.cons.inj heq).1
        exact absurd hd (by decide)
      · exact hdigits
    · exact takeExponentDigits_append false hne hds hrest.isDigit

theorem exists_of_takeExponent {e : Option Int} (h : takeExponent cs = some (e, rest)) :
    ∃ exponent, SpellsExponent exponent e ∧ cs = exponent ++ rest := by
  cases cs with
  | nil =>
    obtain ⟨rfl, rfl⟩ := Prod.mk.inj (Option.some.inj h)
    exact ⟨[], .absent, rfl⟩
  | cons c cs =>
    -- without its letter there is no exponent, and nothing is taken
    by_cases hc : c = 'e' ∨ c = 'E'
    · rw [takeExponent_cons hc] at h
      split at h
      · obtain ⟨ds, hne, hds, rfl, rfl⟩ := of_takeExponentDigits h
        exact ⟨_, .negative hc hne hds, rfl⟩
      · obtain ⟨ds, hne, hds, rfl, rfl⟩ := of_takeExponentDigits h
        exact ⟨_, .positive hc (.inr rfl) hne hds, rfl⟩
      · obtain ⟨ds, hne, hds, rfl, rfl⟩ := of_takeExponentDigits h
        exact ⟨_, .positive hc (.inl rfl) hne hds, rfl⟩
    · rw [takeExponent_of_ne hc] at h
      obtain ⟨rfl, rfl⟩ := Prod.mk.inj (Option.some.inj h)
      exact ⟨[], .absent, rfl⟩

theorem head_exponent {exponent : List Char} {e : Option Int} (h : SpellsExponent exponent e)
    (hrest : EndsNumeral rest) :
    ∀ c ∈ (exponent ++ rest).head?, c.isDigit = false ∧ c ≠ '.' := by
  cases h with
  | absent => exact fun c hc => ⟨(hrest c hc).1, (hrest c hc).2.1⟩
  | positive he _ _ _ | negative he _ _ =>
    intro c hc
    obtain rfl := Option.some.inj hc
    obtain rfl | rfl := he <;> decide

theorem head_fraction {more : List Char} (ds : List Char)
    (hmore : ∀ c ∈ more.head?, c.isDigit = false ∧ c ≠ '.') :
    ∀ c ∈ (renderFraction ds ++ more).head?, c.isDigit = false := by
  unfold renderFraction
  split_ifs
  · exact fun c hc => (hmore c hc).1
  · intro c hc
    obtain rfl := Option.some.inj hc
    decide

variable {n : Numeral}

theorem takeUnsigned_append (hn : n.IsWellFormed) {exponent : List Char}
    (h : SpellsExponent exponent n.exponent) (hrest : EndsNumeral rest) :
    takeUnsigned n.negative (n.whole ++ (renderFraction n.fraction ++ (exponent ++ rest))) =
      some (n, rest) := by
  have hhead := head_exponent h hrest
  rw [takeUnsigned, takeWhole_append hn.whole_ne_nil hn.isDigit_whole hn.leading
    (head_fraction n.fraction hhead)]
  simp only [Option.bind_eq_bind, Option.bind_some, takeFraction_append hn.isDigit_fraction hhead,
    takeExponent_append h hrest]
  rfl

theorem takeNumeral_of_ne (h : ∀ c ∈ cs.head?, c ≠ '-') :
    takeNumeral cs = takeUnsigned false cs := by
  unfold takeNumeral
  split
  · exact absurd rfl (h '-' rfl)
  · rfl

/-- **A numeral is read from its text**, wherever it ends. -/
theorem takeNumeral_append (h : n.IsSpelled cs) (hrest : EndsNumeral rest) :
    takeNumeral (cs ++ rest) = some (n, rest) := by
  obtain ⟨hn, exponent, hexponent, rfl⟩ := h
  have hunsigned := takeUnsigned_append hn hexponent hrest
  simp only [List.append_assoc]
  cases hnegative : n.negative with
  | true =>
    rw [hnegative] at hunsigned
    exact hunsigned
  | false =>
    rw [hnegative] at hunsigned
    rw [if_neg (by decide), List.nil_append, ← hunsigned]
    -- a digit is no minus sign
    obtain ⟨c, ds, hwhole⟩ := List.exists_cons_of_ne_nil hn.whole_ne_nil
    refine takeNumeral_of_ne fun d hd => ?_
    rw [hwhole, List.cons_append, List.head?_cons, Option.mem_some_iff] at hd
    rintro rfl
    have hdigit := hn.isDigit_whole '-' (hwhole ▸ hd ▸ List.mem_cons_self)
    exact absurd hdigit (by decide)

theorem of_takeUnsigned {negative : Bool} (h : takeUnsigned negative cs = some (n, rest)) :
    n.negative = negative ∧ n.IsWellFormed ∧ ∃ exponent, SpellsExponent exponent n.exponent ∧
      cs = n.whole ++ (renderFraction n.fraction ++ (exponent ++ rest)) := by
  obtain ⟨⟨whole, cs₁⟩, hwhole, h⟩ := Option.bind_eq_some_iff.1 h
  obtain ⟨⟨fraction, cs₂⟩, hfraction, h⟩ := Option.bind_eq_some_iff.1 h
  obtain ⟨⟨e, cs₃⟩, hexponent, h⟩ := Option.bind_eq_some_iff.1 h
  obtain ⟨rfl, rfl⟩ := Prod.mk.inj (Option.some.inj h)
  obtain ⟨hne, hdigits, hleading, rfl⟩ := of_takeWhole hwhole
  obtain ⟨hds, rfl⟩ := of_takeFraction hfraction
  obtain ⟨exponent, hspelled, rfl⟩ := exists_of_takeExponent hexponent
  exact ⟨rfl, ⟨hne, hdigits, hleading, hds⟩, exponent, hspelled, rfl⟩

/-- **What is read as a numeral is one of its texts.** -/
theorem exists_of_takeNumeral (h : takeNumeral cs = some (n, rest)) :
    ∃ front, n.IsSpelled front ∧ cs = front ++ rest := by
  unfold takeNumeral at h
  split at h
  · obtain ⟨hnegative, hn, exponent, hexponent, rfl⟩ := of_takeUnsigned h
    refine ⟨_, ⟨hn, exponent, hexponent, rfl⟩, ?_⟩
    rw [if_pos hnegative]
    simp only [List.append_assoc, List.cons_append, List.nil_append]
  · obtain ⟨hnegative, hn, exponent, hexponent, rfl⟩ := of_takeUnsigned h
    refine ⟨_, ⟨hn, exponent, hexponent, rfl⟩, ?_⟩
    rw [hnegative, if_neg (by decide), List.nil_append]
    simp only [List.append_assoc]

end Json

end CliffordT
