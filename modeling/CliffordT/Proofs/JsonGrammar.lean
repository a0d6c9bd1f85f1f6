import CliffordT.Json.Grammar
import Mathlib.Tactic.SplitIfs

/-!
# Texts of the grammar

What follows from the grammar alone, and that every tree has a text.

* `Json.Denotes.isSound` : a tree with a text is not broken;
* `Json.Denotes.isString` : the text of a string value is a string with white space around it;
* `Json.Denotes.blank_members` : white space may stand in front of members;
* `Json.Tree.IsWritten` : no part is broken, strings are whole, numerals are well-formed;
* `Json.Numeral.isSpelled_render`, `Json.spellsString_quote`, `Json.Tree.IsWritten.denotes_compact` :
  **the compact text of a tree denotes the tree.**
-/

namespace CliffordT

namespace Json

/-! ### White space -/

theorem isBlank_nil : IsBlank [] := fun _ h => absurd h List.not_mem_nil

theorem IsBlank.append {b b' : List Char} (h : IsBlank b) (h' : IsBlank b') : IsBlank (b ++ b') :=
  fun c hc => (List.mem_append.1 hc).elim (h c) (h' c)

namespace Denotes

variable {p : Part} {b cs : List Char} {t : Tree p} {v : Value}

theorem blank_front (hb : IsBlank b) (h : Denotes cs v) : Denotes (b ++ cs) v := by
  have hpadded := padded hb isBlank_nil h
  rwa [List.append_nil] at hpadded

theorem blank_behind (hb : IsBlank b) (h : Denotes cs v) : Denotes (cs ++ b) v :=
  padded isBlank_nil hb h

theorem blank_members (hb : IsBlank b) {members : Tree .members} (h : Denotes cs members) :
    Denotes (b ++ cs) members := by
  cases h with
  | lastMember hkey hvalue =>
    rw [← List.append_assoc]
    exact lastMember (blank_front hb hkey) hvalue
  | member hkey hvalue hrest =>
    rw [← List.append_assoc]
    exact member (blank_front hb hkey) hvalue hrest

/-- A tree with a text is not broken. -/
theorem isSound (h : Denotes cs t) : t.isSound := by
  induction h with
  | array _ ih | object _ ih | padded _ _ _ ih => exact ih
  | lastItem _ ih => exact Bool.and_eq_true_iff.2 ⟨ih, rfl⟩
  | item _ _ ihhead ihrest => exact Bool.and_eq_true_iff.2 ⟨ihhead, ihrest⟩
  | lastMember _ _ _ ihvalue => exact Bool.and_eq_true_iff.2 ⟨ihvalue, rfl⟩
  | member _ _ _ _ ihvalue ihrest => exact Bool.and_eq_true_iff.2 ⟨ihvalue, ihrest⟩
  | _ => rfl

/-- The text is a string with white space around it, if the tree is a string value. -/
def IsString (cs : List Char) {p : Part} : Tree p → Prop
  | .text s => ∃ b quoted b', IsBlank b ∧ IsBlank b' ∧ SpellsString quoted s ∧
      cs = b ++ (quoted ++ b')
  | _ => True

theorem isString (h : Denotes cs t) : IsString cs t := by
  induction h with
  | text hs => exact ⟨[], _, [], isBlank_nil, isBlank_nil, hs, (List.append_nil _).symm⟩
  | @padded b cs b' v hb hb' _ ih =>
    cases v with
    | text s =>
      obtain ⟨d, quoted, d', hd, hd', hs, rfl⟩ := ih
      exact ⟨_, quoted, _, hb.append hd, hd'.append hb', hs, by simp only [List.append_assoc]⟩
    | _ => trivial
  | _ => trivial

end Denotes

/-! ### Strings -/

theorem hexValue?_hexDigit : ∀ n < 16, hexValue? (hexDigit n) = some n := by decide

theorem spellsUnits_escape (c : Char) {cs : List Char} {us : List Nat} (h : SpellsUnits cs us) :
    SpellsUnits (escape c ++ cs) (c.toNat :: us) := by
  have hchar : ∀ d : Char, c.toNat = d.toNat → c = d := fun d => Char.toNat_inj.1
  unfold escape
  split_ifs with hquote hbackslash h8 h9 h10 h12 h13 hcontrol
  · subst hquote
    exact .letter .quote h
  · subst hbackslash
    exact .letter .backslash h
  · obtain rfl := hchar '\x08' h8
    exact .letter .backspace h
  · obtain rfl := hchar '\t' h9
    exact .letter .tab h
  · obtain rfl := hchar '\n' h10
    exact .letter .lineFeed h
  · obtain rfl := hchar '\x0c' h12
    exact .letter .formFeed h
  · obtain rfl := hchar '\r' h13
    exact .letter .carriageReturn h
  · -- a control character is written with four digits
    have hzero : hexValue? '0' = some 0 := rfl
    have hunits := SpellsUnits.digits hzero hzero (hexValue?_hexDigit (c.toNat / 16) (by omega))
      (hexValue?_hexDigit (c.toNat % 16) (Nat.mod_lt _ (by decide))) h
    rwa [show (0 * 16 + 0) * 256 + (c.toNat / 16 * 16 + c.toNat % 16) = c.toNat by omega] at hunits
  · exact .plain hquote hbackslash (Nat.le_of_not_lt hcontrol) h

theorem spellsUnits_flatMap_escape (cs : List Char) :
    SpellsUnits (cs.flatMap escape) (cs.map Char.toNat) := by
  induction cs with
  | nil => exact .nil
  | cons c cs ih => exact spellsUnits_escape c ih

theorem joins_map_toNat (cs : List Char) : Joins (cs.map Char.toNat) cs := by
  induction cs with
  | nil => exact .nil
  | cons c cs ih =>
    have hvalid : c.toNat < 0xd800 ∨ 0xdfff < c.toNat := c.valid.imp_right And.left
    have hsingle := Joins.single (n := c.toNat) (hvalid.imp_right Nat.succ_le_of_lt) ih
    rwa [Char.ofNat_toNat] at hsingle

theorem spellsString_quote (s : String) : SpellsString (quote s) (some s) :=
  ⟨_, _, rfl, spellsUnits_flatMap_escape s.toList, joins_map_toNat s.toList⟩

/-! ### Numerals -/

theorem digitsValue_eq (ds : List Char) : digitsValue ds = Nat.ofDigitChars 10 ds 0 := by
  rw [Nat.ofDigitChars_eq_foldl, digitsValue]
  congr 1
  funext n c
  rw [Nat.mul_comm]

theorem digitsValue_digitsOf (n : Nat) : digitsValue (Decimal.digitsOf n) = n := by
  rw [digitsValue_eq]
  exact Nat.ofDigitChars_ten_toDigits

end Json

namespace Decimal

theorem isDigit_of_mem_digitsOf {n : Nat} {c : Char} (h : c ∈ digitsOf n) : c.isDigit :=
  Nat.isDigit_of_mem_toDigits (by decide) (by decide) h

theorem digitsOf_ne_nil (n : Nat) : digitsOf n ≠ [] := Nat.toDigits_ne_nil

end Decimal

namespace Json

/-- The exponent of a numeral as it is rendered. -/
def renderExponent : Option Int → List Char
  | none => []
  | some e => 'e' :: (if e < 0 then '-' else '+') :: Decimal.digitsOf e.natAbs

theorem spellsExponent_render (e : Option Int) : SpellsExponent (renderExponent e) e := by
  cases e with
  | none => exact .absent
  | some e =>
    have hds : ∀ d ∈ Decimal.digitsOf e.natAbs, d.isDigit := fun _ =>
      Decimal.isDigit_of_mem_digitsOf
    have hne := Decimal.digitsOf_ne_nil e.natAbs
    have hvalue := digitsValue_digitsOf e.natAbs
    rw [renderExponent]
    obtain he | he := Int.lt_or_le e 0
    · have hspelled := SpellsExponent.negative (.inl rfl) hne hds
      rw [if_pos he]
      rwa [hvalue, show -(e.natAbs : Int) = e by omega] at hspelled
    · have hspelled := SpellsExponent.positive (.inl rfl) (.inr rfl) hne hds
      rw [if_neg (Int.not_lt.2 he)]
      rwa [hvalue, show (e.natAbs : Int) = e by omega] at hspelled

/-- A well-formed numeral has its own text. -/
theorem Numeral.isSpelled_render {n : Numeral} (h : n.IsWellFormed) : n.IsSpelled n.render := by
  refine ⟨h, renderExponent n.exponent, spellsExponent_render n.exponent, ?_⟩
  show (if n.negative then ['-'] else []) ++ n.whole ++ renderFraction n.fraction ++
    renderExponent n.exponent = _
  rw [List.append_assoc, List.append_assoc]

/-! ### Trees -/

namespace Tree

/-- The tree has a text: no part is broken, strings are whole, numerals are well-formed. -/
def IsWritten {p : Part} : Tree p → Prop
  | number n => n.IsWellFormed
  | text s => s.isSome
  | array items => items.IsWritten
  | object members => members.IsWritten
  | item head rest => head.IsWritten ∧ rest.IsWritten
  | member key value rest => key.isSome ∧ value.IsWritten ∧ rest.IsWritten
  | broken => False
  | _ => True

/-- What the text of a part denotes: the part, unless nothing is left of it. -/
def IsDenoted : {p : Part} → Tree p → Prop
  | .value, v => Denotes (v.render true) v
  | .items, items => items = noItem ∨
      items.render false = ',' :: items.render true ∧ Denotes (items.render true) items
  | .members, members => members = noMember ∨
      members.render false = ',' :: members.render true ∧ Denotes (members.render true) members

theorem isDenoted_item {head : Value} {rest : Tree .items} (hhead : head.IsDenoted)
    (hrest : rest.IsDenoted) : (item head rest).IsDenoted := by
  refine .inr ⟨rfl, ?_⟩
  obtain rfl | ⟨hcomma, hrest⟩ := hrest
  · exact .lastItem hhead
  · rw [render, hcomma]
    exact .item hhead hrest

theorem isDenoted_member {key : String} {value : Value} {rest : Tree .members}
    (hvalue : value.IsDenoted) (hrest : rest.IsDenoted) :
    (member (some key) value rest).IsDenoted := by
  have hkey : Denotes (quote key) (.text (some key)) := .text (spellsString_quote key)
  refine .inr ⟨by simp only [render]; rfl, ?_⟩
  rw [render, List.append_assoc, List.append_assoc, List.cons_append]
  obtain rfl | ⟨hcomma, hrest⟩ := hrest
  · exact .lastMember hkey hvalue
  · rw [hcomma]
    exact .member hkey hvalue hrest

theorem IsWritten.isDenoted {p : Part} {t : Tree p} (h : t.IsWritten) : t.IsDenoted := by
  induction t with
  | null => exact .null
  | bool b => cases b <;> first | exact .boolTrue | exact .boolFalse
  | number n => exact .number (Numeral.isSpelled_render h)
  | text s =>
    obtain ⟨s, rfl⟩ := Option.isSome_iff_exists.1 h
    exact .text (spellsString_quote s)
  | array items ih =>
    obtain rfl | ⟨-, hitems⟩ := ih h
    · exact .emptyArray isBlank_nil
    · exact .array hitems
  | object members ih =>
    obtain rfl | ⟨-, hmembers⟩ := ih h
    · exact .emptyObject isBlank_nil
    · exact .object hmembers
  | noItem => exact .inl rfl
  | item head rest ihhead ihrest => exact isDenoted_item (ihhead h.1) (ihrest h.2)
  | noMember => exact .inl rfl
  | member key value rest ihvalue ihrest =>
    obtain ⟨key, rfl⟩ := Option.isSome_iff_exists.1 h.1
    exact isDenoted_member (ihvalue h.2.1) (ihrest h.2.2)
  | broken => exact h.elim

/-- **The compact text of a tree denotes the tree.** -/
theorem IsWritten.denotes_compact {v : Value} (h : v.IsWritten) : Denotes v.compact.toList v := by
  rw [compact, String.toList_ofList]
  exact h.isDenoted

end Tree

end Json

end CliffordT
