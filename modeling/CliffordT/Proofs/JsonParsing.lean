import CliffordT.Proofs.JsonTokens

/-!
# Trees are read by the grammar

The parser reads a tree from a text if and only if the text denotes the tree.  In one direction, by
induction on the derivation, every part of a text is read where the text goes on; in the other one,
by induction on the bound, a part that is read and not broken has a derivation.

* `Json.Reads`, `Json.Denotes.reads` : **what the grammar derives is read;**
* `Json.Finds`, `Json.parse_finds` : **what is read is derived;**
* `Json.Document.ofText_eq_iff`, `Json.isJson_iff` : the document that a text holds, and the texts
  that hold one.
-/

namespace CliffordT

namespace Json

variable {bound : Nat} {cs cs' rest : List Char} {c : Char}

/-! ### The first character of a value -/

/-- The first character of a numeral. -/
def beginsNumeral (c : Char) : Bool := c == '-' || c.isDigit

theorem ne_of_beginsNumeral {d : Char} (hc : beginsNumeral c) (hd : beginsNumeral d = false) :
    c ≠ d := by
  rintro rfl
  rw [hd] at hc
  cases hc

theorem isSpace_of_beginsNumeral (hc : beginsNumeral c) : isSpace c = false := by
  simp only [isSpace, Bool.or_eq_false_iff, beq_eq_false_iff_ne]
  exact ⟨⟨⟨ne_of_beginsNumeral hc rfl, ne_of_beginsNumeral hc rfl⟩, ne_of_beginsNumeral hc rfl⟩,
    ne_of_beginsNumeral hc rfl⟩

theorem Numeral.IsSpelled.exists_cons {n : Numeral} (h : n.IsSpelled cs) :
    ∃ c cs', cs = c :: cs' ∧ beginsNumeral c := by
  obtain ⟨hn, exponent, -, rfl⟩ := h
  obtain ⟨c, ds, hwhole⟩ := List.exists_cons_of_ne_nil hn.whole_ne_nil
  have hdigit : beginsNumeral c := by
    have := hn.isDigit_whole c (hwhole ▸ List.mem_cons_self)
    simp [beginsNumeral, this]
  rw [hwhole]
  cases n.negative with
  | true => exact ⟨'-', _, rfl, rfl⟩
  | false => exact ⟨c, _, rfl, hdigit⟩

theorem parseValue_skipSpace (bound : Nat) (cs : List Char) :
    parseValue bound (skipSpace cs) = parseValue bound cs := by
  cases bound with
  | zero => rfl
  | succ bound => rw [parseValue, parseValue, skipSpace_skipSpace]

theorem parseItems_skipSpace (bound : Nat) (cs : List Char) :
    parseItems bound (skipSpace cs) = parseItems bound cs := by
  cases bound with
  | zero => rfl
  | succ bound => rw [parseItems, parseItems, parseValue_skipSpace]

theorem parseValue_numeral (hc : beginsNumeral c) (bound : Nat) (cs : List Char) :
    parseValue (bound + 1) (c :: cs) =
      match takeNumeral (c :: cs) with
      | some (n, rest) => (.number n, rest)
      | none => (.broken, []) := by
  have hne : ∀ {d cs'}, c :: cs = d :: cs' → beginsNumeral d = false → False :=
    fun heq hd => ne_of_beginsNumeral hc hd (List.cons.inj heq).1
  rw [parseValue, skipSpace_cons (isSpace_of_beginsNumeral hc)]
  split
  case h_7 heq =>
    obtain ⟨rfl, rfl⟩ := List.cons.inj heq
    exact if_pos (by simpa [beginsNumeral] using hc)
  case h_8 heq => cases heq
  all_goals exact (hne ‹_› rfl).elim

theorem skipSpace_ne_of_parseItems {items : Tree .items}
    (h : parseItems bound cs = (items, rest)) (hsound : items.isSound) (ds : List Char) :
    skipSpace cs ≠ ']' :: ds := by
  intro hskip
  -- no value begins with a bracket that closes
  have hvalue : ∀ bound, parseValue bound cs = (.broken, []) := by
    rintro (_ | bound)
    · rfl
    · rw [parseValue, hskip]
      rfl
  have hbroken : items.isSound = false := by
    cases bound with
    | zero =>
      obtain ⟨rfl, -⟩ := Prod.mk.inj h
      rfl
    | succ bound =>
      rw [parseItems, hvalue] at h
      obtain ⟨rfl, -⟩ := Prod.mk.inj h
      rfl
  rw [hbroken] at hsound
  cases hsound

/-! ### Words -/

theorem afterWord?_append (ws rest : List Char) : afterWord? ws (ws ++ rest) = some rest := by
  induction ws with
  | nil => rfl
  | cons w ws ih => rw [List.cons_append, afterWord?, if_pos rfl, ih]

theorem parseWord_append (ws : List Char) (v : Value) (rest : List Char) :
    parseWord ws v (ws ++ rest) = (v, rest) := by
  rw [parseWord, afterWord?_append]

theorem of_afterWord? {ws : List Char} (h : afterWord? ws cs = some rest) : cs = ws ++ rest := by
  induction ws generalizing cs with
  | nil => exact Option.some.inj h
  | cons w ws ih =>
    cases cs with
    | nil => cases h
    | cons c cs =>
      rw [afterWord?] at h
      split_ifs at h with hc
      rw [hc, ih h]
      rfl

theorem of_parseWord {ws : List Char} {v w : Value} (h : parseWord ws v cs = (w, rest))
    (hw : w.isSound) : w = v ∧ cs = ws ++ rest := by
  rw [parseWord] at h
  split at h
  · rename_i rest' hafter
    obtain ⟨rfl, rfl⟩ := Prod.mk.inj h
    exact ⟨rfl, of_afterWord? hafter⟩
  · obtain ⟨rfl, -⟩ := Prod.mk.inj h
    cases hw

/-! ### What is derived is read -/

/-- The text of a part is read where the text goes on.  White space behind a value is left over, and
a value must not go on as a numeral.  Members are read from behind the first quote. -/
def Reads (cs : List Char) : {p : Part} → Tree p → Prop
  | .value, v => ∃ b, IsBlank b ∧ ∀ bound rest, cs.length < bound → EndsNumeral rest →
      parseValue bound (cs ++ rest) = (v, b ++ rest)
  | .items, items => ∀ bound rest, cs.length < bound →
      parseItems bound (cs ++ rest) = (items, rest)
  | .members, members => ∀ rest, ∃ tail, skipSpace (cs ++ rest) = '"' :: tail ∧
      ∀ bound, cs.length < bound → parseMembers bound tail = (members, rest)

theorem reads_value {v : Value} (h : ∀ bound rest, EndsNumeral rest → cs.length < bound + 1 →
    parseValue (bound + 1) (cs ++ rest) = (v, rest)) : Reads cs v := by
  refine ⟨[], isBlank_nil, ?_⟩
  rintro (_ | bound) rest hbound hrest
  · exact absurd hbound (Nat.not_lt_zero _)
  · exact h bound rest hrest hbound

theorem reads_number {n : Numeral} (h : n.IsSpelled cs) : Reads cs (.number n) := by
  refine reads_value fun bound rest hrest _ => ?_
  have hnumeral := takeNumeral_append h hrest
  obtain ⟨c, cs', rfl, hc⟩ := h.exists_cons
  rw [List.cons_append] at hnumeral ⊢
  rw [parseValue_numeral hc, hnumeral]

theorem reads_text {s : Option String} (h : SpellsString cs s) : Reads cs (.text s) := by
  refine reads_value fun bound rest _ _ => ?_
  obtain ⟨cs', hcs, hstring⟩ := takeString_of_spells h rest
  rw [hcs, parseValue_quote (skipSpace_cons rfl _), hstring]

theorem reads_emptyArray {b : List Char} (hb : IsBlank b) :
    Reads ('[' :: (b ++ [']'])) (.array .noItem) := by
  refine reads_value fun bound rest _ _ => ?_
  rw [List.cons_append, List.append_assoc, parseValue_bracket (skipSpace_cons rfl _),
    skipSpace_append hb]
  rfl

theorem reads_array {items : Tree .items} (hsound : items.isSound) (ih : Reads cs items) :
    Reads ('[' :: cs) (.array items) := by
  refine reads_value fun bound rest _ hbound => ?_
  have hitems := ih bound rest (Nat.lt_of_succ_lt_succ hbound)
  have hne := skipSpace_ne_of_parseItems hitems hsound
  rw [List.cons_append, parseValue_bracket (skipSpace_cons rfl _)]
  -- the branch is the second one by `hne`
  simp only [parseItems_skipSpace, hitems]

theorem reads_emptyObject {b : List Char} (hb : IsBlank b) :
    Reads ('\x7b' :: (b ++ ['\x7d'])) (.object .noMember) := by
  refine reads_value fun bound rest _ _ => ?_
  rw [List.cons_append, List.append_assoc, parseValue_brace (skipSpace_cons rfl _),
    skipSpace_append hb]
  rfl

theorem reads_object {members : Tree .members} (ih : Reads cs members) :
    Reads ('\x7b' :: cs) (.object members) := by
  refine reads_value fun bound rest _ hbound => ?_
  obtain ⟨tail, hskip, hmembers⟩ := ih rest
  rw [List.cons_append, parseValue_brace (skipSpace_cons rfl _), hskip]
  simp only [hmembers bound (Nat.lt_of_succ_lt_succ hbound)]

theorem reads_padded {b b' : List Char} {v : Value} (hb : IsBlank b) (hb' : IsBlank b')
    (ih : Reads cs v) : Reads (b ++ (cs ++ b')) v := by
  obtain ⟨d, hd, hparse⟩ := ih
  refine ⟨d ++ b', hd.append hb', fun bound rest hbound hrest => ?_⟩
  rw [List.length_append, List.length_append] at hbound
  rw [List.append_assoc, List.append_assoc, List.append_assoc,
    ← hparse bound (b' ++ rest) (by omega) (hrest.append hb'), ← parseValue_skipSpace,
    skipSpace_append hb, parseValue_skipSpace]

theorem Reads.before {v : Value} (ih : Reads cs v) (bound : Nat)
    (hc : c = ',' ∨ c = ']' ∨ c = '\x7d') (rest : List Char) (hbound : cs.length < bound) :
    ∃ behind, parseValue bound (cs ++ c :: rest) = (v, behind) ∧ skipSpace behind = c :: rest := by
  obtain ⟨b, hb, hparse⟩ := ih
  have hends : EndsNumeral (c :: rest) := by
    refine endsNumeral_cons ?_
    obtain rfl | rfl | rfl := hc <;> decide
  have hspace : isSpace c = false := by obtain rfl | rfl | rfl := hc <;> rfl
  exact ⟨_, hparse bound _ hbound hends, by rw [skipSpace_append hb, skipSpace_cons hspace]⟩

theorem reads_lastItem {head : Value} (ih : Reads cs head) :
    Reads (cs ++ [']']) (.item head .noItem) := by
  rintro (_ | bound) rest hbound
  · exact absurd hbound (Nat.not_lt_zero _)
  rw [List.length_append, List.length_singleton] at hbound
  obtain ⟨behind, hhead, hskip⟩ := ih.before bound (.inr (.inl rfl)) rest
    (Nat.lt_of_succ_lt_succ hbound)
  rw [List.append_assoc, List.singleton_append, parseItems, hhead]
  simp only [hskip]

theorem reads_item {more : List Char} {head : Value} {tail : Tree .items} (ihhead : Reads cs head)
    (ihtail : Reads more tail) : Reads (cs ++ ',' :: more) (.item head tail) := by
  rintro (_ | bound) rest hbound
  · exact absurd hbound (Nat.not_lt_zero _)
  rw [List.length_append, List.length_cons] at hbound
  obtain ⟨behind, hhead, hskip⟩ := ihhead.before bound (.inl rfl) (more ++ rest) (by omega)
  rw [List.append_assoc, List.cons_append, parseItems, hhead]
  simp only [hskip, ihtail bound rest (by omega)]

theorem takeKey {ks : List Char} {key : Option String} (h : Denotes ks (.text key))
    (rest : List Char) : ∃ tail behind, skipSpace (ks ++ ':' :: rest) = '"' :: tail ∧
      takeString tail = some (key, behind) ∧ skipSpace behind = ':' :: rest := by
  obtain ⟨b, quoted, b', hb, hb', hquoted, rfl⟩ := h.isString
  obtain ⟨tail, htail, hstring⟩ := takeString_of_spells hquoted (b' ++ ':' :: rest)
  refine ⟨tail, _, ?_, hstring, ?_⟩
  · rw [List.append_assoc, List.append_assoc, htail, skipSpace_append hb, skipSpace_cons rfl]
  · rw [skipSpace_append hb', skipSpace_cons rfl]

theorem reads_lastMember {ks : List Char} {key : Option String} {value : Value}
    (hkey : Denotes ks (.text key)) (ih : Reads cs value) :
    Reads (ks ++ ':' :: (cs ++ ['\x7d'])) (.member key value .noMember) := by
  intro rest
  obtain ⟨tail, behindKey, hskip, hstring, hcolon⟩ := takeKey hkey (cs ++ '\x7d' :: rest)
  refine ⟨tail, by simpa using hskip, ?_⟩
  rintro (_ | bound) hbound
  · exact absurd hbound (Nat.not_lt_zero _)
  rw [List.length_append, List.length_cons, List.length_append] at hbound
  obtain ⟨behind, hvalue, hbrace⟩ := ih.before bound (.inr (.inr rfl)) rest (by omega)
  rw [parseMembers, hstring]
  simp only [hcolon, hvalue, hbrace]

theorem reads_member {ks more : List Char} {key : Option String} {value : Value}
    {members : Tree .members} (hkey : Denotes ks (.text key)) (ih : Reads cs value)
    (ihmore : Reads more members) :
    Reads (ks ++ ':' :: (cs ++ ',' :: more)) (.member key value members) := by
  intro rest
  obtain ⟨tail, behindKey, hskip, hstring, hcolon⟩ := takeKey hkey (cs ++ ',' :: (more ++ rest))
  refine ⟨tail, by simpa using hskip, ?_⟩
  rintro (_ | bound) hbound
  · exact absurd hbound (Nat.not_lt_zero _)
  rw [List.length_append, List.length_cons, List.length_append, List.length_cons] at hbound
  obtain ⟨behind, hvalue, hcomma⟩ := ih.before bound (.inl rfl) (more ++ rest) (by omega)
  obtain ⟨tail', hskip', hmembers⟩ := ihmore rest
  rw [parseMembers, hstring]
  simp only [hcolon, hvalue, hcomma, hskip', hmembers bound (by omega)]

/-- **What the grammar derives is read.** -/
theorem Denotes.reads {p : Part} {t : Tree p} (h : Denotes cs t) : Reads cs t := by
  induction h with
  | null => exact reads_value fun _ rest _ _ => parseWord_append "ull".toList .null rest
  | boolTrue => exact reads_value fun _ rest _ _ => parseWord_append "rue".toList (.bool true) rest
  | boolFalse =>
    exact reads_value fun _ rest _ _ => parseWord_append "alse".toList (.bool false) rest
  | number hn => exact reads_number hn
  | text hs => exact reads_text hs
  | emptyArray hb => exact reads_emptyArray hb
  | array h ih => exact reads_array h.isSound ih
  | emptyObject hb => exact reads_emptyObject hb
  | object _ ih => exact reads_object ih
  | padded hb hb' _ ih => exact reads_padded hb hb' ih
  | lastItem _ ih => exact reads_lastItem ih
  | item _ _ ihhead ihrest => exact reads_item ihhead ihrest
  | lastMember hkey _ _ ihvalue => exact reads_lastMember hkey ihvalue
  | member hkey _ _ _ ihvalue ihrest => exact reads_member hkey ihvalue ihrest

/-! ### What is read is derived -/

/-- What is read, and is not broken, has a derivation.  The text `opening` has been taken before. -/
def Finds {p : Part} (parse : Nat → List Char → Tree p × List Char) (opening : List Char)
    (bound : Nat) : Prop :=
  ∀ ⦃cs t rest⦄, parse bound cs = (t, rest) → t.isSound →
    ∃ front, Denotes (opening ++ front) t ∧ cs = front ++ rest

theorem exists_of_skipSpace {v : Value} (h : skipSpace cs = cs' ++ rest) (hv : Denotes cs' v) :
    ∃ front, Denotes front v ∧ cs = front ++ rest := by
  obtain ⟨b, hb, hcs⟩ := exists_blank cs
  refine ⟨b ++ cs', hv.blank_front hb, ?_⟩
  rw [hcs, h, List.append_assoc]

theorem finds_array {v : Value} (ihitems : Finds parseItems [] bound)
    (hskip : skipSpace cs = '[' :: cs') (h : parseValue (bound + 1) cs = (v, rest))
    (hv : v.isSound) : ∃ front, Denotes front v ∧ cs = front ++ rest := by
  rw [parseValue_bracket hskip] at h
  split at h
  · rename_i hend
    obtain ⟨rfl, rfl⟩ := Prod.mk.inj h
    obtain ⟨b, hb, hcs'⟩ := exists_blank cs'
    refine exists_of_skipSpace ?_ (.emptyArray hb)
    rw [hskip, hcs', hend]
    simp
  · rw [parseItems_skipSpace] at h
    rcases hitems : parseItems bound cs' with ⟨items, rest'⟩
    rw [hitems] at h
    obtain ⟨rfl, rfl⟩ := Prod.mk.inj h
    obtain ⟨front, hfront, rfl⟩ := ihitems hitems hv
    exact exists_of_skipSpace hskip (.array hfront)

theorem finds_object {v : Value} (ihmembers : Finds parseMembers ['"'] bound)
    (hskip : skipSpace cs = '\x7b' :: cs') (h : parseValue (bound + 1) cs = (v, rest))
    (hv : v.isSound) : ∃ front, Denotes front v ∧ cs = front ++ rest := by
  obtain ⟨b, hb, hcs'⟩ := exists_blank cs'
  rw [parseValue_brace hskip] at h
  split at h
  · rename_i hend
    obtain ⟨rfl, rfl⟩ := Prod.mk.inj h
    refine exists_of_skipSpace ?_ (.emptyObject hb)
    rw [hskip, hcs', hend]
    simp
  · rename_i cs'' hquote
    rcases hmembers : parseMembers bound cs'' with ⟨members, rest'⟩
    rw [hmembers] at h
    obtain ⟨rfl, rfl⟩ := Prod.mk.inj h
    obtain ⟨front, hfront, rfl⟩ := ihmembers hmembers hv
    refine exists_of_skipSpace ?_ (.object (hfront.blank_members hb))
    rw [hskip, hcs', hquote]
    simp
  · obtain ⟨rfl, -⟩ := Prod.mk.inj h
    cases hv

theorem finds_value (ihitems : Finds parseItems [] bound)
    (ihmembers : Finds parseMembers ['"'] bound) : Finds parseValue [] (bound + 1) := by
  intro cs v rest h hv
  have hparse := h
  rw [parseValue] at h
  -- by the character that the value begins with
  split at h
  case h_1 hskip =>
    obtain ⟨rfl, rfl⟩ := of_parseWord h hv
    exact exists_of_skipSpace (show skipSpace cs = "null".toList ++ _ from hskip) .null
  case h_2 hskip =>
    obtain ⟨rfl, rfl⟩ := of_parseWord h hv
    exact exists_of_skipSpace (show skipSpace cs = "true".toList ++ _ from hskip) .boolTrue
  case h_3 hskip =>
    obtain ⟨rfl, rfl⟩ := of_parseWord h hv
    exact exists_of_skipSpace (show skipSpace cs = "false".toList ++ _ from hskip) .boolFalse
  case h_4 cs' hskip =>
    split at h
    · rename_i s rest' hstring
      obtain ⟨rfl, rfl⟩ := Prod.mk.inj h
      obtain ⟨front, hfront, rfl⟩ := exists_of_takeString hstring
      exact exists_of_skipSpace hskip (.text hfront)
    · obtain ⟨rfl, -⟩ := Prod.mk.inj h
      cases hv
  case h_5 hskip => exact finds_array ihitems hskip hparse hv
  case h_6 hskip => exact finds_object ihmembers hskip hparse hv
  case h_7 c cs' _ _ _ _ _ _ hskip =>
    split_ifs at h with hc
    · split at h
      · rename_i n rest' hnumeral
        obtain ⟨rfl, rfl⟩ := Prod.mk.inj h
        obtain ⟨front, hfront, hcs⟩ := exists_of_takeNumeral hnumeral
        exact exists_of_skipSpace (hskip.trans hcs) (.number hfront)
      · obtain ⟨rfl, -⟩ := Prod.mk.inj h
        cases hv
    · obtain ⟨rfl, -⟩ := Prod.mk.inj h
      cases hv
  case h_8 =>
    obtain ⟨rfl, -⟩ := Prod.mk.inj h
    cases hv

theorem exists_behind {v : Value} (h : Denotes cs v) (rest : List Char) :
    ∃ front, Denotes front v ∧ cs ++ rest = front ++ skipSpace rest := by
  obtain ⟨b, hb, hrest⟩ := exists_blank rest
  refine ⟨cs ++ b, h.blank_behind hb, ?_⟩
  rw [List.append_assoc, ← hrest]

theorem finds_items (ihvalue : Finds parseValue [] bound) (ihitems : Finds parseItems [] bound) :
    Finds parseItems [] (bound + 1) := by
  intro cs items rest h hsound
  rw [parseItems] at h
  rcases hhead : parseValue bound cs with ⟨head, behind⟩
  simp only [hhead] at h
  -- the blank behind the first item belongs to the text of the item
  have hfront : head.isSound → ∃ front, Denotes front head ∧ cs = front ++ skipSpace behind := by
    intro hv
    obtain ⟨front, hfront, rfl⟩ := ihvalue hhead hv
    exact exists_behind hfront behind
  split at h
  · rename_i hskip
    obtain ⟨rfl, rfl⟩ := Prod.mk.inj h
    obtain ⟨front, hdenotes, rfl⟩ := hfront (Bool.and_eq_true_iff.1 hsound).1
    exact ⟨front ++ [']'], .lastItem hdenotes, by rw [hskip]; simp⟩
  · rename_i cs' hskip
    rcases htail : parseItems bound cs' with ⟨tail, rest'⟩
    simp only [htail] at h
    obtain ⟨rfl, rfl⟩ := Prod.mk.inj h
    obtain ⟨hheadsound, htailsound⟩ := Bool.and_eq_true_iff.1 hsound
    obtain ⟨front, hdenotes, rfl⟩ := hfront hheadsound
    obtain ⟨more, hmore, rfl⟩ := ihitems htail htailsound
    exact ⟨front ++ ',' :: more, .item hdenotes hmore, by rw [hskip]; simp⟩
  · obtain ⟨rfl, -⟩ := Prod.mk.inj h
    exact absurd (Bool.and_eq_true_iff.1 hsound).2 (by decide)

theorem finds_members (ihvalue : Finds parseValue [] bound)
    (ihmembers : Finds parseMembers ['"'] bound) : Finds parseMembers ['"'] (bound + 1) := by
  intro cs members rest h hsound
  rw [parseMembers] at h
  split at h
  · obtain ⟨rfl, -⟩ := Prod.mk.inj h
    cases hsound
  rename_i key behindKey hstring
  obtain ⟨ks, hks, rfl⟩ := exists_of_takeString hstring
  obtain ⟨bk, hbk, hbehindKey⟩ := exists_blank behindKey
  -- the blank before the colon belongs to the text of the key
  have hkey : Denotes ('"' :: ks ++ bk) (.text key) := (Denotes.text hks).blank_behind hbk
  split at h
  · rename_i cs' hcolon
    rcases hvalue : parseValue bound cs' with ⟨value, behind⟩
    simp only [hvalue] at h
    have hfront : value.isSound → ∃ front, Denotes front value ∧
        cs' = front ++ skipSpace behind := by
      intro hv
      obtain ⟨front, hfront, rfl⟩ := ihvalue hvalue hv
      exact exists_behind hfront behind
    split at h
    · rename_i hbrace
      obtain ⟨rfl, rfl⟩ := Prod.mk.inj h
      obtain ⟨front, hdenotes, rfl⟩ := hfront (Bool.and_eq_true_iff.1 hsound).1
      refine ⟨ks ++ (bk ++ ':' :: (front ++ ['\x7d'])), ?_, ?_⟩
      · have hmember := Denotes.lastMember hkey hdenotes
        rwa [List.append_assoc] at hmember
      · rw [hbehindKey, hcolon, hbrace]
        simp
    · rename_i cs'' hcomma
      split at h
      · rename_i tail hquote
        rcases htail : parseMembers bound tail with ⟨more, rest'⟩
        simp only [htail] at h
        obtain ⟨rfl, rfl⟩ := Prod.mk.inj h
        obtain ⟨hvaluesound, htailsound⟩ := Bool.and_eq_true_iff.1 hsound
        obtain ⟨front, hdenotes, rfl⟩ := hfront hvaluesound
        obtain ⟨text, htext, rfl⟩ := ihmembers htail htailsound
        obtain ⟨b, hb, hcs''⟩ := exists_blank cs''
        refine ⟨ks ++ (bk ++ ':' :: (front ++ ',' :: (b ++ '"' :: text))), ?_, ?_⟩
        · have hmember := Denotes.member hkey hdenotes (htext.blank_members hb)
          rwa [List.append_assoc] at hmember
        · rw [hbehindKey, hcolon, hcomma, hcs'', hquote]
          simp
      · obtain ⟨rfl, -⟩ := Prod.mk.inj h
        exact absurd (Bool.and_eq_true_iff.1 hsound).2 (by decide)
    · obtain ⟨rfl, -⟩ := Prod.mk.inj h
      exact absurd (Bool.and_eq_true_iff.1 hsound).2 (by decide)
  · obtain ⟨rfl, -⟩ := Prod.mk.inj h
    cases hsound

/-- **What is read, and is not broken, has a derivation.** -/
theorem parse_finds (bound : Nat) : Finds parseValue [] bound ∧ Finds parseItems [] bound ∧
    Finds parseMembers ['"'] bound := by
  induction bound with
  | zero =>
    refine ⟨?_, ?_, ?_⟩ <;>
    · intro cs t rest h ht
      obtain ⟨rfl, -⟩ := Prod.mk.inj h
      cases ht
  | succ bound ih =>
    obtain ⟨ihvalue, ihitems, ihmembers⟩ := ih
    exact ⟨finds_value ihitems ihmembers, finds_items ihvalue ihitems,
      finds_members ihvalue ihmembers⟩

/-! ### Documents -/

/-- **A text holds a tree that is not broken, and nothing else, if and only if it denotes the
tree.** -/
theorem Document.ofText_eq_iff {text : String} {v : Value} :
    Document.ofText text = ⟨v, true⟩ ∧ v.isSound ↔ Denotes text.toList v := by
  rcases hparse : parseValue (text.toList.length + 1) text.toList with ⟨root, rest⟩
  have hdocument : Document.ofText text = ⟨root, (skipSpace rest).isEmpty⟩ := by
    rw [Document.ofText]
    simp only [hparse]
  rw [hdocument, Document.mk.injEq, List.isEmpty_iff]
  constructor
  · rintro ⟨⟨rfl, hrest⟩, hsound⟩
    obtain ⟨front, hfront, htext⟩ := (parse_finds _).1 hparse hsound
    obtain ⟨front', hdenotes, hbehind⟩ := exists_behind hfront rest
    rw [hrest, List.append_nil, List.nil_append] at hbehind
    rw [htext, hbehind]
    exact hdenotes
  · intro h
    obtain ⟨b, hb, hreads⟩ := h.reads
    have hroot := hreads _ [] (Nat.lt_succ_self _) endsNumeral_nil
    rw [List.append_nil, List.append_nil, hparse] at hroot
    obtain ⟨rfl, rfl⟩ := Prod.mk.inj hroot
    exact ⟨⟨rfl, skipSpace_of_isBlank hb⟩, h.isSound⟩

instance {text : String} {v : Value} : Decidable (Denotes text.toList v) :=
  decidable_of_iff _ Document.ofText_eq_iff

theorem isJson_iff {text : String} :
    IsJson text ↔ (Document.ofText text).isWhole ∧ (Document.ofText text).root.isSound := by
  constructor
  · rintro ⟨v, hv⟩
    obtain ⟨htext, hsound⟩ := Document.ofText_eq_iff.2 hv
    rw [htext]
    exact ⟨rfl, hsound⟩
  · rintro ⟨hwhole, hsound⟩
    exact ⟨_, Document.ofText_eq_iff.1 ⟨by rw [← hwhole], hsound⟩⟩

instance {text : String} : Decidable (IsJson text) := decidable_of_iff _ isJson_iff.symm

end Json

end CliffordT
