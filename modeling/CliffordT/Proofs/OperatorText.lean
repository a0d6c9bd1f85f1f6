import CliffordT.Circuit.Word
import Mathlib.Data.List.Count

/-!
# The texts that are words

A text in operator order is letters of the alphabet and at most one line terminator behind them.
Any other text has a first character that is out of place, and is refused for it.

* `Word.IsOperatorText` : letters, and behind them nothing or one terminator;
* `Word.gatesFrom_symbols`, `Word.gatesFrom_stop` : letters are read one by one, up to the first
  character that is none;
* `Word.chomp_symbols_append`, `Word.exists_terminator` : the one terminator is taken off, whatever
  stands before it;
* `Word.count_gates` : a word has its gates as often as the text has the letters;
* `Word.FirstOffender` : the first character out of place, with its position in the whole text;
* `Word.ofOperatorText_grammar` : a text is read if and only if it is one of these, and otherwise
  the fault names its first offender.
-/

namespace CliffordT

theorem FixedGate.symbol_injective : Function.Injective FixedGate.symbol := by
  intro g k h
  have hsymbol := FixedGate.ofSymbol?_symbol g
  rw [h, FixedGate.ofSymbol?_symbol] at hsymbol
  exact (Option.some.inj hsymbol).symm

namespace Word

/-- The letters of the alphabet. -/
def alphabet : List Char := ['H', 'S', 'T', 'X']

/-- What may stand behind the letters: nothing, a line feed, or a carriage return and a line
feed. -/
def terminators : List (List Char) := [[], ['\n'], ['\r', '\n']]

/-- The text is the letters `ls`, all of the alphabet, and one of the terminators. -/
structure IsOperatorText (raw : String) (ls : List Char) : Prop where
  alphabet : ∀ c ∈ ls, c ∈ alphabet
  terminated : ∃ e ∈ terminators, raw.toList = ls ++ e

variable {cs rest e : List Char} {gs : List FixedGate} {c : Char} {raw : String} {w : Word}

/-! ### Letters -/

theorem mem_alphabet_iff : c ∈ alphabet ↔ ∃ g : FixedGate, c = g.symbol := by
  constructor
  · intro h
    simp only [alphabet, List.mem_cons, List.not_mem_nil, or_false] at h
    obtain rfl | rfl | rfl | rfl := h
    · exact ⟨.h, rfl⟩
    · exact ⟨.s, rfl⟩
    · exact ⟨.t, rfl⟩
    · exact ⟨.x, rfl⟩
  · rintro ⟨g, rfl⟩
    cases g <;> decide

theorem ofSymbol?_eq_none_iff : FixedGate.ofSymbol? c = none ↔ c ∉ alphabet := by
  rw [mem_alphabet_iff, Option.eq_none_iff_forall_ne_some]
  simp only [ne_eq, FixedGate.ofSymbol?_eq_some_iff, not_exists]

theorem exists_eq_symbols (h : ∀ c ∈ cs, c ∈ alphabet) :
    ∃ gs : List FixedGate, cs = gs.map FixedGate.symbol := by
  induction cs with
  | nil => exact ⟨[], rfl⟩
  | cons c cs ih =>
    obtain ⟨hc, hcs⟩ := List.forall_mem_cons.1 h
    obtain ⟨g, rfl⟩ := mem_alphabet_iff.1 hc
    obtain ⟨gs, rfl⟩ := ih hcs
    exact ⟨g :: gs, rfl⟩

/-- A text begins with the letters of some gates, and behind them stands nothing or a character
that is no letter. -/
theorem exists_symbols_append (cs : List Char) :
    ∃ (gs : List FixedGate) (rest : List Char), cs = gs.map FixedGate.symbol ++ rest ∧
      ∀ c ∈ rest.head?, c ∉ alphabet := by
  induction cs with
  | nil => exact ⟨[], [], rfl, by simp⟩
  | cons c cs ih =>
    by_cases hc : c ∈ alphabet
    · obtain ⟨g, rfl⟩ := mem_alphabet_iff.1 hc
      obtain ⟨gs, rest, rfl, hrest⟩ := ih
      exact ⟨g :: gs, rest, rfl, hrest⟩
    · refine ⟨[], c :: cs, rfl, fun d hd => ?_⟩
      obtain rfl := Option.mem_some_iff.1 hd
      exact hc

/-- Letters are read one by one. -/
theorem gatesFrom_symbols (position : Nat) (gs : List FixedGate) :
    gatesFrom position (gs.map FixedGate.symbol) = .ok gs := by
  induction gs generalizing position with
  | nil => rfl
  | cons g gs ih => rw [List.map_cons, gatesFrom, FixedGate.ofSymbol?_symbol, ih]; rfl

/-- Reading stops at the first character that is no letter. -/
theorem gatesFrom_stop (position : Nat) (gs : List FixedGate) (hc : c ∉ alphabet)
    (rest : List Char) : gatesFrom position (gs.map FixedGate.symbol ++ c :: rest) =
      .error (.unrecognizedToken c (position + gs.length)) := by
  induction gs generalizing position with
  | nil => rw [List.map_nil, List.nil_append, gatesFrom, ofSymbol?_eq_none_iff.2 hc]; rfl
  | cons g gs ih =>
    rw [List.map_cons, List.cons_append, gatesFrom, FixedGate.ofSymbol?_symbol, ih,
      List.length_cons, Nat.add_right_comm, Nat.add_assoc]
    rfl

theorem eq_symbols_of_gatesFrom {position : Nat} (h : gatesFrom position cs = .ok gs) :
    cs = gs.map FixedGate.symbol := by
  obtain ⟨ks, rest, rfl, hrest⟩ := exists_symbols_append cs
  cases rest with
  | nil =>
    rw [List.append_nil, gatesFrom_symbols] at h
    rw [List.append_nil, Except.ok.inj h]
  | cons c rest =>
    rw [gatesFrom_stop position ks (hrest c rfl) rest] at h
    cases h

/-! ### Terminators -/

/-- A text is what is left of it, and the terminator that is taken off. -/
theorem exists_terminator (cs : List Char) : ∃ e ∈ terminators, cs = chomp cs ++ e := by
  have hcs : cs = cs.reverse.reverse := cs.reverse_reverse.symm
  unfold chomp
  split
  · rename_i rest h
    refine ⟨['\r', '\n'], by decide, ?_⟩
    rw [hcs, h]
    simp
  · rename_i rest _ h
    refine ⟨['\n'], by decide, ?_⟩
    rw [hcs, h]
    simp
  · exact ⟨[], by decide, by simp⟩

/-- Of letters and a terminator the letters are left. -/
theorem chomp_symbols_append (gs : List FixedGate) (he : e ∈ terminators) :
    chomp (gs.map FixedGate.symbol ++ e) = gs.map FixedGate.symbol := by
  -- the last letter is neither a line feed nor a carriage return
  have hlast : ∀ ks : List FixedGate, ∀ c rest, ks.map FixedGate.symbol = c :: rest →
      c ≠ '\n' ∧ c ≠ '\r' := by
    rintro (_ | ⟨k, ks⟩) c rest h
    · cases h
    · obtain ⟨rfl, -⟩ := List.cons.inj h
      cases k <;> decide
  have hreverse : (gs.map FixedGate.symbol).reverse = gs.reverse.map FixedGate.symbol :=
    List.map_reverse.symm
  simp only [terminators, List.mem_cons, List.not_mem_nil, or_false] at he
  unfold chomp
  obtain rfl | rfl | rfl := he
  · rw [List.append_nil, hreverse]
    split
    · rename_i h
      exact absurd rfl (hlast _ _ _ h).1
    · rename_i h
      exact absurd rfl (hlast _ _ _ h).1
    · rfl
  · rw [List.reverse_append, hreverse, List.reverse_singleton, List.singleton_append]
    split
    · rename_i h
      exact absurd rfl (hlast _ _ _ (List.cons.inj h).2).2
    · rename_i h
      rw [← (List.cons.inj h).2, ← hreverse, List.reverse_reverse]
    · rename_i h
      exact absurd rfl (h _)
  · rw [List.reverse_append, hreverse]
    show (gs.reverse.map FixedGate.symbol).reverse = _
    rw [← hreverse, List.reverse_reverse]

/-! ### Words -/

/-- A text is read as a word if and only if it is the letters of its gates, the last gate first,
and a terminator. -/
theorem ofOperatorText_eq_ok_iff :
    ofOperatorText raw = .ok w ↔
      ∃ e ∈ terminators, raw.toList = w.gates.reverse.map FixedGate.symbol ++ e := by
  unfold ofOperatorText
  constructor
  · intro h
    cases hgs : gatesFrom 0 (chomp raw.toList) with
    | error err =>
      rw [hgs] at h
      cases h
    | ok gs =>
      rw [hgs] at h
      obtain rfl := Except.ok.inj h
      obtain ⟨e, he, htext⟩ := exists_terminator raw.toList
      refine ⟨e, he, ?_⟩
      rw [List.reverse_reverse, ← eq_symbols_of_gatesFrom hgs]
      exact htext
  · rintro ⟨e, he, htext⟩
    rw [htext, chomp_symbols_append _ he, gatesFrom_symbols]
    show Except.ok (⟨w.gates.reverse.reverse⟩ : Word) = _
    rw [List.reverse_reverse]

theorem exists_word (h : IsOperatorText raw cs) : ∃ w, ofOperatorText raw = .ok w := by
  obtain ⟨gs, rfl⟩ := exists_eq_symbols h.alphabet
  obtain ⟨e, he, htext⟩ := h.terminated
  exact ⟨⟨gs.reverse⟩, ofOperatorText_eq_ok_iff.2 ⟨e, he, by rw [List.reverse_reverse, htext]⟩⟩

theorem isOperatorText_of_ok (h : ofOperatorText raw = .ok w) :
    IsOperatorText raw (w.gates.reverse.map FixedGate.symbol) := by
  refine ⟨fun c hc => ?_, ofOperatorText_eq_ok_iff.1 h⟩
  obtain ⟨g, -, rfl⟩ := List.mem_map.1 hc
  exact mem_alphabet_iff.2 ⟨g, rfl⟩

theorem eq_symbols_of_ok (h : ofOperatorText raw = .ok w) (hraw : IsOperatorText raw cs) :
    cs = w.gates.reverse.map FixedGate.symbol := by
  obtain ⟨gs, rfl⟩ := exists_eq_symbols hraw.alphabet
  obtain ⟨e, he, htext⟩ := hraw.terminated
  obtain ⟨e', he', htext'⟩ := ofOperatorText_eq_ok_iff.1 h
  rw [← chomp_symbols_append gs he, ← htext, htext', chomp_symbols_append _ he']

/-- A word has a gate as often as its text has the letter. -/
theorem count_gates (h : ofOperatorText raw = .ok w) (g : FixedGate) :
    w.gates.count g = raw.toList.count g.symbol := by
  obtain ⟨e, he, htext⟩ := ofOperatorText_eq_ok_iff.1 h
  have hnone : ∀ e ∈ terminators, e.count g.symbol = 0 := by cases g <;> decide
  rw [htext, List.count_append, hnone e he, Nat.add_zero,
    List.count_map_of_injective _ _ FixedGate.symbol_injective, List.count_reverse]

/-! ### Offenders -/

/-- The first character of a text that is out of place, and its position in the text. -/
structure FirstOffender (raw : String) (token : Char) (position : Nat) : Prop where
  here : raw.toList[position]? = some token
  /-- It is no letter. -/
  outside : token ∉ alphabet
  /-- All characters before it are letters. -/
  before : ∀ i < position, ∃ c ∈ alphabet, raw.toList[i]? = some c
  /-- It does not begin the one terminator. -/
  misplaced : raw.toList.drop position ∉ terminators

theorem FirstOffender.unique {token token' : Char} {position position' : Nat}
    (h : FirstOffender raw token position) (h' : FirstOffender raw token' position') :
    token = token' ∧ position = position' := by
  have hle : ∀ {c d : Char} {i j : Nat}, FirstOffender raw c i → FirstOffender raw d j → j ≤ i := by
    intro c d i j hi hj
    refine Nat.le_of_not_lt fun hlt => ?_
    obtain ⟨c', hmem, hc'⟩ := hj.before i hlt
    rw [hi.here] at hc'
    exact hi.outside (Option.some.inj hc' ▸ hmem)
  obtain rfl : position = position' := Nat.le_antisymm (hle h' h) (hle h h')
  exact ⟨Option.some.inj (h.here.symm.trans h'.here), rfl⟩

theorem IsOperatorText.not_firstOffender (h : IsOperatorText raw cs) (token : Char)
    (position : Nat) : ¬ FirstOffender raw token position := by
  intro hoff
  obtain ⟨e, he, htext⟩ := h.terminated
  have hge : cs.length ≤ position := by
    refine Nat.le_of_not_lt fun hlt => hoff.outside (h.alphabet token ?_)
    have hhere := hoff.here
    rw [htext, List.getElem?_append_left hlt] at hhere
    exact List.mem_of_getElem? hhere
  -- behind the letters it would stand at the second place of the terminator
  have hne : position ≠ cs.length := by
    rintro rfl
    refine hoff.misplaced ?_
    rw [htext, List.drop_left]
    exact he
  obtain ⟨c, hc, hat⟩ := hoff.before cs.length (by omega)
  rw [htext, List.getElem?_append_right (Nat.le_refl _), Nat.sub_self] at hat
  simp only [terminators, List.mem_cons, List.not_mem_nil, or_false] at he
  obtain rfl | rfl | rfl := he
  · cases hat
  · obtain rfl := Option.some.inj hat
    exact absurd hc (by decide)
  · obtain rfl := Option.some.inj hat
    exact absurd hc (by decide)

theorem firstOffender_of_append (gs : List FixedGate)
    (htext : raw.toList = gs.map FixedGate.symbol ++ c :: rest) (hc : c ∉ alphabet)
    (hrest : c :: rest ∉ terminators) : FirstOffender raw c gs.length := by
  have hlen : (gs.map FixedGate.symbol).length = gs.length := List.length_map _
  refine ⟨?_, hc, fun i hi => ?_, ?_⟩
  · rw [htext, ← hlen, List.getElem?_append_right (Nat.le_refl _), Nat.sub_self]
    rfl
  · have hlt : i < (gs.map FixedGate.symbol).length := by rwa [hlen]
    refine ⟨(gs.map FixedGate.symbol)[i], ?_, ?_⟩
    · rw [List.getElem_map]
      exact mem_alphabet_iff.2 ⟨_, rfl⟩
    · rw [htext, List.getElem?_append_left hlt, List.getElem?_eq_getElem hlt]
  · rw [htext, ← hlen, List.drop_left]
    exact hrest

theorem exists_firstOffender {err : CircuitError} (h : ofOperatorText raw = .error err) :
    ∃ token position, err = .unrecognizedToken token position ∧
      FirstOffender raw token position := by
  obtain ⟨gs, rest, hletters, hrest⟩ := exists_symbols_append (chomp raw.toList)
  obtain ⟨e, he, htext⟩ := exists_terminator raw.toList
  unfold ofOperatorText at h
  rw [hletters] at h
  rw [hletters, List.append_assoc] at htext
  cases rest with
  | nil =>
    rw [List.append_nil, gatesFrom_symbols] at h
    cases h
  | cons c rest =>
    rw [List.cons_append] at htext
    rw [gatesFrom_stop 0 gs (hrest c rfl), Nat.zero_add] at h
    refine ⟨c, gs.length, (Except.error.inj h).symm,
      firstOffender_of_append gs htext (hrest c rfl) fun hmem => ?_⟩
    -- were it a terminator, no more than the letters would be left
    have hchomp := chomp_symbols_append gs hmem
    rw [← htext, hletters] at hchomp
    have := congrArg List.length hchomp
    simp at this

/-! ### Grammar -/

/-- **A text is read if and only if it is letters of the alphabet and at most one line terminator.**
Then the gates of the word are those of the letters, the last one first, one for each letter.  Any
other text is refused, and the fault names its first character out of place, with the position of
that character in the text as it was given. -/
theorem ofOperatorText_grammar (raw : String) :
    ((∃ w, ofOperatorText raw = .ok w) ↔ ∃ ls, IsOperatorText raw ls) ∧
    (∀ w ls, ofOperatorText raw = .ok w → IsOperatorText raw ls →
      w.gates = (ls.filterMap FixedGate.ofSymbol?).reverse ∧ w.length = ls.length ∧
        w.tCount = ls.count 'T') ∧
    (∀ err, ofOperatorText raw = .error err →
      ∃ token position, err = .unrecognizedToken token position) ∧
    ∀ token position, ofOperatorText raw = .error (.unrecognizedToken token position) ↔
      FirstOffender raw token position := by
  refine ⟨⟨?_, ?_⟩, ?_, ?_, fun token position => ⟨?_, ?_⟩⟩
  · rintro ⟨w, hw⟩
    exact ⟨_, isOperatorText_of_ok hw⟩
  · rintro ⟨ls, hls⟩
    exact exists_word hls
  · intro w ls hw hls
    obtain rfl := eq_symbols_of_ok hw hls
    have hgates : (w.gates.reverse.map FixedGate.symbol).filterMap FixedGate.ofSymbol? =
        w.gates.reverse := by
      have hsome : FixedGate.ofSymbol? ∘ FixedGate.symbol = some :=
        funext FixedGate.ofSymbol?_symbol
      rw [List.filterMap_map, hsome, List.filterMap_some]
    refine ⟨by rw [hgates, List.reverse_reverse], ?_, ?_⟩
    · rw [List.length_map, List.length_reverse, length]
    · have hcount := List.count_map_of_injective w.gates.reverse _ FixedGate.symbol_injective .t
      rw [List.count_reverse] at hcount
      exact hcount.symm
  · intro err herr
    obtain ⟨token, position, h, -⟩ := exists_firstOffender herr
    exact ⟨token, position, h⟩
  · intro h
    obtain ⟨token', position', heq, hoff⟩ := exists_firstOffender h
    obtain ⟨rfl, rfl⟩ := CircuitError.unrecognizedToken.inj heq
    exact hoff
  -- a text with an offender is not read, and it has no other offender
  · intro hoff
    cases hraw : ofOperatorText raw with
    | ok w => exact absurd hoff ((isOperatorText_of_ok hraw).not_firstOffender token position)
    | error err =>
      obtain ⟨token', position', rfl, hoff'⟩ := exists_firstOffender hraw
      obtain ⟨rfl, rfl⟩ := hoff.unique hoff'
      rfl

theorem ofOperatorText_grammar_terminators :
    (∃ w, ofOperatorText "TSH\r\n" = .ok w ∧ w.gates = [.h, .s, .t] ∧ w.length = 3 ∧
      w.tCount = 1) ∧
    ofOperatorText "HT\r" = .error (.unrecognizedToken '\r' 2) ∧
    ofOperatorText "HT\r\r\n" = .error (.unrecognizedToken '\r' 2) ∧
    ofOperatorText "\n\n" = .error (.unrecognizedToken '\n' 0) ∧
    ofOperatorText "Hé t\n" = .error (.unrecognizedToken 'é' 1) := by
  have htext : IsOperatorText "TSH\r\n" ['T', 'S', 'H'] :=
    ⟨by simp [alphabet], ['\r', '\n'], by decide, rfl⟩
  have refused : ∀ raw token position, FirstOffender raw token position →
      ofOperatorText raw = .error (.unrecognizedToken token position) :=
    fun raw token position => ((ofOperatorText_grammar raw).2.2.2 token position).2
  refine ⟨?_, refused _ _ _ (firstOffender_of_append [.h, .t] rfl (by decide) (by decide)),
    refused _ _ _ (firstOffender_of_append [.h, .t] rfl (by decide) (by decide)),
    refused _ _ _ (firstOffender_of_append [] rfl (by decide) (by decide)),
    refused _ _ _ (firstOffender_of_append [.h] rfl (by decide) (by decide))⟩
  obtain ⟨w, hw⟩ := (ofOperatorText_grammar "TSH\r\n").1.2 ⟨_, htext⟩
  obtain ⟨hgates, hlength, hcount⟩ := (ofOperatorText_grammar "TSH\r\n").2.1 w _ hw htext
  exact ⟨w, hw, hgates, hlength, hcount⟩

end Word

end CliffordT
