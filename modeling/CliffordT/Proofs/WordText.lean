import CliffordT.Proofs.OperatorText
import Mathlib.Data.List.Basic

/-!
# Words and their texts

A word is written in the order of application and read in operator order, so the two texts are each
other backwards, and a product of two texts is the words in the other order.

* `Word.letters` : the letters of a word in operator order, which are its text read backwards;
* `Word.ofOperatorText_letters` : the letters of a word and any terminator are read as the word;
* `Word.isOperatorText_iff` : a text that is read has the letters of its word and no others;
* `Word.eq_iff_sameLetters` : words are equal if and only if their texts are, up to terminators;
* `Word.ofOperatorText_append` : the word of a product is the second word and then the first;
* `Word.text_inverse` : **words and operator texts determine each other, in opposite orders.**
-/

namespace CliffordT

namespace Word

/-- One word after another. -/
instance : Append Word := ⟨fun v w => ⟨v.gates ++ w.gates⟩⟩

/-- The letters of a word in operator order: its text read backwards. -/
def letters (w : Word) : List Char := w.text.toList.reverse

/-- Two texts have the same letters, whatever terminators stand behind these. -/
def SameLetters (raw raw' : String) : Prop :=
  ∃ ls, ∃ e ∈ terminators, ∃ e' ∈ terminators, raw.toList = ls ++ e ∧ raw'.toList = ls ++ e'

variable {raw raw' : String} {ls e : List Char} {v w : Word}

@[simp] theorem gates_append (v w : Word) : (v ++ w).gates = v.gates ++ w.gates := rfl

theorem toCommands_append (v w : Word) (q : Qubit) :
    (v ++ w).toCommands q = v.toCommands q ++ w.toCommands q := List.map_append

theorem letters_eq (w : Word) : w.letters = w.gates.reverse.map FixedGate.symbol := by
  rw [letters, text, String.toList_ofList, List.map_reverse]

theorem letters_append (v w : Word) : (v ++ w).letters = w.letters ++ v.letters := by
  simp only [letters_eq, gates_append, List.reverse_append, List.map_append]

theorem letters_injective : Function.Injective letters := by
  intro v w h
  rw [letters_eq, letters_eq] at h
  have hgates : v.gates.reverse = w.gates.reverse :=
    List.map_injective_iff.2 FixedGate.symbol_injective h
  exact congrArg Word.mk (List.reverse_inj.1 hgates)

theorem ofOperatorText_eq_ok_iff_letters :
    ofOperatorText raw = .ok w ↔ ∃ e ∈ terminators, raw.toList = w.letters ++ e := by
  rw [ofOperatorText_eq_ok_iff, letters_eq]

/-- The letters of a word are read as the word, whatever terminator stands behind them. -/
theorem ofOperatorText_letters (w : Word) (he : e ∈ terminators) :
    ofOperatorText (String.ofList (w.letters ++ e)) = .ok w :=
  ofOperatorText_eq_ok_iff_letters.2 ⟨e, he, String.toList_ofList⟩

/-- A text that is read has the letters of its word and no others. -/
theorem isOperatorText_iff (h : ofOperatorText raw = .ok w) :
    IsOperatorText raw ls ↔ ls = w.letters := by
  rw [letters_eq]
  constructor
  · exact eq_symbols_of_ok h
  · rintro rfl
    exact isOperatorText_of_ok h

theorem filter_terminator (he : e ∈ terminators) : e.filter (· ∈ alphabet) = [] := by
  simp only [terminators, List.mem_cons, List.not_mem_nil, or_false] at he
  rcases he with rfl | rfl | rfl <;> decide

theorem letters_eq_filter (h : ofOperatorText raw = .ok w) :
    w.letters = raw.toList.filter (· ∈ alphabet) := by
  obtain ⟨e, he, htext⟩ := ofOperatorText_eq_ok_iff_letters.1 h
  have hletters : w.letters.filter (· ∈ alphabet) = w.letters := by
    refine List.filter_eq_self.2 fun c hc => decide_eq_true ?_
    exact ((isOperatorText_iff h).2 rfl).alphabet c hc
  rw [htext, List.filter_append, filter_terminator he, hletters, List.append_nil]

/-- **Texts are read as one word if and only if they are equal up to their terminators.** -/
theorem eq_iff_sameLetters (h : ofOperatorText raw = .ok v) (h' : ofOperatorText raw' = .ok w) :
    v = w ↔ SameLetters raw raw' := by
  constructor
  · rintro rfl
    obtain ⟨e, he, htext⟩ := ofOperatorText_eq_ok_iff_letters.1 h
    obtain ⟨e', he', htext'⟩ := ofOperatorText_eq_ok_iff_letters.1 h'
    exact ⟨v.letters, e, he, e', he', htext, htext'⟩
  · rintro ⟨ls, e, he, e', he', htext, htext'⟩
    apply letters_injective
    rw [letters_eq_filter h, letters_eq_filter h', htext, htext', List.filter_append,
      List.filter_append, filter_terminator he, filter_terminator he']

theorem exists_letters (h : IsOperatorText raw raw.toList) :
    ∃ w, ofOperatorText raw = .ok w ∧ raw.toList = w.letters := by
  obtain ⟨w, hw⟩ := exists_word h
  exact ⟨w, hw, (isOperatorText_iff hw).1 h⟩

/-- The word of a product is the second word and then the first. -/
theorem ofOperatorText_append {a b : String} (ha : a.toList = v.letters)
    (hb : b.toList = w.letters) : ofOperatorText (a ++ b) = .ok (w ++ v) := by
  refine ofOperatorText_eq_ok_iff_letters.2 ⟨[], by decide, ?_⟩
  rw [String.toList_append, ha, hb, letters_append, List.append_nil]

/-- **Words and operator texts determine each other.**  The letters of a word, which are its text
read backwards, are read as the word in front of any terminator; the letters of any text that is
read are those of its word; so texts have one word if and only if they are equal up to the
terminator.  A product of two texts without terminators is the word of the second one and then that
of the first one, and so are the commands on any qubit. -/
theorem text_inverse :
    (∀ w : Word, ∀ e ∈ terminators,
      ofOperatorText (String.ofList (w.text.toList.reverse ++ e)) = .ok w) ∧
    (∀ raw w, ofOperatorText raw = .ok w →
      ∀ ls, IsOperatorText raw ls ↔ ls = w.text.toList.reverse) ∧
    (∀ raw raw' w w', ofOperatorText raw = .ok w → ofOperatorText raw' = .ok w' →
      (w = w' ↔ SameLetters raw raw')) ∧
    ∀ a b, IsOperatorText a a.toList → IsOperatorText b b.toList →
      ∃ v w, ofOperatorText a = .ok v ∧ ofOperatorText b = .ok w ∧
        ofOperatorText (a ++ b) = .ok (w ++ v) ∧
        ∀ q, (w ++ v).toCommands q = w.toCommands q ++ v.toCommands q := by
  refine ⟨fun w e he => ofOperatorText_letters w he, fun raw w h ls => isOperatorText_iff h,
    fun raw raw' w w' h h' => eq_iff_sameLetters h h', fun a b ha hb => ?_⟩
  obtain ⟨v, hv, hvletters⟩ := exists_letters ha
  obtain ⟨w, hw, hwletters⟩ := exists_letters hb
  exact ⟨v, w, hv, hw, ofOperatorText_append hvletters hwletters, toCommands_append w v⟩

theorem text_inverse_product :
    ofOperatorText (String.ofList ((⟨[.h, .s, .t]⟩ : Word).text.toList.reverse ++ ['\r', '\n'])) =
      .ok ⟨[.h, .s, .t]⟩ ∧
    (∀ ls, IsOperatorText "TSH\n" ls ↔ ls = ['T', 'S', 'H']) ∧
    SameLetters "TSH\n" "TSH\r\n" ∧ ¬ SameLetters "TSH\n" "HST\n" ∧
    ∃ v w, ofOperatorText "TS" = .ok v ∧ ofOperatorText "HX" = .ok w ∧
      ofOperatorText ("TS" ++ "HX") = .ok (w ++ v) ∧
      (w ++ v).toCommands ⟨7⟩ = w.toCommands ⟨7⟩ ++ v.toCommands ⟨7⟩ := by
  obtain ⟨hwritten, hread, hsame, hproduct⟩ := text_inverse
  have hfeed : ofOperatorText "TSH\n" = .ok ⟨[.h, .s, .t]⟩ := hwritten ⟨[.h, .s, .t]⟩ _ (by decide)
  have hreturn : ofOperatorText "TSH\r\n" = .ok ⟨[.h, .s, .t]⟩ :=
    hwritten ⟨[.h, .s, .t]⟩ ['\r', '\n'] (by decide)
  have hother : ofOperatorText "HST\n" = .ok ⟨[.t, .s, .h]⟩ :=
    hwritten ⟨[.t, .s, .h]⟩ ['\n'] (by decide)
  refine ⟨hwritten _ _ (by decide), hread _ _ hfeed, (hsame _ _ _ _ hfeed hreturn).1 rfl,
    fun h => absurd ((hsame _ _ _ _ hfeed hother).2 h) (by decide), ?_⟩
  obtain ⟨v, w, hv, hw, hword, hcommands⟩ := hproduct "TS" "HX"
    ⟨by simp [alphabet], [], by decide, rfl⟩ ⟨by simp [alphabet], [], by decide, rfl⟩
  exact ⟨v, w, hv, hw, hword, hcommands ⟨7⟩⟩

end Word

end CliffordT
