import CliffordT.Proofs.PlainNumerals
import CliffordT.Proofs.Stream
import CliffordT.Proofs.Utf8
import Mathlib.Data.List.Nodup

/-!
# Printed streams are uniquely readable

Each part of a printed line ends where the next part begins: a gate at the first blank, a numeral at
the first character that is no digit, a line at its line feed.  So a printed stream can be taken
apart in one way only.

* `List.append_inj_of_class` : two texts of one class of characters that end where the class ends;
* `Gate.IsLegible` : the gates that are known by their texts, which are all but gates with a name of
  their own and rotations by an angle that is not a number;
* `Gate.text_injective` : legible gates are told apart by their texts;
* `Command.targetChars_append_inj`, `Command.line_append_inj` : the targets and the line of a
  command are known, and what stands behind them;
* `Command.lines_injective` : so are the lines of a stream;
* `Printer.sendAll_eq` : a printer without a limit prints the lines of the stream;
* `Printer.stream_eq_of_text_eq` : **the printed text determines the stream.**
-/

namespace CliffordT

/-- Two texts of one class, each followed by something that does not go on with it. -/
theorem List.append_inj_of_class {P : Char → Bool} {as bs rest rest' : List Char}
    (has : ∀ c ∈ as, P c) (hbs : ∀ c ∈ bs, P c) (hrest : ∀ c ∈ rest.head?, P c = false)
    (hrest' : ∀ c ∈ rest'.head?, P c = false) (h : as ++ rest = bs ++ rest') :
    as = bs ∧ rest = rest' := by
  have hstop : ∀ {cs : List Char}, (∀ c ∈ cs.head?, P c = false) → cs.takeWhile P = [] := by
    rintro (_ | ⟨c, cs⟩) hcs
    · rfl
    · exact List.takeWhile_cons_of_neg (by simp [hcs c rfl])
  have htake := congrArg (List.takeWhile P) h
  rw [List.takeWhile_append_of_pos has, List.takeWhile_append_of_pos hbs, hstop hrest,
    hstop hrest', List.append_nil, List.append_nil] at htake
  subst htake
  exact ⟨rfl, List.append_cancel_left h⟩

/-- The characters of a gate: all but the blank and the line feed, which end it. -/
def isGateChar (c : Char) : Bool := c != ' ' && c != '\n'

/-! ### Gates -/

namespace Gate

variable {g k : Gate}

/-- The gate is known by its text.  Gates with a name of their own may be written in any way, and
all angles that are not numbers are written alike. -/
def IsLegible : Gate → Prop
  | rotation _ angle => angle.isNaN = false
  | other _ => False
  | _ => True

/-- The gates that are written as a word. -/
def words : List Gate :=
  [allocate, deallocate, measure, flush, fixed .h, fixed .s, fixed .t, fixed .x]

theorem IsLegible.cases (h : g.IsLegible) :
    g ∈ words ∨ ∃ axis angle, g = rotation axis angle ∧ angle.isNaN = false := by
  cases g with
  | rotation axis angle => exact .inr ⟨axis, angle, rfl, h⟩
  | other name => exact h.elim
  | fixed g => exact .inl (by cases g <;> decide)
  | _ => exact .inl (by decide)

theorem text_rotation (axis : Axis) (angle : Binary64) :
    (rotation axis angle).text.toList =
      'R' :: (axis.name.toList ++ '(' :: (angle.plainChars ++ [')'])) := by
  rw [text, rotationText, Binary64.plain]
  simp only [String.toList_append, String.toList_ofList]
  simp

theorem head_of_mem_words : ∀ g ∈ words, g.text.toList.head? ≠ some 'R' := by decide

theorem isGateChar_of_mem_words : ∀ g ∈ words, g.text.toList.all isGateChar := by decide

end Gate

theorem Binary64.isGateChar_plainChars {x : Binary64} (h : x.isNaN = false) :
    ∀ c ∈ x.plainChars, isGateChar c := by
  intro c hc
  by_cases hfinite : x.isFinite
  · have hsign : (if x.plainNumeral.negative then ['-'] else []).all isGateChar := by
      split_ifs <;> rfl
    have hdigit : ∀ c : Char, c.isDigit ∨ c = '.' → isGateChar c := by
      rintro c (hc | rfl)
      · rw [isGateChar, Bool.and_eq_true, bne_iff_ne, bne_iff_ne]
        constructor <;> rintro rfl <;> exact absurd hc (by decide)
      · decide
    rw [← render_plainNumeral hfinite, Json.Numeral.render_of_none x.exponent_plainNumeral] at hc
    rcases List.mem_append.1 hc with hc | hc
    · exact List.all_eq_true.1 hsign c hc
    · exact hdigit c (Json.Numeral.isDigit_of_mem (plainNumeral_wellFormed hfinite) hc)
  · rw [(plainChars_of_infinite h (Bool.eq_false_iff.2 hfinite)).2, signText] at hc
    have hword : ((if x.isNegative then ['-'] else []) ++ ['i', 'n', 'f']).all isGateChar := by
      split_ifs <;> rfl
    exact List.all_eq_true.1 hword c hc

namespace Gate

variable {g k : Gate}

theorem isGateChar_text (h : g.IsLegible) : ∀ c ∈ g.text.toList, isGateChar c := by
  obtain hword | ⟨axis, angle, rfl, hangle⟩ := h.cases
  · exact List.all_eq_true.1 (isGateChar_of_mem_words g hword)
  · intro c hc
    have hname : axis.name.toList.all isGateChar := by cases axis <;> rfl
    simp only [text_rotation, List.mem_cons, List.mem_append, List.not_mem_nil, or_false] at hc
    rcases hc with rfl | hc | rfl | hc | rfl
    · decide
    · exact List.all_eq_true.1 hname c hc
    · decide
    · exact Binary64.isGateChar_plainChars hangle c hc
    · decide

/-- **Legible gates are told apart by their texts.** -/
theorem text_injective (hg : g.IsLegible) (hk : k.IsLegible) (h : g.text.toList = k.text.toList) :
    g = k := by
  obtain hgword | ⟨axis, angle, rfl, hangle⟩ := hg.cases
  · obtain hkword | ⟨axis, angle, rfl, -⟩ := hk.cases
    · have hnodup : (words.map fun g => g.text.toList).Nodup := by decide
      exact List.inj_on_of_nodup_map hnodup hgword hkword h
    · refine absurd ?_ (head_of_mem_words g hgword)
      rw [h, text_rotation, List.head?_cons]
  · obtain hkword | ⟨axis', angle', rfl, hangle'⟩ := hk.cases
    · refine absurd ?_ (head_of_mem_words k hkword)
      rw [← h, text_rotation, List.head?_cons]
    · rw [text_rotation, text_rotation] at h
      -- the names of the axes are letters, so they end at the bracket
      obtain ⟨hname, hrest⟩ := List.append_inj (List.cons.inj h).2
        (by cases axis <;> cases axis' <;> rfl)
      have haxis : axis = axis' := by
        cases axis <;> cases axis' <;> first | rfl | exact absurd hname (by decide)
      have hplain := List.append_cancel_right (List.cons.inj hrest).2
      rw [haxis, Binary64.plainChars_injective hangle hangle' hplain]

end Gate

/-! ### Commands -/

namespace Command

variable {c d : Command} {cs ds : List Command} {rest rest' : List Char}

/-- A target as it is printed, behind a blank. -/
def targetChars (q : Qubit) : List Char := ' ' :: q.text.toList

/-- What is printed behind the gate: nothing without targets, and otherwise a bar and the
targets. -/
def tail : List Qubit → List Char
  | [] => []
  | qs => ' ' :: '|' :: qs.flatMap targetChars

/-- The line of a command. -/
def line (c : Command) : List Char := c.text.toList ++ ['\n']

theorem join_targets (qs : List Qubit) :
    (String.join (qs.map fun q => " " ++ q.text)).toList = qs.flatMap targetChars := by
  induction qs with
  | nil => rfl
  | cons q qs ih =>
    rw [List.map_cons, String.join_cons, String.toList_append, ih, String.toList_append,
      List.flatMap_cons, targetChars]
    rfl

theorem line_eq (c : Command) : c.line = c.gate.text.toList ++ (tail c.targets ++ ['\n']) := by
  rw [line, text, String.toList_append, List.append_assoc]
  cases hqs : c.targets with
  | nil => rfl
  | cons q qs =>
    rw [List.isEmpty_cons, if_neg (by decide), String.toList_append, join_targets, tail]
    · rfl
    · exact fun h => by cases h

/-- **The targets are known, and what stands behind them.** -/
theorem targetChars_append_inj {qs ks : List Qubit}
    (h : qs.flatMap targetChars ++ '\n' :: rest = ks.flatMap targetChars ++ '\n' :: rest') :
    qs = ks ∧ rest = rest' := by
  -- behind a target stands the blank of the next one, or the line feed
  have hend : ∀ (qs : List Qubit) (rest : List Char),
      ∀ c ∈ (qs.flatMap targetChars ++ '\n' :: rest).head?, c.isDigit = false := by
    rintro (_ | ⟨q, qs⟩) rest c hc
    · obtain rfl := Option.some.inj hc
      decide
    · obtain rfl := Option.some.inj hc
      decide
  have htext : ∀ q : Qubit, q.text.toList = 'q' :: Decimal.digitsOf q.index.toNat := fun q => by
    rw [Qubit.text, String.toList_append, Nat.toString_eq_ofList_toDigits]
    exact congrArg ("q".toList ++ ·) String.toList_ofList
  induction qs generalizing ks with
  | nil =>
    cases ks with
    | nil => exact ⟨rfl, (List.cons.inj h).2⟩
    | cons k ks => exact absurd (List.cons.inj h).1 (by decide)
  | cons q qs ih =>
    cases ks with
    | nil => exact absurd (List.cons.inj h).1 (by decide)
    | cons k ks =>
      simp only [List.flatMap_cons, targetChars, htext, List.cons_append, List.append_assoc,
        List.cons.injEq, true_and] at h
      obtain ⟨hdigits, htail⟩ := List.append_inj_of_class (P := Char.isDigit)
        (fun _ => Decimal.isDigit_of_mem_digitsOf) (fun _ => Decimal.isDigit_of_mem_digitsOf)
        (hend qs rest) (hend ks rest') h
      obtain ⟨hqs, hrest⟩ := ih htail
      have hindex : q.index.toNat = k.index.toNat := by
        rw [← Json.digitsValue_digitsOf q.index.toNat, hdigits, Json.digitsValue_digitsOf]
      obtain ⟨index⟩ := q
      obtain ⟨index'⟩ := k
      obtain rfl := UInt32.toNat_inj.1 hindex
      exact ⟨congrArg _ hqs, hrest⟩

theorem tail_append_inj {qs ks : List Qubit}
    (h : tail qs ++ '\n' :: rest = tail ks ++ '\n' :: rest') : qs = ks ∧ rest = rest' := by
  cases qs with
  | nil =>
    cases ks with
    | nil => exact ⟨rfl, (List.cons.inj h).2⟩
    | cons k ks => exact absurd (List.cons.inj h).1 (by decide)
  | cons q qs =>
    cases ks with
    | nil => exact absurd (List.cons.inj h).1 (by decide)
    | cons k ks => exact targetChars_append_inj (List.cons.inj (List.cons.inj h).2).2

/-- **A legible command is known by its line, and what stands behind it.** -/
theorem line_append_inj (hc : c.gate.IsLegible) (hd : d.gate.IsLegible)
    (h : c.line ++ rest = d.line ++ rest') : c = d ∧ rest = rest' := by
  -- the text of a gate ends where a blank or a line feed stands
  have hend : ∀ (qs : List Qubit) (rest : List Char),
      ∀ c ∈ (tail qs ++ '\n' :: rest).head?, isGateChar c = false := by
    rintro (_ | ⟨q, qs⟩) rest c hc
    · obtain rfl := Option.some.inj hc
      decide
    · obtain rfl := Option.some.inj hc
      decide
  rw [line_eq, line_eq, List.append_assoc, List.append_assoc, List.append_assoc, List.append_assoc,
    List.singleton_append, List.singleton_append] at h
  obtain ⟨hgate, htail⟩ := List.append_inj_of_class (Gate.isGateChar_text hc)
    (Gate.isGateChar_text hd) (hend _ _) (hend _ _) h
  obtain ⟨htargets, hrest⟩ := tail_append_inj htail
  obtain ⟨gate, targets⟩ := c
  obtain ⟨gate', targets'⟩ := d
  obtain rfl : gate = gate' := Gate.text_injective hc hd hgate
  obtain rfl : targets = targets' := htargets
  exact ⟨rfl, hrest⟩

theorem line_ne_nil (c : Command) : c.line ≠ [] := List.append_ne_nil_of_right_ne_nil _ (by decide)

/-- A stream of legible commands is known by its lines. -/
theorem lines_injective (hcs : ∀ c ∈ cs, c.gate.IsLegible) (hds : ∀ d ∈ ds, d.gate.IsLegible)
    (h : cs.flatMap line = ds.flatMap line) : cs = ds := by
  induction cs generalizing ds with
  | nil =>
    cases ds with
    | nil => rfl
    | cons d ds => exact absurd (List.append_eq_nil_iff.1 h.symm).1 d.line_ne_nil
  | cons c cs ih =>
    cases ds with
    | nil => exact absurd (List.append_eq_nil_iff.1 h).1 c.line_ne_nil
    | cons d ds =>
      obtain ⟨hc, hcstail⟩ := List.forall_mem_cons.1 hcs
      obtain ⟨hd, hdstail⟩ := List.forall_mem_cons.1 hds
      obtain ⟨hhead, hrest⟩ := line_append_inj hc hd h
      rw [hhead, ih hcstail hdstail hrest]

end Command

/-! ### Printers -/

namespace Printer

variable {p : Printer}

/-- A printer without a limit takes every command and prints its line. -/
theorem sendAll_eq (h : p.limit = none) (cs : List Command) :
    Sink.sendAll p cs =
      .done { p with bytes := p.bytes ++ Utf8.encode (cs.flatMap Command.line) } := by
  induction cs generalizing p with
  | nil => simp [Utf8.encode]
  | cons c cs ih =>
    have hsend : Sink.send p c = .done { p with bytes := p.bytes ++ line c } := by
      show p.write (line c) = _
      rw [write, h]
    have hrest := ih (p := { p with bytes := p.bytes ++ line c }) h
    rw [Sink.sendAll_cons, hsend, Outcome.done_andThen, hrest, List.flatMap_cons,
      Utf8.encode_append, ← List.append_assoc]
    rfl

theorem toList_text (cs : List Command) :
    (Sink.sendAll ({} : Printer) cs).state.text.toList = cs.flatMap Command.line := by
  rw [sendAll_eq rfl, text, String.toList_ofList]
  exact Utf8.lossy_encode _

/-- **The printed text determines the stream.**  A printer takes every command, and if it prints the
same text for two streams of legible commands, then these are the same commands, with the same
targets in the same order and with angles of the same bits. -/
theorem stream_eq_of_text_eq :
    (∀ cs : List Command, (Sink.sendAll ({} : Printer) cs).error? = none) ∧
    ∀ cs ds : List Command, (∀ c ∈ cs, c.gate.IsLegible) → (∀ d ∈ ds, d.gate.IsLegible) →
      (Sink.sendAll ({} : Printer) cs).state.text = (Sink.sendAll ({} : Printer) ds).state.text →
        cs = ds := by
  refine ⟨fun cs => ?_, fun cs ds hcs hds h => Command.lines_injective hcs hds ?_⟩
  · rw [sendAll_eq rfl]
    rfl
  · rw [← toList_text, ← toList_text, h]

/-- Neither the two zeros nor a missing and a present target are printed alike. -/
theorem stream_eq_of_text_eq_zeros :
    (Sink.sendAll ({} : Printer) [⟨.measure, []⟩, .rz .zero ⟨7⟩]).state.text ≠
      (Sink.sendAll ({} : Printer) [⟨.measure, []⟩, .rz ⟨0x8000000000000000⟩ ⟨7⟩]).state.text ∧
    (Sink.sendAll ({} : Printer) [⟨.fixed .x, []⟩]).state.text ≠
      (Sink.sendAll ({} : Printer) [⟨.fixed .x, [⟨0⟩]⟩]).state.text := by
  obtain ⟨-, hinjective⟩ := stream_eq_of_text_eq
  have hmeasure : Gate.measure.IsLegible := trivial
  have hx : (Gate.fixed .x).IsLegible := trivial
  have hrz : ∀ angle : Binary64, angle.isNaN = false →
      ∀ c ∈ [⟨.measure, []⟩, Command.rz angle ⟨7⟩], c.gate.IsLegible := fun angle hangle =>
    List.forall_mem_cons.2 ⟨hmeasure, List.forall_mem_singleton.2 hangle⟩
  refine ⟨fun h => ?_, fun h => ?_⟩
  · exact absurd (hinjective _ _ (hrz .zero (by decide)) (hrz ⟨_⟩ (by decide)) h) (by decide)
  · exact absurd (hinjective [⟨.fixed .x, []⟩] [⟨.fixed .x, [⟨0⟩]⟩]
      (List.forall_mem_singleton.2 hx) (List.forall_mem_singleton.2 hx) h) (by decide)

end Printer

end CliffordT
