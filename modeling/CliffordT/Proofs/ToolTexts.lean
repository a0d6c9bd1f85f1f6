import CliffordT.Host.Tool.Calculate
import CliffordT.Host.Tool.Lines
import CliffordT.Proofs.ShellTexts
import Mathlib.Tactic.Ring

/-!
# What tools do with texts

The tools that cut a text into lines lose nothing of it: what one part leaves out is the other part,
reversing twice gives the text back, and sorting only changes the order.

* `Tool.flatten_endedLines` : the lines of a text are the text,
* `Tool.head_append_tail` : what `head` leaves out is what `tail` shows,
* `Tool.tac_tac` : lines reversed twice are the lines,
* `Tool.sort_spec` : sorted lines are the lines, in an order of the options,
* `Tool.flatMap_runs` : the runs of equal lines are the lines,
* `Calculation.exists_row` : rows of numbers.
-/

namespace CliffordT

namespace Tool

open Shell

/-! ### Lines with their ends -/

theorem joinWith_concat (c : Char) (lines : List Text) (last : Text) :
    joinWith [c] (lines ++ [last]) = lines.flatMap (· ++ [c]) ++ last := by
  unfold joinWith
  induction lines with
  | nil => simp
  | cons line lines ih =>
    cases lines with
    | nil => simp
    | cons next lines =>
      rw [List.cons_append, List.cons_append, List.intercalate_cons_cons, ← List.cons_append, ih]
      simp

theorem joinLines_eq {lines : List Text} (h : lines ≠ []) :
    joinLines lines = joinWith ['\n'] lines ++ ['\n'] := by
  obtain ⟨init, last, rfl⟩ : ∃ init last, lines = init ++ [last] :=
    ⟨_, _, (List.dropLast_concat_getLast h).symm⟩
  rw [joinWith_concat]
  simp [joinLines]

theorem exists_endedLines (t : Text) : ∃ lines last,
    (∀ line ∈ lines, '\n' ∉ line) ∧ '\n' ∉ last ∧ t = joinLines lines ++ last ∧
      splitLines t = lines ++ (if last = [] then [] else [last]) ∧
      endedLines t = lines.map (· ++ ['\n']) ++ if last = [] then [] else [last] := by
  obtain ⟨first, rest, hpieces⟩ := exists_splitAt (· == '\n') t
  have hne : splitAt (· == '\n') t ≠ [] := by rw [hpieces]; exact List.cons_ne_nil _ _
  have hsplit := List.dropLast_concat_getLast hne
  -- what stands behind the last end is the last piece, which may be empty
  generalize (splitAt (· == '\n') t).dropLast = lines at hsplit
  generalize (splitAt (· == '\n') t).getLast hne = last at hsplit
  have hends : ∀ piece ∈ lines ++ [last], '\n' ∉ piece := by
    intro piece hpiece hend
    rw [hsplit] at hpiece
    exact absurd (of_mem_splitAt hpiece hend) (by decide)
  have hlast : '\n' ∉ last := hends last (by simp)
  have ht : t = joinLines lines ++ last := by
    rw [joinLines, ← joinWith_concat, hsplit, joinWith_splitAt]
  have hlines : splitLines t = lines ++ if last = [] then [] else [last] := by
    unfold splitLines
    rw [← hsplit]
    by_cases hnil : last = [] <;> simp [hnil]
  refine ⟨lines, last, fun line hline => hends line (by simp [hline]), hlast, ht, hlines, ?_⟩
  unfold endedLines
  rw [hlines]
  by_cases hnil : last = []
  · subst hnil
    rcases List.eq_nil_or_concat lines with rfl | ⟨init, line, rfl⟩
    · simp [ht, joinLines]
    · simp [ht, joinLines]
  · have hend : t.getLast? ≠ some '\n' := by
      rw [ht, List.getLast?_append_of_ne_nil _ hnil]
      intro h
      exact hlast (List.mem_of_getLast? h)
    simp [hnil, hend]

/-- The lines of a text, with their ends, are the text. -/
theorem flatten_endedLines (t : Text) : (endedLines t).flatten = t := by
  obtain ⟨lines, last, -, -, ht, -, hlines⟩ := exists_endedLines t
  rw [hlines, ht]
  by_cases hnil : last = [] <;> simp [hnil, joinLines, List.flatMap]

/-- The lines of a text that lacks its last end, with all ends, are the text and one end more. -/
theorem joinLines_splitLines (t : Text) :
    (if t ≠ [] ∧ t.getLast? ≠ some '\n' then (joinLines (splitLines t)).dropLast
      else joinLines (splitLines t)) = t := by
  obtain ⟨lines, last, -, hlast, ht, hlines, -⟩ := exists_endedLines t
  rw [hlines]
  by_cases hnil : last = []
  · have hend : ¬ (t ≠ [] ∧ t.getLast? ≠ some '\n') := by
      rcases List.eq_nil_or_concat lines with rfl | ⟨init, line, rfl⟩ <;> simp [ht, hnil, joinLines]
    rw [if_neg hend, if_pos hnil, List.append_nil, ht, hnil, List.append_nil]
  · have hend : t ≠ [] ∧ t.getLast? ≠ some '\n' := by
      rw [ht, List.getLast?_append_of_ne_nil _ hnil]
      exact ⟨by simp [hnil], fun h => hlast (List.mem_of_getLast? h)⟩
    rw [if_pos hend, if_neg hnil, ht]
    simp [joinLines]

theorem endedLines_joinLines {lines : List Text} (h : ∀ line ∈ lines, '\n' ∉ line) :
    endedLines (joinLines lines) = lines.map (· ++ ['\n']) := by
  unfold endedLines
  rw [splitLines_joinLines h]
  rcases List.eq_nil_or_concat lines with rfl | ⟨init, line, rfl⟩
  · rfl
  · simp [joinLines]

/-! ### Inputs -/

theorem readOperands_nil (c : Call) : c.readOperands [] = [⟨['-'], .ok c.input⟩] := by
  have hinput : isInput ['-'] = true := by decide
  simp [Call.readOperands, hinput]

theorem answerText_nil (c : Call) (f : Text → Text) :
    c.answerText [] f = { output := f c.input, readsInput := true } := by
  unfold Call.answerText
  rw [readOperands_nil]
  simp [Call.faults, namesInput, Except.toOption]

theorem eachOperand_nil {c : Call} {o : Options} (h : o.operands = []) (hv : o.has 'v' = false)
    (part : Text → Text) :
    eachOperand c o part = { output := part c.input, readsInput := true } := by
  unfold eachOperand
  rw [h, readOperands_nil, hv]
  show ({ output := joinWith [] [[] ++ part c.input], readsInput := true } : Answer) = _
  simp [joinWith]

/-- `cat` passes its input on. -/
theorem cat_input {c : Call} (hargs : c.args = []) (houtput : c.hasOutput) :
    cat c = { output := c.input, readsInput := true } := by
  simp [cat, withOptions, hargs, Options.ofArgs, houtput, answerText_nil]

/-! ### Parts -/

theorem startOf_append_endOf {α : Type} (n : Nat) (items : List α) :
    startOf (some '-') n items ++ endOf none n items = items := by
  simp [startOf, endOf]

theorem startOf_append_endOf_succ {α : Type} (n : Nat) (items : List α) :
    startOf none n items ++ endOf (some '+') (n + 1) items = items := by
  simp [startOf, endOf]

/-- A numeral begins with a digit, so with no sign. -/
theorem exists_decimal_cons (n : Nat) :
    ∃ d ds, decimal n = d :: ds ∧ d ≠ '-' ∧ d ≠ '+' := by
  obtain ⟨d, ds, hd⟩ := List.exists_cons_of_ne_nil (decimal_ne_nil n)
  have hdigit : d.isDigit := isDigit_of_mem_decimal (n := n) (hd ▸ List.mem_cons_self)
  refine ⟨d, ds, hd, ?_, ?_⟩ <;>
  · rintro rfl
    exact absurd hdigit (by decide)

theorem takeWhile_decimal (n : Nat) : (decimal n).takeWhile Char.isDigit = decimal n :=
  List.takeWhile_eq_self_iff.mpr fun _ hd => isDigit_of_mem_decimal hd

theorem dropWhile_decimal (n : Nat) : (decimal n).dropWhile Char.isDigit = [] :=
  List.dropWhile_eq_nil_iff.mpr fun _ hd => isDigit_of_mem_decimal hd

theorem count?_decimal (n : Nat) : count? (decimal n) = some (none, n) := by
  have htake := takeWhile_decimal n
  have hdrop := dropWhile_decimal n
  have hvalue := natOf?_decimal n
  obtain ⟨d, ds, hd, hdash, hplus⟩ := exists_decimal_cons n
  rw [hd] at htake hdrop hvalue ⊢
  simp [count?, hdash, hplus, htake, hdrop, hvalue]

theorem count?_plus_decimal (n : Nat) : count? ('+' :: decimal n) = some (some '+', n) := by
  simp [count?, takeWhile_decimal, dropWhile_decimal, natOf?_decimal]

section Counts

variable {c : Call} {t : Text} {sign : Option Char} {n : Nat}

theorem countOf_lines (h : count? t = some (sign, n)) :
    countOf c { given := [('n', t)] } = .ok (false, sign, n) := by
  simp [countOf, h]

theorem head_lines (h : count? t = some (sign, n)) :
    head { c with args := ["-n".toList, t] } =
      { output := (startOf sign n (endedLines c.input)).flatten, readsInput := true } := by
  have hoptions : Options.ofArgs "qvz".toList "nc".toList
      [("lines", 'n'), ("bytes", 'c'), ("quiet", 'q')] true (spellCount ["-n".toList, t]) =
        .ok { given := [('n', t)] } := rfl
  unfold head withOptions
  simp only [hoptions, countOf_lines h]
  exact eachOperand_nil rfl rfl _

theorem tail_lines (h : count? t = some (sign, n)) :
    tail { c with args := ["-n".toList, t] } =
      { output := (endOf sign n (endedLines c.input)).flatten, readsInput := true } := by
  have hoptions : Options.ofArgs "qvzf".toList "nc".toList
      [("lines", 'n'), ("bytes", 'c'), ("quiet", 'q')] true (spellCount ["-n".toList, t]) =
        .ok { given := [('n', t)] } := rfl
  unfold tail withOptions
  simp only [hoptions, countOf_lines h]
  exact eachOperand_nil rfl rfl _

end Counts

/-- What `head` leaves out of its input is what `tail` shows. -/
theorem head_append_tail (c : Call) (n : Nat) :
    (head { c with args := ["-n".toList, decimal n] }).output ++
      (tail { c with args := ["-n".toList, '+' :: decimal (n + 1)] }).output = c.input := by
  rw [head_lines (count?_decimal n), tail_lines (count?_plus_decimal (n + 1)),
    ← List.flatten_append, startOf_append_endOf_succ, flatten_endedLines]

/-! ### Order -/

/-- Lines in reverse order, in reverse order again, are the text, if its last line has an end. -/
theorem flatten_reverse_endedLines {t : Text} (h : ∀ c ∈ t.getLast?, c = '\n') :
    (endedLines (endedLines t).reverse.flatten).reverse.flatten = t := by
  obtain ⟨lines, last, hends, hlast, ht, -, hlines⟩ := exists_endedLines t
  have hnil : last = [] := by
    rcases List.eq_nil_or_concat last with hnil | ⟨init, c, rfl⟩
    · exact hnil
    · have hc : c = '\n' := h c (by simp [ht])
      exact absurd (by simp [hc]) hlast
  subst hnil
  have hreverse : (endedLines t).reverse.flatten = joinLines lines.reverse := by
    simp [hlines, joinLines, List.flatMap]
  rw [hreverse, endedLines_joinLines (by simpa using hends), ht]
  simp [joinLines, List.flatMap]

theorem tac_input {c : Call} (hargs : c.args = []) :
    tac c = { output := (endedLines c.input).reverse.flatten, readsInput := true } := by
  simp [tac, withOptions, hargs, Options.ofArgs, answerText_nil]

/-- The lines of an input, turned around twice, are the input, if its last line has an end. -/
theorem tac_tac {c : Call} (hargs : c.args = []) (h : ∀ d ∈ c.input.getLast?, d = '\n') :
    (tac { c with input := (tac c).output }).output = c.input := by
  have hagain : (tac { c with input := (tac c).output }).output = _ :=
    congrArg Answer.output (tac_input hargs)
  rw [hagain, tac_input hargs]
  exact flatten_reverse_endedLines h

/-! ### Orders -/

open Std (TransCmp)

theorem compareBytes_eq (x y : List UInt8) :
    (if x == y then .eq else if Files.isUpTo x y then .lt else .gt) = compare x y := by
  induction x generalizing y with
  | nil => cases y <;> rfl
  | cons a x ih =>
    cases y with
    | nil => rfl
    | cons b y =>
      have hhead : compare a b = if a < b then .lt else if a = b then .eq else .gt := rfl
      rw [List.compare_cons_cons, ← ih, hhead]
      by_cases hlt : a < b
      · have hne : a ≠ b := UInt8.ne_of_lt hlt
        simp [Files.isUpTo, hlt, hne]
      · by_cases heq : a = b
        · subst heq
          simp [Files.isUpTo]
        · simp [Files.isUpTo, hlt, heq]

instance (letters : List Char) : TransCmp (compareTexts letters) := by
  have h : compareTexts letters = compareOn (comparedText letters) := by
    funext a b
    exact compareBytes_eq ..
  rw [h]
  infer_instance

instance : TransCmp compareValues :=
  inferInstanceAs (TransCmp (compareOn numericValue))

theorem transCmp_swap {f : Text → Text → Ordering} [TransCmp f] :
    TransCmp fun a b => (f a b).swap := by
  have h : (fun a b => (f a b).swap) = fun a b => f b a := by
    funext a b
    exact Std.OrientedCmp.eq_swap.symm
  rw [h]
  exact TransCmp.opposite

instance (letters : List Char) : TransCmp (compareParts letters) := by
  unfold compareParts
  cases letters.contains 'n' || letters.contains 'g' <;> cases letters.contains 'r'
  · exact inferInstanceAs (TransCmp (compareTexts letters))
  · exact transCmp_swap (f := compareTexts letters)
  · exact inferInstanceAs (TransCmp compareValues)
  · exact transCmp_swap (f := compareValues)

theorem compareByKeys_cons (k : SortKey) (keys : List SortKey) (letters : List Char)
    (delimiter : Option Char) :
    compareByKeys (k :: keys) letters delimiter =
      compareLex
        (fun a b => compareParts (if k.letters.isEmpty then letters else k.letters)
          (k.part delimiter a) (k.part delimiter b))
        (compareByKeys keys letters delimiter) := by
  funext a b
  unfold compareByKeys compareLex
  rw [List.foldl_cons]
  dsimp only
  generalize compareParts _ (k.part delimiter a) (k.part delimiter b) = found
  cases found with
  | eq => rfl
  | lt =>
    induction keys with
    | nil => rfl
    | cons k keys ih => exact ih
  | gt =>
    induction keys with
    | nil => rfl
    | cons k keys ih => exact ih

instance (keys : List SortKey) (letters : List Char) (delimiter : Option Char) :
    TransCmp (compareByKeys keys letters delimiter) := by
  induction keys with
  | nil => exact { eq_swap := rfl, isLE_trans := fun _ _ => rfl }
  | cons k keys ih =>
    have hkey : TransCmp fun a b =>
        compareParts (if k.letters.isEmpty then letters else k.letters) (k.part delimiter a)
          (k.part delimiter b) :=
      { eq_swap := Std.OrientedCmp.eq_swap, isLE_trans := TransCmp.isLE_trans }
    rw [compareByKeys_cons]
    infer_instance

/-- The order of lines that options ask for. -/
def orderOf (o : Options) : Text → Text → Ordering :=
  let letters := o.given.filterMap fun (l, _) =>
    if ['n', 'r', 'f', 'b', 'g'].contains l then some l else none
  let delimiter := (o.value? 't').bind List.head?
  let given := (o.given.filter (·.1 == 'k')).filterMap fun (_, t) => sortKey? t
  let byKeys := compareByKeys (if given.isEmpty then [{}] else given) letters delimiter
  if o.has 'u' || o.has 's' then byKeys
  else compareLex byKeys (compareParts (letters.filter (· == 'r')))

instance (o : Options) : TransCmp (orderOf o) := by
  unfold orderOf
  split <;> infer_instance

/-- What `sort` makes of a text. -/
def sortedLines (o : Options) (t : Text) : List Text :=
  (splitLines t).mergeSort fun a b => orderOf o a b != .gt

theorem perm_sortedLines (o : Options) (t : Text) : (sortedLines o t).Perm (splitLines t) :=
  List.mergeSort_perm ..

theorem pairwise_sortedLines (o : Options) (t : Text) :
    (sortedLines o t).Pairwise fun a b => orderOf o a b ≠ .gt := by
  have htrans : ∀ a b d, (orderOf o a b != .gt) = true → (orderOf o b d != .gt) = true →
      (orderOf o a d != .gt) = true := by
    intro a b d
    simp only [bne_iff_ne, ← Ordering.isLE_iff_ne_gt]
    exact TransCmp.isLE_trans
  have htotal : ∀ a b, (orderOf o a b != .gt || orderOf o b a != .gt) = true := by
    intro a b
    rw [@Std.OrientedCmp.eq_swap _ (orderOf o) _ a b]
    cases orderOf o b a <;> rfl
  exact (List.pairwise_mergeSort htrans htotal _).imp bne_iff_ne.mp

/-- The options that a call of `sort` gives. -/
def sortOptions (args : List Text) : Except Text Options :=
  Options.ofArgs "nrufbgs".toList "kt".toList
    [("reverse", 'r'), ("numeric-sort", 'n'), ("unique", 'u'), ("key", 'k'),
     ("field-separator", 't'), ("ignore-case", 'f'), ("stable", 's')] true args

/-- `sort` writes the lines of its operands, none lost and none new, in an order that the options
ask for. -/
theorem sort_spec {c : Call} {o : Options} (hargs : sortOptions c.args = .ok o)
    (hu : o.has 'u' = false) :
    sort c = c.answerText o.operands (fun t => joinLines (sortedLines o t)) ∧
      ∀ t, (sortedLines o t).Perm (splitLines t) ∧
        (sortedLines o t).Pairwise fun a b => orderOf o a b ≠ .gt := by
  refine ⟨?_, fun t => ⟨perm_sortedLines o t, pairwise_sortedLines o t⟩⟩
  unfold sortOptions at hargs
  unfold sort withOptions
  simp only [hargs, hu]
  unfold sortedLines orderOf
  simp only [hu]
  cases o.has 's' <;> rfl

/-! ### Runs -/

section Runs

variable (key : Text → Text)

/-- The runs of equal lines are the lines. -/
theorem flatMap_runs (lines : List Text) :
    (runs (fun a b => key a == key b) lines).flatMap (fun r => List.replicate r.2 (key r.1)) =
      lines.map key := by
  induction lines with
  | nil => rfl
  | cons a rest ih =>
    rw [List.map_cons, ← ih, runs]
    cases hruns : runs (fun a b => key a == key b) rest with
    | nil => rfl
    | cons first more =>
      obtain ⟨b, n⟩ := first
      by_cases hsame : key a = key b
      · simp [hsame, List.replicate_succ]
      · simp [hsame]

/-- The first of the runs starts with the first of the lines, and they are as long as can be. -/
theorem isChain_runs (lines : List Text) :
    (runs (fun a b => key a == key b) lines).IsChain (fun r r' => key r.1 ≠ key r'.1) := by
  induction lines with
  | nil => exact .nil
  | cons a rest ih =>
    rw [runs]
    cases hruns : runs (fun a b => key a == key b) rest with
    | nil => exact .singleton _
    | cons first more =>
      obtain ⟨b, n⟩ := first
      rw [hruns] at ih
      by_cases hsame : key a = key b
      · -- the run grows; what follows it is told apart from it as before
        simp only [hsame, beq_self_eq_true, if_true]
        cases more with
        | nil => exact .singleton _
        | cons second more =>
          rw [List.isChain_cons_cons] at ih ⊢
          exact ⟨hsame ▸ ih.1, ih.2⟩
      · simp only [beq_eq_false_iff_ne.mpr hsame, Bool.false_eq_true, if_false]
        exact List.isChain_cons_cons.mpr ⟨hsame, ih⟩

end Runs

/-- Repeats of characters of the set are left out, and nothing else. -/
theorem squeeze_spec (isIn : Char → Bool) (t : Text) :
    (squeeze isIn t).Sublist t ∧ (squeeze isIn t).head? = t.head? ∧
      (squeeze isIn t).IsChain fun a b => ¬ (a = b ∧ isIn a) := by
  induction t with
  | nil => exact ⟨.slnil, rfl, .nil⟩
  | cons a t ih =>
    obtain ⟨hsub, hhead, hchain⟩ := ih
    cases t with
    | nil => exact ⟨.refl _, rfl, .singleton _⟩
    | cons b t =>
      rw [squeeze]
      by_cases hrepeats : a = b ∧ isIn a
      · rw [if_pos hrepeats]
        exact ⟨hsub.cons a, by rw [hhead, hrepeats.1]; rfl, hchain⟩
      · rw [if_neg hrepeats]
        refine ⟨hsub.cons_cons a, rfl, ?_⟩
        -- the first character that is left of the rest is its first one
        cases hrest : squeeze isIn (b :: t) with
        | nil => exact .singleton _
        | cons first rest =>
          rw [hrest] at hhead hchain
          obtain rfl : first = b := Option.some.inj hhead
          exact List.isChain_cons_cons.mpr ⟨hrepeats, hchain⟩

/-! ### Rows of numbers -/

namespace Calculation

/-- A number lies beyond the last one of a row. -/
def IsBeyond (step last i : Int) : Prop := (0 < step ∧ last < i) ∨ (step < 0 ∧ i < last)

instance (step last i : Int) : Decidable (IsBeyond step last i) :=
  inferInstanceAs (Decidable (_ ∨ _))

/-- A row goes on by one step until it is as long as it may be or the next number lies beyond. -/
theorem exists_row (step last : Int) (n : Nat) (i : Int) : ∃ k ≤ n,
    row step last n i = (List.range k).map (fun j : Nat => i + j * step) ∧
      (∀ j < k, ¬ IsBeyond step last (i + j * step)) ∧
      (k < n → IsBeyond step last (i + k * step)) := by
  induction n generalizing i with
  | zero => exact ⟨0, Nat.le_refl _, rfl, by simp, by simp⟩
  | succ n ih =>
    have hgo : row step last (n + 1) i =
        if IsBeyond step last i then [] else i :: row step last n (i + step) := rfl
    rw [hgo]
    -- the row goes on from the next number, unless this one is beyond the last
    by_cases h : IsBeyond step last i
    · exact ⟨0, Nat.zero_le _, if_pos h, by simp, fun _ => by simpa using h⟩
    · obtain ⟨k, hk, hrow, hwithin, hbeyond⟩ := ih (i + step)
      have hshift : ∀ j : Nat, i + (j + 1 : Nat) * step = i + step + j * step := by
        intro j
        push_cast
        ring
      refine ⟨k + 1, Nat.succ_le_succ hk, ?_, ?_, ?_⟩
      · rw [if_neg h, hrow, List.range_succ_eq_map]
        simp only [List.map_cons, List.map_map]
        congr 1
        · simp
        · refine List.map_congr_left fun j _ => ?_
          exact (hshift j).symm
      · intro j hj
        cases j with
        | zero => simpa using h
        | succ j =>
          rw [hshift]
          exact hwithin j (Nat.lt_of_succ_lt_succ hj)
      · intro hlt
        rw [hshift]
        exact hbeyond (Nat.lt_of_succ_lt_succ hlt)

theorem row_one {n bound : Nat} (h : n ≤ bound) :
    row 1 n bound 1 = (List.range n).map (fun j : Nat => (j + 1 : Int)) := by
  obtain ⟨k, hk, hrow, hwithin, hbeyond⟩ := exists_row 1 n bound 1
  simp only [IsBeyond] at hwithin hbeyond
  have hle : k ≤ n := by
    cases k with
    | zero => exact Nat.zero_le n
    | succ k =>
      have := hwithin k (Nat.lt_succ_self k)
      omega
  -- the row does not stop at the bound before it gets there
  have hge : n ≤ k := by
    by_cases hlt : k < bound
    · have := hbeyond hlt
      omega
    · omega
  rw [hrow, Nat.le_antisymm hle hge]
  exact List.map_congr_left fun j _ => by ring

theorem places?_decimal (n : Nat) : places? (decimal n) = some ⟨n, 0⟩ := by
  have htake := takeWhile_decimal n
  have hdrop := dropWhile_decimal n
  have hvalue := valueOf_decimal n
  obtain ⟨d, ds, hd, hdash, hplus⟩ := exists_decimal_cons n
  rw [hd] at htake hdrop hvalue ⊢
  simp [places?, hdash, hplus, htake, hdrop, hvalue]

theorem placesText_zero (n : Nat) : placesText 0 n = decimal n := by
  have hpos := List.length_pos_of_ne_nil (decimal_ne_nil n)
  have hnone : 0 + 1 - (decimal n).length = 0 := by omega
  simp [placesText, hnone]

theorem rowOptions_decimal (n : Nat) : rowOptions [decimal n] = (['\n'], false, [decimal n]) := by
  obtain ⟨d, ds, hd, hdash, -⟩ := exists_decimal_cons n
  rw [hd]
  simp [rowOptions, hdash]

end Calculation

/-- `seq` counts up to a number, one number a line. -/
theorem seq_decimal {c : Call} {n : Nat} (h : n ≤ longestRow) (hargs : c.args = [decimal n]) :
    seq c = { output := joinLines ((List.range n).map fun j => decimal (j + 1)) } := by
  have hone : Calculation.powerOfTen 0 = 1 := rfl
  have htexts : (List.range n).map
      ((fun i => Calculation.placesText 0 i) ∘ fun j : Nat => (j + 1 : Int)) =
        (List.range n).map fun j => decimal (j + 1) :=
    List.map_congr_left fun j _ => Calculation.placesText_zero (j + 1)
  unfold seq
  rw [hargs, Calculation.rowOptions_decimal]
  simp only [List.find?_cons, List.find?_nil, Calculation.places?_decimal, List.filterMap_cons,
    List.filterMap_nil, Option.isNone_some]
  simp [Calculation.Places.inUnits, hone, Calculation.row_one h, htexts]
  by_cases hn : n = 0
  · simp [hn, joinLines]
  · rw [if_neg hn, ← joinLines_eq (by simpa using hn)]

end Tool

end CliffordT
