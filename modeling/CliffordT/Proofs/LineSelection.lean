import CliffordT.Proofs.RegexMatches
import CliffordT.Proofs.ToolTexts
import Mathlib.Data.List.Infix

/-!
# Lines that hold a text

The engine gives up at a bound, but not before it has got through a text that is taken literally.
So `grep` misses no line that holds such a text.

* `Regex.run_ofLiteral` : how much of the bound a literal text takes,
* `Regex.isSome_searchFrom_iff` : a search tries every place of a text,
* `Criterion.selects_literal`, `Criterion.selects_whole` : the lines that are searched for,
* `grep_literal` : what `grep` writes.
-/

namespace CliffordT

namespace Tool

open Shell (Text splitLines joinLines)

namespace Regex

variable {whole : Nat} {last : Option Char} {t u : Text}

theorem run_exactly (n : Nat) (goals : List Goal) (last : Option Char) (c : Char) (rest : Text)
    (groups : Groups) :
    run whole (n + 1) (.part (exactly false c) :: goals) last (c :: rest) groups =
      run whole n goals (some c) rest groups := by
  simp [run, exactly, Shell.Glob.inRanges]

/-- A literal text takes two of the bound for each of its characters, and one for its end. -/
theorem run_ofLiteral (n : Nat) (goals : List Goal) (last : Option Char) (t rest : Text)
    (groups : Groups) :
    run whole (n + 2 * t.length + 1) (.part (ofLiteral false t) :: goals) last (t ++ rest) groups =
      run whole n goals (lastOf last t) rest groups := by
  induction t generalizing last with
  | nil => rfl
  | cons c t ih =>
    rw [lastOf_cons, ← ih]
    exact run_exactly _ _ last ..

theorem isSome_matchAt_ofLiteral :
    (matchAt (ofLiteral false t) whole last u).isSome ↔ t <+: u := by
  constructor
  · intro h
    obtain ⟨⟨rest, groups⟩, hat⟩ := Option.isSome_iff_exists.mp h
    obtain ⟨last', hmatch⟩ := matches_of_matchAt hat
    exact ⟨rest, (exists_matches_ofLiteral_iff.mp ⟨_, hmatch, rfl⟩).symm⟩
  · rintro ⟨rest, rfl⟩
    obtain ⟨n, hn⟩ : ∃ n, 64 * ((t ++ rest).length + 16) = n + 1 + 2 * t.length + 1 :=
      ⟨64 * ((t ++ rest).length + 16) - 2 * t.length - 2, by rw [List.length_append]; omega⟩
    rw [matchAt, hn, run_ofLiteral]
    rfl

theorem isSome_matchAt_whole :
    (matchAt (.sequence .start (.sequence (ofLiteral false t) .finish)) whole last u).isSome ↔
      u.length = whole ∧ u = t := by
  constructor
  · intro h
    obtain ⟨⟨rest, groups⟩, hat⟩ := Option.isSome_iff_exists.mp h
    obtain ⟨last', hmatch⟩ := matches_of_matchAt hat
    cases hmatch with
    | sequence hstart hmore =>
      cases hstart with
      | start hlength =>
        cases hmore with
        | sequence hliteral hfinish =>
          have hu := exists_matches_ofLiteral_iff.mp ⟨_, hliteral, rfl⟩
          cases hfinish with
          | finish hrest => exact ⟨hlength, by rw [hrest, List.append_nil] at hu; exact hu⟩
  · rintro ⟨hlength, rfl⟩
    obtain ⟨n, hn⟩ : ∃ n, 64 * (u.length + 16) = n + 2 + 2 * u.length + 1 + 3 :=
      ⟨64 * (u.length + 16) - 2 * u.length - 6, by omega⟩
    -- three steps of the bound get the engine past the start of the line
    have hstart : run whole (n + 2 + 2 * u.length + 1 + 3)
        [.part (.sequence .start (.sequence (ofLiteral false u) .finish))] last u [] =
          run whole (n + 2 + 2 * u.length + 1) [.part (ofLiteral false u), .part .finish]
            last u [] :=
      if_pos hlength
    have hliteral : run whole (n + 2 + 2 * u.length + 1)
        [.part (ofLiteral false u), .part .finish] last (u ++ []) [] =
          run whole (n + 2) [.part .finish] (lastOf last u) [] [] :=
      run_ofLiteral ..
    rw [List.append_nil] at hliteral
    rw [matchAt, hn, hstart, hliteral]
    rfl

/-- A search tries every place of a text. -/
theorem isSome_searchFrom_iff {r : Regex} :
    (searchFrom r whole last t).isSome ↔
      ∃ s u, t = s ++ u ∧ (matchAt r whole (lastOf last s) u).isSome := by
  induction t generalizing last with
  | nil =>
    rw [searchFrom, Option.isSome_map]
    constructor
    · exact fun h => ⟨[], [], rfl, h⟩
    · rintro ⟨s, u, hcut, h⟩
      obtain ⟨rfl, rfl⟩ := List.append_eq_nil_iff.mp hcut.symm
      exact h
  | cons c t ih =>
    unfold searchFrom
    cases hat : matchAt r whole last (c :: t) with
    | some found =>
      refine iff_of_true rfl ⟨[], c :: t, rfl, ?_⟩
      show (matchAt r whole last (c :: t)).isSome
      rw [hat]
      rfl
    | none =>
      simp only [Option.isSome_map, ih]
      constructor
      · rintro ⟨s, u, rfl, h⟩
        exact ⟨c :: s, u, rfl, lastOf_cons last c s ▸ h⟩
      · rintro ⟨s, u, hcut, h⟩
        cases s with
        | nil =>
          -- no match starts at the first place
          obtain rfl : c :: t = u := hcut
          have hnone : (matchAt r whole last (c :: t)).isSome := h
          rw [hat] at hnone
          cases hnone
        | cons d s =>
          obtain ⟨rfl, rfl⟩ := List.cons.inj hcut
          exact ⟨s, u, rfl, lastOf_cons last c s ▸ h⟩

end Regex

namespace Criterion

open Regex (isSome_searchFrom_iff isSome_matchAt_ofLiteral isSome_matchAt_whole)

/-- A line is searched for if it holds the text, or if it does not, as the search asks for. -/
theorem selects_literal (t line : Text) (isInverted : Bool) :
    selects ⟨.ofLiteral false t, false, false, isInverted⟩ line =
      (decide (t <:+: line) != isInverted) := by
  have hfound : (Regex.search (.ofLiteral false t) line).isSome ↔ t <:+: line := by
    simp only [Regex.search, isSome_searchFrom_iff, isSome_matchAt_ofLiteral]
    constructor
    · rintro ⟨s, -, rfl, rest, rfl⟩
      exact ⟨s, rest, List.append_assoc ..⟩
    · rintro ⟨s, rest, rfl⟩
      exact ⟨s, t ++ rest, List.append_assoc .., rest, rfl⟩
  show ((Regex.search (.ofLiteral false t) line).isSome != isInverted) = _
  rw [Bool.eq_iff_iff.mpr (hfound.trans decide_eq_true_iff.symm)]

/-- A line is searched for as a whole. -/
theorem selects_whole (t line : Text) (isInverted : Bool) :
    selects ⟨.ofLiteral false t, true, false, isInverted⟩ line =
      (decide (line = t) != isInverted) := by
  have hfound : (Regex.search (full ⟨.ofLiteral false t, true, false, isInverted⟩) line).isSome ↔
      line = t := by
    simp only [full, Regex.search, if_true, isSome_searchFrom_iff, isSome_matchAt_whole]
    constructor
    · rintro ⟨s, u, hcut, hlength, rfl⟩
      -- the match is as long as the line, so nothing stands before it
      rw [hcut, List.length_append] at hlength
      obtain rfl := List.length_eq_zero_iff.mp (show s.length = 0 by omega)
      exact hcut
    · rintro rfl
      exact ⟨[], line, rfl, rfl, rfl⟩
  rw [selects, Bool.eq_iff_iff.mpr (hfound.trans decide_eq_true_iff.symm)]

end Criterion

/-! ### Runs -/

/-- The lines of a file are shown as they are, unless an option asks for something else. -/
theorem Listing.text_plain {l : Listing} (k : Criterion) (lines : List (Text × Nat))
    (hname : l.showsName = false)
    (hplain : ∀ letter ∈ ['q', 'l', 'c', 'o', 'n'], l.options.has letter = false) :
    l.text k lines = joinLines (lines.map (·.1)) := by
  have hlead : ∀ n, l.lead (some n) = [] := by
    intro n
    simp [lead, hname, hplain 'n' (by simp)]
  unfold text
  simp [hplain 'q' (by simp), hplain 'l' (by simp), hplain 'c' (by simp),
    hplain 'o' (by simp), hlead, joinLines, List.flatMap_map]

/-- Numbers beside the lines make no difference to which of them are kept. -/
theorem map_filter_zipIdx (p : Text → Bool) (lines : List Text) (n : Nat) :
    (((lines.zipIdx n).filter fun x => p x.1).map (·.1)) = lines.filter p := by
  have hfilter := List.filter_map (f := Prod.fst) (p := p) (l := lines.zipIdx n)
  rw [List.zipIdx_map_fst] at hfilter
  exact hfilter.symm

section

variable {c : Call} {o : Options} {t : Text}

/-- The options that a call of `grep` gives. -/
def grepOptions (args : List Text) : Except Text Options :=
  Options.ofArgs "vcinqoEFGxwlhHsa".toList "em".toList
    [("quiet", 'q'), ("count", 'c'), ("invert-match", 'v'), ("ignore-case", 'i'),
     ("only-matching", 'o'), ("extended-regexp", 'E'), ("fixed-strings", 'F'),
     ("line-number", 'n'), ("line-regexp", 'x'), ("word-regexp", 'w')] true args

/-- Whether a line is one of those that hold a text, by the options of a search. -/
def Options.wants (o : Options) (t line : Text) : Bool :=
  (if o.has 'x' then decide (line = t) else decide (t <:+: line)) != o.has 'v'

theorem selects_eq_wants (o : Options) (t line : Text) :
    Criterion.selects ⟨.ofLiteral false t, o.has 'x', false, o.has 'v'⟩ line = o.wants t line := by
  unfold Options.wants
  cases o.has 'x' with
  | true => exact Criterion.selects_whole t line (o.has 'v')
  | false => exact Criterion.selects_literal t line (o.has 'v')

/-- **`grep` writes the lines of its input that hold a text**, none lost, none new and in their
order. -/
theorem grep_literal (hargs : grepOptions c.args = .ok o) (hfixed : o.has 'F')
    (hpattern : o.given.filter (·.1 == 'e') = [('e', t)]) (hoperands : o.operands = [])
    (ht : '\n' ∉ t) (hlimit : o.value? 'm' = none)
    (hplain : ∀ letter ∈ ['i', 'w', 'q', 'l', 'c', 'o', 'n', 'H'], o.has letter = false) :
    grep c = { output := joinLines ((splitLines c.input).filter (o.wants t))
               status := if (splitLines c.input).any (o.wants t) then 0 else 1
               readsInput := true } := by
  have hsplit : Shell.splitAt (· == '\n') t = [t] :=
    Shell.splitAt_eq_self fun d hd => beq_eq_false_iff_ne.mpr (ne_of_mem_of_not_mem hd ht)
  have hletters : ∀ letter ∈ ['q', 'l', 'c', 'o', 'n'], o.has letter = false :=
    fun letter hmem => hplain letter (List.mem_cons_of_mem _ (List.mem_cons_of_mem _
      (List.mem_append_left ['H'] hmem)))
  have hfaults : c.faults [⟨['-'], .ok c.input⟩] = [] := rfl
  have hfound : ∀ lines : List Text,
      decide (0 < ((lines.zipIdx 1).filter fun x => o.wants t x.1).length) =
        lines.any (o.wants t) := by
    intro lines
    have hlength := congrArg List.length (map_filter_zipIdx (o.wants t) lines 1)
    rw [List.length_map] at hlength
    rw [hlength, Bool.eq_iff_iff, decide_eq_true_iff, List.length_pos_iff_exists_mem,
      List.any_eq_true]
    simp only [List.mem_filter]
  unfold grepOptions at hargs
  unfold grep withOptions
  simp only [hargs, hfixed, hpattern, hoperands, hlimit, hplain 'i' (by simp),
    hplain 'w' (by simp), hsplit, hfaults, readOperands_nil, Regex.ofPatterns, selects_eq_wants,
    List.map_cons, List.map_nil, List.isEmpty_cons, List.flatMap_cons, List.flatMap_nil,
    List.append_nil, List.take_length, Option.bind_none, Option.getD_none, Bool.false_eq_true,
    if_false, if_true]
  rw [Listing.text_plain _ _ (by simp [hplain 'H' (by simp)]) hletters, map_filter_zipIdx]
  simp [hfound, namesInput]

theorem grep_input (hargs : c.args = ["-Fe".toList, t]) (ht : '\n' ∉ t) :
    grep c = { output := joinLines ((splitLines c.input).filter fun line => t <:+: line)
               status := if (splitLines c.input).any fun line => t <:+: line then 0 else 1
               readsInput := true } := by
  have hoptions : grepOptions c.args = .ok { given := [('F', []), ('e', t)] } := by
    rw [hargs]
    rfl
  have hwants : Options.wants { given := [('F', []), ('e', t)] } t =
      fun line => decide (t <:+: line) := by
    funext line
    exact Bool.xor_false _
  have hgrep := grep_literal (t := t) hoptions rfl rfl rfl ht rfl (by simp [Options.has])
  rwa [hwants] at hgrep

end

end Tool

end CliffordT
