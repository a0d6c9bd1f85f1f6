import CliffordT.Host.Tool.Edit
import CliffordT.Proofs.RegexMatches
import CliffordT.Proofs.ToolTexts

/-!
# What edits leave as it was

A substitution changes nothing but the matches it replaces, a step takes nothing back that has been
written, and lines without steps come out as they went in.

* `Edit.substituted_eq_self` : a line in which nothing is replaced is the line,
* `Edit.applySteps_output` : what has been written stays written,
* `Edit.run_nil` : no steps.
-/

namespace CliffordT

namespace Tool

namespace Edit

open Shell (Text joinLines)

/-! ### Substitutions -/

section Substitution

variable (r : Regex) (ps : List Piece) (first : Nat) (isGlobal : Bool) (whole : Nat)

/-- The text behind a match with further matches replaced, and whether there was one. -/
def furtherOn (n : Nat) (m : Regex.Match) (number : Nat) : Text × Bool :=
  match m.text.getLast?, m.behind with
  | some c, rest => substituted r ps first isGlobal whole n number true (some c) rest
  | none, c :: rest =>
    (c :: (substituted r ps first isGlobal whole n number false (some c) rest).1,
      (substituted r ps first isGlobal whole n number false (some c) rest).2)
  | none, [] => ([], false)

theorem substituted_succ (n number : Nat) (isBehind : Bool) (last : Option Char) (t : Text) :
    substituted r ps first isGlobal whole (n + 1) number isBehind last t =
      match r.searchFrom whole last t with
      | none => (t, false)
      | some m =>
        if m.text.isEmpty && m.before.isEmpty && isBehind then
          furtherOn r ps first isGlobal whole n m number
        else if number = first ∨ (isGlobal ∧ first < number) then
          if isGlobal then
            (m.before ++ fill m ps ++ (furtherOn r ps first isGlobal whole n m (number + 1)).1,
              true)
          else (m.before ++ fill m ps ++ m.behind, true)
        else
          (m.before ++ m.text ++ (furtherOn r ps first isGlobal whole n m (number + 1)).1,
            (furtherOn r ps first isGlobal whole n m (number + 1)).2) := rfl

variable {r ps first isGlobal whole}

/-- A text in which nothing is replaced, or each match by itself, is the text.  The induction is on
the bound: a match may be empty. -/
theorem substituted_eq_self {n number : Nat} {isBehind : Bool} {last : Option Char} {t : Text}
    (h : (∀ m, fill m ps = m.text) ∨
      (substituted r ps first isGlobal whole n number isBehind last t).2 = false) :
    (substituted r ps first isGlobal whole n number isBehind last t).1 = t := by
  induction n generalizing number isBehind last t with
  | zero => rfl
  | succ n ih =>
    have hnext : ∀ m number, (∀ m, fill m ps = m.text) ∨
        (furtherOn r ps first isGlobal whole n m number).2 = false →
        (furtherOn r ps first isGlobal whole n m number).1 = m.behind := by
      intro m number h
      unfold furtherOn at h ⊢
      split at h
      · exact ih h
      · rename_i hbehind
        rw [ih h, hbehind]
      · rename_i hbehind
        exact hbehind.symm
    rw [substituted_succ] at h ⊢
    cases hsearch : r.searchFrom whole last t with
    | none => rfl
    | some m =>
      obtain ⟨hcut, -⟩ := Regex.searchFrom_spec hsearch
      rw [hsearch] at h
      dsimp only at h ⊢
      by_cases hempty : (m.text.isEmpty && m.before.isEmpty && isBehind) = true
      · rw [if_pos hempty] at h ⊢
        simp only [Bool.and_eq_true, List.isEmpty_iff] at hempty
        rw [hnext m number h, hcut, hempty.1.1, hempty.1.2]
        rfl
      rw [if_neg hempty] at h ⊢
      by_cases hreplaced : number = first ∨ (isGlobal ∧ first < number)
      · rw [if_pos hreplaced] at h ⊢
        -- a replaced match counts, so it is replaced by itself
        have hself : ∀ m, fill m ps = m.text := by
          rcases h with h | h
          · exact h
          · split at h <;> cases h
        cases isGlobal with
        | true =>
          simp only [if_true]
          rw [hnext m (number + 1) (.inl hself), hself, ← hcut]
        | false =>
          simp only [Bool.false_eq_true, if_false]
          rw [hself, ← hcut]
      · rw [if_neg hreplaced] at h ⊢
        rw [hnext m (number + 1) h, ← hcut]

end Substitution

/-! ### Steps -/

theorem printed_output (p : Progress) : p.output <+: p.printed.output :=
  ⟨_, (List.append_assoc ..).symm⟩

theorem apply_output (change : Change) (number : Nat) (p : Progress) :
    p.output <+: (change.apply number p).output := by
  cases change with
  | substitute r ps first isGlobal isPrinted =>
    unfold Change.apply
    dsimp only
    split
    · exact printed_output { p with
        line := (substituted r ps first isGlobal p.line.length (p.line.length + 1) 1 false none
          p.line).1 }
    · exact List.prefix_refl _
  | print => exact printed_output p
  | number => exact List.prefix_append _ _
  | insert t => exact List.prefix_append _ _
  | replace t => exact List.prefix_append _ _
  | translate table => exact List.prefix_refl _
  | delete => exact List.prefix_refl _
  | quit isPrinted status => exact List.prefix_refl _
  | append t => exact List.prefix_refl _

/-- The steps for a line stay the same steps, and what one has written the next ones keep. -/
theorem applySteps_output (number : Nat) (isLast : Bool) (steps : List (Step × Bool))
    (p : Progress) :
    (applySteps number isLast steps p).1.map (·.1) = steps.map (·.1) ∧
      p.output <+: (applySteps number isLast steps p).2.output := by
  induction steps generalizing p with
  | nil => exact ⟨rfl, List.prefix_refl _⟩
  | cons first steps ih =>
    obtain ⟨step, isOpen⟩ := first
    unfold applySteps
    -- the steps behind the end of the work on a line stay as they are
    by_cases hdone : p.isDone
    · rw [if_pos hdone]
      exact ⟨rfl, List.prefix_refl _⟩
    · rw [if_neg hdone]
      dsimp only
      split
      · obtain ⟨hsteps, houtput⟩ := ih (step.change.apply number p)
        exact ⟨congrArg (step :: ·) hsteps, (apply_output step.change number p).trans houtput⟩
      · obtain ⟨hsteps, houtput⟩ := ih p
        exact ⟨congrArg (step :: ·) hsteps, houtput⟩

/-! ### Lines without steps -/

theorem run_nil (isOpen : Bool) (number : Nat) (lines : List Text) :
    run false isOpen [] number lines =
      (if isOpen then (joinLines lines).dropLast else joinLines lines, 0) := by
  induction lines generalizing number with
  | nil => cases isOpen <;> rfl
  | cons line rest ih =>
    simp only [run, applySteps, ih, Progress.printed]
    cases isOpen with
    | false => simp [joinLines]
    | true =>
      cases rest with
      | nil => simp [joinLines]
      | cons next rest =>
        -- more lines follow, so the end that is left out is not the one of this line
        have hne : joinLines (next :: rest) ≠ [] := by simp [joinLines]
        have hlines : joinLines (line :: next :: rest) =
            line ++ ['\n'] ++ joinLines (next :: rest) := rfl
        rw [if_pos rfl, if_pos rfl, hlines, List.dropLast_append_of_ne_nil hne]
        simp

end Edit

/-- Without steps, `sed` passes its input on. -/
theorem sed_input {c : Call} (hargs : c.args = [[]]) :
    sed c = { output := c.input, readsInput := true } := by
  have hoptions : Options.ofArgs "nEru".toList "e".toList
      [("quiet", 'n'), ("silent", 'n'), ("expression", 'e'), ("regexp-extended", 'E')] true [[]] =
        .ok { operands := [[]] } := rfl
  have hsteps : Edit.steps false 1 [] = .ok [] := rfl
  unfold sed withOptions
  rw [hargs, hoptions]
  simp [Options.has, readOperands_nil, namesInput, Edit.run_nil, Except.toOption, Shell.joinWith,
    hsteps]
  exact joinLines_splitLines c.input

end Tool

end CliffordT
