import CliffordT.Host.Shell.Format
import CliffordT.Proofs.ShellTexts

/-!
# Formats filled in

* `Conversion.length_pad` : what is laid out is as wide as asked for, or as it is itself,
* `Conversion.layoutSigned_plain` : integers without flags,
* `Printing.run_plain` : a format without conversions is written as it stands,
* `Printing.run_wordLine` : a format is used again until no arguments are left.
-/

namespace CliffordT

namespace Shell

namespace Conversion

theorem length_pad (c : Conversion) (sign body : Text) (zeros : Bool) :
    (c.pad sign body zeros).length = max c.width (sign.length + body.length) := by
  unfold pad
  split
  · simp
    omega
  split <;> simp <;> omega

theorem pad_of_width_zero {c : Conversion} (h : c.width = 0) (sign body : Text) (zeros : Bool) :
    c.pad sign body zeros = sign ++ body := by
  unfold pad
  rw [h, Nat.zero_sub]
  split
  · simp
  split <;> simp

theorem layoutText_plain (t : Text) : layoutText {} t = t :=
  pad_of_width_zero (c := {}) rfl [] t false

/-- Integers are laid out in base ten. -/
theorem layoutSigned_plain (i : Int) : layoutSigned {} i = signedDecimal i := by
  have hdigits : ∀ n : Nat, digits {} 10 n = decimal n := by
    intro n
    have hpos := List.length_pos_of_ne_nil (decimal_ne_nil n)
    have hnone : 1 - (decimal n).length = 0 := by omega
    simp only [digits, Option.getD_none, reduceCtorEq, and_false, if_false]
    exact congrArg (List.replicate · '0' ++ decimal n) hnone
  unfold layoutSigned signedDecimal
  rw [pad_of_width_zero (c := {}) rfl, hdigits]
  by_cases h : i < 0 <;> simp [h, signOf]

end Conversion

namespace Printing

theorem write_write (p : Printing) (s t : Text) : (p.write s).write t = p.write (s ++ t) := by
  simp [write]

theorem pass_plain {format : Text} (h : ∀ c ∈ format, c ≠ '%' ∧ c ≠ '\\') {n : Nat}
    (hn : format.length ≤ n) (p : Printing) : pass n format p = p.write format := by
  induction format generalizing n p with
  | nil => cases n <;> simp [pass, write]
  | cons c format ih =>
    obtain ⟨hpercent, hbackslash⟩ := h c List.mem_cons_self
    cases n with
    | zero => cases hn
    | succ n =>
      have hstep : pass (n + 1) (c :: format) p = pass n format (p.write [c]) := by
        simp [pass, hpercent]
      rw [hstep, ih (fun d hd => h d (List.mem_cons_of_mem _ hd)) (Nat.le_of_succ_le_succ hn),
        write_write]
      rfl

/-- A format without conversions is written as it stands. -/
theorem run_plain {format : Text} (h : ∀ c ∈ format, c ≠ '%' ∧ c ≠ '\\') (args : List Text) :
    run format args = { args, output := format } := by
  have hpass := pass_plain h (Nat.le_succ _) { args }
  unfold run passes
  rw [hpass]
  cases args <;> simp [write]

/-- The format of a word on a line of its own. -/
def wordLine : Text := ['%', 's', '\\', 'n']

theorem pass_wordLine (word : Text) (args : List Text) (output : Text) :
    pass 5 wordLine { args := word :: args, output } =
      { args, output := output ++ (word ++ ['\n']) } := by
  have hstep : pass 5 wordLine { args := word :: args, output } =
      { args, output := output ++ Conversion.layoutText {} word ++ ['\n'] } := rfl
  rw [hstep, Conversion.layoutText_plain, List.append_assoc]

theorem passes_wordLine {n : Nat} {args : List Text} (hn : args.length ≤ n + 1) (h : args ≠ [])
    (output : Text) :
    passes n wordLine { args, output } = { args := [], output := output ++ joinLines args } := by
  induction args generalizing n output with
  | nil => exact absurd rfl h
  | cons word args ih =>
    unfold passes
    rw [show wordLine.length + 1 = 5 from rfl, pass_wordLine]
    cases args with
    | nil => cases n <;> simp [joinLines]
    | cons next args =>
      cases n with
      | zero => simp at hn
      | succ n =>
        rw [List.length_cons, Nat.add_le_add_iff_right] at hn
        have hrest := ih hn (List.cons_ne_nil _ _) (output ++ (word ++ ['\n']))
        simp [hrest, joinLines]

/-- A format is used again until no arguments are left. -/
theorem run_wordLine {args : List Text} (h : args ≠ []) :
    run wordLine args = { args := [], output := joinLines args } :=
  passes_wordLine (Nat.le_succ _) h []

end Printing

end Shell

end CliffordT
