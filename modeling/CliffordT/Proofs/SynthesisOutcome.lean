import CliffordT.Pipeline.ProcessOracle
import CliffordT.Proofs.InvalidUtf8

/-!
# Outcomes of a synthesis program

A program is launched once for a rotation, with the configured arguments and then the angle.  How it
ends decides the answer: a refused launch comes before a failing status, a failing status before
output that is no text, and what is left is the output, byte for byte.

* `ProcessOracle.complaint_eq_iff` : the complaint of a program is its decoded and trimmed standard
  error output;
* `ProcessOracle.IsReason` : the reason why an output is no text, as it depends on the output;
* `ProcessOracle.judge_eq_failed_iff`, `.judge_eq_ok_iff`, `.judge_eq_output_iff` : the three ways
  in which a program that was launched may have ended;
* `ProcessOracle.synthesize_outcome` : **each outcome arises exactly in its case.**
-/

namespace CliffordT

theorem WaitStatus.isSuccess_iff {s : WaitStatus} : s.isSuccess ↔ s = .exit 0 := by
  obtain ⟨raw⟩ := s
  simp [isSuccess, exit]

namespace ProcessOracle

open Utf8

variable {o : ProcessOracle} {output : ProcessOutput} {name reason text : String}
  {bytes : List UInt8} {status : Option WaitStatus} {program : Path} {cause : SystemError}

/-! ### The parts of an answer -/

/-- The complaint of a program is its standard error output, with U+FFFD for each maximal part that
is not valid, and without the white space at its two ends. -/
theorem complaint_eq_iff :
    complaint output = text ↔ ∃ cs, Replaces output.stderr cs ∧ IsTrimmed cs text.toList := by
  simp only [replaces_iff, exists_eq_left, isTrimmed_iff]
  constructor
  · rintro rfl
    exact String.toList_ofList
  · intro h
    rw [complaint, ← h, String.ofList_toList]

/-- The reason why bytes are no text: they stop being one behind the longest valid prefix, where
they are either not yet a character or begin with bytes of none. -/
def IsReason (bytes : List UInt8) (reason : String) : Prop :=
  ∃ n, IsLongestText bytes n ∧
    (IsUnfinished (bytes.drop n) →
      reason = "incomplete utf-8 byte sequence from index " ++ toString n) ∧
    (¬ IsUnfinished (bytes.drop n) → ∃ part, IsMaximalPart (bytes.drop n) part ∧
      reason = "invalid utf-8 sequence of " ++ toString part.length ++ " bytes from index " ++
        toString n)

theorem isReason_iff : IsReason bytes reason ↔
    ∃ fault : Fault, fault.Describes bytes ∧ reason = fault.message := by
  constructor
  · rintro ⟨n, hlongest, hincomplete, hinvalid⟩
    -- the bytes run out in the middle of a character, or one is out of its range
    by_cases h : IsUnfinished (bytes.drop n)
    · exact ⟨.incomplete n, ⟨hlongest, h⟩, hincomplete h⟩
    · obtain ⟨part, hpart, hreason⟩ := hinvalid h
      exact ⟨.invalid n part.length, ⟨hlongest, h, part, hpart, rfl⟩, hreason⟩
  · rintro ⟨fault, hfault, rfl⟩
    cases fault with
    | invalid n length =>
      obtain ⟨hlongest, hbroken, part, hpart, rfl⟩ := hfault
      exact ⟨n, hlongest, fun h => absurd h hbroken, fun _ => ⟨part, hpart, rfl⟩⟩
    | incomplete n =>
      obtain ⟨hlongest, hunfinished⟩ := hfault
      exact ⟨n, hlongest, fun _ => rfl, fun h => absurd hunfinished h⟩

/-! ### The end of a program -/

theorem judge_of_success (h : output.status = .exit 0) :
    o.judge output = match decode output.stdout with
      | .ok cs => .ok (String.ofList cs)
      | .error fault => .error (.oracleOutput o.name fault.message) := by
  have hsuccess : output.status.isSuccess := WaitStatus.isSuccess_iff.2 h
  cases hdecode : decode output.stdout <;> simp [judge, hsuccess, hdecode]

theorem judge_of_failure (h : output.status ≠ .exit 0) :
    o.judge output = .error (.oracleFailed o.name (some output.status) (complaint output)) := by
  rw [judge, if_neg fun hsuccess => h (WaitStatus.isSuccess_iff.1 hsuccess)]

/-- A failing status is reported whatever the output is. -/
theorem judge_eq_failed_iff : o.judge output = .error (.oracleFailed name status text) ↔
    output.status ≠ .exit 0 ∧ name = o.name ∧ status = some output.status ∧
      ∃ cs, Replaces output.stderr cs ∧ IsTrimmed cs text.toList := by
  rw [← complaint_eq_iff]
  by_cases h : output.status = .exit 0
  · rw [judge_of_success h]
    cases decode output.stdout <;> simp [h]
  · rw [judge_of_failure h]
    simp [h, eq_comm]

/-- The answer is the output, byte for byte. -/
theorem judge_eq_ok_iff : o.judge output = .ok text ↔
    output.status = .exit 0 ∧ output.stdout = encode text.toList := by
  by_cases h : output.status = .exit 0
  · rw [judge_of_success h, ← decode_eq_ok_iff]
    cases hdecode : decode output.stdout with
    | error fault => simp
    | ok cs =>
      simp only [h, Except.ok.injEq, true_and]
      constructor
      · rintro rfl
        exact String.toList_ofList.symm
      · rintro rfl
        exact String.ofList_toList
  · rw [judge_of_failure h]
    simp [h]

/-- The output of a program that succeeded may be no text. -/
theorem judge_eq_output_iff : o.judge output = .error (.oracleOutput name reason) ↔
    output.status = .exit 0 ∧ ¬ IsText output.stdout ∧ name = o.name ∧
      IsReason output.stdout reason := by
  by_cases h : output.status = .exit 0
  · rw [judge_of_success h, isReason_iff]
    cases hdecode : decode output.stdout with
    | ok cs => simp [isText_iff, hdecode]
    | error fault =>
      obtain ⟨htext, hfault⟩ := decode_eq_error_iff.1 hdecode
      simp only [h, htext, Except.error.injEq, PipelineError.oracleOutput.injEq, true_and,
        not_false_eq_true]
      constructor
      · rintro ⟨rfl, rfl⟩
        exact ⟨rfl, fault, hfault, rfl⟩
      · rintro ⟨rfl, fault', hfault', rfl⟩
        rw [hfault.unique hfault']
        exact ⟨rfl, rfl⟩
  · rw [judge_of_failure h]
    simp [h]

theorem judge_cases (o : ProcessOracle) (output : ProcessOutput) :
    (∃ name status text, o.judge output = .error (.oracleFailed name status text)) ∨
    (∃ text, o.judge output = .ok text) ∨
    ∃ name reason, o.judge output = .error (.oracleOutput name reason) := by
  by_cases h : output.status = .exit 0
  · rw [judge_of_success h]
    cases decode output.stdout <;> simp
  · rw [judge_of_failure h]
    simp

/-! ### Launches -/

theorem result_of_refused {axis : Axis} {angle : Binary64}
    (h : o.host o.config.program (o.config.args ++ [angleArgument angle]) = .error cause) :
    (Oracle.synthesize o axis angle).result = .error (.oracleLaunch o.config.program cause) := by
  simp only [Oracle.synthesize, run, arguments, h]

theorem result_of_launched {axis : Axis} {angle : Binary64}
    (h : o.host o.config.program (o.config.args ++ [angleArgument angle]) = .ok output) :
    (Oracle.synthesize o axis angle).result = o.judge output := by
  simp only [Oracle.synthesize, run, arguments, h]

/-- **Each outcome of a synthesis program arises exactly in its case.**  The answer depends on one
launch only, that of the configured program with the configured arguments and the text of the angle
behind them, and not on the axis.  It is a launch fault if and only if the launch is refused.
Otherwise it is a failure if and only if the status is not that of success, whatever the output is,
and tells the standard error output, decoded and trimmed; it is the output if and only if that is
valid UTF-8, byte for byte; and in the remaining case it tells where the longest valid prefix of the
output ends, and whether the rest of a character is missing there. -/
theorem synthesize_outcome (o : ProcessOracle) (axis : Axis) (angle : Binary64) :
    (∀ host' axis', host' o.config.program (o.config.args ++ [angleArgument angle]) =
        o.host o.config.program (o.config.args ++ [angleArgument angle]) →
      (Oracle.synthesize { o with host := host' } axis' angle).result =
        (Oracle.synthesize o axis angle).result) ∧
    (∀ program cause,
      (Oracle.synthesize o axis angle).result = .error (.oracleLaunch program cause) ↔
        program = o.config.program ∧
        o.host o.config.program (o.config.args ++ [angleArgument angle]) = .error cause) ∧
    ∀ output, o.host o.config.program (o.config.args ++ [angleArgument angle]) = .ok output →
      ((∃ name status text,
          (Oracle.synthesize o axis angle).result = .error (.oracleFailed name status text)) ∨
        (∃ text, (Oracle.synthesize o axis angle).result = .ok text) ∨
        ∃ name reason,
          (Oracle.synthesize o axis angle).result = .error (.oracleOutput name reason)) ∧
      (∀ name status text,
        (Oracle.synthesize o axis angle).result = .error (.oracleFailed name status text) ↔
          output.status ≠ .exit 0 ∧ name = o.name ∧ status = some output.status ∧
            ∃ cs, Replaces output.stderr cs ∧ IsTrimmed cs text.toList) ∧
      (∀ text, (Oracle.synthesize o axis angle).result = .ok text ↔
        output.status = .exit 0 ∧ output.stdout = encode text.toList) ∧
      ∀ name reason,
        (Oracle.synthesize o axis angle).result = .error (.oracleOutput name reason) ↔
          output.status = .exit 0 ∧ ¬ IsText output.stdout ∧ name = o.name ∧
            IsReason output.stdout reason := by
  refine ⟨fun host' axis' hhost => ?_, fun program cause => ?_, fun output hlaunched => ?_⟩
  · cases hlaunched : o.host o.config.program (o.config.args ++ [angleArgument angle]) with
    | error cause =>
      rw [result_of_refused hlaunched, result_of_refused (hhost.trans hlaunched)]
    | ok output =>
      rw [result_of_launched hlaunched, result_of_launched (hhost.trans hlaunched)]
      rfl
  · cases hlaunched : o.host o.config.program (o.config.args ++ [angleArgument angle]) with
    | error cause' =>
      rw [result_of_refused hlaunched]
      simp [eq_comm]
    | ok output =>
      rw [result_of_launched hlaunched]
      rcases judge_cases o output with ⟨_, _, _, h⟩ | ⟨_, h⟩ | ⟨_, _, h⟩ <;> simp [h]
  · rw [result_of_launched hlaunched]
    exact ⟨judge_cases o output, fun _ _ _ => judge_eq_failed_iff, fun _ => judge_eq_ok_iff,
      fun _ _ => judge_eq_output_iff⟩

/-- A machine on which programs print their last argument, and some bytes behind it. -/
def printingHost (status : WaitStatus) (bytes complaint : List UInt8) : Host :=
  fun _ args => .ok ⟨status, encode (args.getLastD "").toList ++ bytes, complaint⟩

/-- A program that is not there, one that prints the angle of a turn backwards and succeeds, one
that prints it and fails, one that prints half a character behind it, and one that prints a
surrogate there. -/
theorem synthesize_outcome_five_programs :
    let half : Binary64 := ⟨0x3fe0000000000000⟩
    let minusHalf : Binary64 := ⟨0xbfe0000000000000⟩
    (Oracle.synthesize (⟨.standard, fun _ _ => .error .notFound⟩ : ProcessOracle) .z half).result =
      .error (.oracleLaunch (.ofString "./gridsynth") .notFound) ∧
    (Oracle.synthesize (⟨.standard, printingHost (.exit 0) [0x0a] []⟩ : ProcessOracle)
      .z minusHalf).result = .ok "12.066370614359172\n" ∧
    (Oracle.synthesize (⟨.standard, printingHost (.exit 3) [] [0x20, 0xff, 0x21, 0x20, 0xe2, 0x82,
      0x0a]⟩ : ProcessOracle) .x minusHalf).result =
        .error (.oracleFailed "./gridsynth" (some (.exit 3)) "\uFFFD! \uFFFD") ∧
    (Oracle.synthesize (⟨.standard, printingHost (.exit 0) [0xe2, 0x82] []⟩ : ProcessOracle)
      .y half).result =
        .error (.oracleOutput "./gridsynth" "incomplete utf-8 byte sequence from index 3") ∧
    (Oracle.synthesize (⟨.standard, printingHost (.exit 0) [0xed, 0xa0, 0x80] []⟩ : ProcessOracle)
      .y .zero).result =
        .error (.oracleOutput "./gridsynth"
          "invalid utf-8 sequence of 1 bytes from index 1") := by
  intro half minusHalf
  have hname : ∀ host, "./gridsynth" = (⟨.standard, host⟩ : ProcessOracle).name := by
    have hprogram : "./gridsynth" = Config.standard.program.text := by decide +kernel
    exact fun _ => hprogram
  refine ⟨?_, ?_, ?_, ?_, ?_⟩
  · exact ((synthesize_outcome _ _ _).2.1 _ _).2 ⟨rfl, rfl⟩
  · have houtcome := synthesize_outcome ⟨.standard, printingHost (.exit 0) [0x0a] []⟩ .z minusHalf
    obtain ⟨-, -, hok, -⟩ := houtcome.2.2 _ rfl
    exact (hok _).2 ⟨rfl, by decide +kernel⟩
  · have houtcome := synthesize_outcome ⟨.standard, printingHost (.exit 3) []
      [0x20, 0xff, 0x21, 0x20, 0xe2, 0x82, 0x0a]⟩ .x minusHalf
    obtain ⟨-, hfailed, -⟩ := houtcome.2.2 _ rfl
    exact (hfailed _ _ _).2
      ⟨by decide, hname _, rfl, _, replaces_lossy _, isTrimmed_iff.2 (by decide +kernel)⟩
  · have houtcome := synthesize_outcome ⟨.standard, printingHost (.exit 0) [0xe2, 0x82] []⟩ .y half
    have hfault : decode (encode (angleArgument half).toList ++ [0xe2, 0x82]) =
        .error (.incomplete 3) := by decide +kernel
    obtain ⟨-, -, -, houtput⟩ := houtcome.2.2 _ rfl
    obtain ⟨htext, hdescribes⟩ := decode_eq_error_iff.1 hfault
    exact (houtput _ _).2 ⟨rfl, htext, hname _, isReason_iff.2 ⟨_, hdescribes, by decide +kernel⟩⟩
  · have houtcome := synthesize_outcome ⟨.standard, printingHost (.exit 0) [0xed, 0xa0, 0x80] []⟩
      .y .zero
    have hfault : decode (encode (angleArgument .zero).toList ++ [0xed, 0xa0, 0x80]) =
        .error (.invalid 1 1) := by decide +kernel
    obtain ⟨-, -, -, houtput⟩ := houtcome.2.2 _ rfl
    obtain ⟨htext, hdescribes⟩ := decode_eq_error_iff.1 hfault
    exact (houtput _ _).2 ⟨rfl, htext, hname _, isReason_iff.2 ⟨_, hdescribes, by decide +kernel⟩⟩

end ProcessOracle

end CliffordT
