import CliffordT.Host.Sandbox
import CliffordT.Proofs.AngleArgument
import CliffordT.Proofs.ShellEvaluation
import CliffordT.Proofs.ShellTexts
import CliffordT.Proofs.SynthesisOutcome

/-!
# Runs of the small machine

Which programs the machine has, and what their processes leave behind: the answer of the tool that
the program is.

* `Sandbox.locate_programName`, `Sandbox.mem_programNames_of_locate` : the programs found by name,
* `Sandbox.run_of_tool` : a tool's answer is what its process leaves behind,
* `Sandbox.synthesize_echo` : an oracle that runs `echo` answers with its arguments and the angle.
-/

namespace CliffordT

namespace Sandbox

open Shell Shell.Run

/-! ### Programs -/

/-- Every program is found by its name. -/
theorem locate_programName :
    ∀ program ∈ Files.programNames, locate Files.initial (.ofString program) = .ok program := by
  decide +kernel

theorem mem_programNames_of_mem {place : Place} {program : String}
    (h : (place, Entry.program program) ∈ Files.initial) : program ∈ Files.programNames := by
  obtain ⟨⟨names, e⟩, hmem, heq⟩ := List.mem_map.mp h
  obtain rfl : e = .program program := congrArg Prod.snd heq
  rcases List.mem_append.mp hmem with hother | hprogram
  · -- the other entries are directories, devices and a file
    simp at hother
  · obtain ⟨directory, -, hprogram⟩ := List.mem_flatMap.mp hprogram
    obtain ⟨name, hname, heq⟩ := List.mem_map.mp hprogram
    obtain rfl : name = program := Entry.program.inj (congrArg Prod.snd heq)
    exact hname

theorem mem_programNames_of_executable {p : Path} {program : String}
    (h : executable Files.initial p = .ok program) : program ∈ Files.programNames := by
  unfold executable at h
  split at h
  · rename_i hfind
    obtain rfl := Except.ok.inj h
    unfold Files.find at hfind
    cases hlocate : Files.initial.locate Files.workingDirectory p with
    | error e => simp [hlocate, Except.map] at hfind
    | ok found =>
      obtain ⟨place, e⟩ := found
      simp [hlocate, Except.map] at hfind
      subst hfind
      have hfollow := (Files.locate_eq_ok.mp hlocate).2.2
      exact mem_programNames_of_mem (Files.mem_of_lookup (Files.lookup_of_follow hfollow))
  · cases h
  · cases h

/-- What is found is one of the programs. -/
theorem mem_programNames_of_locate {p : Path} {program : String}
    (h : locate Files.initial p = .ok program) : program ∈ Files.programNames := by
  unfold locate at h
  split at h
  · exact mem_programNames_of_executable h
  split at h
  · cases h
  split at h
  · cases h
  dsimp only at h
  split at h
  · rename_i q hfirst
    obtain rfl := Except.ok.inj h
    obtain ⟨r, hr, hq⟩ := List.exists_of_findSome?_eq_some hfirst
    obtain ⟨directory, -, rfl⟩ := List.mem_map.mp hr
    cases hexecutable : executable Files.initial ⟨Files.nameOf directory ++ p.bytes⟩ with
    | error e => simp [hexecutable, Except.toOption] at hq
    | ok found =>
      simp [hexecutable, Except.toOption] at hq
      subst hq
      exact mem_programNames_of_executable hexecutable
  · split at h <;> cases h

/-- Every program is a tool, if it is none of those that run other programs. -/
theorem exists_action :
    ∀ program ∈ Files.programNames,
      program ∈ ["sh", "env", "xargs"] ∨ (Tool.action? program).isSome := by
  decide +kernel

/-! ### Tools -/

/-- What a tool is run with. -/
def callOf (name : Text) (args : List Text) : Tool.Call where
  name := name
  args := args
  input := []
  files := Files.initial
  directory := Files.workingDirectory
  environment :=
    environment.reverse.mergeSort fun a b => Builtin.rowOf 39 a.1 ≤ Builtin.rowOf 39 b.1

/-- The first state with other files, and with pieces written to the two outputs. -/
def stateWith (name : Text) (files : Files) (output complaints : List Text) : Shell.State :=
  { initialState name with
    files, streams := #[.device .null true false, .sink output, .sink complaints] }

theorem environment_apply (name : Text) (args : List Text) :
    Shell.Run.environment (initialState name) =
      (.ok (callOf name args).environment, initialState name) := by
  have hall : (initialState name).settings.reverse.filter
      (fun setting => (initialState name).exported.contains setting.1) = environment.reverse := by
    refine List.filter_eq_self.mpr ?_
    intro setting hsetting
    exact List.contains_iff_mem.mpr (List.mem_map.mpr ⟨setting, List.mem_reverse.mp hsetting, rfl⟩)
  unfold Shell.Run.environment
  rw [bind_apply_of_ok (get_apply _)]
  exact congrArg (fun settings => (Except.ok (settings.mergeSort fun a b =>
    decide (Builtin.rowOf 39 a.1 ≤ Builtin.rowOf 39 b.1)), initialState name)) hall

variable (name : Text) (files : Files) (output complaints : List Text)

theorem write_output (t : Text) : write 1 t (stateWith name files output complaints) =
    (.ok true, stateWith name files (t :: output) complaints) := rfl

theorem write_complaint (t : Text) : write 2 t (stateWith name files output complaints) =
    (.ok true, stateWith name files output (t :: complaints)) := rfl

theorem runProgram_of_tool {program : String} {action : Tool.Action}
    (h : Tool.action? program = some action) (name : Text) (args : List Text) (n : Nat) :
    ∃ files, runProgram (n + 1) program name args (initialState name) =
      (.ok (), { stateWith name files [(action (callOf name args)).output]
        [(action (callOf name args)).complaints] with
        status := (action (callOf name args)).status }) := by
  have hsh : program ≠ "sh" := by rintro rfl; cases h
  have henv : program ≠ "env" := by rintro rfl; cases h
  have hxargs : program ≠ "xargs" := by rintro rfl; cases h
  have hpeek : peekAll 0 (initialState name) = (.ok [], initialState name) := rfl
  have hsize : size? 0 (initialState name) = (.ok none, initialState name) := rfl
  have hout : stream? 1 (initialState name) = (.ok (some (.sink [])), initialState name) := rfl
  have hread : readAll 0 (initialState name) = (.ok [], initialState name) := rfl
  have hcall : ({ name, args, input := [], hasOutput := (some (Stream.sink [])).isSome,
                  files := (initialState name).files, directory := (initialState name).directory,
                  environment := (callOf name args).environment } : Tool.Call) =
      callOf name args := rfl
  unfold runProgram
  rw [if_neg hsh, if_neg henv, if_neg hxargs]
  simp only [h]
  rw [bind_apply_of_ok (get_apply _), bind_apply_of_ok hpeek, bind_apply_of_ok hsize,
    bind_apply_of_ok hout, bind_apply_of_ok (environment_apply name args)]
  simp only [hcall]
  generalize action (callOf name args) = answer
  refine ⟨answer.changed.getD Files.initial, ?_⟩
  -- the answer is written to both sinks, and there is room in them
  have hsay : ∀ files : Files, (do
        let _ ← write 2 answer.complaints
        if ← write 1 answer.output then finish answer.status
        else
          let isClosed := (← stream? 1).isNone
          let _ ← write 2 (name ++ ": write error: ".toList ++
            (if isClosed then "Bad file descriptor\n" else "No space left on device\n").toList)
          finish 1) (stateWith name files [] []) =
        (.ok (), { stateWith name files [answer.output] [answer.complaints] with
          status := answer.status }) := by
    intro files
    rw [bind_apply_of_ok (write_complaint ..), bind_apply_of_ok (write_output ..), if_pos rfl]
    rfl
  have hstart : initialState name = stateWith name Files.initial [] [] := rfl
  split
  · rw [bind_apply_of_ok hread, hstart]
    cases answer.changed with
    | none => exact hsay _
    | some files => exact hsay files
  · cases answer.changed with
    | none => exact hsay _
    | some files => exact hsay files

theorem handleSignals_of_none {s : Shell.State} (h : s.raised = []) (n : Nat) :
    handleSignals (n + 1) s = (.ok (), s) := by
  obtain ⟨process, streams, files, documents, lastNumber, raised⟩ := s
  cases h
  unfold handleSignals
  rw [bind_apply_of_ok (get_apply _)]
  split <;> rfl

theorem toEnd_of_ok {body : Run Unit} {s s' : Shell.State} (h : body s = (.ok (), s'))
    (hraised : s'.raised = []) (htraps : s'.traps = []) (n : Nat) :
    toEnd (n + 2) body s = (.ok none, s') := by
  have hcaught : caught (do body; handleSignals (n + 1)) s = (.ok none, s') := by
    unfold caught
    rw [bind_apply_of_ok h, handleSignals_of_none hraised]
  unfold toEnd
  rw [bind_apply_of_ok hcaught]
  dsimp only
  rw [bind_apply_of_ok (get_apply _), htraps]
  rfl

/-- **What a tool answers is what its process leaves behind.** -/
theorem run_of_tool {program : String} {action : Tool.Action}
    (h : Tool.action? program = some action) (name : Text) (args : List Text) :
    run program name args =
      ⟨.exit (action (callOf name args)).status, toBytes (action (callOf name args)).output,
        toBytes (action (callOf name args)).complaints⟩ := by
  have hsh : program ≠ "sh" := by rintro rfl; cases h
  obtain ⟨files, hrun⟩ := runProgram_of_tool h name args 19999
  have hend : toEnd depth (runProgram depth program name args) (initialState name) = _ :=
    toEnd_of_ok hrun rfl rfl 19998
  generalize action (callOf name args) = answer at hend
  calc run program name args
      = ⟨.exit (answer.status % 256), toBytes [answer.output].reverse.flatten,
          toBytes [answer.complaints].reverse.flatten⟩ := by
        unfold run
        simp only [if_neg hsh]
        rw [bind_apply_of_ok hend]
        rfl
    _ = ⟨.exit answer.status, toBytes answer.output, toBytes answer.complaints⟩ := by
        simp [WaitStatus.exit]

/-- A tool that is asked for by name answers to the texts of the arguments. -/
theorem host_of_tool {program : String} {action : Tool.Action}
    (h : Tool.action? program = some action) (hprogram : program ∈ Files.programNames)
    {args : List String} (hargs : ∀ t ∈ args, '\x00' ∉ t.toList) {answer : Tool.Answer}
    (hanswer : action (callOf (ofString program) (args.map ofString)) = answer) :
    host (.ofString program) args =
      .ok ⟨.exit answer.status, toBytes answer.output, toBytes answer.complaints⟩ := by
  have hname : ∀ program ∈ Files.programNames, 0 ∉ (Path.ofString program).bytes := by
    decide +kernel
  have htexts : ∀ t ∈ args, '\x00' ∉ ofString t := fun t ht hnul =>
    hargs t ht (mem_of_mem_ofString (by decide) hnul)
  unfold host
  rw [if_neg (by simpa using ⟨hname program hprogram, htexts⟩),
    locate_programName program hprogram, ← hanswer, ← run_of_tool h]
  rfl

/-! ### Echoes -/

theorem isEchoOption_ofString {t : String} (h : t.toList.head? ≠ some '-') :
    Tool.isEchoOption (ofString t) = false := by
  unfold Tool.isEchoOption
  split
  · rename_i hdash
    exact absurd (head?_of_head?_ofString (by decide) (by rw [hdash]; rfl)) h
  · rfl

theorem echo_of_words {c : Tool.Call} (h : ∀ word ∈ c.args.head?, Tool.isEchoOption word = false) :
    Tool.echo c = { output := joinWith [' '] c.args ++ ['\n'] } := by
  obtain ⟨name, args, input⟩ := c
  cases args with
  | nil => rfl
  | cons word words =>
    have hword : Tool.isEchoOption word = false := h word rfl
    simp [Tool.echo, hword, closeLine]

/-- The machine's `echo` writes its arguments with blanks between them. -/
theorem host_echo {args : List String} (hargs : ∀ t ∈ args, '\x00' ∉ t.toList)
    (hoption : ∀ t ∈ args.head?, t.toList.head? ≠ some '-') :
    host (.ofString "echo") args =
      .ok ⟨.exit 0, Utf8.encode (" ".intercalate args ++ "\n").toList, []⟩ := by
  have hfirst : ∀ word ∈ (callOf (ofString "echo") (args.map ofString)).args.head?,
      Tool.isEchoOption word = false := by
    intro word hword
    simp only [callOf, List.head?_map, Option.mem_def, Option.map_eq_some_iff] at hword
    obtain ⟨t, ht, rfl⟩ := hword
    exact isEchoOption_ofString (hoption t ht)
  rw [host_of_tool rfl (by decide) hargs (echo_of_words hfirst)]
  have hblank : ofString " " = [' '] := by decide
  have hend : ofString "\n" = ['\n'] := by decide
  rw [← hblank, ← hend, toBytes_append, callOf, toBytes_joinWith_ofString, toBytes_ofString,
    String.toList_append, Utf8.encode_append]
  rfl

theorem nul_not_mem_angleArgument (angle : Binary64) : '\x00' ∉ (angleArgument angle).toList := by
  intro hnul
  obtain ⟨-, hnan, hfinite⟩ := angleArgument_names_rotation angle
  by_cases h : angle.isFinite
  · exact absurd ((hfinite h).1.isDigit _ hnul) (by decide)
  · rw [hnan (Bool.eq_false_iff.mpr h)] at hnul
    exact absurd hnul (by decide)

/-- **An oracle that runs `echo` answers with its arguments and the angle.** -/
theorem synthesize_echo {config : Config} (hprogram : config.program = .ofString "echo")
    (hargs : ∀ t ∈ config.args, '\x00' ∉ t.toList)
    (hoption : ∀ t ∈ config.args.head?, t.toList.head? ≠ some '-') (axis : Axis)
    (angle : Binary64) :
    (Oracle.synthesize (⟨config, host⟩ : ProcessOracle) axis angle).result =
      .ok (" ".intercalate (config.args ++ [angleArgument angle]) ++ "\n") := by
  have hall : ∀ t ∈ config.args ++ [angleArgument angle], '\x00' ∉ t.toList := by
    intro t ht
    rcases List.mem_append.mp ht with ht | ht
    · exact hargs t ht
    · rw [List.mem_singleton.mp ht]
      exact nul_not_mem_angleArgument angle
  -- the angle itself is no option, even if it is the only argument
  have hfirst : ∀ t ∈ (config.args ++ [angleArgument angle]).head?, t.toList.head? ≠ some '-' := by
    intro t ht
    cases hwords : config.args with
    | nil =>
      rw [hwords] at ht
      obtain rfl := Option.some.inj ht
      exact (angleArgument_names_rotation angle).1
    | cons first rest =>
      rw [hwords] at ht hoption
      exact hoption t ht
  have hrun := host_echo hall hfirst
  rw [← hprogram] at hrun
  rw [ProcessOracle.result_of_launched hrun, ProcessOracle.judge_eq_ok_iff]
  exact ⟨rfl, rfl⟩

end Sandbox

end CliffordT
