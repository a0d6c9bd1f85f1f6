import CliffordT.Host.Shell.Eval
import CliffordT.Proofs.ShellBuiltins
import CliffordT.Proofs.ToolFiles

/-!
# Scripts go onward

Running a script, however deep its calls go and whatever it jumps out of, leaves a later state
behind.  The functions that run scripts call each other at a smaller bound, so there is one step
for each of them and one induction on the bound for all.

* `Run.OnwardTo` : all of them go onward at a bound,
* `Run.onwardTo` : they do at every bound.
-/

namespace CliffordT

namespace Shell

namespace Run

/-- Whatever runs scripts goes onward at a bound. -/
class OnwardTo (n : Nat) : Prop where
  evaluate : ∀ isTested script, IsOnward (evaluate n isTested script)
  evaluateOne : ∀ isTested script, IsOnward (evaluateOne n isTested script)
  choose : ∀ isTested t branches, IsOnward (choose n isTested t branches)
  handleSignals : IsOnward (handleSignals n)
  inSubshell : ∀ (body : Run Unit) [IsOnward body], IsOnward (inSubshell n body)
  toEnd : ∀ (body : Run Unit) [IsOnward body], IsOnward (toEnd n body)
  runText : ∀ t, IsOnward (runText n t)
  outputOf : ∀ body, IsOnward (outputOf n body)
  pipe : ∀ isTested status input commands, IsOnward (pipe n isTested status input commands)
  simple : ∀ isTested assignments phrases redirections,
    IsOnward (simple n isTested assignments phrases redirections)
  command : ∀ isTested bindings name args, IsOnward (command n isTested bindings name args)
  builtin : ∀ isStrict name args, IsOnward (builtin n isStrict name args)
  replaceBy : ∀ args, IsOnward (replaceBy n args)
  plainCommand : ∀ args, IsOnward (plainCommand n args)
  runFile : ∀ args, IsOnward (runFile n args)
  callFunction : ∀ isTested body args, IsOnward (callFunction n isTested body args)
  external : ∀ name args, IsOnward (external n name args)
  runProgram : ∀ program name args, IsOnward (runProgram n program name args)
  becomeShell : ∀ name args, IsOnward (becomeShell n name args)
  runWithEnvironment : ∀ args, IsOnward (runWithEnvironment n args)
  launch : ∀ before behind name args, IsOnward (launch n before behind name args)
  runWithInput : ∀ args, IsOnward (runWithInput n args)

attribute [instance] OnwardTo.evaluate OnwardTo.evaluateOne OnwardTo.choose
  OnwardTo.handleSignals OnwardTo.inSubshell OnwardTo.toEnd OnwardTo.runText OnwardTo.outputOf
  OnwardTo.pipe OnwardTo.simple OnwardTo.command OnwardTo.builtin OnwardTo.replaceBy
  OnwardTo.plainCommand OnwardTo.runFile OnwardTo.callFunction OnwardTo.external
  OnwardTo.runProgram OnwardTo.becomeShell OnwardTo.runWithEnvironment OnwardTo.launch
  OnwardTo.runWithInput

namespace IsOnward

open Moves (andThen each since afterGet From)

/-! ### What needs no bound -/

instance checkFailure (isTested : Bool) : IsOnward (checkFailure isTested) := by
  unfold Run.checkFailure
  infer_instance

instance lend (binding : Text × Text) : IsOnward (lend binding) := by
  unfold Run.lend
  infer_instance

instance giveBack (lent : List Held) : IsOnward (giveBack lent) := by
  unfold Run.giveBack
  infer_instance

instance environment : IsOnward environment := by
  unfold Run.environment
  infer_instance

instance commandWords (outputOf : Option Script → Run Text) [∀ body, IsOnward (outputOf body)]
    (words : List Text) (phrases : List Phrase) :
    IsOnward (commandWords outputOf words phrases) := by
  induction phrases generalizing words with
  | nil => exact .pure words
  | cons p rest ih =>
    unfold Run.commandWords
    refine andThen _ _ .get fun s => ?_
    dsimp only
    split <;> infer_instance

instance findProgram (name : Text) : IsOnward (findProgram name) := by
  unfold Run.findProgram
  extract_lets behind
  have : ∀ path, IsOnward (behind path) := by
    intro path
    cases path with
    | none => infer_instance
    | some path =>
      refine andThen _ _ (.locate path) fun found => ?_
      split <;> infer_instance
  infer_instance

instance rememberPath (script : Script) : IsOnward (rememberPath script) := by
  unfold Run.rememberPath
  split <;> infer_instance

instance trace (before : List (Nat × Nat)) (words : List Text) : IsOnward (trace before words) := by
  unfold Run.trace
  infer_instance

/-- The commands of a text, by induction on how many of them there may be. -/
instance runCommands (run : Script → Run Unit) [∀ script, IsOnward (run script)] (n : Nat)
    (isFirst : Bool) (source : Source) : IsOnward (runCommands run n isFirst source) := by
  induction n generalizing isFirst source with
  | zero => exact .pure ()
  | succ n ih =>
    unfold Run.runCommands
    refine andThen _ _ .get fun s => ?_
    split <;> infer_instance

instance shellOptions (n : Nat) (words : List Text) : IsOnward (shellOptions n words) := by
  induction n generalizing words with
  | zero => exact .pure _
  | succ n ih =>
    cases words with
    | nil => exact .pure _
    | cons word rest =>
      unfold Run.shellOptions
      split <;> infer_instance

instance inLoop (body : Run Unit) [IsOnward body] : IsOnward (inLoop body) := by
  unfold Run.inLoop
  infer_instance

/-! ### One step for each function -/

section Steps

variable (n : Nat) [OnwardTo n]

theorem evaluate_succ (isTested : Bool) (script : Script) :
    IsOnward (evaluate (n + 1) isTested script) := by
  unfold Run.evaluate
  infer_instance

theorem evaluateOne_succ (isTested : Bool) (script : Script) :
    IsOnward (evaluateOne (n + 1) isTested script) := by
  unfold Run.evaluateOne
  cases script with
  | simple line assignments words redirections => infer_instance
  | pipeline commands => infer_instance
  | sequence first second => infer_instance
  | andThen first second => infer_instance
  | orElse first second => infer_instance
  | negated body => infer_instance
  | background body =>
    -- the number of the job is the one that was looked up before
    refine andThen _ _ inferInstance fun u => afterGet _ fun s => ?_
    exact From.andThen (fun s' hs => hs.count) fun u => since s _
  | subshell line body redirections => infer_instance
  | redirected line body redirections => infer_instance
  | loop untilSuccess condition body => infer_instance
  | each line name words body =>
    refine andThen _ _ inferInstance fun u => ?_
    cases words <;> infer_instance
  | conditional condition yes no => cases no <;> infer_instance
  | choice line subject branches => infer_instance
  | define name body => infer_instance

theorem choose_succ (isTested : Bool) (t : Text) (branches : List Branch) :
    IsOnward (choose (n + 1) isTested t branches) := by
  cases branches with
  | nil =>
    unfold Run.choose
    infer_instance
  | cons branch rest =>
    obtain ⟨patterns, body⟩ := branch
    unfold Run.choose
    cases body <;> infer_instance

theorem handleSignals_succ : IsOnward (handleSignals (n + 1)) := by
  unfold Run.handleSignals
  refine afterGet _ fun s => ?_
  split
  · dsimp only
    refine From.andThen (fun s' hs => State.Onward.raise s _) fun u => ?_
    refine From.andThen (@since _ _ _ s _ (each _ _ _ fun signal u => ?_)) fun u => since s _
    obtain ⟨n, signal⟩ := signal
    refine andThen _ _ .get fun s => ?_
    split <;> infer_instance
  · exact since s _

theorem inSubshell_succ (body : Run Unit) [IsOnward body] :
    IsOnward (inSubshell (n + 1) body) := by
  unfold Run.inSubshell
  refine andThen _ _ .get fun s => ?_
  refine andThen _ _ inferInstance fun u => andThen _ _ inferInstance fun killer => ?_
  refine andThen _ _ .get fun s => ?_
  dsimp only
  refine andThen _ _ inferInstance fun u => ?_
  split <;> infer_instance

theorem toEnd_succ (body : Run Unit) [IsOnward body] : IsOnward (toEnd (n + 1) body) := by
  unfold Run.toEnd
  refine andThen _ _ inferInstance fun jump => ?_
  split
  · infer_instance
  · refine andThen _ _ .get fun s => ?_
    split
    · refine andThen _ _ inferInstance fun u => andThen _ _ inferInstance fun jump => ?_
      split <;> infer_instance
    · infer_instance

theorem runText_succ (t : Text) : IsOnward (runText (n + 1) t) := by
  unfold Run.runText
  infer_instance

theorem outputOf_succ (body : Option Script) : IsOnward (outputOf (n + 1) body) := by
  unfold Run.outputOf
  cases body <;> infer_instance

theorem pipe_succ (isTested : Bool) (status : Nat) (input : Option Nat) (commands : List Script) :
    IsOnward (pipe (n + 1) isTested status input commands) := by
  cases commands with
  | nil =>
    unfold Run.pipe
    infer_instance
  | cons command rest =>
    unfold Run.pipe
    refine andThen _ _ inferInstance fun u => andThen _ _ inferInstance fun u => ?_
    extract_lets connect
    have : IsOnward connect := by cases input <;> infer_instance
    infer_instance

theorem simple_succ (isTested : Bool) (assignments : List Assignment) (phrases : List Phrase)
    (redirections : List Redirection) :
    IsOnward (simple (n + 1) isTested assignments phrases redirections) := by
  unfold Run.simple
  refine andThen _ _ inferInstance fun words => andThen _ _ .get fun s => ?_
  extract_lets before keeps isSpecial body
  have : IsOnward body := by
    refine andThen _ _ inferInstance fun isRedirected => ?_
    split
    · split
      · refine andThen _ _ (@Moves.mapM _ _ _ _ _ (fun a => ?_) assignments) fun shown =>
          inferInstance
        cases a
        infer_instance
      · refine andThen _ _ (@Moves.mapM _ _ _ _ _ (fun a => ?_) assignments) fun bindings =>
          inferInstance
        cases a
        infer_instance
    · infer_instance
  infer_instance

theorem command_succ (isTested : Bool) (bindings : List (Text × Text)) (name : Text)
    (args : List Text) : IsOnward (command (n + 1) isTested bindings name args) := by
  unfold Run.command
  dsimp only
  split
  · infer_instance
  · refine andThen _ _ .get fun s => ?_
    split <;> infer_instance

theorem builtin_succ (isStrict : Bool) (name : Text) (args : List Text) :
    IsOnward (builtin (n + 1) isStrict name args) := by
  unfold Run.builtin
  refine andThen _ _ .get fun s => ?_
  dsimp only
  refine andThen _ _ inferInstance fun u => @Moves.protect _ _ _ _ ?_ inferInstance
  split
  · rename_i action h
    exact of_action? h
  · split <;> infer_instance

theorem replaceBy_succ (args : List Text) : IsOnward (replaceBy (n + 1) args) := by
  cases args with
  | nil =>
    unfold Run.replaceBy
    infer_instance
  | cons name args =>
    unfold Run.replaceBy
    refine andThen _ _ inferInstance fun found => ?_
    split <;> infer_instance

theorem plainCommand_succ (args : List Text) : IsOnward (plainCommand (n + 1) args) := by
  unfold Run.plainCommand
  refine onOptions _ _ _ fun options words => ?_
  split <;> infer_instance

theorem runFile_succ (args : List Text) : IsOnward (runFile (n + 1) args) := by
  cases args with
  | nil =>
    unfold Run.runFile
    infer_instance
  | cons name args =>
    unfold Run.runFile
    dsimp only
    refine andThen _ _ inferInstance fun found => ?_
    split
    · split
      · infer_instance
      · refine andThen _ _ inferInstance fun jump => ?_
        split <;> infer_instance
    · infer_instance
    · infer_instance

theorem callFunction_succ (isTested : Bool) (body : Script) (args : List Text) :
    IsOnward (callFunction (n + 1) isTested body args) := by
  unfold Run.callFunction
  refine andThen _ _ .get fun s => ?_
  extract_lets before behind
  have : ∀ u, IsOnward (behind u) := by
    intro u
    refine andThen _ _ inferInstance fun u => andThen _ _ inferInstance fun jump => ?_
    refine andThen _ _ .get fun s => andThen _ _ inferInstance fun u => ?_
    refine andThen _ _ inferInstance fun u => ?_
    split <;> infer_instance
  split
  · exact andThen _ _ inferInstance this
  · exact this ()

theorem external_succ (name : Text) (args : List Text) :
    IsOnward (external (n + 1) name args) := by
  unfold Run.external
  refine andThen _ _ inferInstance fun found => ?_
  split <;> infer_instance

theorem runProgram_succ (program : String) (name : Text) (args : List Text) :
    IsOnward (runProgram (n + 1) program name args) := by
  unfold Run.runProgram
  split
  · infer_instance
  · split
    · infer_instance
    · split
      · infer_instance
      · split
        · infer_instance
        · -- The tool answers to the files that it was started with, so the answer is compared with
          -- the state before its input is read.
          rename_i tool htool
          refine afterGet _ fun s => From.andThen (since s _) fun input => ?_
          refine From.andThen (since s _) fun size => From.andThen (since s _) fun out => ?_
          refine From.andThen (since s _) fun outer => ?_
          extract_lets answer say change
          have hsay : ∀ u, IsOnward (say u) := fun u => inferInstance
          have hchange : ∀ u, From State.Onward s (change u) := by
            intro u
            dsimp only [change]
            split
            · rename_i files hfiles
              refine From.andThen (fun s' hs => ?_) fun u => @since _ _ _ s _ (hsay u)
              exact hs.setFiles fun h => Tool.isTidy_of_action? htool _ files h hfiles
            · exact @since _ _ _ s _ (hsay ())
          split
          · exact From.andThen (since s _) fun t => hchange ()
          · exact hchange ()

theorem becomeShell_succ (name : Text) (args : List Text) :
    IsOnward (becomeShell (n + 1) name args) := by
  unfold Run.becomeShell
  refine andThen _ _ inferInstance fun settings => afterGet _ fun s => ?_
  refine From.andThen (fun s' hs => hs.count) fun u => @since _ _ _ s _ ?_
  refine andThen _ _ inferInstance fun u => andThen _ _ inferInstance fun found => ?_
  obtain ⟨hasScript, words⟩ := found
  refine andThen _ _ inferInstance fun u => ?_
  dsimp only
  split
  · cases words <;> infer_instance
  · refine andThen _ _ inferInstance fun isAsked => ?_
    split
    · infer_instance
    · refine andThen _ _ inferInstance fun found => ?_
      split <;> infer_instance

theorem runWithEnvironment_succ (args : List Text) :
    IsOnward (runWithEnvironment (n + 1) args) := by
  unfold Run.runWithEnvironment
  dsimp only
  split
  · infer_instance
  · refine @OnwardTo.inSubshell n _ _ (andThen _ _ inferInstance fun u => ?_)
    refine andThen _ _ inferInstance fun u => ?_
    split <;> infer_instance

theorem launch_succ (before behind name : Text) (args : List Text) :
    IsOnward (launch (n + 1) before behind name args) := by
  unfold Run.launch
  extract_lets fail
  have : ∀ status reason, IsOnward (fail status reason) := fun _ _ => inferInstance
  refine andThen _ _ inferInstance fun outer => ?_
  extract_lets directories behind
  have : ∀ path, IsOnward (behind path) := by
    intro path
    cases path with
    | none => infer_instance
    | some path =>
      refine andThen _ _ (.locate path) fun found => ?_
      split <;> infer_instance
  infer_instance

theorem runWithInput_succ (args : List Text) : IsOnward (runWithInput (n + 1) args) := by
  unfold Run.runWithInput
  dsimp only
  split <;> infer_instance

end Steps

end IsOnward

/-! ### All bounds -/

theorem onwardTo_zero : OnwardTo 0 where
  evaluate _ _ := .throw _
  evaluateOne _ _ := .throw _
  choose _ _ _ := .throw _
  handleSignals := .throw _
  inSubshell _ := .throw _
  toEnd _ := .throw _
  runText _ := .throw _
  outputOf _ := .throw _
  pipe _ _ _ _ := .throw _
  simple _ _ _ _ := .throw _
  command _ _ _ _ := .throw _
  builtin _ _ _ := .throw _
  replaceBy _ := .throw _
  plainCommand _ := .throw _
  runFile _ := .throw _
  callFunction _ _ _ := .throw _
  external _ _ := .throw _
  runProgram _ _ _ := .throw _
  becomeShell _ _ := .throw _
  runWithEnvironment _ := .throw _
  launch _ _ _ _ := .throw _
  runWithInput _ := .throw _

theorem onwardTo_succ (n : Nat) [OnwardTo n] : OnwardTo (n + 1) where
  evaluate := IsOnward.evaluate_succ n
  evaluateOne := IsOnward.evaluateOne_succ n
  choose := IsOnward.choose_succ n
  handleSignals := IsOnward.handleSignals_succ n
  inSubshell body := IsOnward.inSubshell_succ n body
  toEnd body := IsOnward.toEnd_succ n body
  runText := IsOnward.runText_succ n
  outputOf := IsOnward.outputOf_succ n
  pipe := IsOnward.pipe_succ n
  simple := IsOnward.simple_succ n
  command := IsOnward.command_succ n
  builtin := IsOnward.builtin_succ n
  replaceBy := IsOnward.replaceBy_succ n
  plainCommand := IsOnward.plainCommand_succ n
  runFile := IsOnward.runFile_succ n
  callFunction := IsOnward.callFunction_succ n
  external := IsOnward.external_succ n
  runProgram := IsOnward.runProgram_succ n
  becomeShell := IsOnward.becomeShell_succ n
  runWithEnvironment := IsOnward.runWithEnvironment_succ n
  launch := IsOnward.launch_succ n
  runWithInput := IsOnward.runWithInput_succ n

instance onwardTo (n : Nat) : OnwardTo n := by
  induction n with
  | zero => exact onwardTo_zero
  | succ n ih => exact onwardTo_succ n

/-- A script does not take back what has been written before it, whatever the script is and however
it ends. -/
theorem evaluate_writtenTo_prefix (n : Nat) (isTested : Bool) (script : Script) (s : State)
    (stream : Nat) :
    writtenTo s stream <+: writtenTo (evaluate n isTested script s).2 stream :=
  IsOnward.writtenTo_prefix (evaluate n isTested script) s stream

/-- A script does not make a place stand for two entries. -/
theorem evaluate_isTable (n : Nat) (isTested : Bool) (script : Script) {s : State}
    (h : s.files.IsTable) : (evaluate n isTested script s).2.files.IsTable :=
  ((OnwardTo.evaluate isTested script).moves s).files h

end Run
end Shell
end CliffordT
