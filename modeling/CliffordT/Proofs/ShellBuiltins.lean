import CliffordT.Host.Shell.Builtin
import CliffordT.Host.Shell.Redirection
import CliffordT.Proofs.ShellRuns

/-!
# Words, redirections and builtin commands go onward

What a script may ask the shell to do without running another script: none of it takes back
output or loses a stream, whatever the arguments are.

* `Run.IsOnward.atoms` : what the pieces of a word stand for,
* `Run.IsOnward.redirectAll` : redirections,
* `Run.IsOnward.of_action?` : the builtin commands.
-/

namespace CliffordT

namespace Shell

namespace Run

namespace IsOnward

open Moves (andThen each since afterGet From)

/-! ### Parameters -/

instance valueOf (name : Text) : IsOnward (valueOf name) := by
  unfold Run.valueOf
  refine andThen _ _ .get fun s => ?_
  dsimp only
  split <;> try infer_instance
  split <;> infer_instance

instance separators : IsOnward separators := by
  unfold Run.separators
  infer_instance

instance joint : IsOnward joint := by
  unfold Run.joint
  infer_instance

instance joinedValue (v : Value) : IsOnward (joinedValue v) := by
  cases v <;> (unfold Run.joinedValue; infer_instance)

instance valueAtoms (inQuotes : Bool) (v : Value) : IsOnward (valueAtoms inQuotes v) := by
  cases v <;> (unfold Run.valueAtoms; infer_instance)

instance isMissing (orEmpty : Bool) (v : Value) : IsOnward (isMissing orEmpty v) := by
  cases v <;> (unfold Run.isMissing; infer_instance)

instance demandSet (name : Text) (v : Value) : IsOnward (demandSet name v) := by
  unfold Run.demandSet
  infer_instance

instance calculate (t : Text) : IsOnward (calculate t) := by
  unfold Run.calculate
  refine andThen _ _ .get fun s => ?_
  dsimp only
  split <;> infer_instance

instance expandTildes (inValue : Bool) (p : Phrase) : IsOnward (expandTildes inValue p) := by
  unfold Run.expandTildes
  infer_instance

/-! ### Words -/

section Words

variable (outputOf : Option Script → Run Text) [∀ body, IsOnward (outputOf body)]

/-- The parts that pieces stand for, by induction on the depth of pieces in each other: one case for
each kind of piece, and one for each treatment of a parameter. -/
instance atoms (n : Nat) (inBraces : Bool) (pieces : Phrase) :
    IsOnward (atoms outputOf n inBraces pieces) := by
  induction n generalizing inBraces pieces with
  | zero => exact .pure []
  | succ n ih =>
    unfold Run.atoms
    refine andThen _ _ (@Moves.mapM _ _ _ _ _ (fun piece => ?_) pieces) fun parts => .pure _
    cases piece with
    | chars inQuotes t => exact .pure _
    | output inQuotes body => infer_instance
    | sum inQuotes expression => infer_instance
    | parameter inQuotes name treatment operand =>
      refine andThen _ _ (valueOf name) fun v => ?_
      cases treatment <;> infer_instance

instance text (p : Phrase) : IsOnward (text outputOf p) := by
  unfold Run.text
  infer_instance

instance settingText (p : Phrase) : IsOnward (settingText outputOf p) := by
  unfold Run.settingText
  infer_instance

instance pattern (p : Phrase) : IsOnward (pattern outputOf p) := by
  unfold Run.pattern
  infer_instance

instance paths (ms : List Marked) : IsOnward (paths ms) := by
  unfold Run.paths
  infer_instance

instance fields (p : Phrase) : IsOnward (fields outputOf p) := by
  unfold Run.fields
  infer_instance

end Words

/-! ### Redirections -/

instance openInput (t : Text) : IsOnward (openInput t) := by
  unfold Run.openInput
  refine andThen _ _ (.locate t) fun found => ?_
  split <;> infer_instance

instance openOutput (kind : Redirect) (t : Text) : IsOnward (openOutput kind t) := by
  unfold Run.openOutput
  dsimp only
  refine andThen _ _ (.locate t) fun found => ?_
  split <;> try infer_instance
  · split <;> infer_instance
  · refine andThen _ _ .get fun s => ?_
    split <;> infer_instance

instance copyDescriptor (descriptor source : Nat) :
    IsOnward (copyDescriptor descriptor source) := by
  unfold Run.copyDescriptor
  refine andThen _ _ inferInstance fun n => ?_
  split <;> infer_instance

section Redirections

variable (outputOf : Option Script → Run Text) [∀ body, IsOnward (outputOf body)]

instance redirectOne (r : Redirection) : IsOnward (redirectOne outputOf r) := by
  cases r with
  | document descriptor number =>
    unfold Run.redirectOne
    infer_instance
  | file descriptor kind target =>
    unfold Run.redirectOne
    refine andThen _ _ inferInstance fun t => ?_
    split
    · split <;> infer_instance
    · split
      · infer_instance
      · dsimp only
        split
        all_goals
          refine andThen _ _ ?_ fun found => ?_
          · infer_instance
          · split <;> infer_instance

instance redirectAll (redirections : List Redirection) :
    IsOnward (redirectAll outputOf redirections) := by
  induction redirections with
  | nil => exact .pure true
  | cons r rest ih =>
    unfold Run.redirectAll
    refine andThen _ _ inferInstance fun result => ?_
    split <;> infer_instance

end Redirections

instance restoreDescriptors (descriptors : List (Nat × Nat)) :
    IsOnward (restoreDescriptors descriptors) := modifyProcess _

/-! ### Builtin commands -/

instance succeed : IsOnward Builtin.succeed := finish 0

instance sayAndFinish (status : Nat) (t : Text) : IsOnward (Builtin.sayAndFinish status t) := by
  unfold Builtin.sayAndFinish
  infer_instance

instance say (t : Text) : IsOnward (Builtin.say t) := sayAndFinish 0 t

instance refuseNumber (t : Text) : IsOnward (Builtin.refuseNumber t) := refuse _

theorem onOptions (letters : String) (args : List Text) (run : List Char → List Text → Run Unit)
    (h : ∀ options args, IsOnward (run options args)) :
    IsOnward (Builtin.withOptions letters args run) := by
  unfold Builtin.withOptions
  split <;> infer_instance

instance exit (args : List Text) : IsOnward (Builtin.exit args) := by
  cases args with
  | nil => exact .throw .exit
  | cons arg rest =>
    unfold Builtin.exit
    dsimp only
    split <;> infer_instance

instance leave (args : List Text) : IsOnward (Builtin.leave args) := by
  cases args with
  | nil => exact .throw .leave
  | cons arg rest =>
    unfold Builtin.leave
    dsimp only
    split <;> infer_instance

instance leaveLoops (jump : Nat → Jump) (args : List Text) :
    IsOnward (Builtin.leaveLoops jump args) := by
  unfold Builtin.leaveLoops
  dsimp only
  split <;> infer_instance

instance shift (args : List Text) : IsOnward (Builtin.shift args) := by
  unfold Builtin.shift
  dsimp only
  split <;> infer_instance

instance markNames (head : String) (marked : Process → List Text)
    (mark : Text → Process → Process) (args : List Text) :
    IsOnward (Builtin.markNames head marked mark args) := by
  unfold Builtin.markNames
  refine onOptions _ _ _ fun options args => ?_
  split
  · infer_instance
  · refine andThen _ _ (each _ _ _ fun arg u => ?_) fun u => succeed
    dsimp only
    split
    · refine andThen _ _ (refuse _) fun u => ?_
      split <;> infer_instance
    · split <;> infer_instance

instance unsetNames (args : List Text) : IsOnward (Builtin.unsetNames args) := by
  refine onOptions _ _ _ fun options args => andThen _ _ ?_ fun u => succeed
  infer_instance

instance declareLocal (args : List Text) : IsOnward (Builtin.declareLocal args) := by
  unfold Builtin.declareLocal
  refine andThen _ _ .get fun s => ?_
  split
  · infer_instance
  · refine andThen _ _ (each _ _ _ fun arg u => ?_) fun u => succeed
    refine andThen _ _ (.hold _) fun held => andThen _ _ (modifyProcess _) fun u => ?_
    split <;> infer_instance

instance switch (isOn : Bool) (c : Char) : IsOnward (Builtin.switch isOn c) := modifyProcess _

instance switchAll (isOn : Bool) (letters : Text) (rest : List Text) :
    IsOnward (Builtin.switchAll isOn letters rest) := by
  fun_induction Builtin.switchAll isOn letters rest <;> infer_instance

instance setWords (n : Nat) (words : List Text) : IsOnward (Builtin.setWords n words) := by
  induction n generalizing words with
  | zero => cases words <;> exact succeed
  | succ n ih =>
    cases words with
    | nil => exact succeed
    | cons word rest =>
      unfold Builtin.setWords
      dsimp only
      split <;> infer_instance

instance set (args : List Text) : IsOnward (Builtin.set args) := by
  unfold Builtin.set
  infer_instance

instance getOptions (args : List Text) : IsOnward (Builtin.getOptions args) := by
  unfold Builtin.getOptions
  split
  · refine andThen _ _ .get fun s => ?_
    dsimp only
    repeat' first | infer_instance | split
  · infer_instance

instance echo (args : List Text) : IsOnward (Builtin.echo args) := say _

instance printFormat (args : List Text) : IsOnward (Builtin.printFormat args) := by
  refine onOptions _ _ _ fun options args => ?_
  split
  · infer_instance
  · dsimp only
    refine andThen _ _ inferInstance fun u => ?_
    split <;> infer_instance

instance test (args : List Text) : IsOnward (Builtin.test args) := by
  unfold Builtin.test
  refine andThen _ _ .get fun s => ?_
  split <;> infer_instance

instance bracket (args : List Text) : IsOnward (Builtin.bracket args) := by
  unfold Builtin.bracket
  infer_instance

instance assignWords (separators : Text) (names : List Text) (ms : List Marked) :
    IsOnward (Builtin.assignWords separators names ms) := by
  fun_induction Builtin.assignWords separators names ms <;> infer_instance

instance readLine (args : List Text) : IsOnward (Builtin.readLine args) := by
  unfold Builtin.readLine
  refine onOptions _ _ _ fun options names => ?_
  split <;> infer_instance

instance changeDirectory (args : List Text) : IsOnward (Builtin.changeDirectory args) := by
  refine onOptions _ _ _ fun options args => andThen _ _ .get fun s => ?_
  dsimp only
  split
  all_goals
    split
    all_goals
      refine andThen _ _ ?_ fun found => ?_
      · infer_instance
      · split <;> infer_instance

instance printDirectory (args : List Text) : IsOnward (Builtin.printDirectory args) :=
  onOptions _ _ _ inferInstance

/-! ### Names of commands -/

instance programIn? (directories : List Text) (name : Text) :
    IsOnward (Builtin.programIn? directories name) := by
  unfold Builtin.programIn?
  infer_instance

instance isNamed (directories : List Text) (name : Text) :
    IsOnward (Builtin.isNamed directories name) := by
  unfold Builtin.isNamed
  infer_instance

instance programPath? (name : Text) : IsOnward (Builtin.programPath? name) := by
  unfold Builtin.programPath?
  refine andThen _ _ inferInstance fun directories => ?_
  split <;> infer_instance

instance meaningOf (name : Text) : IsOnward (Builtin.meaningOf name) := by
  unfold Builtin.meaningOf
  refine andThen _ _ .get fun s => ?_
  split
  · infer_instance
  · split
    · infer_instance
    · repeat' first
        | infer_instance
        | split
        | refine andThen _ _ inferInstance fun found => ?_

instance describeName (inFull : Bool) (name : Text) :
    IsOnward (Builtin.describeName inFull name) := by
  unfold Builtin.describeName
  refine andThen _ _ inferInstance fun meaning => ?_
  dsimp only
  split <;> infer_instance

instance describeNames (inFull : Bool) (names : List Text) :
    IsOnward (Builtin.describeNames inFull names) := by
  unfold Builtin.describeNames
  infer_instance

instance setAliases (args : List Text) : IsOnward (Builtin.setAliases args) := by
  unfold Builtin.setAliases
  refine andThen _ _ .get fun s => ?_
  split
  · infer_instance
  · refine andThen _ _ (finish 0) fun u =>
      andThen _ _ (each _ _ _ fun arg u => ?_) fun u => .pure ()
    split
    · infer_instance
    · refine andThen _ _ .get fun s => ?_
      split <;> infer_instance

instance unsetAliases (args : List Text) : IsOnward (Builtin.unsetAliases args) := by
  refine onOptions _ _ _ fun options args => andThen _ _ (finish 0) fun u => ?_
  infer_instance

instance hash (args : List Text) : IsOnward (Builtin.hash args) := by
  refine onOptions _ _ _ fun options names => andThen _ _ (finish 0) fun u => ?_
  split
  · infer_instance
  · split
    · infer_instance
    · refine andThen _ _ (each _ _ _ fun name u => ?_) fun u => .pure ()
      refine andThen _ _ (meaningOf name) fun meaning => ?_
      split <;> infer_instance

/-! ### Signals and processes -/

instance arrange (action : Option Text) (words : List Text) :
    IsOnward (Builtin.arrange action words) := by
  induction words with
  | nil => exact finish 0
  | cons word rest ih =>
    unfold Builtin.arrange
    split <;> infer_instance

instance trap (args : List Text) : IsOnward (Builtin.trap args) := by
  refine onOptions _ _ _ fun options args => ?_
  split <;> infer_instance

instance wait (args : List Text) : IsOnward (Builtin.wait args) := by
  cases args with
  | nil => exact succeed
  | cons arg rest =>
    unfold Builtin.wait
    dsimp only
    split <;> infer_instance

instance send (signal number : Nat) : IsOnward (Builtin.send signal number) := by
  unfold Builtin.send
  refine andThen _ _ .get fun s => ?_
  dsimp only
  infer_instance

instance sendAll (signal : Nat) (args : List Text) : IsOnward (Builtin.sendAll signal args) := by
  induction args with
  | nil => exact .pure ()
  | cons arg rest ih =>
    unfold Builtin.sendAll
    split <;> infer_instance

instance kill (args : List Text) : IsOnward (Builtin.kill args) := by
  unfold Builtin.kill
  dsimp only
  repeat' first | infer_instance | split

instance umask (args : List Text) : IsOnward (Builtin.umask args) := by
  refine onOptions _ _ _ fun options args => andThen _ _ .get fun s => ?_
  dsimp only
  repeat' first | infer_instance | split

instance limit (args : List Text) : IsOnward (Builtin.limit args) := by
  refine onOptions _ _ _ fun options args => andThen _ _ .get fun s => ?_
  dsimp only
  repeat' first | infer_instance | split

/-- Whatever a builtin command does with some arguments goes onward. -/
theorem of_action? {name : Text} {args : List Text} {action : Run Unit}
    (h : Builtin.action? name args = some action) : IsOnward action := by
  unfold Builtin.action? at h
  split at h <;> first | (obtain rfl := Option.some.inj h; infer_instance) | cases h

end IsOnward
end Run
end Shell
end CliffordT
