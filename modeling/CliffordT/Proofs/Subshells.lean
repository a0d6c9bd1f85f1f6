import CliffordT.Proofs.ShellEvaluation

/-!
# Subshells

A script that runs in a process of its own cannot change the shell that waits for it, nor jump out
of it.  Of what programs, command substitutions and pipelines do, the shell notes no more than how
they ended and where programs are.

* `State.Alike` : the same process, up to what it notes,
* `Run.IsApart` : an action that leaves the process alike,
* `Run.exists_inSubshell` : no jump leaves a subshell, and of its process only the status stays,
* `Run.IsApart.outputOf`, `Run.IsApart.pipe`, `Run.IsApart.runProgram` : command substitutions,
  pipelines and programs leave the process alike,
* `Run.external_keeps` : what a command that is a program leaves as it is.
-/

namespace CliffordT

namespace Shell

/-- The same process on a machine that may have changed. -/
def State.SameProcess (s s' : State) : Prop := s'.toProcess = s.toProcess

instance : IsPreorder State State.SameProcess where
  refl _ := rfl
  trans _ _ _ hab hbc := Eq.trans hbc hab

/-- The same process, up to what it notes of its last commands and of the places of programs. -/
structure State.Alike (s s' : State) : Prop where
  notes : s'.toProcess = { s.toProcess with
    status := s'.status, outputStatus := s'.outputStatus, tracked := s'.tracked }

instance : IsPreorder State State.Alike where
  refl _ := ⟨rfl⟩
  trans := by
    rintro a b c ⟨hb⟩ ⟨hc⟩
    rw [hb] at hc
    exact ⟨hc⟩

theorem State.SameProcess.alike {s s' : State} (h : s.SameProcess s') : s.Alike s' := by
  constructor
  rw [h]

namespace Run

/-! ### The machine -/

/-- An action on the machine, which leaves the process as it is. -/
abbrev SparesProcess {α : Type} (action : Run α) : Prop := Moves State.SameProcess action

namespace SparesProcess

open Moves (andThen)

instance addStream (stream : Stream) : SparesProcess (addStream stream) := ⟨fun _ => rfl⟩

instance replaceStream (descriptor : Nat) (stream : Stream) :
    SparesProcess (replaceStream descriptor stream) := by
  unfold Run.replaceStream
  refine andThen _ _ inferInstance fun n => ?_
  cases n with
  | none => infer_instance
  | some n => exact ⟨fun _ => rfl⟩

instance putFile (place : Place) (e : Entry) :
    SparesProcess (modify fun s => { s with files := s.files.put place e } : Run Unit) :=
  ⟨fun _ => rfl⟩

instance setFiles (files : Files) :
    SparesProcess (modify fun s => { s with files } : Run Unit) := ⟨fun _ => rfl⟩

instance write (descriptor : Nat) (t : Text) : SparesProcess (write descriptor t) := by
  unfold Run.write
  refine andThen _ _ inferInstance fun stream => ?_
  split <;> infer_instance

instance consume (descriptor n : Nat) : SparesProcess (consume descriptor n) := by
  unfold Run.consume
  refine andThen _ _ inferInstance fun stream => ?_
  split <;> infer_instance

instance readAll (descriptor : Nat) : SparesProcess (readAll descriptor) := by
  unfold Run.readAll
  infer_instance

instance complain (t : Text) : SparesProcess (complain t) := by
  unfold Run.complain
  infer_instance

end SparesProcess

/-! ### What a process notes -/

/-- An action that leaves the process alike. -/
abbrev IsApart {α : Type} (action : Run α) : Prop := Moves State.Alike action

namespace IsApart

open Moves (andThen)

instance of_sparesProcess {α : Type} (action : Run α) [h : SparesProcess action] :
    IsApart action := ⟨fun s => (h.moves s).alike⟩

instance finish (status : Nat) : IsApart (finish status) := ⟨fun _ => ⟨rfl⟩⟩

instance environment : IsApart environment := by
  unfold Run.environment
  infer_instance

instance programIn? (directories : List Text) (name : Text) :
    IsApart (Builtin.programIn? directories name) := by
  unfold Builtin.programIn?
  infer_instance

instance isNamed (directories : List Text) (name : Text) :
    IsApart (Builtin.isNamed directories name) := by
  unfold Builtin.isNamed
  infer_instance

instance programPath? (name : Text) : IsApart (Builtin.programPath? name) := by
  unfold Builtin.programPath?
  refine andThen _ _ inferInstance fun directories => ?_
  have : ∀ name, IsApart (modifyProcess fun p => { p with tracked := p.tracked ++ [name] }) :=
    fun _ => ⟨fun _ => ⟨rfl⟩⟩
  split <;> infer_instance

instance findProgram (name : Text) : IsApart (findProgram name) := by
  unfold Run.findProgram
  extract_lets behind
  have : ∀ path, IsApart (behind path) := by
    intro path
    cases path with
    | none => infer_instance
    | some path =>
      refine andThen _ _ (.locate path) fun found => ?_
      split <;> infer_instance
  infer_instance

instance rememberPath (script : Script) : IsApart (rememberPath script) := by
  unfold Run.rememberPath
  split <;> infer_instance

end IsApart

/-! ### Ends of processes -/

/-- An action that does not end in a jump. -/
class Returns {α : Type} (action : Run α) : Prop where
  exists_ok : ∀ s : State, ∃ (a : α) (s' : State), action s = (.ok a, s')

namespace Returns

variable {α β : Type}

instance pure (a : α) : Returns (pure a : Run α) := ⟨fun s => ⟨a, s, rfl⟩⟩

instance get : Returns (get : Run State) := ⟨fun s => ⟨s, s, rfl⟩⟩

instance modify (f : State → State) : Returns (modify f : Run Unit) := ⟨fun s => ⟨(), f s, rfl⟩⟩

instance modifyProcess (f : Process → Process) : Returns (modifyProcess f) := modify _

instance finish (status : Nat) : Returns (finish status) := modifyProcess _

instance bind (x : Run α) (f : α → Run β) [hx : Returns x] [hf : ∀ a, Returns (f a)] :
    Returns (x >>= f) := by
  constructor
  intro s
  obtain ⟨a, s', ha⟩ := hx.exists_ok s
  rw [bind_apply_of_ok ha]
  exact (hf a).exists_ok s'

theorem andThen (x : Run α) (f : α → Run β) (hx : Returns x) (hf : ∀ a, Returns (f a)) :
    Returns (x >>= f) := bind x f

instance ite (c : Prop) [Decidable c] (x y : Run α) [Returns x] [Returns y] :
    Returns (if c then x else y) := by
  split <;> infer_instance

/-- Whatever an action jumps to, the jump is caught. -/
instance caught (body : Run Unit) : Returns (caught body) := by
  constructor
  intro s
  unfold Run.caught
  cases body s with
  | mk r s' => cases r <;> exact ⟨_, _, rfl⟩

instance streamNumber? (descriptor : Nat) : Returns (streamNumber? descriptor) := by
  unfold Run.streamNumber?
  infer_instance

instance stream? (descriptor : Nat) : Returns (stream? descriptor) := by
  unfold Run.stream?
  infer_instance

instance contentAt (place : Place) : Returns (contentAt place) :=
  ⟨fun s => by obtain ⟨content, h⟩ := exists_contentAt place s; exact ⟨content, s, h⟩⟩

instance replaceStream (descriptor : Nat) (stream : Stream) :
    Returns (replaceStream descriptor stream) := by
  unfold Run.replaceStream
  refine andThen _ _ inferInstance fun n => ?_
  cases n <;> infer_instance

instance write (descriptor : Nat) (t : Text) : Returns (write descriptor t) := by
  unfold Run.write
  refine andThen _ _ inferInstance fun stream => ?_
  split <;> infer_instance

/-- A process comes to an end, whatever runs in it. -/
instance toEnd (n : Nat) (body : Run Unit) : Returns (toEnd (n + 1) body) := by
  unfold Run.toEnd
  refine andThen _ _ inferInstance fun jump => ?_
  split
  · infer_instance
  · refine andThen _ _ get fun s => ?_
    split
    · refine andThen _ _ inferInstance fun u => andThen _ _ inferInstance fun jump => ?_
      split <;> infer_instance
    · infer_instance

/-- No jump leaves a subshell. -/
instance inSubshell (n : Nat) (body : Run Unit) : Returns (inSubshell (n + 2) body) := by
  unfold Run.inSubshell
  refine andThen _ _ get fun s => andThen _ _ inferInstance fun u => ?_
  refine andThen _ _ inferInstance fun killer => andThen _ _ get fun s' => ?_
  refine andThen _ _ inferInstance fun u => ?_
  split <;> infer_instance

end Returns

theorem exists_write (descriptor : Nat) (t : Text) (s : State) :
    ∃ (isWritten : Bool) (s' : State), write descriptor t s = (.ok isWritten, s') ∧
      s'.toProcess = s.toProcess := by
  obtain ⟨isWritten, s', hwrite⟩ := (Returns.write descriptor t).exists_ok s
  have hprocess := (SparesProcess.write descriptor t).moves s
  rw [hwrite] at hprocess
  exact ⟨isWritten, s', hwrite, hprocess⟩

/-- Of a process that has come to an end, only its status and what it did to the machine stay. -/
theorem exists_inSubshell (n : Nat) (body : Run Unit) (s : State) :
    ∃ (status : Nat) (s' : State), inSubshell (n + 2) body s = (.ok (), s') ∧
      s'.toProcess = { s.toProcess with status } := by
  unfold inSubshell
  rw [bind_apply_of_ok (get_apply s), bind_apply, modifyProcess_apply]
  obtain ⟨killer, s', hend⟩ := (Returns.toEnd n body).exists_ok { s with
    traps := s.traps.filter (·.2.isEmpty), isMain := false, background := [] }
  dsimp only
  rw [bind_apply_of_ok hend, bind_apply_of_ok (get_apply s'), bind_apply, modifyProcess_apply]
  cases killer.bind Signal.description? with
  | none => exact ⟨_, _, rfl, rfl⟩
  | some t =>
    -- The complaint about the signal comes when the process is the old one again.
    obtain ⟨isWritten, s'', hwrite, hprocess⟩ := exists_write 2 (t.toList ++ ['\n'])
      { s' with toProcess := { s.toProcess with
        status := (killer.map (128 + ·)).getD (s'.status % 256) } }
    exact ⟨_, s'', bind_apply_of_ok hwrite _, hprocess⟩

/-! ### What runs apart -/

namespace IsApart

open Moves (andThen)

instance inSubshell (n : Nat) (body : Run Unit) : IsApart (inSubshell (n + 2) body) := by
  constructor
  intro s
  obtain ⟨status, s', hrun, hprocess⟩ := exists_inSubshell n body s
  rw [hrun]
  constructor
  rw [hprocess]

instance outputOf (n : Nat) (body : Option Script) : IsApart (outputOf (n + 3) body) := by
  unfold Run.outputOf
  have : ∀ status : Nat, IsApart (modifyProcess fun p =>
      { p with outputStatus := some p.status, status }) := fun _ => ⟨fun _ => ⟨rfl⟩⟩
  cases body <;> infer_instance

/-- The commands of a pipeline, by induction on them: each runs in a subshell. -/
theorem pipe (n : Nat) (isTested : Bool) (status : Nat) (input : Option Nat)
    (commands : List Script) :
    IsApart (pipe (n + commands.length + 2) isTested status input commands) := by
  induction commands generalizing input with
  | nil =>
    unfold Run.pipe
    infer_instance
  | cons command rest ih =>
    rw [List.length_cons, ← Nat.add_assoc, Nat.add_right_comm _ 1 2]
    unfold Run.pipe
    refine andThen _ _ inferInstance fun u => andThen _ _ inferInstance fun u => ?_
    dsimp only
    infer_instance

instance runWithEnvironment (n : Nat) (args : List Text) :
    IsApart (runWithEnvironment (n + 3) args) := by
  unfold Run.runWithEnvironment
  dsimp only
  split <;> infer_instance

instance runWithInput (n : Nat) (args : List Text) : IsApart (runWithInput (n + 3) args) := by
  unfold Run.runWithInput
  split <;> infer_instance

/-- A program changes nothing of the shell that runs it, be it another shell. -/
instance runProgram (n : Nat) (program : String) (name : Text) (args : List Text) :
    IsApart (runProgram (n + 4) program name args) := by
  unfold Run.runProgram
  split
  · infer_instance
  · split
    · infer_instance
    · split
      · infer_instance
      · split
        · infer_instance
        · refine andThen _ _ .get fun s => andThen _ _ inferInstance fun input => ?_
          refine andThen _ _ inferInstance fun size => andThen _ _ inferInstance fun out => ?_
          refine andThen _ _ inferInstance fun outer => ?_
          extract_lets answer say change
          have hsay : ∀ u, IsApart (say u) := fun u => inferInstance
          have hchange : ∀ u, IsApart (change u) := by
            intro u
            dsimp only [change]
            split
            · exact andThen _ _ inferInstance hsay
            · exact hsay ()
          split
          · exact andThen _ _ inferInstance fun t => hchange ()
          · exact hchange ()

instance external (n : Nat) (name : Text) (args : List Text) :
    IsApart (external (n + 5) name args) := by
  unfold Run.external
  refine andThen _ _ inferInstance fun found => ?_
  split <;> infer_instance

end IsApart

/-- A command that is a program leaves the variables, the arguments, the functions, the descriptors
and the working directory of the shell as they are. -/
theorem external_keeps (n : Nat) (name : Text) (args : List Text) (s : State) :
    (external (n + 5) name args s).2.settings = s.settings ∧
      (external (n + 5) name args s).2.args = s.args ∧
      (external (n + 5) name args s).2.functions = s.functions ∧
      (external (n + 5) name args s).2.descriptors = s.descriptors ∧
      (external (n + 5) name args s).2.directory = s.directory := by
  obtain ⟨h⟩ := (IsApart.external n name args).moves s
  rw [h]
  exact ⟨rfl, rfl, rfl, rfl, rfl⟩

end Run
end Shell
end CliffordT
