import CliffordT.Proofs.Intake
import CliffordT.Proofs.OracleCalls

/-!
# What a sink cannot influence

A sink sees commands and may refuse them, so engines before different sinks drift apart: one keeps
words in its queue, another one has sent or dropped them.  Nothing of this reaches classification.

* `Intake` : the part of an engine that classification works with; `Intake.engine` is an engine with
  this part and nothing else;
* `Engine.intake_process` : a call makes of the intake what classification makes of it alone;
* `Engine.intake_afterUses`, `Engine.visits_eq` : so after any uses the intake, and the commands
  that classification has come to, depend on the batches alone;
* `Engine.intake_eq_of_batches_eq` : two engines that get the same batches agree in all this,
  whatever their sinks.
-/

namespace CliffordT

open Outcome (forEach)

variable {ω σ σ' ρ : Type}

/-- What an engine keeps apart from what it sends, has sent and has to send. -/
structure Intake (ω ρ : Type) where
  oracle : ω
  recorder : Option ρ
  /-- The qubits that are claimed. -/
  live : List Qubit
  activeQubits : Nat
  maxWidth : Nat
  rotations : Nat
  measurements : Nat

namespace Engine

/-- The intake of an engine. -/
def intake (e : Engine ω σ ρ) : Intake ω ρ where
  oracle := e.oracle
  recorder := e.recorder
  live := e.live
  activeQubits := e.stats.activeQubits
  maxWidth := e.stats.maxWidth
  rotations := e.stats.rotations
  measurements := e.stats.measurements

end Engine

namespace Intake

/-- An engine with this intake that has sent nothing and has nothing to send it to. -/
def engine (i : Intake ω ρ) : Engine ω Empty ρ where
  oracle := i.oracle
  recorder := i.recorder
  live := i.live
  stats :=
    { activeQubits := i.activeQubits
      maxWidth := i.maxWidth
      rotations := i.rotations
      measurements := i.measurements }

variable [Oracle ω] [Recorder ρ]

/-- The intake after classification of a batch. -/
def after (i : Intake ω ρ) (batch : List Command) : Intake ω ρ :=
  (forEach Engine.classify i.engine batch).state.intake

/-- The commands of some batches that classification comes to. -/
def reached (i : Intake ω ρ) : List (List Command) → List Command
  | [] => []
  | batch :: batches =>
    (i.engine.visited batch).map Visit.command ++ (i.after batch).reached batches

end Intake

namespace Engine

/-! ### One batch -/

theorem rebase_output_intake (e : Engine ω σ ρ) : rebase e.output e.intake.engine = e := by
  obtain ⟨oracle, sink, recorder, pending, live, stats⟩ := e
  simp [rebase, output, intake, Intake.engine]

variable [Oracle ω] [Recorder ρ] (e : Engine ω σ ρ)

theorem classifyAll_intake (cs : List Command) :
    forEach classify e cs = (forEach classify e.intake.engine cs).map (rebase e.output) := by
  rw [← classifyAll_rebase, rebase_output_intake]

theorem visited_intake (cs : List Command) :
    (e.visited cs).map Visit.command = (e.intake.engine.visited cs).map Visit.command := by
  have hcommands : ∀ {σ : Type} (e : Engine ω σ ρ), (e.visited cs).map Visit.command =
      Outcome.collect classify (fun _ c => [c]) e cs :=
    fun e => Outcome.map_collect Visit.command e cs
  -- the commands are read off the run alone, which is the same with the output put back
  have hrebase : Outcome.collect classify (fun _ c => [c]) (rebase e.output e.intake.engine) cs =
      Outcome.collect classify (fun _ c => [c]) e.intake.engine cs :=
    Outcome.collect_map_state (fun e' c => classify_rebase e.output e' c) (fun _ _ => rfl) _ cs
  rw [rebase_output_intake] at hrebase
  rw [hcommands, hcommands, hrebase]

variable [Sink σ] [Sink σ']

/-- A call makes of the intake what classification makes of it, whatever the sink. -/
theorem intake_process (batch : List Command) :
    (e.process batch).state.intake = e.intake.after batch := by
  have hsame := sameIntake_process e batch
  have hfirst : (forEach classify e batch).state.intake = e.intake.after batch := by
    rw [classifyAll_intake]
    rfl
  rw [← hfirst, intake, intake, hsame.oracle, hsame.recorder, hsame.live, hsame.activeQubits,
    hsame.maxWidth, hsame.rotations, hsame.measurements]

/-! ### Uses -/

/-- After any uses the intake is what classification of the batches has made of it. -/
theorem intake_afterUses (us : List (Use σ)) :
    (e.afterUses us).intake = (Use.batches us).foldl Intake.after e.intake := by
  induction us generalizing e with
  | nil => rfl
  | cons u us ih =>
    cases u with
    | process batch =>
      rw [afterUses_cons, ih, use, intake_process]
      rfl
    | setSink s => exact ih (e.setSink s)

/-- During any uses classification comes to the commands that it would come to without sinks. -/
theorem visits_eq (us : List (Use σ)) :
    (e.visits us).map Visit.command = e.intake.reached (Use.batches us) := by
  induction us generalizing e with
  | nil => rfl
  | cons u us ih =>
    cases u with
    | process batch =>
      have hlater := ih (e.process batch).state
      rw [intake_process] at hlater
      rw [visits, history_process, List.map_append, visited_intake]
      exact congrArg (_ ++ ·) hlater
    | setSink s => exact ih (e.setSink s)

variable {us : List (Use σ)} {us' : List (Use σ')}

omit e in
theorem dialogue_congr (o : ω) (recorder : Option ρ)
    (h : Use.batches us = Use.batches us') :
    dialogue o recorder us = dialogue o recorder us' := by
  have hintake := intake_afterUses
    ({ oracle := { oracle := o }, recorder } : Engine (Transcript ω) σ ρ) us
  have hintake' := intake_afterUses
    ({ oracle := { oracle := o }, recorder } : Engine (Transcript ω) σ' ρ) us'
  rw [h] at hintake
  exact congrArg (fun i => i.oracle.exchanges) (hintake.trans hintake'.symm)

omit e in
/-- **The sinks do not matter to classification.**  Two fresh engines with the same oracle and the
same recorder get the same batches, before any sinks or none, and are used on whatever the results.
Then they have the same intake: the claimed qubits, the counters apart from those of what was sent,
the recorder and the oracle, which was asked the same and has answered the same.  The next batch has
the same fault of classification, if any, and then both calls end with it. -/
theorem intake_eq_of_batches_eq (o : ω) (recorder : Option ρ)
    (h : Use.batches us = Use.batches us') :
    let start : Engine ω σ ρ := { oracle := o, recorder }
    let start' : Engine ω σ' ρ := { oracle := o, recorder }
    let e := start.afterUses us
    let e' := start'.afterUses us'
    e.intake = e'.intake ∧
      (start.visits us).map Visit.command = (start'.visits us').map Visit.command ∧
      dialogue o recorder us = dialogue o recorder us' ∧
      ∀ batch, (forEach classify e batch).error? = (forEach classify e' batch).error? ∧
        ∀ err, (forEach classify e batch).error? = some err →
          (e.process batch).error? = some err ∧ (e'.process batch).error? = some err := by
  intro start start' e e'
  have hstart : start.intake = start'.intake := rfl
  have hintake : e.intake = e'.intake := by
    rw [intake_afterUses, intake_afterUses, h, hstart]
  have hfault : ∀ batch,
      (forEach classify e batch).error? = (forEach classify e' batch).error? := by
    intro batch
    rw [classifyAll_intake e, classifyAll_intake e', hintake]
    rfl
  refine ⟨hintake, ?_, dialogue_congr o recorder h, fun batch => ⟨hfault batch, ?_⟩⟩
  · rw [visits_eq, visits_eq, h, hstart]
  · intro err herr
    have herr' := (hfault batch).symm.trans herr
    rw [process_of_error herr, process_of_error herr']
    exact ⟨herr, herr'⟩

omit e [Oracle ω] [Recorder ρ] [Sink σ] [Sink σ'] in
/-- An engine without a sink, and one whose sink refuses the second command: a word waits in the
second one, and both stop at the same release. -/
theorem intake_eq_of_batches_eq_refusing_sink :
    let o : FunctionOracle := ⟨fun _ _ => .ok "TH"⟩
    let start : Engine FunctionOracle CommandLog OutcomeLog := { oracle := o }
    let start' : Engine FunctionOracle ScriptedSink OutcomeLog := { oracle := o }
    let half : Binary64 := ⟨0x3fe0000000000000⟩
    let batch : List Command := [.allocate ⟨0⟩, .rx half ⟨0⟩, .rz half ⟨0⟩]
    let us : List (Use CommandLog) := [.process batch]
    let us' : List (Use ScriptedSink) :=
      [.setSink { refusals := [(1, .sink "full")] }, .process batch]
    let e := start.afterUses us
    let e' := start'.afterUses us'
    Use.batches us = Use.batches us' ∧ e.pending = [] ∧ e'.pending = [⟨[.h, .t]⟩] ∧
      e.stats.forwarded = 0 ∧ e'.stats.forwarded = 1 ∧ e.intake = e'.intake ∧
      (e.process [.deallocate ⟨7⟩]).error? = some (.counterUnderflow ⟨7⟩) ∧
      (e'.process [.deallocate ⟨7⟩]).error? = some (.counterUnderflow ⟨7⟩) := by
  intro o start start' half batch us us' e e'
  have hbatches : Use.batches us = Use.batches us' := rfl
  obtain ⟨hintake, -, -, hfault⟩ := intake_eq_of_batches_eq o (none : Option OutcomeLog) hbatches
  have hrelease : (forEach classify e [.deallocate ⟨7⟩]).error? = some (.counterUnderflow ⟨7⟩) := by
    decide
  exact ⟨hbatches, by decide, by decide, by decide, by decide, hintake,
    (hfault [.deallocate ⟨7⟩]).2 _ hrelease⟩

end Engine

end CliffordT
