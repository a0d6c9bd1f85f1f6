import CliffordT.Proofs.Batch

/-!
# What classification depends on

Classification works with the oracle, the recorder, the register and its own counters.  It adds to
the queue without looking at it, and what lies behind the queue does not concern it.

* `Engine.Output`, `Engine.rebase` : the part of an engine that classification leaves alone, and an
  engine with another one;
* `Engine.classify_rebase`, `Engine.classifyAll_rebase` : classification does the same with any
  output, and so before any sink (`Engine.classifyAll_withSink`);
* `Engine.SameIntake.classifyAll` : engines with the same intake classify a batch with the same
  result, find the same words and ask the same questions.
-/

namespace CliffordT

namespace Engine

open Outcome (forEach)

variable {ω σ σ' ρ : Type}

/-- What an engine sends, has sent and has to send. -/
structure Output (σ : Type) where
  sink : Option σ
  /-- The words that wait. -/
  queue : List Word
  emitted : Tally
  forwarded : Nat

/-- The output of an engine. -/
def output (e : Engine ω σ ρ) : Output σ := ⟨e.sink, e.pending, e.stats.emitted, e.stats.forwarded⟩

/-- The engine with another output, whose words wait before its own. -/
def rebase (out : Output σ') (e : Engine ω σ ρ) : Engine ω σ' ρ where
  oracle := e.oracle
  sink := out.sink
  recorder := e.recorder
  pending := out.queue ++ e.pending
  live := e.live
  stats := { e.stats with emitted := out.emitted, forwarded := out.forwarded }

theorem SameIntake.rebase_output {e e' : Engine ω σ ρ} (h : SameIntake e e') :
    rebase e'.output { e with pending := [] } = e' := by
  obtain ⟨oracle, sink, recorder, pending, live, stats⟩ := e
  obtain ⟨oracle', sink', recorder', pending', live', stats'⟩ := e'
  obtain ⟨active, width, rotations, measurements, emitted, forwarded⟩ := stats
  obtain ⟨active', width', rotations', measurements', emitted', forwarded'⟩ := stats'
  obtain ⟨rfl, rfl, rfl, rfl, rfl, rfl, rfl⟩ := h
  simp [rebase, output]

/-! ### One command -/

variable (out : Output σ') (e : Engine ω σ ρ)

theorem keepsRegister_rebase : KeepsRegister (rebase (ω := ω) (σ := σ) (ρ := ρ) out) :=
  ⟨fun _ => rfl, fun _ => rfl, fun _ _ _ => rfl⟩

theorem measure_rebase [Recorder ρ] (qs : List Qubit) :
    (rebase out e).measure qs = (e.measure qs).map (rebase out) := by
  have hrecorder : (rebase out e).recorder = e.recorder := rfl
  unfold measure
  dsimp only
  rw [hrecorder]
  cases e.recorder <;> rfl

theorem synthesize_rebase [Oracle ω] (axis : Axis) (angle : Binary64) :
    (rebase out e).synthesize axis angle = (e.synthesize axis angle).map (rebase out) := by
  have horacle : (rebase out e).oracle = e.oracle := rfl
  unfold synthesize
  dsimp only
  rw [horacle]
  cases (Oracle.synthesize e.oracle axis angle).result with
  | error err => rfl
  | ok raw =>
    dsimp only
    cases Word.ofOperatorText raw with
    | error cause => rfl
    | ok word =>
      -- the word goes to the end of the queue, wherever that is
      simp [Outcome.map, rebase]

section Classify

variable [Oracle ω] [Recorder ρ]

/-- Classification does the same with any output. -/
theorem classify_rebase (c : Command) :
    (rebase out e).classify c = (e.classify c).map (rebase out) :=
  classify_map (keepsRegister_rebase out) (fun _ => rfl) (fun e => synthesize_rebase out e)
    fun _ => measure_rebase out e c.targets

/-- Classification of a batch does the same with any output. -/
theorem classifyAll_rebase (cs : List Command) :
    forEach classify (rebase out e) cs = (forEach classify e cs).map (rebase out) :=
  Outcome.forEach_map_state (fun e c => classify_rebase out e c) e cs

theorem found_rebase (cs : List Command) : (rebase out e).found cs = e.found cs :=
  Outcome.collect_map_state (fun e c => classify_rebase out e c) (fun _ _ => rfl) e cs

theorem questions_rebase (cs : List Command) : (rebase out e).questions cs = e.questions cs :=
  Outcome.collect_map_state (fun e c => classify_rebase out e c) (fun _ _ => rfl) e cs

/-! ### Another sink -/

omit [Oracle ω] [Recorder ρ] in
/-- The engine before another sink, or none. -/
def withSink (s : Option σ') (e : Engine ω σ ρ) : Engine ω σ' ρ :=
  rebase ⟨s, [], e.stats.emitted, e.stats.forwarded⟩ e

/-- Classification does the same before any sink. -/
theorem classifyAll_withSink (s : Option σ') (e : Engine ω σ ρ) (cs : List Command) :
    forEach classify (e.withSink s) cs = (forEach classify e cs).map (withSink s) := by
  have houtput := sameOutput_classifyAll e cs
  rw [withSink, classifyAll_rebase]
  show (⟨_, _, _⟩ : Outcome (Engine ω σ' ρ)) = ⟨_, _, _⟩
  rw [withSink, houtput.forwarded, houtput.emitted]

/-! ### Engines with the same intake -/

omit [Oracle ω] [Recorder ρ] in
theorem sameIntake_rebase (out out' : Output σ') : SameIntake (rebase out e) (rebase out' e) :=
  ⟨rfl, rfl, rfl, rfl, rfl, rfl, rfl⟩

variable {e} {e' : Engine ω σ ρ}

/-- Engines with the same intake classify a batch with the same result and the same effect on the
intake.  They find the same words for it and ask the same questions. -/
theorem SameIntake.classifyAll (h : SameIntake e e') (cs : List Command) :
    (forEach classify e' cs).error? = (forEach classify e cs).error? ∧
      SameIntake (forEach classify e cs).state (forEach classify e' cs).state ∧
      e'.found cs = e.found cs ∧ e'.questions cs = e.questions cs := by
  rw [← h.rebase_output, ← (SameIntake.refl e).rebase_output]
  simp only [classifyAll_rebase, found_rebase, questions_rebase]
  exact ⟨rfl, sameIntake_rebase _ _ _, rfl, rfl⟩

end Classify

end Engine

end CliffordT
